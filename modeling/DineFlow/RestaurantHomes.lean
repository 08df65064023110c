import DineFlow.Effects
import DineFlow.ServiceRules

namespace DineFlow
open Atomic Relational
set_option autoImplicit true

/-- Every order is of the restaurant of its table, and so are its dishes. -/
def RestaurantConsistent (db : Db) : Prop :=
  ∀ o ∈ db.orders,
    (∃ t ∈ db.tables, o.tableId = some t.id ∧ t.restaurantId = o.restaurantId) ∧
    ∀ l ∈ db.orderItems, l.orderId = o.id →
      ∃ r ∈ db.menuItems, r.id = l.menuItemId ∧ r.restaurantId = o.restaurantId

/-- A restaurant for every dish and every table. -/
structure Homes where
  item : Uuid → Uuid
  table : Uuid → Uuid

def Homes.Serves (H : Homes) (restaurant : Uuid) (menuItemId : String) : Prop :=
  ∀ u, Uuid.parse menuItemId = some u → H.item u = restaurant

/-- The key is that of a cart which the request can work on. -/
def Request.MayUse (pf : Platform) (r : Request) (key : String) : Prop :=
  (∃ u, r.subject pf = some u ∧ key = "user:cart:" ++ u.text) ∨
    ∃ g, given r.guestId = some g ∧ key = "guest:cart:" ++ g

/-- The request keeps to one restaurant: a dish goes into a cart that is for its own restaurant, and
an order is placed at a table of the restaurant whose dishes it is for. -/
def Homes.Fits (H : Homes) (cart : String → Uuid) (pf : Platform) (r : Request) : Operation → Prop
  | .createMenuItem input => ∀ u, Uuid.parse input.restaurantId = some u → H.item (r.env.uuid 0) = u
  | .addToCart input => ∀ key, r.MayUse pf key → H.Serves (cart key) input.menuItemId
  | .placeOrder input => ∀ t, Uuid.parse input.tableId = some t →
      (∀ key, r.MayUse pf key → cart key = H.table t) ∧
        ∀ i ∈ input.items.getD [], H.Serves (H.table t) i.menuItemId
  | _ => True

theorem Homes.Fits.congr {H : Homes} (h : H.Fits cart pf r op)
    (hcart : ∀ key, r.MayUse pf key → cart key = cart' key) : H.Fits cart' pf r op := by
  cases op
  case addToCart =>
    intro key hkey
    rw [← hcart key hkey]
    exact h key hkey
  case placeOrder =>
    intro t ht
    refine ⟨fun key hkey => ?_, (h t ht).2⟩
    rw [← hcart key hkey]
    exact (h t ht).1 key hkey
  all_goals exact h

/-- The restaurants of dishes and tables are those of their rows. -/
structure Homes.Covers (H : Homes) (db : Db) : Prop where
  items : ∀ r ∈ db.menuItems, H.item r.id = r.restaurantId
  tables : ∀ t ∈ db.tables, H.table t.id = t.restaurantId

/-- What of an order and its lines is at home. -/
structure Homes.Settles (H : Homes) (db : Db) : Prop where
  orders : ∀ o ∈ db.orders, ∃ k, o.tableId = some k ∧ H.table k = o.restaurantId
  lines : ∀ l ∈ db.orderItems, ∀ o ∈ db.orders, o.id = l.orderId →
    H.item l.menuItemId = o.restaurantId

theorem Homes.Settles.consistent {db : Db} (h : Homes.Settles H db) (hc : H.Covers db) :
    RestaurantConsistent db := by
  intro o ho
  constructor
  · obtain ⟨k, hk, hhome⟩ := h.orders o ho
    obtain ⟨t, ht, rfl⟩ := db.valid.orderTable o ho k hk
    exact ⟨t, ht, hk, (hc.tables t ht).symm.trans hhome⟩
  · intro l hl hlo
    obtain ⟨r, hr, hid⟩ := db.valid.lineItem l hl l.menuItemId rfl
    have hhome := h.lines l hl o ho hlo.symm
    rw [← hid] at hhome
    exact ⟨r, hr, hid, (hc.items r hr).symm.trans hhome⟩

/-- Everything stays at home, and orders stay with their restaurants. -/
structure HomesMove (H : Homes) (w w' : World) : Prop where
  covers : H.Covers w.db → H.Covers w'.db
  settles : H.Settles w.db → H.Settles w'.db
  stay : ∀ o ∈ w.db.orders, ∃ o' ∈ w'.db.orders, o'.id = o.id ∧ o'.restaurantId = o.restaurantId

theorem HomesMove.of_orders (horders : w'.db.orders = w.db.orders)
    (hlines : w'.db.orderItems = w.db.orderItems) (hcovers : Homes.Covers H w.db → H.Covers w'.db) :
    HomesMove H w w' := by
  refine ⟨hcovers, fun h => ⟨?_, ?_⟩, ?_⟩
  · rw [horders]
    exact h.orders
  · rw [hlines, horders]
    exact h.lines
  · rw [horders]
    exact fun o ho => ⟨o, ho, rfl, rfl⟩

theorem HomesMove.trans (h : HomesMove H w w') (h' : HomesMove H w' w'') : HomesMove H w w'' := by
  refine ⟨fun hw => h'.covers (h.covers hw), fun hw => h'.settles (h.settles hw), ?_⟩
  intro o ho
  obtain ⟨o', ho', hid, hr⟩ := h.stay o ho
  obtain ⟨o'', ho'', hid', hr'⟩ := h'.stay o' ho'
  exact ⟨o'', ho'', hid'.trans hid, hr'.trans hr⟩

theorem HomesMove.of_status (h : StatusStep w w') : HomesMove H w w' := by
  refine ⟨fun hw => ?_, fun hs => ⟨?_, ?_⟩, ?_⟩
  · cases h <;> exact ⟨hw.items, hw.tables⟩
  · intro o ho
    obtain ⟨o', ho', he⟩ :=
      h.source (g := fun o : OrderRow => (o.tableId, o.restaurantId)) (fun _ _ => rfl) o ho
    obtain ⟨htable, hr⟩ := Prod.mk.inj he
    rw [htable, hr]
    exact hs.orders o' ho'
  · intro l hl o ho hlo
    obtain ⟨o', ho', he⟩ :=
      h.source (g := fun o : OrderRow => (o.id, o.restaurantId)) (fun _ _ => rfl) o ho
    obtain ⟨hid, hr⟩ := Prod.mk.inj he
    have hl' : l ∈ w.db.orderItems := by cases h <;> exact hl
    rw [hr]
    exact hs.lines l hl' o' ho' (hid ▸ hlo)
  · intro o ho
    obtain ⟨o', ho', he⟩ :=
      h.stay (g := fun o : OrderRow => (o.id, o.restaurantId)) (fun _ _ => rfl) o ho
    exact ⟨o', ho', Prod.mk.inj he⟩

theorem HomesMove.of_db (hdb : w'.db = w.db) : HomesMove H w w' :=
  .of_orders (by rw [hdb]) (by rw [hdb]) fun hw => by rwa [hdb]

/-- A line of one of these carts is for a dish of the restaurant that the cart is for. -/
def Homes.InCart (H : Homes) (cart : String → Uuid) (own : String → Prop) (key : String)
    (e : EffectiveItem) : Prop :=
  own key → H.Serves (cart key) e.menuItemId

/-- Everything stays at home, the lines of one's own carts as well. -/
structure OwnMove (H : Homes) (cart : String → Uuid) (own : String → Prop) (w w' : World) : Prop
    extends HomesMove H w w' where
  carts : CartsSatisfy (H.InCart cart own) w.redis → CartsSatisfy (H.InCart cart own) w'.redis

/-- What a request finds: dishes and tables at home, and so the lines of its carts. -/
structure Homes.Holds (H : Homes) (cart : String → Uuid) (own : String → Prop) (w : World) :
    Prop where
  covers : H.Covers w.db
  settles : H.Settles w.db
  carts : CartsSatisfy (H.InCart cart own) w.redis

theorem homesRely (H : Homes) (cart : String → Uuid) (own : String → Prop) :
    CartRely (H.InCart cart own) (H.Holds cart own) (OwnMove H cart own) where
  refl := fun _ => ⟨.of_db rfl, id⟩
  trans := fun h h' => ⟨h.toHomesMove.trans h'.toHomesMove, fun hw => h'.carts (h.carts hw)⟩
  keeps := fun _ _ h hw => ⟨h.covers hw.covers, h.settles hw.settles, h.carts hw.carts⟩
  carts := fun _ hw => hw.carts
  redis := fun _ _ h => ⟨.of_db rfl, h⟩
  emit := fun _ _ => ⟨.of_db rfl, id⟩
  status := fun w w' h => ⟨.of_status h, by cases h <;> exact id⟩
  desk := by
    intro w w' h
    cases h with
    | @intro db users bookings h =>
      have hitems : db.menuItems = w.db.menuItems := by rw [h]
      have htables : db.tables = w.db.tables := by rw [h]
      refine ⟨.of_orders (by rw [h]) (by rw [h]) fun hw => ⟨?_, ?_⟩, id⟩
      · exact hitems ▸ hw.items
      · exact htables ▸ hw.tables

theorem HomesMove.of_menu (hop : H.Fits cart pf r op) (h : Operation.MenuWrites r.env w.db db op) :
    HomesMove H w { w with db := db } := by
  obtain ⟨items, favorites, ht⟩ := h.tables
  refine .of_orders (by rw [ht]) (by rw [ht]) fun hw => ⟨?_, ?_⟩
  · intro row hrow
    cases h.rows row hrow with
    | old hold => exact hw.items row hold
    | new input he hnew hr =>
      subst he
      rw [hnew]
      exact hop _ (parseUuid_ok_iff.1 hr)
    | @patched old p hold he hprice =>
      rw [he]
      exact hw.items old hold
  · have htables : db.tables = w.db.tables := by rw [ht]
    exact htables ▸ hw.tables

theorem HomesMove.of_order (h : insertOrder env input table userId guestId amounts w.db = .ok r)
    (htable : H.table table.id = table.restaurantId) : HomesMove H w { w with db := r.2 } := by
  obtain ⟨u, _, hi, hrow⟩ := insertOrder_row h
  have haccepted := (Db.insertOrder_ok_iff.1 hi).1
  have ht := insertOrder_tables h
  have horders : r.2.orders = w.db.orders ++ [r.1] := by rw [ht]
  have hlines : r.2.orderItems = w.db.orderItems := by rw [ht]
  have hitems : r.2.menuItems = w.db.menuItems := by rw [ht]
  have htables : r.2.tables = w.db.tables := by rw [ht]
  refine ⟨fun hw => ⟨hitems ▸ hw.items, htables ▸ hw.tables⟩, fun hs => ⟨?_, ?_⟩, ?_⟩
  · intro o ho
    rw [horders] at ho
    rcases List.mem_append.1 ho with ho | ho
    · exact hs.orders o ho
    · rw [List.mem_singleton.1 ho, hrow]
      exact ⟨table.id, rfl, htable⟩
  · intro l hl o ho hlo
    rw [hlines] at hl
    rw [horders] at ho
    rcases List.mem_append.1 ho with ho | ho
    · exact hs.lines l hl o ho hlo
    · -- no line can refer to an order that is not there yet
      obtain ⟨o', ho', hid⟩ := w.db.valid.lineOrder l hl l.orderId rfl
      rw [List.mem_singleton.1 ho] at hlo
      rw [hrow] at hlo
      exact absurd (hid.trans hlo.symm) ((OrderRow.accepted_refs haccepted).1 o' ho')
  · intro o ho
    dsimp only
    rw [horders]
    exact ⟨o, List.mem_append_left _ ho, rfl, rfl⟩

/-- The order is stored, for this restaurant. -/
def OrderAt (restaurant : Uuid) (order : OrderRow) (w : World) : Prop :=
  ∃ o ∈ w.db.orders, o.id = order.id ∧ o.restaurantId = restaurant

theorem OrderAt.move (h : OrderAt restaurant order w) (hm : HomesMove H w w') :
    OrderAt restaurant order w' := by
  obtain ⟨o, ho, hid, hr⟩ := h
  obtain ⟨o', ho', hid', hr'⟩ := hm.stay o ho
  exact ⟨o', ho', hid'.trans hid, hr'.trans hr⟩

theorem HomesMove.of_line (h : insertLine env order.id i d w.db = .ok r)
    (horder : OrderAt restaurant order w) (hd : H.Serves restaurant d.menuItemId) :
    HomesMove H w { w with db := r.2 } := by
  obtain ⟨u, hu, hi⟩ := insertLine_row h
  have ht := (Db.insertOrderItem_ok_iff.1 hi).2
  have horders : r.2.orders = w.db.orders := by rw [ht]
  have hlines : r.2.orderItems = w.db.orderItems ++ [newLine env order.id i u d] := by rw [ht]
  have hitems : r.2.menuItems = w.db.menuItems := by rw [ht]
  have htables : r.2.tables = w.db.tables := by rw [ht]
  refine ⟨fun hw => ⟨hitems ▸ hw.items, htables ▸ hw.tables⟩, fun hs => ⟨?_, ?_⟩, ?_⟩
  · exact horders ▸ hs.orders
  · intro l hl o ho hlo
    rw [hlines] at hl
    rw [horders] at ho
    rcases List.mem_append.1 hl with hl | hl
    · exact hs.lines l hl o ho hlo
    · rw [List.mem_singleton.1 hl] at hlo ⊢
      obtain ⟨o', ho', hid', hr'⟩ := horder
      have hsame : o = o' := w.db.valid.orderIds.eq_of_mem ho ho' (hlo.trans hid'.symm)
      rw [hsame, hr']
      exact hd u (parseUuid_ok_iff.1 hu)
  · intro o ho
    dsimp only
    rw [horders]
    exact ⟨o, ho, rfl, rfl⟩

theorem Request.mayUse_of_key {r : Request} (hcaller : r.Passes pf caller)
    (h : cartKey (caller.bind Caller.id) r.guestId = some key) : r.MayUse pf key := by
  rw [cartKey] at h
  split at h
  · rename_i id _ hid
    obtain ⟨c, hc, hcid⟩ := Option.bind_eq_some_iff.1 (given_eq_some hid)
    cases c with
    | guest => cases hcid
    | user u =>
      cases hcid
      exact .inl ⟨u.id, hcaller u hc, (Option.some.inj h).symm⟩
  · rename_i g _ hg
    exact .inr ⟨g, hg, (Option.some.inj h).symm⟩
  · cases h

section Requests

variable {H : Homes} {cart : String → Uuid} {pf : Platform} {r : Request} {caller : Option Caller}
variable (hcaller : r.Passes pf caller)
include hcaller

theorem placeOrder_homes (hop : H.Fits cart pf r (.placeOrder input))
    (hw : H.Holds cart (r.MayUse pf) w) :
    (placeOrder r.env input (caller.bind Caller.id) r.guestId).Sound
      (OwnMove H cart (r.MayUse pf)) (fun _ _ => True) w := by
  refine placeOrder_sound
    (T := fun t => Uuid.parse input.tableId = some t.id ∧ H.table t.id = t.restaurantId)
    (E := fun e => ∀ k, Uuid.parse input.tableId = some k → H.Serves (H.table k) e.menuItemId)
    (D := fun d => ∀ k, Uuid.parse input.tableId = some k → H.Serves (H.table k) d.menuItemId)
    (F := fun o w => ∃ k, Uuid.parse input.tableId = some k ∧ OrderAt (H.table k) o w)
    (homesRely H cart (r.MayUse pf)) (fun _ _ _ _ he _ _ => he) ?_ ?_ ?_ ?_ ?_ ?_ hw
  · intro w table data r _ ht _ h
    obtain ⟨u, _, _, hrow⟩ := insertOrder_row h
    have horders : r.2.orders = w.db.orders ++ [r.1] := by rw [insertOrder_tables h]
    refine ⟨⟨.of_order h ht.2, id⟩, table.id, ht.1, r.1, ?_, rfl, ?_⟩
    · dsimp only
      rw [horders]
      exact List.mem_append_right _ List.mem_cons_self
    · rw [hrow, ht.2]
      rfl
  · rintro order w w' hm ⟨k, hk, ho⟩
    exact ⟨k, hk, ho.move hm.toHomesMove⟩
  · rintro w order i d r _ ⟨k, hk, ho⟩ hd h
    exact ⟨.of_line h ho (hd k hk), id⟩
  · intro key e hkey he k hk
    have hown := Request.mayUse_of_key hcaller hkey
    rw [← (hop k hk).1 key hown]
    exact he hown
  · intro i hi k hk
    exact (hop k hk).2 i hi
  · intro w t hw ht
    obtain ⟨u, hu, hrow⟩ := map_ok ht
    obtain ⟨hmem, rfl⟩ := lookup_mem hrow
    exact ⟨parseUuid_ok_iff.1 hu, hw.covers.tables t hmem⟩

theorem resolve_homes (hop : H.Fits cart pf r op) (hw : H.Holds cart (r.MayUse pf) w) :
    (op.resolve pf r caller).Sound (OwnMove H cart (r.MayUse pf)) (fun _ _ => True) w := by
  refine op.resolve_sound (homesRely H cart (r.MayUse pf)) pf r caller ?_ ?_ ?_ hw
  · exact fun w db h => ⟨.of_menu hop h, id⟩
  · intro input he key hkey
    subst he
    have hserves := hop key (Request.mayUse_of_key hcaller hkey)
    exact ⟨fun _ _ => hserves, fun _ _ _ _ _ => hserves⟩
  · intro input he
    subst he
    exact placeOrder_homes hcaller hop hw

end Requests

theorem handle_homes (hop : H.Fits cart pf r op) (hw : H.Holds cart (r.MayUse pf) w) :
    (handle pf r op).Sound (OwnMove H cart (r.MayUse pf)) (fun _ _ => True) w := by
  have hS := homesRely H cart (r.MayUse pf)
  have hguards := ((guards_keeps pf op.route r).within hS.refl).sound
    (guards_subject pf r op.route) w
  exact (hguards.frame hS.keeps hw).bind fun w caller hc => resolve_homes hc.2 hop hc.1

theorem Redis.get_of_del {r : Redis} (h : (r.del key').get key = some e) :
    r.get key = some e := by
  by_cases hk : key = key'
  · subst hk
    rw [Redis.get_del_same] at h
    cases h
  · exact (Redis.get_del_other _ hk).symm.trans h

theorem Redis.get_of_set {r : Redis} (h : (r.set key' e').get key = some e) :
    key = key' ∧ e = e' ∨ r.get key = some e := by
  by_cases hk : key = key'
  · subst hk
    rw [Redis.get_set_same] at h
    exact .inl ⟨rfl, (Option.some.inj h).symm⟩
  · exact .inr ((Redis.get_set_other _ _ hk).symm.trans h)

/-- A cart is only ever changed by requests that may use it. -/
def CartStays (own : String → Prop) (w w' : World) : Prop :=
  ∀ key e c, ¬own key → w'.redis.get key = some e → e.value = .cart c → w.redis.get key = some e

theorem Effect.cartStays (h : Effect pf r op w w') : CartStays (r.MayUse pf) w w' := by
  intro key e c hown hget hcart
  cases h with
  | menuDrop _ hkeys =>
    dsimp only at hget
    rw [Redis.get_delKeys] at hget
    split at hget
    · cases hget
    · exact hget
  | cart _ hkey =>
    rcases Redis.get_of_set hget with ⟨rfl, _⟩ | hget
    · obtain ⟨caller, hcaller, hkey⟩ := hkey
      exact absurd (Request.mayUse_of_key hcaller hkey) hown
    · exact hget
  | cartDrop => exact Redis.get_of_del hget
  | fill _ _ v hv =>
    rcases Redis.get_of_set hget with ⟨_, rfl⟩ | hget
    · exact absurd hcart (hv c)
    · exact hget
  | none => exact hget
  | account => exact hget
  | profile => exact hget
  | booking => exact hget
  | bookingStatus => exact hget
  | menu => exact hget
  | status => exact hget
  | statusNews => exact hget
  | order => exact hget
  | line => exact hget
  | news => exact hget

section Windows

variable {pf : Platform} {calls : List (Request × Operation)}

/-- The carts that the thread with this index can work on. -/
def OwnCart (pf : Platform) (calls : List (Request × Operation)) (i : Nat) (key : String) : Prop :=
  ∃ c, calls[i]? = some c ∧ c.1.MayUse pf key

theorem ownCart_of (hc : calls[i]? = some c) : OwnCart pf calls i = c.1.MayUse pf := by
  funext key
  refine propext ⟨?_, fun h => ⟨c, hc, h⟩⟩
  rintro ⟨c', hc', h⟩
  rw [hc] at hc'
  cases hc'
  exact h

theorem getElem?_serveExpiring {i : Nat}
    (h : (serveExpiring pf calls expiring w).threads[i]? = some t) :
    (∃ c, calls[i]? = some c ∧ t = handle pf c.1 c.2) ∨
      calls[i]? = none ∧ ∃ key ∈ expiring, t = expire key :=
  Pool.of_getElem?_map_append h

theorem expire_within {R : World → World → Prop} (hR : ∀ w, R w w)
    (h : ∀ (w : World) key, R w { w with redis := w.redis.del key }) (key : String) :
    (expire key).Within R :=
  (delCached_within hR _ fun w => h w key).bind fun _ => trivial

theorem serveExpiring_cartStays (pf : Platform) (calls : List (Request × Operation))
    (expiring : List String) (w : World) :
    (serveExpiring pf calls expiring w).EachWithin fun i => CartStays (OwnCart pf calls i) := by
  intro i t ht
  rcases getElem?_serveExpiring ht with ⟨c, hc, rfl⟩ | ⟨_, key, _, rfl⟩
  · dsimp only
    rw [ownCart_of hc]
    exact (handle_effect pf c.1 c.2).mono fun _ _ h => h.cartStays
  · exact expire_within (fun _ _ _ _ _ hget _ => hget)
      (fun _ _ _ _ _ _ hget _ => Redis.get_of_del hget) key

/-- The restaurants that carts are for as a run goes on, `cart n` after `n` turns. A cart can be for
another restaurant once it has been cleared, as long as no request runs on that may use it. -/
structure Windows (pf : Platform) (calls : List (Request × Operation))
    (p : Pool (Api Response) Site World) (turns : List (Nat × Bool))
    (cart : Nat → String → Uuid) : Prop where
  cleared : ∀ n < turns.length, ∀ key, cart (n + 1) key ≠ cart n key →
    (runs Pool.turn p (turns.take (n + 1))).state.redis.get key = none
  steady : ∀ (n m i : Nat) f g key, turns[n]? = some (i, f) → turns[m]? = some (i, g) →
    OwnCart pf calls i key → cart n key = cart m key

/-- The thread with this index has a turn. -/
def Scheduled (turns : List (Nat × Bool)) (i : Nat) : Prop :=
  ∃ (n : Nat) (f : Bool), turns[n]? = some (i, f)

open Classical in
/-- What the carts of a request are for while it runs. -/
noncomputable def homeOf (turns : List (Nat × Bool)) (cart : Nat → String → Uuid) (i : Nat) :
    String → Uuid :=
  if h : Scheduled turns i then cart h.choose else cart 0

theorem Windows.homeOf_eq (h : Windows pf calls p turns cart) (hn : turns[n]? = some (i, f))
    (hkey : OwnCart pf calls i key) : homeOf turns cart i key = cart n key := by
  have hex : Scheduled turns i := ⟨n, f, hn⟩
  rw [homeOf, dif_pos hex]
  exact h.steady _ n i _ f key hex.choose_spec.choose_spec hn hkey

/-- All is at home, in the carts as well. -/
structure AtHome (H : Homes) (cart : String → Uuid) (w : World) : Prop where
  covers : H.Covers w.db
  settles : H.Settles w.db
  carts : CartsSatisfy (fun key e => H.Serves (cart key) e.menuItemId) w.redis

variable {H : Homes} {p : Pool (Api Response) Site World} {turns : List (Nat × Bool)}
variable {cart : Nat → String → Uuid}

/-- The moves that the thread with this index relies on. -/
def ThreadMove (H : Homes) (pf : Platform) (calls : List (Request × Operation))
    (turns : List (Nat × Bool)) (cart : Nat → String → Uuid) (i : Nat) : World → World → Prop :=
  OwnMove H (homeOf turns cart i) (OwnCart pf calls i)

theorem Windows.own (h : Windows pf calls p turns cart) (hn : turns[n]? = some (i, f))
    (hw : AtHome H (cart n) w) :
    CartsSatisfy (H.InCart (homeOf turns cart i) (OwnCart pf calls i)) w.redis := by
  intro key e c hget hcart l hl hown
  rw [h.homeOf_eq hn hown]
  exact hw.carts key e c hget hcart l hl

/-- A turn leaves all at home, and then a cart that is gone can be for another restaurant. -/
theorem AtHome.turn (h : Windows pf calls p turns cart) (hn : turns[n]? = some (i, f))
    (hw : AtHome H (cart n) w) (hmove : ThreadMove H pf calls turns cart i w w')
    (hstays : CartStays (OwnCart pf calls i) w w')
    (hcleared : ∀ key, cart (n + 1) key ≠ cart n key → w'.redis.get key = none) :
    AtHome H (cart (n + 1)) w' := by
  refine ⟨hmove.covers hw.covers, hmove.settles hw.settles, fun key e c hget hcart l hl => ?_⟩
  by_cases hsame : cart (n + 1) key = cart n key
  · dsimp only
    rw [hsame]
    by_cases hown : OwnCart pf calls i key
    · have hserves := hmove.carts (h.own hn hw) key e c hget hcart l hl hown
      rwa [h.homeOf_eq hn hown] at hserves
    · exact hw.carts key e c (hstays key e c hown hget hcart) hcart l hl
  · rw [hcleared key hsame] at hget
    cases hget

theorem serveExpiring_sound (expiring : List String) (hcovers : H.Covers w.db)
    (hsettles : H.Settles w.db)
    (h : Windows pf calls (serveExpiring pf calls expiring w) turns cart)
    (hfits : ∀ (n i : Nat) f c, turns[n]? = some (i, f) → calls[i]? = some c →
      H.Fits (cart n) pf c.1 c.2) :
    (serveExpiring pf calls expiring w).EachSound (Scheduled turns)
      (ThreadMove H pf calls turns cart) (HomesMove H) := by
  rintro i t ⟨n, f, hn⟩ ht
  -- whatever the carts are for before its first turn, a request finds its own then
  refine ⟨{ w with redis := Redis.empty }, .of_db rfl, ?_⟩
  have hempty (P : String → EffectiveItem → Prop) : CartsSatisfy P Redis.empty :=
    fun _ _ _ hget => by cases hget
  rcases getElem?_serveExpiring ht with ⟨c, hc, rfl⟩ | ⟨_, key, _, rfl⟩
  · rw [ThreadMove, ownCart_of hc]
    refine handle_homes ?_ ⟨hcovers, hsettles, hempty _⟩
    exact (hfits n i f c hn hc).congr fun key hkey => (h.homeOf_eq hn ⟨c, hc, hkey⟩).symm
  · have hS := homesRely H (homeOf turns cart i) (OwnCart pf calls i)
    exact (expire_within hS.refl (fun w key => hS.redis w _ fun hcarts => hcarts.del key)
      key).sound (Prog.returns_true _) _

/-- After each turn of the run all is at home, and every thread is as sound as it was. The
induction is on the number of turns. -/
theorem atHome_take (hstart : H.Settles w.db) (hw : H.Covers w.db)
    (hcarts : CartsSatisfy (fun key e => H.Serves (cart 0 key) e.menuItemId) w.redis)
    (hwindows : Windows pf calls (serveExpiring pf calls expiring w) turns cart)
    (h : ∀ (n i : Nat) f c, turns[n]? = some (i, f) → calls[i]? = some c →
      H.Fits (cart n) pf c.1 c.2) (n : Nat) (hn : n ≤ turns.length) :
    (runs Pool.turn (serveExpiring pf calls expiring w) (turns.take n)).EachSound
        (Scheduled turns) (ThreadMove H pf calls turns cart) (HomesMove H) ∧
      AtHome H (cart n)
        (runs Pool.turn (serveExpiring pf calls expiring w) (turns.take n)).state := by
  have hrefl (i : Nat) (w : World) : ThreadMove H pf calls turns cart i w w :=
    (homesRely H _ _).refl w
  induction n with
  | zero => exact ⟨serveExpiring_sound expiring hw hstart hwindows h, hw, hstart, hcarts⟩
  | succ n ih =>
    obtain ⟨hsound, hhome⟩ := ih (Nat.le_of_succ_le hn)
    obtain ⟨⟨i, f⟩, ht⟩ : ∃ t, turns[n]? = some t := ⟨_, List.getElem?_eq_getElem hn⟩
    have hstays := ((serveExpiring_cartStays pf calls expiring w).runs
      (fun _ _ _ _ _ _ hget _ => hget) (turns.take n)).turn
      (fun _ _ _ _ _ _ hget _ => hget) (i, f)
    have htake : turns.take (n + 1) = turns.take n ++ [(i, f)] := by
      rw [List.take_add_one, ht]
      rfl
    have hcleared := hwindows.cleared n hn
    rw [htake, runs_append, runs_cons, runs_nil] at hcleared ⊢
    obtain ⟨hmove, hsound'⟩ := hsound.turn hrefl (fun _ _ _ hm => hm.toHomesMove) .trans (i, f)
      ⟨n, f, ht⟩ fun s hs => ⟨hs, fun _ => hwindows.own ht hhome⟩
    exact ⟨hsound', hhome.turn hwindows ht hmove hstays.1 hcleared⟩

end Windows

/-- As long as every placement and every cart, until it is cleared, keeps to one restaurant, the
orders do, however the requests interleave and whichever statements fail. -/
theorem orders_at_home (pf : Platform) (calls : List (Request × Operation))
    (expiring : List String) (w : World) (hno : w.db.orders = []) (H : Homes)
    (hw : H.Covers w.db) (turns : List (Nat × Bool)) (cart : Nat → String → Uuid)
    (hcarts : CartsSatisfy (fun key e => H.Serves (cart 0 key) e.menuItemId) w.redis)
    (hwindows : Windows pf calls (serveExpiring pf calls expiring w) turns cart)
    (h : ∀ (n i : Nat) f c, turns[n]? = some (i, f) → calls[i]? = some c →
      H.Fits (cart n) pf c.1 c.2) :
    RestaurantConsistent
      (runs Pool.turn (serveExpiring pf calls expiring w) turns).state.db := by
  have hstart : H.Settles w.db := by
    constructor
    · rw [hno]
      exact fun o ho => absurd ho List.not_mem_nil
    · rw [hno]
      exact fun l _ o ho => absurd ho List.not_mem_nil
  obtain ⟨_, hend⟩ := atHome_take hstart hw hcarts hwindows h turns.length le_rfl
  rw [List.take_length] at hend
  exact hend.settles.consistent hend.covers

/-- The sample restaurant next to another one with a table and a dish of its own. -/
def twoRestaurantsTables : Tables :=
  { sampleTables with
    restaurants := sampleTables.restaurants ++
      [⟨sampleId 6, "Grill House", "grill-house", none, none, none, none, none⟩]
    tables := sampleTables.tables ++
      [⟨sampleId 15, sampleId 6, 1, sampleId 15, none, "available", 0, 0⟩]
    menuCategories := sampleTables.menuCategories ++
      [⟨sampleId 7, sampleId 6, "Mains", none, none, none, 0, 0, 0⟩]
    menuItems := sampleTables.menuItems ++
      [⟨sampleId 0, sampleId 6, sampleId 7, "Shiro", none, none, none, 1, none, true, none, 0, 0⟩] }

theorem twoRestaurantsTables_valid : twoRestaurantsTables.Valid := by
  constructor <;> simp [twoRestaurantsTables, sampleTables, UniqueKey, Refs, FitsNumeric] <;> decide

def twoRestaurantsWorld : World :=
  ⟨⟨twoRestaurantsTables, twoRestaurantsTables_valid⟩, Redis.empty, Gateway.empty⟩

/-- A guest at the table of the sample restaurant orders a dish. -/
def orderRun (dish : Uuid) : Pool (Api Response) Site World :=
  runs Pool.turn (serveExpiring samplePlatform
    [(bearer "g", .placeOrder ⟨(sampleId 2).text, some [⟨dish.text, 1, none⟩], none⟩)] []
    twoRestaurantsWorld) (List.replicate 12 (0, false))

/-- The restaurants of the two dishes and of the two tables. -/
def sampleHomes : Homes :=
  ⟨fun dish => if dish = sampleId 0 then sampleId 6 else sampleId 1,
    fun table => if table = sampleId 15 then sampleId 6 else sampleId 1⟩

/-- A guest orders at the one restaurant, and then at the other. -/
def visits : List (Request × Operation) :=
  [(bearer "g", .addToCart ⟨(sampleId 4).text, 1, none⟩),
    (bearer "g", .placeOrder ⟨(sampleId 2).text, none, none⟩),
    (bearer "g", .addToCart ⟨(sampleId 0).text, 1, none⟩),
    ({ bearer "g" with
        env := { sampleEnv with uuid := fun n => sampleId (Fin.ofNat 16 (n + 11)) } },
      .placeOrder ⟨(sampleId 15).text, none, none⟩)]

def visitTurns : List (Nat × Bool) :=
  List.replicate 6 (0, false) ++ List.replicate 12 (1, false) ++ List.replicate 6 (2, false) ++
    List.replicate 12 (3, false)

/-- The guest's cart is for the second restaurant from when the first order has been placed. -/
def visitCart (n : Nat) (_ : String) : Uuid := if n < 18 then sampleId 1 else sampleId 6

abbrev visitRun (turns : List (Nat × Bool)) : Pool (Api Response) Site World :=
  runs Pool.turn (serveExpiring samplePlatform visits [] twoRestaurantsWorld) turns

theorem visitTurns_half (n i : Nat) (f : Bool) (h : visitTurns[n]? = some (i, f)) :
    n < 18 ↔ i < 2 := by
  have hall : ∀ n < 36, ∀ t ∈ visitTurns[n]?, n < 18 ↔ t.1 < 2 := by decide
  exact hall n (List.getElem?_eq_some_iff.1 h).1 _ h

theorem visits_windows : Windows samplePlatform visits
    (serveExpiring samplePlatform visits [] twoRestaurantsWorld) visitTurns visitCart := by
  constructor
  · intro n _ key hne
    have hn : n = 17 := by
      rw [visitCart, visitCart] at hne
      split at hne <;> split at hne <;> first | omega | exact absurd rfl hne
    have hempty : (visitRun (visitTurns.take 18)).state.redis.entries.isEmpty = true := by
      decide +kernel
    subst hn
    have hentries : (visitRun (visitTurns.take 18)).state.redis.entries = [] :=
      List.isEmpty_iff.1 hempty
    rw [Redis.get]
    exact congrArg (fun entries => (entries.find? fun p : String × Entry => p.1 = key).map Prod.snd)
      hentries
  · intro n m i f g key hn hm _
    have hsame : n < 18 ↔ m < 18 :=
      (visitTurns_half n i f hn).trans (visitTurns_half m i g hm).symm
    exact if_congr hsame rfl rfl

theorem serves_text {H : Homes} (h : H.item u = restaurant) : H.Serves restaurant u.text := by
  intro v hv
  rw [← Option.some.inj ((Uuid.parse_text u).symm.trans hv)]
  exact h

theorem visits_fit (n i : Nat) (f : Bool) (c : Request × Operation)
    (hn : visitTurns[n]? = some (i, f)) (hc : visits[i]? = some c) :
    sampleHomes.Fits (visitCart n) samplePlatform c.1 c.2 := by
  have hhalf := visitTurns_half n i f hn
  have hcart (k : Uuid) (hk : (if i < 2 then sampleId 1 else sampleId 6) = k) (key : String) :
      visitCart n key = k := (if_congr hhalf rfl rfl).trans hk
  have hplace (table : Uuid) (hk : (if i < 2 then sampleId 1 else sampleId 6) =
        sampleHomes.table table) (r : Request) :
      sampleHomes.Fits (visitCart n) samplePlatform r (.placeOrder ⟨table.text, none, none⟩) := by
    intro t ht
    rw [← Option.some.inj ((Uuid.parse_text table).symm.trans ht)]
    exact ⟨fun key _ => hcart _ hk key, fun i hi => by cases hi⟩
  match i, hc with
  | 0, hc =>
    cases hc
    exact fun key _ => serves_text ((by decide : _ = sampleId 1).trans (hcart _ rfl key).symm)
  | 1, hc =>
    cases hc
    exact hplace (sampleId 2) (by decide) _
  | 2, hc =>
    cases hc
    exact fun key _ => serves_text ((by decide : _ = sampleId 6).trans (hcart _ rfl key).symm)
  | 3, hc =>
    cases hc
    exact hplace (sampleId 15) (by decide) _

theorem visits_ordered :
    (visitRun visitTurns).state.db.orders.map OrderRow.restaurantId = [sampleId 1, sampleId 6] := by
  decide +kernel

theorem orders_at_home_sample :
    (visitRun visitTurns).state.db.orders.map OrderRow.restaurantId = [sampleId 1, sampleId 6] ∧
      RestaurantConsistent (visitRun visitTurns).state.db := by
  refine ⟨visits_ordered, ?_⟩
  have hcovers : sampleHomes.Covers twoRestaurantsWorld.db := ⟨by decide, by decide⟩
  have hhome := orders_at_home samplePlatform visits [] twoRestaurantsWorld rfl sampleHomes hcovers
    visitTurns visitCart (fun _ _ _ h => by cases h) visits_windows visits_fit
  -- the unifier would otherwise run the requests
  with_reducible exact hhome

/-- A dish of the other restaurant is ordered, and the order is taken. -/
theorem orders_at_home_fails : twoRestaurantsWorld.db.orders = [] ∧
    ¬RestaurantConsistent (orderRun (sampleId 0)).state.db := by
  refine ⟨rfl, fun h => ?_⟩
  have hrows : ∃ o ∈ (orderRun (sampleId 0)).state.db.orders,
      ∃ l ∈ (orderRun (sampleId 0)).state.db.orderItems, l.orderId = o.id ∧
        ∀ r ∈ (orderRun (sampleId 0)).state.db.menuItems, r.id = l.menuItemId →
          r.restaurantId ≠ o.restaurantId := by
    decide +kernel
  obtain ⟨o, ho, l, hl, hlo, hother⟩ := hrows
  obtain ⟨r, hr, hid, hsame⟩ := (h o ho).2 l hl hlo
  exact hother r hr hid hsame

end DineFlow
