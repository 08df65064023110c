import DineFlow.ApiSteps
import DineFlow.Interference
import DineFlow.StaffRows

namespace DineFlow
open Atomic Relational
set_option autoImplicit true

def CartItem.effective (i : CartItem) : EffectiveItem := ⟨i.menuItemId, i.quantity, i.notes⟩

def AddToCartInput.effective (i : AddToCartInput) : EffectiveItem :=
  ⟨i.menuItemId, i.quantity, i.notes⟩

/-- Every line of every stored cart is as `P` asks of lines under its key. -/
def CartsSatisfy (P : String → EffectiveItem → Prop) (redis : Redis) : Prop :=
  ∀ key e c, redis.get key = some e → e.value = .cart c → ∀ i ∈ c.items, P key i.effective

theorem CartsSatisfy.filter (h : CartsSatisfy P redis) (keep : String → Bool) :
    CartsSatisfy P ⟨redis.entries.filter fun p => keep p.1⟩ := by
  intro key e c hget
  rw [Redis.get_filter] at hget
  split at hget
  · exact h key e c hget
  · cases hget

theorem CartsSatisfy.del (h : CartsSatisfy P redis) (key : String) :
    CartsSatisfy P (redis.del key) :=
  h.filter fun k => k ≠ key

theorem CartsSatisfy.delKeys (h : CartsSatisfy P redis) (keys : List String) :
    CartsSatisfy P (redis.delKeys keys) :=
  h.filter fun k => k ∉ keys

theorem CartsSatisfy.set (h : CartsSatisfy P redis)
    (hv : ∀ c, v = .cart c → ∀ i ∈ c.items, P key i.effective) (expiresAt : Option Nat) :
    CartsSatisfy P (redis.set key ⟨v, expiresAt⟩) := by
  intro k e c hget
  by_cases hk : k = key
  · subst hk
    rw [Redis.get_set_same] at hget
    cases hget
    exact hv c
  · rw [Redis.get_set_other _ _ hk] at hget
    exact h k e c hget

theorem mem_mergeItem (h : i ∈ mergeItem now input row items) :
    i ∈ items ∨ i.menuItemId = input.menuItemId ∧ i.price = row.price ∧
      (i.quantity = input.quantity ∨ ∃ i' ∈ items, i'.menuItemId = input.menuItemId ∧
        i.quantity = i'.quantity + input.quantity) := by
  induction items with
  | nil =>
    rw [mergeItem, List.mem_singleton] at h
    subst h
    exact .inr ⟨rfl, rfl, .inl rfl⟩
  | cons x xs ih =>
    rw [mergeItem] at h
    split at h
    · rename_i hx
      rcases List.mem_cons.1 h with rfl | h
      · exact .inr ⟨hx, rfl, .inr ⟨x, List.mem_cons_self, hx, rfl⟩⟩
      · exact .inl (List.mem_cons_of_mem _ h)
    · rcases List.mem_cons.1 h with rfl | h
      · exact .inl List.mem_cons_self
      · rcases ih h with h | ⟨hid, hprice, hq | ⟨i', hi', hq⟩⟩
        · exact .inl (List.mem_cons_of_mem _ h)
        · exact .inr ⟨hid, hprice, .inl hq⟩
        · exact .inr ⟨hid, hprice, .inr ⟨i', List.mem_cons_of_mem _ hi', hq⟩⟩

/-- An invariant `I` with the moves `R` that keep it: the carts satisfy `P`, and what does not
concern orders, tables and dishes is of no account. -/
structure CartRely (P : String → EffectiveItem → Prop) (I : World → Prop)
    (R : World → World → Prop) : Prop where
  refl : ∀ w, R w w
  trans : ∀ {w w' w''}, R w w' → R w' w'' → R w w''
  keeps : ∀ w w', R w w' → I w → I w'
  carts : ∀ w, I w → CartsSatisfy P w.redis
  redis : ∀ w redis, (CartsSatisfy P w.redis → CartsSatisfy P redis) →
    R w { w with redis := redis }
  status : ∀ w w', StatusStep w w' → R w w'
  desk : ∀ w w', DeskStep w w' → R w w'
  emit : ∀ w e, R w { w with gateway := emitOrderPlaced e w.gateway }

/-- What is added to a cart is as `P` asks, alone and on top of a line of the same dish. -/
structure Addable (P : EffectiveItem → Prop) (input : AddToCartInput) : Prop where
  new : ∀ notes, P ⟨input.menuItemId, input.quantity, notes⟩
  more : ∀ q notes notes', P ⟨input.menuItemId, q, notes⟩ →
    P ⟨input.menuItemId, q + input.quantity, notes'⟩

theorem Addable.mergeItem (h : Addable P input) (hitems : ∀ i ∈ items, P (CartItem.effective i)) :
    ∀ i ∈ mergeItem now input row items, P i.effective := by
  intro i hi
  rcases mem_mergeItem hi with hi | ⟨hid, _, hq | ⟨i', hi', hid', hq⟩⟩
  · exact hitems i hi
  · rw [CartItem.effective, hid, hq]
    exact h.new _
  · have hold := hitems i' hi'
    rw [CartItem.effective, hid'] at hold
    rw [CartItem.effective, hid, hq]
    exact h.more _ _ _ hold

section Rules

variable {P : String → EffectiveItem → Prop} {I : World → Prop} {R : World → World → Prop}
variable (hS : CartRely P I R)
include hS

theorem getCachedObject_sound (hw : I w) (site : Site) (key : String) :
    (getCachedObject site key).Sound R (fun w cached => I w ∧
      ∀ c, cached = some (.cart c) → ∀ i ∈ c.items, P key i.effective) w := by
  apply Prog.sound_query hS.refl
  · intro w' cached hmove hread
    cases hread
    refine ⟨hS.keeps _ _ hmove hw, fun c hc => ?_⟩
    obtain ⟨e, he, hv⟩ := Option.map_eq_some_iff.1 hc
    exact hS.carts w' (hS.keeps _ _ hmove hw) key e c he hv
  · intro w' cached hmove hread
    cases hread
    exact ⟨hS.keeps _ _ hmove hw, fun c hc => by cases hc⟩

theorem storeCart_sound (env : Env) (guestId : Option String)
    (h : ∀ c, cart = .ok c → ∀ i ∈ Cart.items c, P key i.effective) (w : World) :
    (storeCart env key guestId cart).Sound R (fun _ _ => True) w := by
  refine Prog.Sound.bind (Q := fun _ c => ∀ i ∈ Cart.items c, P key i.effective)
    (Prog.sound_ofExcept h) fun w c hc => ?_
  have htotal := (calculateCartTotalAmount_keeps (π := id) c).within hS.refl
  refine (htotal.sound (Prog.returns_true _) w).bind fun w total _ => ?_
  refine Prog.Sound.bind (Q := fun _ _ => True) (Prog.sound_exec hS.refl _ ?_ ?_) fun _ _ _ =>
    trivial
  · intro w' r _ hset
    cases hset
    refine ⟨hS.redis w' _ fun hcarts => hcarts.set ?_ _, trivial⟩
    intro c' hc' i hi
    cases hc'
    obtain ⟨i', hi', rfl⟩ := List.mem_map.1 hi
    exact hc i' hi'
  · exact fun _ _ _ _ => trivial

theorem addToCart_sound (env : Env)
    (h : ∀ key, cartKey userId guestId = some key → Addable (P key) input) (hw : I w) :
    (addToCart env input userId guestId).Sound R (fun _ _ => True) w := by
  rw [addToCart, getCartKey]
  cases hkey : cartKey userId guestId with
  | none => trivial
  | some key =>
    have hrow : (select .availableItem (availableItem input.menuItemId)).Sound R
        (fun w _ => I w ∧ True) w :=
      ((within_select hS.refl _ _).sound (Prog.returns_true _) w).frame hS.keeps hw
    refine hrow.bind fun w row hw' => ?_
    cases row with
    | none => trivial
    | some row =>
      refine (getCachedObject_sound hS hw'.1 _ key).bind fun w cached hcached => ?_
      apply storeCart_sound hS
      intro c hc
      obtain ⟨c', hc', rfl⟩ := map_ok hc
      apply (h key hkey).mergeItem
      cases cached with
      | none =>
        cases hc'
        exact fun i hi => absurd hi List.not_mem_nil
      | some v =>
        cases v with
        | cart c₀ =>
          cases hc'
          exact hcached.2 _ rfl
        | menu => cases hc'
        | items => cases hc'

theorem removeFromCart_sound (env : Env) (menuItemId : String) (userId guestId : Option String)
    (hw : I w) :
    (removeFromCart env menuItemId userId guestId).Sound R (fun _ _ => True) w := by
  rw [removeFromCart, getCartKey]
  cases hkey : cartKey userId guestId with
  | none => trivial
  | some key =>
    refine (getCachedObject_sound hS hw _ key).bind fun w cached hcached => ?_
    apply storeCart_sound hS
    intro c hc i hi
    obtain ⟨c', hc', rfl⟩ := map_ok hc
    have hi' : i ∈ c'.items := List.mem_of_mem_filter hi
    cases cached with
    | none => cases hc'
    | some v =>
      cases v with
      | cart c₀ =>
        cases hc'
        exact hcached.2 _ rfl i hi'
      | menu => cases hc'
      | items => cases hc'

section Placement

variable {T : TableRow → Prop} {E : EffectiveItem → Prop} {D : OrderItemData → Prop}
variable {F : OrderRow → World → Prop} {env : Env} {input : PlaceOrderInput}
variable {userId guestId : Option String}
variable (hdata : ∀ w e row, I w → E e → row ∈ w.db.menuItems → row.id.text = e.menuItemId →
  D ⟨e.menuItemId, e.quantity, row.price, e.notes⟩)
variable (horder : ∀ w table data r, I w → T table → (∀ d ∈ data, D d) →
  insertOrder env input table userId guestId (OrderItemData.amounts data) w.db = .ok r →
    R w { w with db := r.2 } ∧ F r.1 { w with db := r.2 })
variable (hF : ∀ order w w', R w w' → F order w → F order w')
variable (hline : ∀ w (order : OrderRow) i d r, I w → F order w → D d →
  insertLine env order.id i d w.db = .ok r → R w { w with db := r.2 })

include hF hline in
theorem lines_sound (hd : ∀ d ∈ data, D d) (key : Option String) (rows : List MenuItemRow)
    (hw : I w ∧ F order w) :
    (placeOrder.lines env key order rows data).Sound R (fun _ _ => True) w := by
  have hkeep : ∀ w w', R w w' → I w ∧ F order w → I w' ∧ F order w' :=
    fun w w' hm h => ⟨hS.keeps w w' hm h.1, hF order w w' hm h.2⟩
  refine (Prog.sound_each hkeep ?_ 0 hw).bind fun w _ _ => ?_
  · intro n d hmem w hw
    refine Prog.sound_exec hS.refl _ ?_ fun _ _ _ hz => by cases hz
    intro w' r hm h
    obtain ⟨r', hr', rfl⟩ := map_ok h
    have hw' := hkeep w w' hm hw
    exact ⟨hline w' order n d r' hw'.1 hw'.2 (hd d hmem) (mapError_ok hr'), trivial⟩
  · have hfinish : (placeOrder.finish env key order rows data).Within R :=
      finish_within hS.refl (fun w k _ => hS.redis w _ fun hcarts => hcarts.del k) hS.emit _ _ _
    exact hfinish.sound (Prog.returns_true _) w

include hdata horder hF hline in
theorem withTable_sound (hitems : ∀ e ∈ items, E e) (htable : ∀ t, table = some t → T t)
    (hw : I w) :
    (placeOrder.withTable env input userId guestId items table).Sound R (fun _ _ => True) w := by
  cases table with
  | none => trivial
  | some table =>
    have hread : (select .placeMenu (availableItemsIn (items.map EffectiveItem.menuItemId))).Sound R
        (fun w rows => I w ∧ ∀ r ∈ rows, ∃ w, I w ∧ r ∈ w.db.menuItems) w := by
      refine Prog.sound_query hS.refl _ ?_ fun _ _ _ hz => by cases hz
      intro w' rows hm h
      have hw' := hS.keeps _ _ hm hw
      obtain ⟨us, _, rfl⟩ := map_ok (mapError_ok h)
      exact ⟨hw', fun r hr => ⟨w', hw', List.mem_of_mem_filter hr⟩⟩
    refine hread.bind fun w rows hrows => ?_
    rw [placeOrder.withMenu]
    split
    case isTrue => trivial
    case isFalse =>
      have hd : ∀ d ∈ orderItemsData rows items, D d := by
        intro d hd
        obtain ⟨e, he, hmap⟩ := List.mem_filterMap.1 hd
        obtain ⟨row, hrow, rfl⟩ := Option.map_eq_some_iff.1 hmap
        obtain ⟨w₀, hw₀, hmem⟩ := hrows.2 row (List.mem_of_find?_eq_some hrow)
        have hid := List.find?_some hrow
        exact hdata w₀ e row hw₀ (hitems e he) hmem (of_decide_eq_true hid)
      refine Prog.Sound.bind (Q := fun w order => I w ∧ F order w)
        (Prog.sound_exec hS.refl _ ?_ fun _ _ _ hz => by cases hz) fun w order hw' => ?_
      · intro w' r hm h
        obtain ⟨r', hr', rfl⟩ := map_ok h
        have hw' := hS.keeps _ _ hm hrows.1
        obtain ⟨hmove, hstored⟩ := horder w' table _ r' hw' (htable table rfl) hd (mapError_ok hr')
        exact ⟨hmove, hS.keeps _ _ hmove hw', hstored⟩
      · exact lines_sound hS hF hline hd _ _ hw'

include hdata horder hF hline in
/-- A placement is sound if its inserts are, for the items and the table it can have read. -/
theorem placeOrder_sound (hE : ∀ key e, cartKey userId guestId = some key → P key e → E e)
    (hinput : ∀ i ∈ input.items.getD [], E i.effective)
    (htable : ∀ w t, I w → tableById input.tableId w.db = .ok (some t) → T t) (hw : I w) :
    (placeOrder env input userId guestId).Sound R (fun _ _ => True) w := by
  have hcart (cached : Option Cached) (w : World) (hw : I w)
      (hlines : ∀ e ∈ cartLines cached, E e) :
      (placeOrder.withCart env input userId guestId cached).Sound R (fun _ _ => True) w := by
    have hitems : ∀ e ∈ effectiveItems cached input, E e := by
      intro e he
      rw [effectiveItems] at he
      split at he
      · obtain ⟨i, hi, rfl⟩ := List.mem_map.1 he
        exact hinput i hi
      · exact hlines e he
    rw [placeOrder.withCart]
    split
    · trivial
    refine Prog.Sound.bind (Q := fun w table => I w ∧ ∀ t, table = some t → T t)
      (Prog.sound_query hS.refl _ ?_ fun _ _ _ hz => by cases hz) fun w table h => ?_
    · intro w' table hm h
      have hw' := hS.keeps _ _ hm hw
      refine ⟨hw', fun t ht => htable w' t hw' ?_⟩
      rw [← ht]
      exact mapError_ok h
    · exact withTable_sound hS hdata horder hF hline hitems h.2 h.1
  rw [placeOrder]
  cases hkey : cartKey userId guestId with
  | none => exact hcart none w hw fun e he => absurd he List.not_mem_nil
  | some key =>
    refine (getCachedObject_sound hS hw _ key).bind fun w cached hcached => ?_
    apply hcart cached w hcached.1
    intro e he
    cases cached with
    | none => cases he
    | some v =>
      cases v with
      | cart c =>
        obtain ⟨i, hi, rfl⟩ := List.mem_map.1 he
        exact hE key _ hkey (hcached.2 c rfl i hi)
      | menu => cases he
      | items => cases he

end Placement

end Rules

section Requests

variable {P : String → EffectiveItem → Prop} {I : World → Prop} {R : World → World → Prop}
variable (hS : CartRely P I R)
include hS

/-- What an operation must see to, so that all its statements move within `R`: its changes of the
menu, what it adds to a cart, and its placement. -/
theorem Operation.resolve_sound (pf : Platform) (r : Request) (caller : Option Caller)
    (op : Operation)
    (hmenu : ∀ w db, op.MenuWrites r.env w.db db → R w { w with db := db })
    (hadd : ∀ input, op = .addToCart input → ∀ key,
      cartKey (caller.bind Caller.id) r.guestId = some key → Addable (P key) input)
    (hplace : ∀ input, op = .placeOrder input → (DineFlow.placeOrder r.env input
      (caller.bind Caller.id) r.guestId).Sound R (fun _ _ => True) w)
    (hw : I w) : (op.resolve pf r caller).Sound R (fun _ _ => True) w := by
  have hdrop : ∀ w keys, (∀ k ∈ keys, IsMenuKey k) →
      R w { w with redis := w.redis.delKeys keys } :=
    fun w keys _ => hS.redis w _ fun hcarts => hcarts.delKeys keys
  have hstep (h : ∀ w w', op.Step w w' → R w w') :
      (op.resolve pf r caller).Sound R (fun _ _ => True) w :=
    ((op.resolve_step pf r caller).mono h).sound (Prog.returns_true _) w
  cases op
  case placeOrder input => exact (hplace input rfl).bind fun _ _ _ => trivial
  case addToCart input =>
    exact (addToCart_sound hS r.env (hadd input rfl) hw).bind fun _ _ _ => trivial
  case removeFromCart menuItemId =>
    exact (removeFromCart_sound hS r.env menuItemId _ _ hw).bind fun _ _ _ => trivial
  case clearCart =>
    have h : (DineFlow.clearCart (caller.bind Caller.id) r.guestId).Within R :=
      clearCart_within hS.refl fun w key _ => hS.redis w _ fun hcarts => hcarts.del key
    exact (h.sound (Prog.returns_true _) w).bind fun _ _ _ => trivial
  case createMenuItem input =>
    have h := createMenuItem_within_of hS.refl hdrop ((caller.bind Caller.id).getD "")
      fun w r h => hmenu w r.2 ⟨r.1, h⟩
    exact (h.sound (Prog.returns_true _) w).bind fun _ _ _ => trivial
  case updateMenuItem input =>
    have h := updateMenuItem_within_of hS.refl hdrop ((caller.bind Caller.id).getD "")
      fun w r h => hmenu w r.2 ⟨r.1, h⟩
    exact (h.sound (Prog.returns_true _) w).bind fun _ _ _ => trivial
  case deleteMenuItem itemId =>
    have h := deleteMenuItem_within_of hS.refl hdrop ((caller.bind Caller.id).getD "")
      fun w r h => hmenu w r.2 ⟨r.1, h⟩
    exact (h.sound (Prog.returns_true _) w).bind fun _ _ _ => trivial
  case toggleMenuItemAvailability itemId =>
    have h := toggleAvailability_within_of hS.refl hdrop ((caller.bind Caller.id).getD "")
      fun w b r h => hmenu w r.2 ⟨b, r.1, h⟩
    exact (h.sound (Prog.returns_true _) w).bind fun _ _ _ => trivial
  case updateOrderStatus => exact hstep hS.status
  case register | updateProfile | createBooking | updateBookingStatus => exact hstep hS.desk
  case menu | menuItemsByTable =>
    refine hstep fun w w' h => ?_
    cases h with
    | refl => exact hS.refl w
    | fill _ v hv expiresAt =>
      exact hS.redis w _ fun hcarts => hcarts.set (fun c hc => absurd hc (hv c)) _
  all_goals
    refine hstep fun w w' h => ?_
    cases h
    exact hS.refl w

/-- Redis drops a key, as it does when the time of a guest's cart is up. -/
def expire (key : String) : Api Response := do
  delCached .cartDel key
  return .done

/-- The requests to a server, while Redis drops some keys. -/
def serveExpiring (pf : Platform) (calls : List (Request × Operation)) (expiring : List String)
    (w : World) : Pool (Api Response) Site World :=
  ⟨w, (calls.map fun c => handle pf c.1 c.2) ++ expiring.map expire, []⟩

/-- An invariant that every operation of a run sees to holds in every state of the run, however
the requests interleave and whichever of their statements fail. -/
theorem serveExpiring_invariant {pf : Platform} {calls : List (Request × Operation)}
    (h : ∀ c ∈ calls, ∀ caller, (∀ u, caller = some (Caller.user u) → c.1.subject pf = some u.id) →
      ∀ w, I w → (c.2.resolve pf c.1 caller).Sound R (fun _ _ => True) w)
    (expiring : List String) (hw : I w) (turns : List (Nat × Bool)) :
    I (runs Pool.turn (serveExpiring pf calls expiring w) turns).state := by
  have hall : (serveExpiring pf calls expiring w).AllSound R fun _ _ _ => True := by
    intro i t ht
    rcases List.mem_append.1 (List.mem_of_getElem? ht) with ht | ht
    · obtain ⟨c, hc, rfl⟩ := List.mem_map.1 ht
      have hguards := ((guards_keeps pf c.2.route c.1).within hS.refl).sound
        (guards_subject pf c.1 c.2.route) w
      exact (hguards.frame hS.keeps hw).bind fun w caller hc' => h c hc caller hc'.2 w hc'.1
    · obtain ⟨key, _, rfl⟩ := List.mem_map.1 ht
      have hdel : (delCached .cartDel key).Within R :=
        delCached_within hS.refl _ fun w => hS.redis w _ fun hcarts => hcarts.del key
      exact (hdel.sound (Prog.returns_true _) w).bind fun _ _ _ => trivial
  have hrun := Pool.runs_sound hS.refl hS.trans (fun _ _ _ _ _ _ => trivial) hall turns
  exact hS.keeps _ _ hrun.1 hw

end Requests

end DineFlow
