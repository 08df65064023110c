import DineFlow.KitchenListing
import DineFlow.OpenOrders
import DineFlow.OrderSnapshot
import DineFlow.OrderSums

namespace DineFlow
open Atomic Relational
set_option autoImplicit true

/-- The order can be shown: its table is there and it has a line. -/
def OrderRow.Legible (db : Db) (o : OrderRow) : Prop :=
  (tableOfOrder o db).isSome = true ∧ linesOf o.id db ≠ []

def OrderItem.charge (i : OrderItem) : Int × Int := (i.price, i.quantity)

def Order.itemSum (v : Order) : Int := (v.items.map fun i => i.price * i.quantity).sum

section Reading

variable {w : World} {o : OrderRow}

theorem details_ok (ho : o ∈ w.db.orders) (h : o.Legible w.db) :
    ∃ v, (getOrderWithDetails o.id.text).run noFault w = (.ok v, w) ∧ v.id = o.id ∧
      v.totalAmount = o.totalAmount ∧
      v.items.map OrderItem.line = (linesOf o.id w.db).map OrderItemRow.line := by
  obtain ⟨t, ht⟩ := Option.isSome_iff_exists.1 h.1
  refine ⟨_, Prod.ext (getOrderWithDetails_ok_iff.2 ⟨detailUp_noFault, o, t, ?_, ht, h.2, rfl⟩)
    (getOrderWithDetails_world _ _ w), rfl, rfl, orderItemsView_lines (menuOf_lines o.id w.db)⟩
  rw [orderById, parseUuid_text]
  exact congrArg Except.ok (w.db.valid.orderIds.lookup ho)

theorem legible_of_details (ho : o ∈ w.db.orders)
    (h : ((getOrderWithDetails o.id.text).run noFault w).1 = .ok v) : o.Legible w.db := by
  obtain ⟨_, o', t, hread, ht, hlines, _⟩ := getOrderWithDetails_ok_iff.1 h
  rw [orderById, parseUuid_text] at hread
  have hsame : some o = some o' :=
    (w.db.valid.orderIds.lookup ho).symm.trans (Except.ok.inj hread)
  cases hsame
  exact ⟨Option.isSome_iff_exists.2 ⟨t, ht⟩, hlines⟩

theorem charges_shown {v : Order} {ls : List OrderItemRow}
    (h : v.items.map OrderItem.line = ls.map OrderItemRow.line) :
    v.items.map OrderItem.charge = ls.map OrderItemRow.charge := by
  have hcharges := congrArg (List.map fun l : OrderLine => (l.price, l.quantity)) h
  rw [List.map_map, List.map_map] at hcharges
  exact hcharges

theorem Order.itemSum_eq (v : Order) : v.itemSum = exactTotal (v.items.map OrderItem.charge) := by
  rw [exactTotal, List.map_map]
  rfl

end Reading

/-- What a listing of orders does: it answers if all that it is to list can be shown, and then it
lists each of them once and no other. -/
structure ShowsOrders (w : World) (p : Api (List Order)) (wants : OrderRow → Bool) :
    Prop where
  answers : (∃ orders, (p.run noFault w).1 = .ok orders) ↔
    ∀ o ∈ w.db.orders, wants o = true → o.Legible w.db
  lists : ∀ orders, (p.run noFault w).1 = .ok orders → ∀ o ∈ w.db.orders,
    (orders.map Order.id).count o.id = if wants o = true then 1 else 0

theorem count_wanted {db : Db} (ho : o ∈ db.orders) (wants : OrderRow → Bool) :
    ((db.orders.filter wants).map OrderRow.id).count o.id = if wants o = true then 1 else 0 := by
  split
  · rename_i hwants
    exact List.count_eq_one_of_mem (db.valid.orderIds.filter _)
      (List.mem_map_of_mem (List.mem_filter.2 ⟨ho, hwants⟩))
  · rename_i hwants
    refine List.count_eq_zero.2 fun hmem => ?_
    obtain ⟨o', ho', hid⟩ := List.mem_map.1 hmem
    rw [db.valid.orderIds.eq_of_mem (List.mem_filter.1 ho').1 ho hid] at ho'
    exact hwants (List.mem_filter.1 ho').2

theorem ids_of_read {read : OrderRow → Except ApiError Order}
    (hid : ∀ o v, read o = .ok v → v.id = o.id) {rows : List OrderRow} {orders : List Order}
    (h : rows.map read = orders.map .ok) : orders.map Order.id = rows.map OrderRow.id := by
  induction rows generalizing orders with
  | nil =>
    cases orders with
    | nil => rfl
    | cons => cases h
  | cons o rows ih =>
    cases orders with
    | nil => cases h
    | cons v orders =>
      obtain ⟨hv, hrest⟩ := List.cons.inj h
      rw [List.map_cons, List.map_cons, hid o v hv, ih hrest]

/-- Reading wanted orders one after the other, in whatever order. -/
theorem shows_of_rows {p : Api (List Order)} {rows : List OrderRow} {wants : OrderRow → Bool}
    (hrows : rows.Perm (w.db.orders.filter wants))
    (h : p.run noFault w =
      (Prog.mapAll (fun o : OrderRow => getOrderWithDetails o.id.text) rows).run noFault w) :
    ShowsOrders w p wants := by
  have hmem {o : OrderRow} : o ∈ rows ↔ o ∈ w.db.orders ∧ wants o = true :=
    hrows.mem_iff.trans List.mem_filter
  constructor
  · rw [h]
    constructor
    · rintro ⟨orders, hok⟩ o ho hwants
      have hread := Prog.run_mapAll_ok (fun o => getOrderWithDetails_keeps _) hok
      obtain ⟨v, _, hv⟩ := List.mem_map.1 (hread ▸ List.mem_map_of_mem (hmem.2 ⟨ho, hwants⟩))
      exact legible_of_details ho hv.symm
    · intro hlegible
      have hread : ∀ o ∈ rows, ∃ v, (getOrderWithDetails o.id.text).run noFault w = (.ok v, w) ∧
          v.id = o.id := by
        intro o ho
        obtain ⟨hstored, hwants⟩ := hmem.1 ho
        obtain ⟨v, hv, hid, _⟩ := details_ok hstored (hlegible o hstored hwants)
        exact ⟨v, hv, hid⟩
      obtain ⟨orders, hrun, _⟩ := Prog.run_mapAll hread
      exact ⟨orders, congrArg Prod.fst hrun⟩
  · intro orders hok o ho
    rw [h] at hok
    have hread := Prog.run_mapAll_ok (fun o => getOrderWithDetails_keeps _) hok
    rw [ids_of_read (fun o v hv => getOrderWithDetails_id hv) hread,
      (hrows.map OrderRow.id).count_eq]
    exact count_wanted ho wants

/-- What the kitchen of a restaurant, or of all of them, is to list. -/
def kitchenWants (restaurant : Option Uuid) (o : OrderRow) : Bool :=
  (restaurant.isNone || some o.restaurantId = restaurant) && o.isActive

/-- What a user or guest is to find among their orders. -/
def ownerWants (user : Option Uuid) (guest : Option String) (o : OrderRow) : Bool :=
  (user.isSome && o.userId = user) || ((given guest).isSome && o.guestId = given guest)

theorem parse_given_text (k : Option Uuid) :
    parseOptUuid (given (k.map Uuid.text)) = .ok k := by
  cases k with
  | none => rfl
  | some k =>
    rw [Option.map_some, given_text, parseOptUuid, parseUuid_text]
    rfl

theorem kitchen_shows (plan : RowOrder) (restaurant : Option Uuid) (w : World) :
    ShowsOrders w (getKitchenOrders plan (restaurant.map Uuid.text)) (kitchenWants restaurant) := by
  apply shows_of_rows (orderBy_perm plan (fun o : OrderRow => o.createdAt) _)
  rw [getKitchenOrders, Prog.bind_eq, run_select_bind, kitchenRows, parse_given_text]
  rfl

theorem owner_shows (plan : RowOrder) (user : Option Uuid)
    (hguest : ∀ g ∈ given guest, Storable g) (w : World) :
    ShowsOrders w (getMyOrders plan (user.map Uuid.text) guest) (ownerWants user guest) := by
  by_cases hnone : given (user.map Uuid.text) = none ∧ given guest = none
  · have huser : user = none := by
      have hparse := parse_given_text user
      rw [hnone.1] at hparse
      exact (Except.ok.inj hparse).symm
    have hwants : ownerWants user guest = fun _ => false := by
      funext o
      rw [ownerWants, huser, hnone.2]
      rfl
    have hrows : ([] : List OrderRow).Perm (w.db.orders.filter (ownerWants user guest)) := by
      rw [hwants, List.filter_false]
    apply shows_of_rows hrows
    rw [getMyOrders, if_pos hnone]
    rfl
  · apply shows_of_rows (orderBy_perm plan (fun o : OrderRow => o.createdAt) _)
    rw [getMyOrders, if_neg hnone, Prog.bind_eq, run_select_bind, myOrderRows, parse_given_text,
      optTextParam_ok_iff.2 ⟨hguest, rfl⟩]
    rfl

/-- Orders are only found for a guest whose token the database can be asked about. -/
theorem guest_of_myOrders (h : ((getMyOrders plan userId guest).run noFault w).1 = .ok orders) :
    ∀ g ∈ given guest, Storable g := by
  rw [getMyOrders] at h
  split at h
  · rename_i hnone
    rw [hnone.2]
    exact fun g hg => by cases hg
  · rw [Prog.bind_eq, run_select_bind, myOrderRows] at h
    cases hg : optTextParam (given guest) with
    | ok g => exact (optTextParam_ok_iff.1 hg).1
    | error e =>
      rw [hg] at h
      cases hu : parseOptUuid (given userId) with
      | ok u =>
        rw [hu] at h
        cases h
      | error e' =>
        rw [hu] at h
        cases h

theorem OrderRow.Legible.of_table {db : Db} {o : OrderRow} (ho : o ∈ db.orders)
    (htable : o.tableId = some table) (hlines : linesOf o.id db ≠ []) : o.Legible db := by
  refine ⟨?_, hlines⟩
  obtain ⟨t, ht, htid⟩ := db.valid.orderTable o ho _ htable
  rw [tableOfOrder, htable, ← htid]
  exact congrArg Option.isSome (db.valid.tableIds.lookup ht)

/-- A placement that has been answered is never lost from sight: whatever happens later, its order
can be read and its total is what the server makes of the lines that are shown; it is of the guest
of the request, and of no user but the one whom the request's token names; and whenever the
listings answer, the kitchen has it once as long as it is open, and its user and its guest, and no
other, have it once among theirs. The kitchen's listing answers unless an open order is without a
table or a line. -/
theorem placed_orders_shown (pf : Platform) (calls : List (Request × Operation))
    (ops : List SocketOp) (w : World) (turns later : List (Nat × Bool)) (i : Nat) (r : Request)
    (input : PlaceOrderInput) (v : Response) (hc : calls[i]? = some (r, .placeOrder input))
    (hv : (runs Pool.turn (serveLive pf calls ops w) turns).threads[i]? = some (.ret v))
    (plan : RowOrder) :
    let w' := (runs Pool.turn (serveLive pf calls ops w) (turns ++ later)).state
    ∃ shown, v = .order shown ∧ ∃ o ∈ w'.db.orders, o.id = shown.id ∧
      o.guestId = (given r.guestId).map (cutVarchar 256) ∧
      (∀ k, o.userId = some k → r.subject pf = some k) ∧ o.Legible w'.db ∧
      (∃ view, (getOrderWithDetails shown.id.text).run noFault w' = (.ok view, w') ∧
        (∃ charges, charges.Perm (view.items.map OrderItem.charge) ∧
          view.totalAmount = r.env.arithmetic.cents charges) ∧
        (r.env.arithmetic = .exact → view.totalAmount = view.itemSum)) ∧
      (∀ restaurant orders,
        ((getKitchenOrders plan (restaurant.map Uuid.text)).run noFault w').1 = .ok orders →
        (orders.map Order.id).count shown.id = if kitchenWants restaurant o = true then 1 else 0) ∧
      (∀ user guest orders,
        ((getMyOrders plan (user.map Uuid.text) guest).run noFault w').1 = .ok orders →
        (orders.map Order.id).count shown.id = if ownerWants user guest o = true then 1 else 0) ∧
      ∀ restaurant, (∃ orders,
        ((getKitchenOrders plan (restaurant.map Uuid.text)).run noFault w').1 = .ok orders) ↔
        ∀ o' ∈ w'.db.orders, kitchenWants restaurant o' = true → o'.Legible w'.db := by
  intro w'
  obtain ⟨shown, p, rfl, ⟨r', input', hc', henv, _, table, u, _, hu, hnew⟩, hid, hne, htotal,
    hkept⟩ := placed_order_kept hc hv
  obtain ⟨o, ho, hcontents, hlines⟩ := hkept later
  rw [hc] at hc'
  cases hc'
  have hoid : o.id = shown.id := (OrderRow.id_of_contents hcontents).trans hid.symm
  have hrow : o.contents.tableId = some table.id ∧
      o.contents.guestId = (given r.guestId).map (cutVarchar 256) ∧ o.contents.userId = u := by
    rw [hcontents, hnew]
    exact ⟨rfl, rfl, rfl⟩
  obtain ⟨htable, hguest, huser⟩ : o.tableId = some table.id ∧
    o.guestId = (given r.guestId).map (cutVarchar 256) ∧ o.userId = u := hrow
  have hlegible : o.Legible w'.db := .of_table ho htable (hlines ▸ hne)
  obtain ⟨view, hview, _, hshown, hitems⟩ := details_ok ho hlegible
  have hcharges : view.totalAmount =
      r.env.arithmetic.cents (view.items.map OrderItem.charge) := by
    rw [hshown, charges_shown hitems, hlines, OrderRow.total_of_contents hcontents, htotal, henv]
  refine ⟨shown, rfl, o, ho, hoid, hguest, fun k hk => hu k (huser.symm.trans hk), hlegible,
    ⟨view, hoid ▸ hview, ⟨_, .refl _, hcharges⟩, fun hexact => ?_⟩, ?_, ?_, ?_⟩
  · rw [hcharges, hexact, view.itemSum_eq]
    rfl
  · intro restaurant orders hok
    rw [← hoid]
    exact (kitchen_shows plan restaurant w').lists orders hok o ho
  · intro user guest orders hok
    rw [← hoid]
    exact (owner_shows plan user (guest_of_myOrders hok) w').lists orders hok o ho
  · exact fun restaurant => (kitchen_shows plan restaurant w').answers

/-- A guest's order of two dishes, once it has been answered. -/
theorem placed_orders_shown_sample :
    ∃ shown view, orderTwoRun.threads[0]? = some (.ret (.order shown)) ∧
      (getOrderWithDetails shown.id.text).run noFault orderTwoRun.state =
        (.ok view, orderTwoRun.state) ∧ view.totalAmount = view.itemSum := by
  have hreturned : ∃ v, orderTwoRun.threads[0]? = some (.ret v) := ⟨_, rfl⟩
  obtain ⟨v, hv⟩ := hreturned
  obtain ⟨shown, rfl, o, _, _, _, _, _, ⟨view, hview, _, hsum⟩, _⟩ :=
    placed_orders_shown samplePlatform [orderTwo] [] sampleWorld (List.replicate 12 (0, false)) [] 0
      _ _ v rfl hv .stored
  exact ⟨shown, view, hv, hview, hsum rfl⟩

end DineFlow
