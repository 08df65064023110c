import DineFlow.ApiSteps
import DineFlow.Placement
import DineFlow.Runs

namespace DineFlow
open Atomic Relational
set_option autoImplicit true

/-- The calls that may follow a placement. -/
inductive LaterCall where
  | menu (m : MenuMutation) (userId : String)
  | addToCart (env : Env) (input : AddToCartInput) (userId guestId : Option String)
  | getCart (env : Env) (userId guestId : Option String)
  | removeFromCart (env : Env) (menuItemId : String) (userId guestId : Option String)
  | clearCart (userId guestId : Option String)
  | placeOrder (env : Env) (input : PlaceOrderInput) (userId guestId : Option String)
  | updateOrderStatus (orderId : String) (status : OrderStatus) (userId : String)

/-- The state after a call in which the statements at the sites of `f` fail. -/
def LaterCall.after (f : Site → Bool) (w : World) : LaterCall → World
  | .menu m userId => ((m.prog userId).run f w).2
  | .addToCart env input userId guestId => ((DineFlow.addToCart env input userId guestId).run f w).2
  | .getCart env userId guestId => ((DineFlow.getCart env userId guestId).run f w).2
  | .removeFromCart env menuItemId userId guestId =>
    ((DineFlow.removeFromCart env menuItemId userId guestId).run f w).2
  | .clearCart userId guestId => ((DineFlow.clearCart userId guestId).run f w).2
  | .placeOrder env input userId guestId =>
    ((DineFlow.placeOrder env input userId guestId).run f w).2
  | .updateOrderStatus orderId status userId =>
    ((DineFlow.updateOrderStatus orderId status userId).run f w).2

def laterStep (w : World) (c : LaterCall × (Site → Bool)) : World := c.1.after c.2 w

/-- An order with its total, its table and its lines. -/
structure Stored (k : Uuid) (total : Int) (ls : List OrderItemRow) (w : World) : Prop where
  order : ∃ o ∈ w.db.orders, o.id = k ∧ o.totalAmount = total ∧
    ∃ t ∈ w.db.tables, o.tableId = some t.id
  lines : linesOf k w.db = ls

theorem Stored.of_rows (h : Stored k total ls w) (ho : w'.db.orders = w.db.orders)
    (ht : w'.db.tables = w.db.tables) (hl : w'.db.orderItems = w.db.orderItems) :
    Stored k total ls w' := by
  constructor
  · rw [ho, ht]
    exact h.order
  · rw [linesOf, hl]
    exact h.lines

theorem Stored.menu (hs : MenuStep w w') (h : Stored k total ls w) : Stored k total ls w' := by
  obtain ⟨items, favorites, ht⟩ := hs.tables
  exact h.of_rows (by rw [ht]) (by rw [ht]) (by rw [ht])

theorem Stored.cart (hs : CartStep w w') (h : Stored k total ls w) :
    Stored k total ls w' :=
  h.of_rows (by rw [hs.1]) (by rw [hs.1]) (by rw [hs.1])

theorem Stored.status (hs : StatusStep w w') (h : Stored k total ls w) :
    Stored k total ls w' := by
  cases hs with
  | refl => exact h
  | emit e => exact h.of_rows rfl rfl rfl
  | update k' s =>
    refine ⟨?_, h.lines⟩
    obtain ⟨o, ho, hid, htotal, htable⟩ := h.order
    have hkeep : ∀ o, (fun o : OrderRow => (o.id, o.totalAmount, o.tableId))
        (OrderRow.setStatus s o) = (o.id, o.totalAmount, o.tableId) := fun _ => rfl
    obtain ⟨o', ho', he⟩ : ∃ o' ∈ updateWhere OrderRow.id k' (OrderRow.setStatus s) w.db.orders,
        (o'.id, o'.totalAmount, o'.tableId) = (o.id, o.totalAmount, o.tableId) :=
      exists_mem_updateWhere hkeep k' ho
    simp only [Prod.mk.injEq] at he
    exact ⟨o', ho', he.1.trans hid, he.2.1.trans htotal, he.2.2 ▸ htable⟩

theorem Stored.place (f : Site → Bool) (env : Env) (input : PlaceOrderInput)
    (userId guestId : Option String) (h : Stored k total ls w) :
    Stored k total ls ((placeOrder env input userId guestId).run f w).2 := by
  by_cases hi : ∃ table rows order db, Inserts f env input userId guestId w table rows order db
  · obtain ⟨table, rows, order, db, hi⟩ := hi
    obtain ⟨new, ht, hid, _⟩ := hi.leaves
    obtain ⟨o, ho, hok, htotal, htable⟩ := h.order
    have hne : order.id ≠ k := fun he => insertOrder_fresh hi.inserted o ho (hok.trans he.symm)
    constructor
    · rw [ht]
      exact ⟨o, List.mem_append_left _ ho, hok, htotal, htable⟩
    · have hnone : (new.filter fun l => l.orderId = k) = [] := by
        rw [List.filter_eq_nil_iff]
        intro l hl
        simpa [hid l hl] using hne
      rw [linesOf, ht, List.filter_append, hnone, List.append_nil]
      exact h.lines
  · obtain ⟨e, hr⟩ := placeOrder_refused hi
    rw [hr]
    exact h

theorem Stored.later (c : LaterCall × (Site → Bool)) (h : Stored k total ls w) :
    Stored k total ls (laterStep w c) := by
  obtain ⟨call, f⟩ := c
  cases call with
  | menu m userId => exact (m.within userId).invariant (fun _ _ => Stored.menu) f h
  | addToCart env input userId guestId =>
    exact (addToCart_cartStep env input userId guestId).invariant (fun _ _ => Stored.cart) f h
  | getCart env userId guestId =>
    have hread : (getCart env userId guestId).Keeps id := getCart_keeps env userId guestId
    have hsame : ((getCart env userId guestId).run f w).2 = w := hread.run f w
    rw [laterStep, LaterCall.after, hsame]
    exact h
  | removeFromCart env menuItemId userId guestId =>
    exact (removeFromCart_cartStep env menuItemId userId guestId).invariant
      (fun _ _ => Stored.cart) f h
  | clearCart userId guestId =>
    exact (clearCart_cartStep userId guestId).invariant (fun _ _ => Stored.cart) f h
  | placeOrder env input userId guestId => exact h.place f env input userId guestId
  | updateOrderStatus orderId status userId =>
    exact (updateOrderStatus_within orderId status userId).invariant
      (fun _ _ => Stored.status) f h

theorem Stored.runs (cs : List (LaterCall × (Site → Bool))) (h : Stored k total ls w) :
    Stored k total ls (Atomic.runs laterStep w cs) :=
  runs_keep (fun _ c hw => hw.later c) h cs

/-- A line of an order, without the details of the dish. -/
structure OrderLine where
  id : Uuid
  menuItemId : Uuid
  quantity : Int
  price : Int
  notes : Option String

def OrderItem.line (i : OrderItem) : OrderLine :=
  ⟨i.id, i.menuItem.id, i.quantity, i.price, i.notes⟩

def OrderItemRow.line (l : OrderItemRow) : OrderLine :=
  ⟨l.id, l.menuItemId, l.quantity, l.price, l.notes⟩

theorem orderItemsView_lines {lines : List OrderItemRow} {rows : List MenuItemRow}
    (h : ∀ l ∈ lines, ∃ r ∈ rows, r.id = l.menuItemId) :
    (orderItemsView lines rows).map OrderItem.line = lines.map OrderItemRow.line := by
  induction lines with
  | nil => rfl
  | cons l ls ih =>
    have hrest := ih fun l' hl' => h l' (List.mem_cons_of_mem _ hl')
    obtain ⟨r, hr⟩ : ∃ r, (rows.find? fun r => r.id = l.menuItemId) = some r :=
      lookup_isSome (h l List.mem_cons_self)
    have hid : r.id = l.menuItemId := by simpa using List.find?_some hr
    rw [orderItemsView, List.filterMap_cons, hr, List.map_cons, ← hrest, OrderItemRow.line, ← hid]
    rfl

theorem menuOf_lines (k : Uuid) (db : Db) :
    ∀ l ∈ linesOf k db, ∃ r ∈ menuOf (linesOf k db) db, r.id = l.menuItemId := by
  intro l hl
  obtain ⟨r, hr, hid⟩ := db.valid.lineItem l (List.mem_filter.1 hl).1 _ rfl
  refine ⟨r, List.mem_filter.2 ⟨hr, ?_⟩, hid⟩
  rw [decide_eq_true_eq, hid]
  exact List.mem_map_of_mem hl

theorem Stored.read (h : Stored k total ls w) (hne : ls ≠ []) :
    ∃ v, ((getOrderWithDetails k.text).run noFault w).1 = .ok v ∧ v.totalAmount = total ∧
      v.items.map OrderItem.line = ls.map OrderItemRow.line := by
  obtain ⟨o, ho, rfl, htotal, t, ht, htable⟩ := h.order
  obtain ⟨l, hl⟩ := List.exists_mem_of_ne_nil ls hne
  rw [← h.lines] at hl
  obtain ⟨hmem, hlo⟩ := List.mem_filter.1 hl
  refine ⟨_, congrArg Prod.fst (getOrderWithDetails_present ho htable ht hmem
    (of_decide_eq_true hlo) detailUp_noFault), htotal, ?_⟩
  exact (orderItemsView_lines (menuOf_lines o.id w.db)).trans (by rw [h.lines])

/-- The price of a dish on the menu. -/
def menuPrice (db : Db) (menuItemId : String) : Option Int :=
  (rowOf db.menuItems menuItemId).map MenuItemRow.price

theorem rowOf_menu {db : Db} (h : r ∈ db.menuItems) (hk : r.id.text = k) :
    rowOf db.menuItems k = some r := by
  obtain ⟨r', hr'⟩ : ∃ r', rowOf db.menuItems k = some r' :=
    Option.isSome_iff_exists.1 (List.find?_isSome.2 ⟨r, h, by simpa using hk⟩)
  obtain ⟨hmem, hid⟩ := rowOf_mem hr'
  have hsame : r'.id = r.id := Uuid.text_injective (hid.trans hk.symm)
  rw [hr', db.valid.menuItemIds.eq_of_mem hmem h hsame]

theorem orderItemsData_prices {db : Db} (hrows : ∀ r ∈ rows, r ∈ db.menuItems)
    (h : unavailableItems rows items = []) :
    (orderItemsData rows items).map (fun d => (d.item, some d.price)) =
      items.map fun i => (i, menuPrice db i.menuItemId) := by
  have hitems := orderItemsData_items h
  have hpriced : ∀ d ∈ orderItemsData rows items, some d.price = menuPrice db d.menuItemId := by
    intro d hd
    obtain ⟨r, hr, hid, hprice⟩ := orderItemsData_priced hrows items d hd
    rw [menuPrice, rowOf_menu hr hid.symm, Option.map_some, hprice]
  conv_rhs => rw [← hitems, List.map_map]
  exact List.map_congr_left fun d hd => Prod.ext rfl (hpriced d hd)

end DineFlow
