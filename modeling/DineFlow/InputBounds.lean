import DineFlow.ServiceRules

namespace DineFlow
open Atomic Relational
set_option autoImplicit true

/-- Nobody has ordered less than one of anything, and nothing costs less than nothing. -/
structure RowsInBounds (t : Tables) : Prop where
  prices : ∀ r ∈ t.menuItems, 0 ≤ r.price
  lines : ∀ l ∈ t.orderItems, 1 ≤ l.quantity ∧ 0 ≤ l.price
  totals : ∀ o ∈ t.orders, 0 ≤ o.totalAmount

structure InBounds (w : World) : Prop where
  carts : CartsSatisfy (fun _ e => 1 ≤ e.quantity) w.redis
  rows : RowsInBounds w.db.toTables

/-- The input satisfies the `@Min` that its type declares. -/
def Operation.MeetsMin : Operation → Prop
  | .addToCart input => 1 ≤ input.quantity
  | .placeOrder input => ∀ i ∈ input.items.getD [], 1 ≤ i.quantity
  | .createMenuItem input => 0 ≤ input.price
  | .updateMenuItem input => ∀ price, input.price = some (some price) → 0 ≤ price
  | _ => True

def BoundsMove (w w' : World) : Prop := InBounds w → InBounds w'

theorem BoundsMove.of_rows (h : RowsInBounds w.db.toTables → RowsInBounds db.toTables) :
    BoundsMove w { w with db := db } :=
  fun hw => ⟨hw.carts, h hw.rows⟩

theorem RowsInBounds.setStatus (h : RowsInBounds t) (k : Uuid) (s : OrderStatus) :
    RowsInBounds
      { t with orders := updateWhere OrderRow.id k (OrderRow.setStatus s) t.orders } where
  __ := h
  totals := by
    intro o ho
    rcases mem_updateWhere ho with ho | ⟨o', ho', _, rfl⟩
    · exact h.totals o ho
    · exact h.totals o' ho'

theorem boundsRely :
    CartRely (fun _ e => 1 ≤ e.quantity) InBounds BoundsMove where
  refl := fun _ hw => hw
  trans := fun h h' hw => h' (h hw)
  keeps := fun _ _ h hw => h hw
  carts := fun _ hw => hw.carts
  redis := fun _ _ h hw => ⟨h hw.carts, hw.rows⟩
  emit := fun _ _ hw => ⟨hw.carts, hw.rows⟩
  status := by
    intro w w' h hw
    cases h with
    | refl => exact hw
    | emit e => exact ⟨hw.carts, hw.rows⟩
    | update k s => exact ⟨hw.carts, hw.rows.setStatus k s⟩
  desk := by
    intro w w' h hw
    cases h with
    | intro users bookings h =>
      refine ⟨hw.carts, ?_⟩
      rw [h]
      exact ⟨hw.rows.prices, hw.rows.lines, hw.rows.totals⟩

theorem menuWrites_bounds (hop : Operation.MeetsMin op) (h : op.MenuWrites env db db')
    (ht : RowsInBounds db.toTables) : RowsInBounds db'.toTables := by
  obtain ⟨items, favorites, htables⟩ := h.tables
  have hlines : db'.orderItems = db.orderItems := by rw [htables]
  have horders : db'.orders = db.orders := by rw [htables]
  refine ⟨?_, hlines ▸ ht.lines, horders ▸ ht.totals⟩
  intro row hrow
  cases h.rows row hrow with
  | old h => exact ht.prices row h
  | new input he hnew _ =>
    subst he
    rw [hnew]
    exact toCents_nonneg hop
  | @patched old p hold he hprice =>
    have hp : row.price = p.price.getD old.price := by
      rw [he]
      rfl
    rw [hp]
    rcases hprice with hnone | ⟨input, price, he, hp, hc⟩
    · rw [hnone]
      exact ht.prices old hold
    · subst he
      rw [hc]
      exact toCents_nonneg (hop price hp)

theorem insertOrder_bounds (h : insertOrder env input table userId guestId amounts db = .ok r)
    (htotal : 0 ≤ env.arithmetic.cents amounts) (ht : RowsInBounds db.toTables) :
    RowsInBounds r.2.toTables := by
  obtain ⟨u, _, _, hrow⟩ := insertOrder_row h
  rw [insertOrder_tables h]
  refine ⟨ht.prices, ht.lines, ?_⟩
  intro o ho
  rcases List.mem_append.1 ho with ho | ho
  · exact ht.totals o ho
  · rw [List.mem_singleton.1 ho, hrow]
    exact htotal

theorem insertLine_bounds (h : insertLine env order i d db = .ok r)
    (hd : 1 ≤ d.quantity ∧ 0 ≤ d.price) (ht : RowsInBounds db.toTables) :
    RowsInBounds r.2.toTables := by
  obtain ⟨u, _, hi⟩ := insertLine_row h
  rw [(Db.insertOrderItem_ok_iff.1 hi).2]
  refine ⟨ht.prices, ?_, ht.totals⟩
  intro l hl
  rcases List.mem_append.1 hl with hl | hl
  · exact ht.lines l hl
  · rw [List.mem_singleton.1 hl]
    exact hd

theorem resolve_bounds (pf : Platform) (r : Request) (caller : Option Caller)
    (hop : Operation.MeetsMin op) (hw : InBounds w) :
    (op.resolve pf r caller).Sound BoundsMove (fun _ _ => True) w := by
  refine op.resolve_sound boundsRely pf r caller ?_ ?_ ?_ hw
  · exact fun w db h => .of_rows (menuWrites_bounds hop h)
  · intro input he key _
    subst he
    have hmin : 1 ≤ input.quantity := hop
    exact ⟨fun _ => hmin, fun q _ _ (hq : 1 ≤ q) => (by omega : 1 ≤ q + input.quantity)⟩
  · intro input he
    subst he
    refine placeOrder_sound (T := fun _ => True) (E := fun e => 1 ≤ e.quantity)
      (D := fun d => 1 ≤ d.quantity ∧ 0 ≤ d.price) (F := fun _ _ => True) boundsRely ?_ ?_
      (fun _ _ _ _ _ => trivial) ?_ (fun _ _ _ he => he) hop (fun _ _ _ _ => trivial) hw
    · exact fun w e row hw he hrow _ => ⟨he, hw.rows.prices row hrow⟩
    · intro w table data row _ _ hd h
      have htotal : 0 ≤ r.env.arithmetic.cents (OrderItemData.amounts data) := by
        refine r.env.arithmetic.cents_nonneg _ fun a ha => ?_
        obtain ⟨d, hd', rfl⟩ := List.mem_map.1 ha
        exact ⟨(hd d hd').2, le_trans zero_le_one (hd d hd').1⟩
      exact ⟨.of_rows (insertOrder_bounds h htotal), trivial⟩
    · exact fun w order i d r _ _ hd h => .of_rows (insertLine_bounds h hd)

/-- If every request meets the bounds that its input type declares, the carts, the menu and the
orders stay within them, however the requests interleave and whichever statements fail. -/
theorem inputs_keep_bounds (pf : Platform) (calls : List (Request × Operation))
    (expiring : List String) (w : World) (hw : InBounds w) (h : ∀ c ∈ calls, c.2.MeetsMin)
    (turns : List (Nat × Bool)) :
    InBounds (runs Pool.turn (serveExpiring pf calls expiring w) turns).state :=
  serveExpiring_invariant boundsRely
    (fun c hc caller _ _ hw => resolve_bounds pf c.1 caller (h c hc) hw) expiring hw turns

theorem sampleWorld_inBounds : InBounds sampleWorld where
  carts := fun _ _ _ h => by cases h
  rows := ⟨by decide, by decide, by decide⟩

/-- A guest who puts dishes into a cart. -/
def addRun (quantity : Int) : Pool (Api Response) Site World :=
  runs Pool.turn (serveExpiring samplePlatform
    [(bearer "g", .addToCart ⟨(sampleId 4).text, quantity, none⟩)] [] sampleWorld)
    (List.replicate 4 (0, false))

theorem inputs_keep_bounds_sample : InBounds (addRun 2).state := by
  apply inputs_keep_bounds _ _ _ _ sampleWorld_inBounds
  intro c hc
  rw [List.mem_singleton.1 hc]
  exact (by decide : (1 : Int) ≤ 2)

/-- Nothing on the way from the request to the cart looks at the bound. -/
theorem addToCart_out_of_bounds : InBounds sampleWorld ∧ ¬InBounds (addRun (-1)).state := by
  refine ⟨sampleWorld_inBounds, fun h => ?_⟩
  have hcart : ∃ e c i, (addRun (-1)).state.redis.get "guest:cart:g" = some e ∧ e.value = .cart c ∧
      i ∈ c.items ∧ i.quantity = -1 :=
    ⟨_, _, _, rfl, rfl, List.mem_cons_self, rfl⟩
  obtain ⟨e, c, i, hget, hvalue, hi, hq⟩ := hcart
  have hmin : 1 ≤ i.quantity := h.carts _ e c hget hvalue i hi
  omega

end DineFlow
