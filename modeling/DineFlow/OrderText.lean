import DineFlow.OrderSnapshot

namespace DineFlow
open Atomic Relational
set_option autoImplicit true

/-- What the customer has ordered in a line. -/
def OrderItem.effective (i : OrderItem) : EffectiveItem := ⟨i.menuItem.id.text, i.quantity, i.notes⟩

/-- The reads that show orders. -/
inductive OrderRead where
  | order (orderId : String)
  | myOrders (plan : RowOrder) (userId guestId : Option String)
  | kitchenOrders (plan : RowOrder) (restaurantId : Option String)

/-- The orders that a read shows; a read that fails shows none. -/
def OrderRead.shown (f : Site → Bool) (w : World) : OrderRead → List Order
  | .order orderId => ((getOrderWithDetails orderId).run f w).1.toOption.toList
  | .myOrders plan userId guestId =>
    ((getMyOrders plan userId guestId).run f w).1.toOption.getD []
  | .kitchenOrders plan restaurantId =>
    ((getKitchenOrders plan restaurantId).run f w).1.toOption.getD []

/-- A request that is served later; statements of it may fail. -/
structure LaterRequest where
  request : Request
  operation : Operation
  faults : Site → Bool

def LaterRequest.step (pf : Platform) (w : World) (c : LaterRequest) : World :=
  ((handle pf c.request c.operation).run c.faults w).2

theorem Stored.fill (hs : FillStep w w') (h : Stored k total ls w) : Stored k total ls w' := by
  cases hs <;> exact h.of_rows rfl rfl rfl

theorem Stored.desk (hs : DeskStep w w') (h : Stored k total ls w) : Stored k total ls w' := by
  cases hs with
  | intro users bookings ht => exact h.of_rows (by rw [ht]) (by rw [ht]) (by rw [ht])

theorem Stored.read_step (hs : ReadStep w w') (h : Stored k total ls w) : Stored k total ls w' := by
  cases hs
  exact h

/-- Whatever a resolver does, an order that is stored stays as it is. -/
theorem Stored.resolve (pf : Platform) (r : Request) (caller : Option Caller) (op : Operation)
    (f : Site → Bool) (h : Stored k total ls w) :
    Stored k total ls ((op.resolve pf r caller).run f w).2 := by
  have hstep := op.resolve_step pf r caller
  cases op
  case placeOrder input =>
    simp only [Operation.resolve, Prog.bind_eq, Prog.pure_eq, Prog.run_bind_ret]
    exact h.place f r.env input _ r.guestId
  case createMenuItem | updateMenuItem | deleteMenuItem | toggleMenuItemAvailability =>
    exact hstep.invariant (fun _ _ => Stored.menu) f h
  case updateOrderStatus => exact hstep.invariant (fun _ _ => Stored.status) f h
  case addToCart | removeFromCart | clearCart =>
    exact hstep.invariant (fun _ _ => Stored.cart) f h
  case menu | menuItemsByTable => exact hstep.invariant (fun _ _ => Stored.fill) f h
  case register | updateProfile | createBooking | updateBookingStatus =>
    exact hstep.invariant (fun _ _ => Stored.desk) f h
  all_goals exact hstep.invariant (fun _ _ => Stored.read_step) f h

theorem Stored.request (pf : Platform) (c : LaterRequest) (h : Stored k total ls w) :
    Stored k total ls (c.step pf w) := by
  have hread : (guards pf c.operation.route c.request).Keeps id :=
    guards_keeps pf c.operation.route c.request
  have hguards : ((guards pf c.operation.route c.request).run c.faults w).2 = w :=
    hread.run c.faults w
  rw [LaterRequest.step, handle, Prog.bind_eq, Prog.run_bind]
  generalize (guards pf c.operation.route c.request).run c.faults w = r at hguards
  obtain ⟨r, w'⟩ := r
  cases (hguards : w' = w)
  cases r with
  | error e => exact h
  | ok caller => exact h.resolve pf c.request caller c.operation c.faults

end DineFlow
