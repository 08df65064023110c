import DineFlow.ApiSteps
import DineFlow.Permits
import DineFlow.StaffRows

namespace DineFlow
open Atomic Relational
set_option autoImplicit true

/-- The roles that an operation's own check lets change the menu. -/
def Operation.editor : Operation → UserRole → Bool
  | .createMenuItem _ | .updateMenuItem _ | .deleteMenuItem _ => fun role => role = .manager
  | .toggleMenuItemAvailability _ => fun role => role = .manager || role = .kitchen
  | _ => fun _ => false

def Operation.EditsMenu : Operation → Prop
  | .createMenuItem _ | .updateMenuItem _ | .deleteMenuItem _
  | .toggleMenuItemAvailability _ => True
  | _ => False

def Operation.SetsStatus : Operation → Prop
  | .updateOrderStatus _ _ => True
  | _ => False

def MenuKept (w w' : World) : Prop := w'.db.menuItems = w.db.menuItems

/-- No order that was there has another status now. -/
def StatusesKept (w w' : World) : Prop :=
  ∀ o ∈ w.db.orders, ∀ o' ∈ w'.db.orders, o'.id = o.id → o'.status = o.status

theorem StatusesKept.of_orders (h : w'.db.orders = w.db.orders) : StatusesKept w w' := by
  intro o ho o' ho' hid
  rw [h] at ho'
  rw [w.db.valid.orderIds.eq_of_mem ho' ho hid]

theorem PlaceStep.statusesKept (h : PlaceStep w w') : StatusesKept w w' := by
  cases h with
  | order new h =>
    obtain ⟨hacc, ht⟩ := Db.insertOrder_ok_iff.1 h
    intro o ho o' ho' hid
    dsimp only at ho'
    rw [ht] at ho'
    rcases List.mem_append.1 ho' with ho' | ho'
    · rw [w.db.valid.orderIds.eq_of_mem ho' ho hid]
    · rw [List.mem_singleton.1 ho'] at hid
      exact absurd hid.symm ((OrderRow.accepted_refs hacc).1 o ho)
  | line l h => exact .of_orders (by rw [(Db.insertOrderItem_ok_iff.1 h).2])
  | refl => exact .of_orders rfl
  | clear key => exact .of_orders rfl
  | emit e => exact .of_orders rfl

theorem Operation.Step.menuKept (h : Operation.Step op w w') (hop : ¬op.EditsMenu) :
    MenuKept w w' := by
  cases op
  case createMenuItem | updateMenuItem | deleteMenuItem | toggleMenuItemAvailability =>
    exact absurd trivial hop
  case updateOrderStatus => cases h <;> rfl
  case placeOrder =>
    obtain ⟨orders, lines, ht⟩ := PlaceStep.tables h
    rw [MenuKept, ht]
  case addToCart | removeFromCart | clearCart => exact congrArg (fun db : Db => db.menuItems) h.1
  case menu | menuItemsByTable => cases h <;> rfl
  case register | updateProfile | createBooking | updateBookingStatus =>
    cases h with
    | intro users bookings h => rw [MenuKept, h]
  all_goals
    cases h
    rfl

theorem Operation.Step.statusesKept (h : Operation.Step op w w') (hop : ¬op.SetsStatus) :
    StatusesKept w w' := by
  cases op
  case updateOrderStatus => exact absurd trivial hop
  case createMenuItem | updateMenuItem | deleteMenuItem | toggleMenuItemAvailability =>
    obtain ⟨items, favorites, ht⟩ := MenuStep.tables h
    exact .of_orders (by rw [ht])
  case placeOrder => exact PlaceStep.statusesKept h
  case addToCart | removeFromCart | clearCart =>
    exact .of_orders (congrArg (fun db : Db => db.orders) h.1)
  case menu | menuItemsByTable => cases h <;> exact .of_orders rfl
  case register | updateProfile | createBooking | updateBookingStatus =>
    cases h with
    | intro users bookings h => exact .of_orders (by rw [h])
  all_goals
    cases h
    exact .of_orders rfl

/-- The row that the request's token names has a role that is allowed. -/
def CallerRole (pf : Platform) (r : Request) (allowed : UserRole → Bool) (w : World) : Prop :=
  ∃ u ∈ w.db.users, r.subject pf = some u.id ∧ allowed u.role = true

section Checks

variable {pf : Platform} {r : Request} {R : World → World → Prop}

theorem roleCheck_awaits (hR : ∀ w, R w w) (site : Site)
    (hsubject : ∀ k, Uuid.parse userId = some k → r.subject pf = some k)
    {next : Option UserRow → Api Unit}
    (hnext : ∀ user, (∀ u, user = some u → allowed u.role = false) →
      ∃ e, next user = .throw e) :
    ((select site (userById userId)).bind next).Awaits site (CallerRole pf r allowed) R
      fun _ => False := by
  refine Prog.Awaits.bind (Q := fun user => ∀ u, user = some u → allowed u.role = false)
    (Prog.awaits_query hR ?_ ?_) ?_
  · intro w user hrole hread u hu
    have hrow : (userById userId w.db).toOption.getD none = some u := by
      rw [mapError_ok hread, hu]
      rfl
    obtain ⟨hmem, hid⟩ := userById_row hrow
    apply Bool.eq_false_of_not_eq_true
    intro hallowed
    exact hrole ⟨u, hmem, hsubject u.id hid, hallowed⟩
  · intro user hz
    cases hz
  · intro user huser
    obtain ⟨e, he⟩ := hnext user huser
    rw [he]
    trivial

theorem verifyRole_awaits (hR : ∀ w, R w w)
    (hsubject : ∀ k, Uuid.parse userId = some k → r.subject pf = some k) (message : String) :
    (verifyRole allowed message userId).Awaits .menuRole (CallerRole pf r allowed) R
      fun _ => False := by
  refine roleCheck_awaits hR .menuRole hsubject fun user huser => ?_
  cases user with
  | none => exact ⟨.forbidden message, rfl⟩
  | some u => exact ⟨.forbidden message, by simp [huser u rfl]⟩

theorem verifyStaffPermission_awaits (hR : ∀ w, R w w)
    (hsubject : ∀ k, Uuid.parse userId = some k → r.subject pf = some k) :
    (verifyStaffPermission userId).Awaits .staffCheck (CallerRole pf r UserRole.isStaff) R
      fun _ => False := by
  refine roleCheck_awaits hR .staffCheck hsubject fun user huser => ?_
  cases user with
  | none => exact ⟨_, rfl⟩
  | some u =>
    refine ⟨.forbidden "Only staff members can update order status", ?_⟩
    simp [huser u rfl]

theorem callerId_subject (h : ∀ u, caller = some (Caller.user u) → r.subject pf = some u.id)
    (k : Uuid) (hk : Uuid.parse ((caller.bind Caller.id).getD "") = some k) :
    r.subject pf = some k := by
  cases caller with
  | none => cases hk
  | some c =>
    cases c with
    | guest => cases hk
    | user u =>
      have hp : Uuid.parse u.id.text = some k := hk
      rw [Uuid.parse_text] at hp
      cases hp
      exact h u rfl

theorem existingItem_awaits (hR : ∀ w, R w w) (itemId : String) :
    (existingItem itemId).Awaits check grants R fun _ => True :=
  Prog.Within.awaits ((within_select hR _ _).bind fun _ => within_orElse _ _)
    (Prog.returns_true _)

variable {caller : Option Caller}
variable (hcaller : ∀ u, caller = some (Caller.user u) → r.subject pf = some u.id)
include hcaller

theorem resolve_awaits_editor (op : Operation) :
    (op.resolve pf r caller).Awaits .menuRole (CallerRole pf r op.editor) MenuKept
      fun _ => ¬op.EditsMenu := by
  have hR : ∀ w, MenuKept w w := fun _ => rfl
  have hsubject := callerId_subject hcaller
  by_cases hop : op.EditsMenu
  · cases op
    case createMenuItem input =>
      refine Prog.Awaits.bind (Q := fun _ => False) ?_ fun _ h => h.elim
      exact (verifyRole_awaits hR hsubject _).bind fun _ h => h.elim
    case updateMenuItem input =>
      refine Prog.Awaits.bind (Q := fun _ => False) ?_ fun _ h => h.elim
      refine (existingItem_awaits hR _).bind fun _ _ => ?_
      exact (verifyRole_awaits hR hsubject _).bind fun _ h => h.elim
    case deleteMenuItem itemId =>
      refine Prog.Awaits.bind (Q := fun _ => False) ?_ fun _ h => h.elim
      refine (existingItem_awaits hR _).bind fun _ _ => ?_
      exact (verifyRole_awaits hR hsubject _).bind fun _ h => h.elim
    case toggleMenuItemAvailability itemId =>
      refine Prog.Awaits.bind (Q := fun _ => False) ?_ fun _ h => h.elim
      refine (existingItem_awaits hR _).bind fun _ _ => ?_
      exact (verifyRole_awaits hR hsubject _).bind fun _ h => h.elim
    all_goals exact hop.elim
  · exact Prog.Within.awaits
      ((op.resolve_step pf r caller).mono fun _ _ h => h.menuKept hop)
      ((Prog.returns_true _).mono fun _ _ => hop)

theorem resolve_awaits_staff (op : Operation) :
    (op.resolve pf r caller).Awaits .staffCheck (CallerRole pf r UserRole.isStaff) StatusesKept
      fun _ => ¬op.SetsStatus := by
  have hR : ∀ w, StatusesKept w w := fun _ => .of_orders rfl
  by_cases hop : op.SetsStatus
  · cases op
    case updateOrderStatus orderId status =>
      refine Prog.Awaits.bind (Q := fun _ => False) ?_ fun _ h => h.elim
      exact (verifyStaffPermission_awaits hR (callerId_subject hcaller)).bind fun _ h => h.elim
    all_goals exact hop.elim
  · exact Prog.Within.awaits
      ((op.resolve_step pf r caller).mono fun _ _ h => h.statusesKept hop)
      ((Prog.returns_true _).mono fun _ _ => hop)

end Checks

/-- The guards read only, and the caller they return is the one that the token names. -/
theorem guards_awaits (pf : Platform) (r : Request) (route : Route) (hR : ∀ w, R w w) :
    (guards pf route r).Awaits check grants R fun caller =>
      ∀ u, caller = some (.user u) → r.subject pf = some u.id :=
  Prog.Within.awaits ((guards_keeps pf route r).within hR) (guards_subject pf r route)

theorem handle_awaits_editor (pf : Platform) (r : Request) (op : Operation) :
    (handle pf r op).Awaits .menuRole (CallerRole pf r op.editor) MenuKept
      fun _ => ¬op.EditsMenu :=
  (guards_awaits (R := MenuKept) pf r op.route fun _ => rfl).bind fun _ hcaller =>
    resolve_awaits_editor hcaller op

theorem handle_awaits_staff (pf : Platform) (r : Request) (op : Operation) :
    (handle pf r op).Awaits .staffCheck (CallerRole pf r UserRole.isStaff) StatusesKept
      fun _ => ¬op.SetsStatus :=
  (guards_awaits pf r op.route fun _ => .of_orders rfl).bind fun _ hcaller =>
    resolve_awaits_staff hcaller op

/-- Whoever acts on the system: a request, or somebody with access to the database who changes
roles, deletes users or does anything else that leaves the menu and the orders' states alone. -/
inductive Client where
  | request (r : Request) (op : Operation)
  | outside (p : Api Response) (h : p.Within fun w w' => MenuKept w w' ∧ StatusesKept w w')

def Client.prog (pf : Platform) : Client → Api Response
  | .request r op => handle pf r op
  | .outside p _ => p

def clientPool (pf : Platform) (clients : List Client) (w : World) :
    Pool (Api Response) Site World :=
  ⟨w, clients.map (Client.prog pf), []⟩

/-- Client `i` is a request whose check at `site` met, along the schedule, a row of its caller
with a role that its operation allows. -/
def Cleared (pf : Platform) (clients : List Client) (w : World) (schedule : List Nat) (i : Nat)
    (site : Site) (allowed : Operation → UserRole → Bool) : Prop :=
  ∃ r op, clients[i]? = some (.request r op) ∧
    Pool.Granted Prog.next (clientPool pf clients w) schedule i site (CallerRole pf r (allowed op))

theorem clientPool_threads (pf : Platform) (clients : List Client) (w : World) (i : Nat) :
    (clientPool pf clients w).threads[i]? = clients[i]?.map (Client.prog pf) :=
  List.getElem?_map

/-- Who takes a step outside of a relation that others keep has been cleared for it. -/
theorem cleared_of_step {R : World → World → Prop} {Q : Operation → Response → Prop}
    (hR : ∀ w, R w w)
    (hout : ∀ w w', MenuKept w w' ∧ StatusesKept w w' → R w w')
    (hreq : ∀ r op, (handle pf r op).Awaits site (CallerRole pf r (allowed op)) R (Q op))
    {schedule : List Nat}
    (hstep : ¬R (runs (Pool.step Prog.next) (clientPool pf clients w) schedule).state
      ((runs (Pool.step Prog.next) (clientPool pf clients w) schedule).step Prog.next i).state) :
    Cleared pf clients w schedule i site allowed := by
  have ht := clientPool_threads pf clients w i
  cases hc : clients[i]? with
  | none =>
    rw [hc] at ht
    rw [Pool.step_absent _ (Pool.runs_absent _ ht schedule)] at hstep
    exact absurd (hR _) hstep
  | some c =>
    rw [hc] at ht
    cases c with
    | request r op => exact ⟨r, op, hc, Pool.granted_of_step ht (hreq r op) hR hstep⟩
    | outside p h =>
      have hp : p.Awaits site (fun _ => False) R fun _ => True :=
        Prog.Within.awaits (h.mono hout) (Prog.returns_true p)
      obtain ⟨_, _, _, _, hfalse⟩ := Pool.granted_of_step ht hp hR hstep
      exact hfalse.elim

/-- In whatever way requests and changes to the users table interleave, the menu and the status
of an order change, and the operations that change them succeed, only for a request whose caller
had the role when it was checked. -/
theorem writes_cleared (pf : Platform) (clients : List Client) (w : World) (schedule : List Nat)
    (i : Nat) :
    let now := runs (Pool.step Prog.next) (clientPool pf clients w) schedule
    let after := now.step Prog.next i
    (after.state.db.menuItems ≠ now.state.db.menuItems →
      Cleared pf clients w schedule i .menuRole Operation.editor) ∧
    (¬StatusesKept now.state after.state →
      Cleared pf clients w schedule i .staffCheck fun _ => UserRole.isStaff) ∧
    ∀ r op v, clients[i]? = some (.request r op) → now.threads[i]? = some (.ret v) →
      (op.EditsMenu → Cleared pf clients w schedule i .menuRole Operation.editor) ∧
      (op.SetsStatus → Cleared pf clients w schedule i .staffCheck fun _ => UserRole.isStaff) := by
  intro now after
  refine ⟨?_, ?_, ?_⟩
  · intro hmenu
    exact cleared_of_step (R := MenuKept) (fun _ => rfl) (fun _ _ h => h.1)
      (handle_awaits_editor pf) hmenu
  · intro hstatus
    exact cleared_of_step (fun _ => .of_orders rfl) (fun _ _ h => h.2)
      (handle_awaits_staff pf) hstatus
  · intro r op v hc hret
    have ht := clientPool_threads pf clients w i
    rw [hc] at ht
    constructor
    · intro hop
      refine ⟨r, op, hc, ?_⟩
      exact Pool.granted_of_ret ht (handle_awaits_editor pf r op) hret (not_not.2 hop)
    · intro hop
      refine ⟨r, op, hc, ?_⟩
      exact Pool.granted_of_ret ht (handle_awaits_staff pf r op) hret (not_not.2 hop)

end DineFlow
