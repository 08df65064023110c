import DineFlow.Authorization
import DineFlow.CartKeys
import DineFlow.Interference
import DineFlow.Placement

namespace DineFlow
open Atomic Relational
set_option autoImplicit true

/-- Orders of the user carry the guest token, as its column holds it: they are there already, or a
request of the run places one. -/
def UsedBy (pf : Platform) (calls : List (Request × Operation)) (w : World) (user : Uuid)
    (token : String) : Prop :=
  (∃ o ∈ w.db.orders, o.userId = some user ∧ o.guestId = some token) ∨
    ∃ c ∈ calls, (∃ input, c.2 = .placeOrder input) ∧ c.1.subject pf = some user ∧
      (given c.1.guestId).map (cutVarchar 256) = some token

/-- Nobody who lists orders as a user sends a guest token that another user's orders carry. -/
def Unshared (pf : Platform) (calls : List (Request × Operation)) (w : World) : Prop :=
  ∀ c ∈ calls, c.2 = .myOrders → ∀ user token, c.1.subject pf = some user →
    given c.1.guestId = some token → ∀ other, UsedBy pf calls w other token → other = user

/-- No user has been shown an order that was placed by another one. -/
def Private (pf : Platform) (calls : List (Request × Operation))
    (p : Pool (Api Response) Site World) : Prop :=
  ∀ (i : Nat) r user orders, calls[i]? = some (r, .myOrders) → r.subject pf = some user →
    p.threads[i]? = some (.ret (.orders orders)) → ∀ o ∈ orders, ∀ row ∈ p.state.db.orders,
      row.id = o.id → ∀ other, row.userId = some other → other = user

/-- Every order with a user and a guest token is recorded in `U`. -/
def Recorded (U : Uuid → String → Prop) (w : World) : Prop :=
  ∀ o ∈ w.db.orders, ∀ user token, o.userId = some user → o.guestId = some token → U user token

/-- Orders stay with their users, and new ones are recorded. -/
structure OrdersMove (U : Uuid → String → Prop) (w w' : World) : Prop where
  recorded : Recorded U w → Recorded U w'
  stay : ∀ o ∈ w.db.orders, ∃ o' ∈ w'.db.orders, o'.id = o.id ∧ o'.userId = o.userId

theorem OrdersMove.of_orders (h : w'.db.orders = w.db.orders) : OrdersMove U w w' := by
  constructor
  · intro hw
    rw [Recorded, h]
    exact hw
  · intro o ho
    rw [h]
    exact ⟨o, ho, rfl, rfl⟩

theorem OrdersMove.trans (h : OrdersMove U w w') (h' : OrdersMove U w' w'') :
    OrdersMove U w w'' := by
  constructor
  · exact fun hw => h'.recorded (h.recorded hw)
  · intro o ho
    obtain ⟨o', ho', hid, huser⟩ := h.stay o ho
    obtain ⟨o'', ho'', hid', huser'⟩ := h'.stay o' ho'
    exact ⟨o'', ho'', hid'.trans hid, huser'.trans huser⟩

theorem OrdersMove.of_status (h : StatusStep w w') : OrdersMove U w w' := by
  constructor
  · intro hw o ho user token huser htoken
    obtain ⟨o', ho', he⟩ :=
      h.source (g := fun o : OrderRow => (o.userId, o.guestId)) (fun _ _ => rfl) o ho
    obtain ⟨hu, hg⟩ := Prod.mk.inj he
    exact hw o' ho' user token (hu ▸ huser) (hg ▸ htoken)
  · intro o ho
    obtain ⟨o', ho', he⟩ :=
      h.stay (g := fun o : OrderRow => (o.id, o.userId)) (fun _ _ => rfl) o ho
    exact ⟨o', ho', Prod.mk.inj he⟩

theorem OrdersMove.of_step (h : Operation.Step op w w') (hop : ∀ input, op ≠ .placeOrder input) :
    OrdersMove U w w' := by
  cases op
  case placeOrder input => exact absurd rfl (hop input)
  case updateOrderStatus => exact .of_status h
  case createMenuItem | updateMenuItem | deleteMenuItem | toggleMenuItemAvailability =>
    obtain ⟨items, favorites, ht⟩ := MenuStep.tables h
    exact .of_orders (by rw [ht])
  case addToCart | removeFromCart | clearCart =>
    exact .of_orders (congrArg (fun db : Db => db.orders) h.1)
  case menu | menuItemsByTable => cases h <;> exact .of_orders rfl
  case register | updateProfile | createBooking | updateBookingStatus =>
    cases h with
    | intro users bookings h => exact .of_orders (by rw [h])
  all_goals
    cases h
    exact .of_orders rfl

theorem parseOptUuid_caller (hcaller : ∀ u, caller = some (Caller.user u) → subject = some u.id)
    (h : parseOptUuid (given (caller.bind Caller.id)) = .ok (some user)) :
    subject = some user := by
  cases caller with
  | none => cases h
  | some c =>
    cases c with
    | guest => cases h
    | user u =>
      have hp : parseOptUuid (given (some u.id.text)) = .ok (some user) := h
      rw [given_text, parseOptUuid, parseUuid_text] at hp
      rw [hcaller u rfl]
      exact Except.ok.inj hp

theorem placeOrder_moves (hcaller : ∀ u, caller = some (Caller.user u) → subject = some u.id)
    (hU : ∀ user token, subject = some user →
      (given guestId).map (cutVarchar 256) = some token → U user token) :
    (placeOrder env input (caller.bind Caller.id) guestId).Within (OrdersMove U) := by
  refine placeOrder_within_of (fun _ => .of_orders rfl) ?_ ?_ (fun _ _ _ => .of_orders rfl)
    (fun _ _ => .of_orders rfl)
  · intro w table amounts r h
    obtain ⟨user', huser, _, hrow⟩ := insertOrder_row h
    have horders : r.2.orders = w.db.orders ++ [r.1] := by rw [insertOrder_tables h]
    constructor
    · intro hw o ho user token hu hg
      dsimp only at ho
      rw [horders] at ho
      rcases List.mem_append.1 ho with ho | ho
      · exact hw o ho user token hu hg
      · rw [List.mem_singleton.1 ho, hrow] at hu hg
        have hu' : user' = some user := hu
        rw [hu'] at huser
        exact hU user token (parseOptUuid_caller hcaller huser) hg
    · intro o ho
      dsimp only
      rw [horders]
      exact ⟨o, List.mem_append_left _ ho, rfl, rfl⟩
  · intro w order i d r h
    obtain ⟨u, _, hl⟩ := insertLine_row h
    exact .of_orders (by rw [(Db.insertOrderItem_ok_iff.1 hl).2])

/-- The order with this id belongs to the user or to nobody. -/
def OwnOrder (user : Uuid) (w : World) (k : Uuid) : Prop :=
  ∃ row ∈ w.db.orders, row.id = k ∧ ∀ other, row.userId = some other → other = user

theorem OwnOrder.move (h : OrdersMove U w w') (ho : OwnOrder user w k) : OwnOrder user w' k := by
  obtain ⟨row, hrow, rfl, hown⟩ := ho
  obtain ⟨row', hrow', hid, huser⟩ := h.stay row hrow
  exact ⟨row', hrow', hid, fun other ho => hown other (huser ▸ ho)⟩

theorem returns_orElse {o : Option α} (h : ∀ a, o = some a → Q a) : (orElse o e).Returns Q := by
  cases o with
  | none => trivial
  | some a => exact h a rfl

theorem getOrderWithDetails_returns (k : Uuid) :
    (getOrderWithDetails k.text).Returns fun v => v.id = k := by
  refine Prog.Returns.bind (Q := fun order : Option OrderRow => ∀ o, order = some o → o.id = k)
    (Prog.returns_query _ ?_ fun _ h => by cases h) fun order horder => ?_
  · intro w order h o ho
    have hread := mapError_ok h
    rw [orderById, parseUuid_text, ho] at hread
    exact (lookup_mem (Except.ok.inj hread)).2
  refine (returns_orElse horder).bind fun order hid => ?_
  refine (Prog.returns_true _).bind fun table _ => ?_
  refine (Prog.returns_true _).bind fun table _ => ?_
  refine (Prog.returns_true _).bind fun lines _ => ?_
  exact (Prog.returns_true _).bind fun rows _ => hid

/-- The orders listed for a user who sends no other user's token are not another user's. -/
theorem getMyOrders_sound
    (huser : ∀ u, parseOptUuid (given userId) = .ok (some u) → u = user)
    (htoken : ∀ token, given guestId = some token → ∀ other, U other token → other = user)
    (plan : RowOrder) (hw : Recorded U w) :
    (getMyOrders plan userId guestId).Sound (OrdersMove U)
      (fun w orders => ∀ o ∈ orders, OwnOrder user w o.id) w := by
  rw [getMyOrders]
  split
  · exact fun o ho => absurd ho List.not_mem_nil
  refine Prog.Sound.bind (Q := fun w rows => ∀ row ∈ rows, OwnOrder user w row.id)
    (Prog.sound_query (fun _ => .of_orders rfl) _ ?_ fun _ _ _ hz => by cases hz)
    fun w rows hrows => ?_
  · intro w' rows hmove h row hrow
    obtain ⟨u, hu, rfl⟩ := myOrderRows_ok (mapError_ok h)
    obtain ⟨hmem, hcond⟩ := List.mem_filter.1 ((orderBy_perm plan _ _).mem_iff.1 hrow)
    refine ⟨row, hmem, rfl, fun other ho => ?_⟩
    rcases Bool.or_eq_true_iff.1 hcond with hown | hguest
    · obtain ⟨_, hown⟩ := Bool.and_eq_true_iff.1 hown
      rw [decide_eq_true_eq, ho] at hown
      rw [← hown] at hu
      exact huser other hu
    · obtain ⟨hsome, hguest⟩ := Bool.and_eq_true_iff.1 hguest
      obtain ⟨token, ht⟩ := Option.isSome_iff_exists.1 hsome
      rw [decide_eq_true_eq, ht] at hguest
      exact htoken token ht other (hmove.recorded hw row hmem other token ho hguest)
  · have hread : (Prog.mapAll (fun o : OrderRow => getOrderWithDetails o.id.text) rows).Within
        (OrdersMove U) :=
      Prog.within_mapAll (fun o => (getOrderWithDetails_keeps _).within fun _ => .of_orders rfl)
        rows
    have hids := Prog.returns_mapAll (fun o : OrderRow => getOrderWithDetails_returns o.id) rows
    have hstable : ∀ w w', OrdersMove U w w' → (∀ row ∈ rows, OwnOrder user w row.id) →
        ∀ row ∈ rows, OwnOrder user w' row.id := fun _ _ hm h row hrow => (h row hrow).move hm
    refine ((hread.sound hids w).frame hstable hrows).mono fun w orders h o ho => ?_
    obtain ⟨row, hrow, hid⟩ := h.2 o ho
    rw [hid]
    exact h.1 row hrow

/-- What request `i` returns, if it is a list of a user's orders, holds no other user's. -/
def ShowsOwn (pf : Platform) (calls : List (Request × Operation)) (i : Nat) (w : World)
    (response : Response) : Prop :=
  ∀ r user orders, calls[i]? = some (r, .myOrders) → r.subject pf = some user →
    response = .orders orders → ∀ o ∈ orders, OwnOrder user w o.id

section Requests

variable {pf : Platform} {calls : List (Request × Operation)} {w : World}

theorem showsOwn_of_ne (hi : calls[i]? = some (r, op)) (hop : op ≠ .myOrders) (w' : World)
    (v : Response) : ShowsOwn pf calls i w' v := by
  intro r' user orders hi'
  rw [hi] at hi'
  cases hi'
  exact absurd rfl hop

theorem resolve_moves (hmem : (r, op) ∈ calls)
    (hcaller : ∀ u, caller = some (Caller.user u) → r.subject pf = some u.id) :
    (op.resolve pf r caller).Within (OrdersMove (UsedBy pf calls w)) := by
  by_cases hop : ∃ input, op = .placeOrder input
  · obtain ⟨input, rfl⟩ := hop
    refine Prog.Within.bind (placeOrder_moves hcaller ?_) fun _ => trivial
    intro user token hs ht
    exact .inr ⟨(r, .placeOrder input), hmem, ⟨input, rfl⟩, hs, ht⟩
  · exact (op.resolve_step pf r caller).mono fun _ _ h => .of_step h fun input he => hop ⟨input, he⟩

theorem myOrders_sound (h : Unshared pf calls w) (hi : calls[i]? = some (r, .myOrders))
    (hcaller : ∀ u, caller = some (Caller.user u) → r.subject pf = some u.id)
    (hw : Recorded (UsedBy pf calls w) w') :
    (Operation.myOrders.resolve pf r caller).Sound (OrdersMove (UsedBy pf calls w))
      (ShowsOwn pf calls i) w' := by
  have hmem : (r, Operation.myOrders) ∈ calls := List.mem_of_getElem? hi
  cases hs : r.subject pf with
  | none =>
    refine ((resolve_moves hmem hcaller).sound (Prog.returns_true _) w').mono ?_
    intro _ _ _ r' user orders hi' hs'
    rw [hi] at hi'
    cases hi'
    rw [hs] at hs'
    cases hs'
  | some user =>
    have huser : ∀ u, parseOptUuid (given (caller.bind Caller.id)) = .ok (some u) → u = user := by
      intro u hu
      have hsu := parseOptUuid_caller hcaller hu
      rw [hs] at hsu
      exact (Option.some.inj hsu).symm
    have htoken : ∀ token, given r.guestId = some token → ∀ other,
        UsedBy pf calls w other token → other = user :=
      fun token ht => h _ hmem rfl user token hs ht
    refine Prog.Sound.bind (getMyOrders_sound huser htoken r.plan hw) fun w₁ orders hown => ?_
    intro r' user' orders' hi' hs' he
    rw [hi] at hi'
    cases hi'
    rw [hs] at hs'
    cases hs'
    cases he
    exact hown

theorem handle_sound (h : Unshared pf calls w) (hi : calls[i]? = some (r, op))
    (hw : Recorded (UsedBy pf calls w) w') :
    (handle pf r op).Sound (OrdersMove (UsedBy pf calls w)) (ShowsOwn pf calls i) w' := by
  have hguards := Prog.Within.sound
    ((guards_keeps pf op.route r).within (R := OrdersMove (UsedBy pf calls w)) fun _ =>
      .of_orders rfl) (guards_subject pf r op.route) w'
  refine (hguards.frame (fun _ _ hm => hm.recorded) hw).bind fun w₁ caller hcaller => ?_
  by_cases hop : op = .myOrders
  · subst hop
    exact myOrders_sound h hi hcaller.2 hcaller.1
  · refine ((resolve_moves (List.mem_of_getElem? hi) hcaller.2).sound (Prog.returns_true _)
      w₁).mono ?_
    exact fun w v _ => showsOwn_of_ne hi hop w v

/-- However the requests interleave and whichever of their statements fail, nobody is shown
another user's order, as long as nobody lists orders with a guest token that another user has
ordered with. -/
theorem myOrders_private (pf : Platform) (calls : List (Request × Operation)) (w : World)
    (h : Unshared pf calls w) (turns : List (Nat × Bool)) :
    Private pf calls (runs Pool.turn (serve pf calls w) turns) := by
  intro i r user orders hi hs hret o ho row hrow hid
  have hstart : Recorded (UsedBy pf calls w) w :=
    fun o ho user token huser htoken => .inl ⟨o, ho, huser, htoken⟩
  have hrun := Pool.runs_sound (R := OrdersMove (UsedBy pf calls w)) (Q := ShowsOwn pf calls)
    (fun _ => .of_orders rfl) .trans ?_ (p := serve pf calls w) ?_ turns
  · obtain ⟨row', hrow', hid', hother⟩ := hrun.2 i _ hret r user orders hi hs rfl o ho
    have hsame : row = row' := (Db.valid _).orderIds.eq_of_mem hrow hrow' (hid.trans hid'.symm)
    rw [hsame]
    exact hother
  · intro i w w' v hm hv r user orders hi hs he o ho
    exact (hv r user orders hi hs he o ho).move hm
  · intro j t ht
    have hthreads : (serve pf calls w).threads[j]? = calls[j]?.map fun c => handle pf c.1 c.2 :=
      List.getElem?_map
    rw [hthreads] at ht
    obtain ⟨c, hc, rfl⟩ := Option.map_eq_some_iff.1 ht
    exact handle_sound h hc hstart

end Requests

/-- The sample restaurant with a second user. -/
def twoUsersTables : Tables :=
  { sampleTables with
    users := sampleTables.users ++ [⟨sampleId 6, "Guest", "guest@dineflow.com", "", none, .customer,
      none, none⟩] }

theorem twoUsersTables_valid : twoUsersTables.Valid := by
  constructor <;> simp [twoUsersTables, sampleTables, UniqueKey, Refs, FitsNumeric]
  decide

def twoUsersWorld : World := ⟨⟨twoUsersTables, twoUsersTables_valid⟩, Redis.empty, Gateway.empty⟩

/-- The first user orders, then the second one lists orders. -/
def orderThenList (first second : Option String) : List (Request × Operation) :=
  [(fromDevice (sampleId 5) first, .placeOrder sampleBasket),
    (fromDevice (sampleId 6) second, .myOrders)]

/-- The run in which the first request is served, then the second. -/
def servedInTurn (first second : Option String) : Pool (Api Response) Site World :=
  runs Pool.turn (serve trustingPlatform (orderThenList first second) twoUsersWorld)
    (List.replicate 12 (0, false) ++ List.replicate 6 (1, false))

theorem myOrders_private_sample :
    Private trustingPlatform (orderThenList none (some "g")) (servedInTurn none (some "g")) := by
  apply myOrders_private
  intro c hc hop user token hs ht other hused
  rcases hused with ⟨o, ho, _⟩ | ⟨c', hc', ⟨input, hop'⟩, _, ht'⟩
  · cases ho
  · rcases List.mem_cons.1 hc' with rfl | hc'
    · cases ht'
    · rw [List.mem_singleton.1 hc'] at hop'
      cases hop'

def Response.listed : Response → List Uuid
  | .orders os => os.map Order.id
  | _ => []

theorem Response.mem_listed {v : Response} (h : k ∈ v.listed) :
    ∃ os, v = .orders os ∧ ∃ o ∈ os, o.id = k := by
  cases v
  case orders os => exact ⟨os, rfl, List.mem_map.1 h⟩
  all_goals cases h

/-- Two users of one device: the second is shown what the first has ordered. -/
theorem myOrders_leaks :
    ¬Private trustingPlatform (orderThenList (some "g") (some "g"))
      (servedInTurn (some "g") (some "g")) := by
  intro h
  have hlist : ((servedInTurn (some "g") (some "g")).threads[1]?.bind Prog.result).map
      (Except.map Response.listed) = some (.ok [sampleEnv.uuid 0]) := by
    decide +kernel
  obtain ⟨result, hresult, hids⟩ := Option.map_eq_some_iff.1 hlist
  obtain ⟨t, ht, hdone⟩ := Option.bind_eq_some_iff.1 hresult
  obtain ⟨v, rfl, hlisted⟩ := map_ok hids
  have hshown : sampleEnv.uuid 0 ∈ v.listed := by
    rw [hlisted]
    exact List.mem_cons_self
  obtain ⟨orders, rfl, o, ho, hid⟩ := Response.mem_listed hshown
  rw [Prog.result_eq_ok.1 hdone] at ht
  have hrow : ∃ row ∈ (servedInTurn (some "g") (some "g")).state.db.orders,
      row.id = sampleEnv.uuid 0 ∧ row.userId = some (sampleId 5) := by
    decide +kernel
  obtain ⟨row, hmem, hrid, huser⟩ := hrow
  have hsame := h 1 _ (sampleId 6) orders rfl (by decide +kernel) ht o ho row hmem
    (hrid.trans hid.symm) (sampleId 5) huser
  revert hsame
  decide

end DineFlow
