import DineFlow.Callers
import DineFlow.Pool
import DineFlow.UserFrames

namespace DineFlow
open Atomic Relational
set_option autoImplicit true

def staffRows (db : Db) : List UserRow := db.users.filter fun u => u.role.isStaff

/-- The request comes from nobody, from a guest or from a customer. -/
def Unprivileged (pf : Platform) (db : Db) (r : Request) : Prop :=
  ∀ u, callerOf pf r db = .ok (.user u) → u.role.isStaff = false

def Operation.AsksForStaff : Operation → Prop
  | .register input => (input.role.getD .customer).isStaff = true
  | _ => False

def StaffId (db : Db) (k : Uuid) : Prop := ∃ u ∈ staffRows db, u.id = k

/-- The row a web token of the request names. -/
def Request.subject (pf : Platform) (r : Request) : Option Uuid :=
  (r.claims pf).bind fun claims => Uuid.parse ((claims.get "sub").getD "undefined")

theorem Unprivileged.subject (h : Unprivileged pf db r) (hk : r.subject pf = some k) :
    ¬StaffId db k := by
  rintro ⟨u, hu, rfl⟩
  obtain ⟨hmem, hstaff⟩ := List.mem_filter.1 hu
  obtain ⟨claims, hclaims, hsub⟩ := Option.bind_eq_some_iff.1 hk
  have hrow : (userById ((claims.get "sub").getD "undefined") db).toOption.getD none = some u := by
    rw [userById, parseUuid, hsub]
    exact db.valid.userIds.lookup hmem
  have hcaller : callerOf pf r db = .ok (.user u) := by
    rw [callerOf, hclaims]
    dsimp only
    rw [hrow]
  rw [h u hcaller] at hstaff
  cases hstaff

/-- The caller is no row with an id in `K`. -/
def Harmless (K : Uuid → Prop) (caller : Option Caller) : Prop :=
  ∀ u, caller = some (.user u) → ¬K u.id

section Guards

variable {K : Uuid → Prop} (h : ∀ k, Request.subject pf r = some k → ¬K k)
include h

theorem authenticate_returns :
    (authenticate pf r).Returns fun outcome => ∀ u, outcome = .ok (.user u) → ¬K u.id := by
  have hguest : ∀ u, guestStrategy pf r = .ok (.user u) → ¬K u.id :=
    fun u hu => absurd hu guestStrategy_ne_user
  rw [authenticate]
  cases hclaims : r.claims pf with
  | none => exact hguest
  | some claims =>
    refine Prog.Returns.bind (Q := fun user : Option UserRow => ∀ u, user = some u → ¬K u.id)
      (Prog.returns_query _ ?_ ?_) fun user huser => ?_
    · intro w user hread u hu
      cases hread
      refine h u.id ?_
      rw [Request.subject, hclaims]
      exact (userById_row hu).2
    · intro user hread u hu
      cases hread
      cases hu
    · cases user with
      | some u =>
        intro u' hu'
        cases hu'
        exact huser u rfl
      | none =>
        dsimp only
        split
        · exact hguest
        · exact fun u hu => by cases hu

theorem gqlAuthGuard_returns (route : Route) :
    (gqlAuthGuard pf route r).Returns (Harmless K) := by
  refine (authenticate_returns h).bind fun outcome houtcome => ?_
  cases outcome with
  | ok c =>
    intro u hu
    cases hu
    exact houtcome u rfl
  | error e =>
    dsimp only
    split
    · exact fun u hu => by cases hu
    · trivial

theorem guards_returns (route : Route) : (guards pf route r).Returns (Harmless K) := by
  refine (gqlAuthGuard_returns h route).bind fun caller hcaller => ?_
  refine (Prog.returns_true _).bind fun _ _ => ?_
  cases route.guarded with
  | none => exact hcaller
  | some roles =>
    refine (gqlAuthGuard_returns h route).bind fun caller hcaller => ?_
    exact (Prog.returns_true _).bind fun _ _ => hcaller

end Guards

theorem guards_subject (pf : Platform) (r : Request) (route : Route) :
    (guards pf route r).Returns fun caller =>
      ∀ u, caller = some (.user u) → r.subject pf = some u.id :=
  (guards_returns (K := fun k => r.subject pf ≠ some k) (fun _ hk hne => hne hk) route).mono
    fun _ h u hu => not_not.1 (h u hu)

theorem register_within (pf : Platform) (env : Env) (input : RegisterInput)
    (h : (input.role.getD .customer).isStaff = false) :
    (register pf env input).Within (UserStep K) := by
  have hr : ∀ w, UserStep K w w := fun _ => .keep rfl
  refine (Prog.within_query hr _ _ _).bind fun existing => ?_
  cases existing with
  | some u => trivial
  | none =>
    refine Prog.within_exec hr _ _ fun w r hw => ?_
    obtain ⟨r', hr', rfl⟩ := map_ok hw
    obtain ⟨db, hdb, rfl⟩ := map_ok (mapError_ok hr')
    exact .insert (newUser pf env input).stored h (Db.insertUser_users hdb)

theorem updateProfile_within (env : Env) (input : UpdateProfileInput) (h : Harmless K caller) :
    (updateProfile env (caller.bind Caller.id) input).Within (UserStep K) := by
  have hr : ∀ w, UserStep K w w := fun _ => .keep rfl
  refine Prog.Within.bind (within_dbWrite hr fun w r hw => ?_) fun _ => within_orElse _ _
  cases caller with
  | none =>
    cases hw
    exact .keep rfl
  | some c =>
    cases c with
    | guest =>
      cases hw
      exact .keep rfl
    | user u =>
      obtain ⟨p, hp⟩ := writeProfile_users hw
      exact .patch u.id (h u rfl) p hp

/-- Every statement of a resolver is a step on the users table. -/
theorem resolve_within (pf : Platform) (r : Request) (hc : Harmless K caller)
    (hop : ¬Operation.AsksForStaff op) : (op.resolve pf r caller).Within (UserStep K) := by
  have hr : ∀ w, UserStep K w w := fun _ => .keep rfl
  cases op with
  | register input =>
    exact (register_within pf _ input (Bool.eq_false_of_not_eq_true hop)).bind fun _ => trivial
  | updateProfile input => exact (updateProfile_within _ input hc).bind fun _ => trivial
  | guestSession tableId => trivial
  | logout => trivial
  | refreshToken token => trivial
  | hello => trivial
  | login email password => exact (within_of_db (validateUser_keeps _ _ _)).bind fun _ => trivial
  | me => exact within_of_db (me_keeps _)
  | paginatedUsers args =>
    exact (within_of_db (getPaginatedUsers_keeps _ _ _)).bind fun _ => trivial
  | menu tableId => exact (within_of_db (getMenuByTableId_keeps_db _ _ _)).bind fun _ => trivial
  | menuItem itemId => exact (within_of_db (getMenuItemById_keeps _)).bind fun _ => trivial
  | menuItemsByRestaurant restaurantId =>
    exact (within_of_db (getMenuItemsByRestaurant_keeps _ _)).bind fun _ => trivial
  | createMenuItem input =>
    exact ((createMenuItem_within _ _ _).mono fun _ _ => .of_menuStep).bind fun _ => trivial
  | updateMenuItem input =>
    exact ((updateMenuItem_within _ _).mono fun _ _ => .of_menuStep).bind fun _ => trivial
  | deleteMenuItem itemId =>
    exact ((deleteMenuItem_within _ _).mono fun _ _ => .of_menuStep).bind fun _ => trivial
  | toggleMenuItemAvailability itemId =>
    exact ((toggleAvailability_within _ _).mono fun _ _ => .of_menuStep).bind fun _ => trivial
  | menuItemsByTable tableId =>
    exact (within_of_db (findByTable_keeps_db _ _ _)).bind fun _ => trivial
  | paginatedMenuItems args =>
    exact (within_of_db (getPaginatedMenuItems_keeps _ _ _)).bind fun _ => trivial
  | addToCart input => exact (within_of_db (addToCart_keeps_db _ _ _ _)).bind fun _ => trivial
  | cart => exact (within_of_db (getCart_keeps _ _ _)).bind fun _ => trivial
  | removeFromCart menuItemId =>
    exact (within_of_db (removeFromCart_keeps_db _ _ _ _)).bind fun _ => trivial
  | clearCart => exact (within_of_db (clearCart_keeps_db _ _)).bind fun _ => trivial
  | placeOrder input =>
    exact ((placeOrder_within _ _ _ _).mono fun _ _ => .of_placeStep).bind fun _ => trivial
  | order orderId => exact ((getOrderWithDetails_keeps _).within hr).bind fun _ => trivial
  | myOrders => exact ((getMyOrders_keeps _ _ _).within hr).bind fun _ => trivial
  | kitchenOrders restaurantId =>
    exact ((getKitchenOrders_keeps _ _).within hr).bind fun _ => trivial
  | updateOrderStatus orderId status =>
    exact ((updateOrderStatus_within _ _ _).mono fun _ _ => .of_statusStep).bind fun _ => trivial
  | tables restaurantId => exact (within_of_db (getTables_keeps _ _)).bind fun _ => trivial
  | table tableId => exact (within_select hr _ _).bind fun _ => trivial
  | createBooking input =>
    exact (within_of_users (createBooking_keeps_users _ _ _)).bind fun _ => trivial
  | myBookings => exact (within_of_db (myBookings_keeps _ _)).bind fun _ => trivial
  | bookings restaurantId date =>
    exact (within_of_db (bookingsByRestaurant_keeps _ _ _)).bind fun _ => trivial
  | updateBookingStatus bookingId status =>
    exact (within_of_users (updateBookingStatus_keeps_users _ _ _)).bind fun _ => trivial

theorem handle_within (h : ∀ k, Request.subject pf r = some k → ¬K k)
    (hop : ¬Operation.AsksForStaff op) : (handle pf r op).Within (UserStep K) := by
  refine Prog.Within.bind_returns (within_of_db (guards_keeps pf op.route r))
    (guards_returns h op.route) fun caller hcaller => ?_
  exact resolve_within pf r hcaller hop

theorem UserStep.staffRows_subset (h : UserStep (StaffId db) w w')
    (hw : staffRows w.db ⊆ staffRows db) : staffRows w'.db ⊆ staffRows db := by
  intro u hu
  obtain ⟨hmem, hstaff⟩ := List.mem_filter.1 hu
  refine hw ?_
  cases h with
  | keep h =>
    rw [h] at hmem
    exact List.mem_filter.2 ⟨hmem, hstaff⟩
  | insert new hnew h =>
    rw [h] at hmem
    rcases List.mem_append.1 hmem with hmem | hmem
    · exact List.mem_filter.2 ⟨hmem, hstaff⟩
    · rw [List.mem_singleton.1 hmem, hnew] at hstaff
      cases hstaff
  | patch k hk p h =>
    rw [h] at hmem
    rcases mem_updateWhere hmem with hmem | ⟨row, hrow, hid, rfl⟩
    · exact List.mem_filter.2 ⟨hmem, hstaff⟩
    · exact absurd ⟨row, hw (List.mem_filter.2 ⟨hrow, hstaff⟩), hid⟩ hk

/-- Requests that are served at the same time. -/
def serve (pf : Platform) (calls : List (Request × Operation)) (w : World) :
    Pool (Api Response) Site World :=
  ⟨w, calls.map fun c => handle pf c.1 c.2, []⟩

/-- However the requests of people without a staff role interleave, nobody gets one, as long as
none of them asks for it. -/
theorem staffRows_never_grow (pf : Platform) (calls : List (Request × Operation)) (w : World)
    (hcallers : ∀ c ∈ calls, Unprivileged pf w.db c.1) (hops : ∀ c ∈ calls, ¬c.2.AsksForStaff)
    (schedule : List Nat) :
    staffRows (runs (Pool.step Prog.next) (serve pf calls w) schedule).state.db ⊆
      staffRows w.db := by
  refine Pool.runs_invariant (I := fun w' => staffRows w'.db ⊆ staffRows w.db)
    (fun _ _ => UserStep.staffRows_subset) (serve pf calls w) (fun t ht => ?_)
    (List.Subset.refl _) schedule
  obtain ⟨c, hc, rfl⟩ := List.mem_map.1 ht
  exact handle_within (fun k hk => (hcallers c hc).subject hk) (hops c hc)

/-- A request without any token. -/
def openRequest : Request := ⟨none, none, none, none, sampleEnv, .stored⟩

def signUp (role : Option UserRole) : Request × Operation :=
  (openRequest, .register ⟨"guest@dineflow.com", "secret", "Guest", role⟩)

theorem openRequest_unprivileged (db : Db) : Unprivileged samplePlatform db openRequest := by
  intro u hu
  cases hu

/-- Two people sign up at the same time. -/
def signUps : List (Request × Operation) :=
  [signUp none, ({ openRequest with env := { sampleEnv with uuid := fun _ => sampleId 11 } },
    .register ⟨"friend@dineflow.com", "secret", "Friend", some .customer⟩)]

theorem staffRows_never_grow_sample :
    (runs (Pool.step Prog.next) (serve samplePlatform signUps sampleWorld)
      [0, 1, 1, 0]).state.db.users.length = 3 ∧
    staffRows (runs (Pool.step Prog.next) (serve samplePlatform signUps sampleWorld)
      [0, 1, 1, 0]).state.db ⊆ staffRows sampleWorld.db := by
  refine ⟨by decide +kernel, staffRows_never_grow samplePlatform signUps sampleWorld ?_ ?_ _⟩
  · refine List.forall_mem_cons.2 ⟨openRequest_unprivileged _, List.forall_mem_singleton.2 ?_⟩
    intro u hu
    cases hu
  · exact List.forall_mem_cons.2 ⟨Bool.false_ne_true,
      List.forall_mem_singleton.2 Bool.false_ne_true⟩

/-- Anybody can sign up as an administrator. -/
theorem staffRows_grow :
    (∀ c ∈ [signUp (some .admin)], Unprivileged samplePlatform sampleWorld.db c.1) ∧
      ¬staffRows (runs (Pool.step Prog.next)
        (serve samplePlatform [signUp (some .admin)] sampleWorld)
        [0, 0]).state.db ⊆ staffRows sampleWorld.db := by
  refine ⟨fun c hc => ?_, ?_⟩
  · rw [List.mem_singleton.1 hc]
    exact openRequest_unprivileged _
  · decide +kernel

end DineFlow
