import DineFlow.Frames
import DineFlow.GraphqlApi
import DineFlow.MenuMutations

namespace DineFlow
open Atomic Relational
set_option autoImplicit true

/-- A step of the API on the users table: nothing, a row that is not of staff, or new details for
a row outside of `K`. -/
inductive UserStep (K : Uuid → Prop) (w w' : World) : Prop
  | keep (h : w'.db.users = w.db.users)
  | insert (u : UserRow) (hu : u.role.isStaff = false) (h : w'.db.users = w.db.users ++ [u])
  | patch (k : Uuid) (hk : ¬K k) (p : ProfilePatch)
      (h : w'.db.users = updateWhere UserRow.id k p.apply w.db.users)

theorem within_of_users {p : Api α} (h : p.Keeps fun w => w.db.users) :
    p.Within (UserStep K) :=
  Prog.Within.mono h fun _ _ h => .keep h

theorem within_of_db {p : Api α} (h : p.Keeps World.db) : p.Within (UserStep K) :=
  Prog.Within.mono h fun _ _ h => .keep (congrArg (fun db : Db => db.users) h)

theorem UserStep.of_menuStep (h : MenuStep w w') : UserStep K w w' := by
  obtain ⟨items, favorites, ht⟩ := h.tables
  exact .keep (by rw [ht])

theorem UserStep.of_statusStep (h : StatusStep w w') : UserStep K w w' := by
  cases h <;> exact .keep rfl

theorem UserStep.of_placeStep (h : PlaceStep w w') : UserStep K w w' := by
  obtain ⟨orders, lines, ht⟩ := h.tables
  exact .keep (by rw [ht])

section Services

variable {π : World → τ}

theorem validateUser_keeps (pf : Platform) (email password : String) :
    (validateUser pf email password).Keeps π := by
  refine (Prog.keeps_query _ _ _ _).bind fun user => ?_
  cases user with
  | none => trivial
  | some u =>
    dsimp only
    split <;> trivial

theorem me_keeps (caller : Option Caller) : (me caller).Keeps π := by
  cases caller with
  | none => trivial
  | some c =>
    cases c with
    | guest => trivial
    | user u =>
      refine (Prog.keeps_query _ _ _ _).bind fun _ => ?_
      exact (within_orElse _ _).bind fun _ => trivial

theorem getPaginatedUsers_keeps (pf : Platform) (plan : RowOrder) (args : UsersArgs) :
    (getPaginatedUsers pf plan args).Keeps π := by
  rw [getPaginatedUsers]
  refine (keeps_select _ _).bind fun total => ?_
  exact (keeps_select _ _).bind fun _ => trivial

theorem getPaginatedMenuItems_keeps (pf : Platform) (plan : RowOrder) (args : MenuItemsArgs) :
    (getPaginatedMenuItems pf plan args).Keeps π := by
  refine Prog.Within.bind ?_ fun _ => ?_
  · rw [MenuItemsArgs.target]
    split
    · exact (keeps_select _ _).bind fun _ => trivial
    · trivial
  · refine (keeps_select _ _).bind fun total => ?_
    exact (keeps_select _ _).bind fun _ => trivial

theorem getMenuItemById_keeps (itemId : String) : (getMenuItemById itemId).Keeps π := by
  refine Prog.Within.bind ?_ fun _ => trivial
  exact (keeps_select _ _).bind fun _ => within_orElse _ _

theorem getMenuItemsByRestaurant_keeps (plan : RowOrder) (restaurantId : String) :
    (getMenuItemsByRestaurant plan restaurantId).Keeps π := by
  rw [getMenuItemsByRestaurant]
  exact (keeps_select _ _).bind fun _ => trivial

theorem loadMenu_keeps (plan : RowOrder) (tableId : String) : (loadMenu plan tableId).Keeps π := by
  refine (keeps_select _ _).bind fun table => ?_
  refine (within_orElse _ _).bind fun table => ?_
  refine (keeps_select _ _).bind fun rows => ?_
  refine Prog.Within.bind (Prog.within_mapAll (fun c => ?_) _) fun _ => trivial
  exact (keeps_select _ _).bind fun _ => trivial

theorem loadItems_keeps (plan : RowOrder) (tableId : String) :
    (loadItems plan tableId).Keeps π := by
  refine (keeps_select _ _).bind fun table => ?_
  refine (within_orElse _ _).bind fun table => ?_
  exact (keeps_select _ _).bind fun _ => trivial

theorem getMenuByTableId_keeps_db (env : Env) (plan : RowOrder) (tableId : String) :
    (getMenuByTableId env plan tableId).Keeps World.db := by
  refine (keeps_getCachedObject _ _).bind fun cached => ?_
  cases cached with
  | some c => exact (Prog.within_ofExcept _ _).bind fun _ => trivial
  | none =>
    refine (loadMenu_keeps _ _).bind fun _ => ?_
    exact (setCachedObject_within (R := fun w w' => w'.db = w.db) (fun _ => rfl) _ _ _ _
      fun _ => rfl).bind fun _ => trivial

theorem findByTable_keeps_db (env : Env) (plan : RowOrder) (tableId : String) :
    (findByTable env plan tableId).Keeps World.db := by
  refine (keeps_getCachedObject _ _).bind fun cached => ?_
  cases cached with
  | some c => exact (Prog.within_ofExcept _ _).bind fun _ => trivial
  | none =>
    refine (loadItems_keeps _ _).bind fun _ => ?_
    exact (setCachedObject_within (R := fun w w' => w'.db = w.db) (fun _ => rfl) _ _ _ _
      fun _ => rfl).bind fun _ => trivial

theorem removeFromCart_keeps_db (env : Env) (menuItemId : String) (userId guestId : Option String) :
    (removeFromCart env menuItemId userId guestId).Keeps World.db :=
  removeFromCart_within (R := fun w w' => w'.db = w.db) (fun _ => rfl) env menuItemId
    fun _ _ _ _ => rfl

theorem clearCart_keeps_db (userId guestId : Option String) :
    (clearCart userId guestId).Keeps World.db :=
  clearCart_within (R := fun w w' => w'.db = w.db) (fun _ => rfl) fun _ _ _ => rfl

theorem getMyOrders_keeps (plan : RowOrder) (userId guestId : Option String) :
    (getMyOrders plan userId guestId).Keeps id := by
  rw [getMyOrders]
  split
  · trivial
  · refine (keeps_select _ _).bind fun rows => ?_
    exact Prog.within_mapAll (fun o => getOrderWithDetails_keeps _) _

theorem getKitchenOrders_keeps (plan : RowOrder) (restaurantId : Option String) :
    (getKitchenOrders plan restaurantId).Keeps id :=
  (keeps_select _ _).bind fun _ => Prog.within_mapAll (fun _ => getOrderWithDetails_keeps _) _

theorem getTables_keeps (plan : RowOrder) (restaurantId : Option String) :
    (getTables plan restaurantId).Keeps π := by
  rw [getTables]
  split
  · exact keeps_select _ _
  · exact keeps_select _ _

theorem myBookings_keeps (plan : RowOrder) (userId : Option String) :
    (myBookings plan userId).Keeps π :=
  keeps_select _ _

theorem bookingsByRestaurant_keeps (plan : RowOrder) (restaurantId : String)
    (date : Option String) : (bookingsByRestaurant plan restaurantId date).Keeps π :=
  keeps_select _ _

theorem authenticate_keeps (pf : Platform) (r : Request) : (authenticate pf r).Keeps π := by
  rw [authenticate]
  split
  · trivial
  · refine (Prog.keeps_query _ _ _ _).bind fun user => ?_
    cases user with
    | some u => trivial
    | none =>
      dsimp only
      split <;> trivial

theorem gqlAuthGuard_keeps (pf : Platform) (route : Route) (r : Request) :
    (gqlAuthGuard pf route r).Keeps π := by
  refine (authenticate_keeps pf r).bind fun outcome => ?_
  cases outcome with
  | ok c => trivial
  | error e =>
    dsimp only
    split <;> trivial

theorem publicGuard_keeps (route : Route) (caller : Option Caller) :
    (publicGuard route caller).Keeps π := by
  rw [publicGuard]
  split <;> trivial

theorem rolesGuard_keeps (roles : List UserRole) (caller : Option Caller) :
    (rolesGuard roles caller).Keeps π := by
  cases caller with
  | none =>
    rw [rolesGuard]
    split <;> trivial
  | some c =>
    rw [rolesGuard]
    split <;> trivial

theorem guards_keeps (pf : Platform) (route : Route) (r : Request) :
    (guards pf route r).Keeps π := by
  refine (gqlAuthGuard_keeps pf route r).bind fun caller => ?_
  refine (publicGuard_keeps route caller).bind fun _ => ?_
  cases route.guarded with
  | none => trivial
  | some roles =>
    refine (gqlAuthGuard_keeps pf route r).bind fun caller => ?_
    exact (rolesGuard_keeps roles caller).bind fun _ => trivial

end Services

theorem insertBooking_desk (h : insertBooking env input userId db = .ok r) :
    ∃ bookings, r.2.toTables = { db.toTables with bookings := bookings } := by
  rw [insertBooking] at h
  split at h
  · obtain ⟨db', hi, rfl⟩ := map_ok h
    exact ⟨_, (Db.insertBooking_ok_iff.1 hi).2⟩
  all_goals cases h

theorem insertBooking_users (h : insertBooking env input userId db = .ok r) :
    r.2.users = db.users := by
  obtain ⟨bookings, ht⟩ := insertBooking_desk h
  rw [ht]

theorem createBooking_keeps_users (env : Env) (input : CreateBookingInput)
    (userId : Option String) :
    (createBooking env input userId).Keeps fun w => w.db.users :=
  keeps_dbWrite fun _ _ h => insertBooking_users h

theorem writeBookingStatus_desk (h : writeBookingStatus env bookingId status db = .ok r) :
    ∃ bookings, r.2.toTables = { db.toTables with bookings := bookings } := by
  rw [writeBookingStatus] at h
  split at h
  · cases h
  · obtain ⟨db', hi, rfl⟩ := map_ok h
    exact ⟨_, Db.updateBooking_ok hi⟩

theorem writeBookingStatus_users (h : writeBookingStatus env bookingId status db = .ok r) :
    r.2.users = db.users := by
  obtain ⟨bookings, ht⟩ := writeBookingStatus_desk h
  rw [ht]

theorem updateBookingStatus_keeps_users (env : Env) (bookingId status : String) :
    (updateBookingStatus env bookingId status).Keeps fun w => w.db.users :=
  (keeps_dbWrite fun _ _ h => writeBookingStatus_users h).bind fun _ => within_orElse _ _

theorem Db.insertUser_users (h : Db.insertUser db u = .ok db') :
    db'.users = db.users ++ [u.stored] := by
  rw [(Db.insertUser_ok_iff.1 h).2]

theorem writeProfile_users (h : writeProfile env (some (Uuid.text k)) input db = .ok r) :
    ∃ p : ProfilePatch, r.2.users = updateWhere UserRow.id k p.apply db.users := by
  rw [writeProfile, parseUuid_text] at h
  dsimp only at h
  split at h
  · cases h
  · obtain ⟨db', hdb, rfl⟩ := map_ok h
    exact ⟨_, by rw [Db.updateUser_ok hdb]⟩

end DineFlow
