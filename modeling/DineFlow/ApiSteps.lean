import DineFlow.UserFrames

namespace DineFlow
open Atomic Relational
set_option autoImplicit true

/-- A step of a query that leaves everything as it is. -/
inductive ReadStep (w : World) : World → Prop
  | refl : ReadStep w w

/-- A step of a cart operation: whatever it does, it does to Redis. -/
def CartStep (w w' : World) : Prop := w'.db = w.db ∧ w'.gateway = w.gateway

/-- A step of a menu query: what was read from the database goes into the cache. -/
inductive FillStep (w : World) : World → Prop
  | refl : FillStep w w
  | fill (hkey : IsMenuKey key) (v : Cached) (hv : ∀ c, v ≠ .cart c) (expiresAt : Option Nat) :
      FillStep w { w with redis := w.redis.set key ⟨v, expiresAt⟩ }

/-- A step on the tables of users and bookings. -/
inductive DeskStep (w : World) : World → Prop
  | intro (users : List UserRow) (bookings : List BookingRow)
      (h : db.toTables = { w.db.toTables with users := users, bookings := bookings }) :
      DeskStep w { w with db := db }

theorem DeskStep.refl (w : World) : DeskStep w w := .intro w.db.users w.db.bookings rfl

/-- What the statements of an operation can do, by the kind of operation. -/
def Operation.Step : Operation → World → World → Prop
  | .createMenuItem _ | .updateMenuItem _ | .deleteMenuItem _
  | .toggleMenuItemAvailability _ => MenuStep
  | .updateOrderStatus _ _ => StatusStep
  | .placeOrder _ => PlaceStep
  | .addToCart _ | .removeFromCart _ | .clearCart => CartStep
  | .menu _ | .menuItemsByTable _ => FillStep
  | .register _ | .updateProfile _ | .createBooking _ | .updateBookingStatus _ _ => DeskStep
  | _ => ReadStep

section Fills

variable {R : World → World → Prop} (hr : ∀ w, R w w) (env : Env) (plan : RowOrder)
  (tableId : String)

include hr

theorem getMenuByTableId_within
    (hset : ∀ w m, R w { w with
      redis := w.redis.set (menuKey tableId) ⟨(Cached.menu m).json, some (expiry env.now 300)⟩ }) :
    (getMenuByTableId env plan tableId).Within R := by
  refine (Prog.within_query hr _ _ _).bind fun cached => ?_
  cases cached with
  | some c => exact (Prog.within_ofExcept _ _).bind fun _ => trivial
  | none =>
    refine ((loadMenu_keeps plan tableId).within hr).bind fun m => ?_
    exact (setCachedObject_within hr _ _ _ _ fun w => hset w m).bind fun _ => trivial

theorem findByTable_within
    (hset : ∀ w rows, R w { w with
      redis := w.redis.set (itemsKey tableId)
        ⟨(Cached.items rows).json, some (expiry env.now 300)⟩ }) :
    (findByTable env plan tableId).Within R := by
  refine (Prog.within_query hr _ _ _).bind fun cached => ?_
  cases cached with
  | some c => exact (Prog.within_ofExcept _ _).bind fun _ => trivial
  | none =>
    refine ((loadItems_keeps plan tableId).within hr).bind fun rows => ?_
    exact (setCachedObject_within hr _ _ _ _ fun w => hset w rows).bind fun _ => trivial

end Fills

theorem getMenuByTableId_fills (env : Env) (plan : RowOrder) (tableId : String) :
    (getMenuByTableId env plan tableId).Within FillStep := by
  apply getMenuByTableId_within (fun _ => .refl)
  intro w m
  exact .fill (isMenuKey_menuKey tableId) _ (fun c h => by cases h) _

theorem findByTable_fills (env : Env) (plan : RowOrder) (tableId : String) :
    (findByTable env plan tableId).Within FillStep := by
  apply findByTable_within (fun _ => .refl)
  intro w rows
  exact .fill (isMenuKey_itemsKey tableId) _ (fun c h => by cases h) _

theorem addToCart_cartStep (env : Env) (input : AddToCartInput) (userId guestId : Option String) :
    (addToCart env input userId guestId).Within CartStep :=
  addToCart_within (fun _ => ⟨rfl, rfl⟩) env input fun _ _ _ _ => ⟨rfl, rfl⟩

theorem removeFromCart_cartStep (env : Env) (menuItemId : String)
    (userId guestId : Option String) :
    (removeFromCart env menuItemId userId guestId).Within CartStep :=
  removeFromCart_within (fun _ => ⟨rfl, rfl⟩) env menuItemId fun _ _ _ _ => ⟨rfl, rfl⟩

theorem clearCart_cartStep (userId guestId : Option String) :
    (clearCart userId guestId).Within CartStep :=
  clearCart_within (fun _ => ⟨rfl, rfl⟩) fun _ _ _ => ⟨rfl, rfl⟩

theorem register_desk (pf : Platform) (env : Env) (input : RegisterInput) :
    (register pf env input).Within DeskStep := by
  refine (Prog.within_query DeskStep.refl _ _ _).bind fun existing => ?_
  cases existing with
  | some u => trivial
  | none =>
    refine Prog.within_exec DeskStep.refl _ _ fun w r hw => ?_
    obtain ⟨r', hr', rfl⟩ := map_ok hw
    obtain ⟨db, hdb, rfl⟩ := map_ok (mapError_ok hr')
    exact .intro _ w.db.bookings (Db.insertUser_ok_iff.1 hdb).2

theorem writeProfile_desk (h : writeProfile env userId input db = .ok r) :
    ∃ users, r.2.toTables = { db.toTables with users := users } := by
  unfold writeProfile at h
  split at h
  · cases h
    exact ⟨db.users, rfl⟩
  · split at h
    · cases h
    · split at h
      · cases h
      · obtain ⟨db', hdb, rfl⟩ := map_ok h
        exact ⟨_, Db.updateUser_ok hdb⟩

theorem updateProfile_desk (env : Env) (userId : Option String) (input : UpdateProfileInput) :
    (updateProfile env userId input).Within DeskStep := by
  refine Prog.Within.bind (within_dbWrite DeskStep.refl fun w r hw => ?_) fun _ =>
    within_orElse _ _
  obtain ⟨users, h⟩ := writeProfile_desk hw
  exact .intro users w.db.bookings h

theorem createBooking_desk (env : Env) (input : CreateBookingInput) (userId : Option String) :
    (createBooking env input userId).Within DeskStep := by
  refine within_dbWrite DeskStep.refl fun w r hw => ?_
  obtain ⟨bookings, h⟩ := insertBooking_desk hw
  exact .intro w.db.users bookings h

theorem updateBookingStatus_desk (env : Env) (bookingId status : String) :
    (updateBookingStatus env bookingId status).Within DeskStep := by
  refine Prog.Within.bind (within_dbWrite DeskStep.refl fun w r hw => ?_) fun _ =>
    within_orElse _ _
  obtain ⟨bookings, h⟩ := writeBookingStatus_desk hw
  exact .intro w.db.users bookings h

/-- Every statement of a resolver is a step of its operation. -/
theorem Operation.resolve_step (pf : Platform) (r : Request) (caller : Option Caller)
    (op : Operation) : (op.resolve pf r caller).Within op.Step := by
  have hr : ∀ w, ReadStep w w := fun _ => .refl
  cases op with
  | register input => exact (register_desk pf r.env input).bind fun _ => trivial
  | updateProfile input => exact (updateProfile_desk _ _ _).bind fun _ => trivial
  | createBooking input => exact (createBooking_desk _ _ _).bind fun _ => trivial
  | updateBookingStatus bookingId status =>
    exact (updateBookingStatus_desk _ _ _).bind fun _ => trivial
  | createMenuItem input => exact (createMenuItem_within _ _ _).bind fun _ => trivial
  | updateMenuItem input => exact (updateMenuItem_within _ _).bind fun _ => trivial
  | deleteMenuItem itemId => exact (deleteMenuItem_within _ _).bind fun _ => trivial
  | toggleMenuItemAvailability itemId =>
    exact (toggleAvailability_within _ _).bind fun _ => trivial
  | updateOrderStatus orderId status =>
    exact (updateOrderStatus_within _ _ _).bind fun _ => trivial
  | placeOrder input => exact (placeOrder_within _ _ _ _).bind fun _ => trivial
  | addToCart input => exact (addToCart_cartStep _ _ _ _).bind fun _ => trivial
  | removeFromCart menuItemId => exact (removeFromCart_cartStep _ _ _ _).bind fun _ => trivial
  | clearCart => exact (clearCart_cartStep _ _).bind fun _ => trivial
  | menu tableId => exact (getMenuByTableId_fills _ _ _).bind fun _ => trivial
  | menuItemsByTable tableId => exact (findByTable_fills _ _ _).bind fun _ => trivial
  | guestSession tableId => trivial
  | logout => trivial
  | refreshToken token => trivial
  | hello => trivial
  | login email password =>
    exact ((validateUser_keeps _ _ _).within hr).bind fun _ => trivial
  | me => exact (me_keeps _).within hr
  | paginatedUsers args => exact ((getPaginatedUsers_keeps _ _ _).within hr).bind fun _ => trivial
  | menuItem itemId => exact ((getMenuItemById_keeps _).within hr).bind fun _ => trivial
  | menuItemsByRestaurant restaurantId =>
    exact ((getMenuItemsByRestaurant_keeps _ _).within hr).bind fun _ => trivial
  | paginatedMenuItems args =>
    exact ((getPaginatedMenuItems_keeps _ _ _).within hr).bind fun _ => trivial
  | cart => exact ((getCart_keeps _ _ _).within hr).bind fun _ => trivial
  | order orderId => exact ((getOrderWithDetails_keeps _).within hr).bind fun _ => trivial
  | myOrders => exact ((getMyOrders_keeps _ _ _).within hr).bind fun _ => trivial
  | kitchenOrders restaurantId =>
    exact ((getKitchenOrders_keeps _ _).within hr).bind fun _ => trivial
  | tables restaurantId => exact ((getTables_keeps _ _).within hr).bind fun _ => trivial
  | table tableId => exact (within_select hr _ _).bind fun _ => trivial
  | myBookings => exact ((myBookings_keeps _ _).within hr).bind fun _ => trivial
  | bookings restaurantId date =>
    exact ((bookingsByRestaurant_keeps _ _ _).within hr).bind fun _ => trivial

/-- The statements of an operation that change the menu. -/
def Operation.MenuWrites (env : Env) (db db' : Db) : Operation → Prop
  | .createMenuItem input => ∃ row, insertMenuItem env input db = .ok (row, db')
  | .updateMenuItem input => ∃ row, writePatch input.id input.patch db = .ok (row, db')
  | .deleteMenuItem itemId => ∃ r, deleteItem itemId db = .ok (r, db')
  | .toggleMenuItemAvailability itemId =>
    ∃ b row, patchMenuItem itemId { isAvailable := some b } db = .ok (row, db')
  | _ => False

theorem UpdateMenuItemInput.patch_price (h : UpdateMenuItemInput.patch input = .ok p) :
    p.price = none ∨ ∃ price, input.price = some (some price) ∧ p.price = some (toCents price) := by
  obtain ⟨name, _, h⟩ := bind_ok h
  obtain ⟨price, hprice, h⟩ := bind_ok h
  obtain ⟨categoryId, _, h⟩ := bind_ok h
  obtain ⟨category, _, h⟩ := bind_ok h
  obtain ⟨isAvailable, _, h⟩ := bind_ok h
  cases h
  unfold notNull at hprice
  split at hprice
  · cases hprice
    exact .inl rfl
  · cases hprice
  · cases hprice
    exact .inr ⟨_, by assumption, rfl⟩

/-- The operation gives a dish this price, if any. -/
def Operation.SetsPrice (op : Operation) (cents : Option Int) : Prop :=
  cents = none ∨ ∃ input price, op = .updateMenuItem input ∧
    input.price = some (some price) ∧ cents = some (toCents price)

/-- Where the rows of the menu come from when an operation has changed it. -/
inductive Operation.RowFrom (env : Env) (db : Db) (op : Operation) (row : MenuItemRow) : Prop
  | old (h : row ∈ db.menuItems)
  | new (input : CreateMenuItemInput) (hop : op = .createMenuItem input)
      (h : row = (newMenuItem env input category restaurant).stored)
      (hr : parseUuid input.restaurantId = .ok restaurant)
  | patched (p : MenuItemPatch) (h : old ∈ db.menuItems) (hrow : row = p.apply old)
      (hprice : op.SetsPrice p.price)

theorem Operation.RowFrom.of_patch (hprice : Operation.SetsPrice op p.price)
    (h : patchMenuItem itemId p db = .ok r) : ∀ row ∈ r.2.menuItems, op.RowFrom env db row := by
  intro row hrow
  obtain ⟨u, _, ht⟩ := patchMenuItem_row h
  rw [ht] at hrow
  rcases mem_updateWhere hrow with hrow | ⟨old, hold, _, rfl⟩
  · exact .old hrow
  · exact .patched p hold rfl hprice

theorem Operation.MenuWrites.rows (h : Operation.MenuWrites env db db' op) :
    ∀ row ∈ db'.menuItems, op.RowFrom env db row := by
  cases op
  case createMenuItem input =>
    obtain ⟨new, h⟩ := h
    obtain ⟨_, ht, category, restaurant, _, hr, rfl⟩ := insertMenuItem_row h
    intro row hrow
    rw [ht] at hrow
    rcases List.mem_append.1 hrow with hrow | hrow
    · exact .old hrow
    · exact .new input rfl (List.mem_singleton.1 hrow) hr
  case updateMenuItem input =>
    obtain ⟨row, h⟩ := h
    obtain ⟨p, hp, h⟩ := writePatch_ok h
    refine Operation.RowFrom.of_patch ?_ h
    rcases UpdateMenuItemInput.patch_price hp with hnone | ⟨price, hprice, hc⟩
    · exact .inl hnone
    · exact .inr ⟨input, price, rfl, hprice, hc⟩
  case deleteMenuItem itemId =>
    obtain ⟨u, h⟩ := h
    obtain ⟨u, _, ht⟩ := deleteItem_rows h
    intro row hrow
    rw [ht] at hrow
    exact .old (List.mem_of_mem_filter hrow)
  case toggleMenuItemAvailability itemId =>
    obtain ⟨b, row, h⟩ := h
    exact Operation.RowFrom.of_patch (.inl rfl) h
  all_goals exact h.elim

theorem Operation.MenuWrites.tables (h : Operation.MenuWrites env db db' op) : ∃ items favorites,
    db'.toTables = { db.toTables with menuItems := items, favorites := favorites } := by
  cases op
  case createMenuItem input =>
    obtain ⟨row, h⟩ := h
    exact ⟨_, _, (insertMenuItem_row h).2.1⟩
  case updateMenuItem input =>
    obtain ⟨row, h⟩ := h
    obtain ⟨p, _, h⟩ := writePatch_ok h
    obtain ⟨u, _, ht⟩ := patchMenuItem_row h
    exact ⟨_, _, ht⟩
  case deleteMenuItem itemId =>
    obtain ⟨u, h⟩ := h
    obtain ⟨u, _, ht⟩ := deleteItem_rows h
    exact ⟨_, _, ht⟩
  case toggleMenuItemAvailability itemId =>
    obtain ⟨b, row, h⟩ := h
    obtain ⟨u, _, ht⟩ := patchMenuItem_row h
    exact ⟨_, _, ht⟩
  all_goals exact h.elim

end DineFlow
