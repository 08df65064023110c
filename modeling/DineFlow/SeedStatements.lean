import DineFlow.Database

namespace DineFlow
open Relational
set_option autoImplicit true

theorem Db.checked_ok {c : Prop} [Decidable c] {t : Tables} {hv : c → t.Valid} {e : DbError}
    (hc : c) : ∃ db, (if h : c then Except.ok (Db.mk t (hv h)) else .error e) = .ok db ∧
      db.toTables = t :=
  ⟨_, dif_pos hc, rfl⟩

/-- The script inserts only texts that their columns hold as they are. -/
def RestaurantRow.accepted (t : Tables) (r : RestaurantRow) : Bool :=
  !hasKey RestaurantRow.id t.restaurants r.id && !hasKey RestaurantRow.slug t.restaurants r.slug &&
    decide (IsVarchar 255 r.name) && decide (IsVarchar 255 r.slug) &&
    r.phone.all fun s => decide (IsVarchar 20 s)

theorem Tables.Valid.insertRestaurant (hv : Tables.Valid t)
    (h : RestaurantRow.accepted t r = true) :
    Tables.Valid { t with restaurants := t.restaurants ++ [r] } := by
  simp only [RestaurantRow.accepted, Bool.and_eq_true, Bool.not_eq_true'] at h
  exact { hv with
    restaurantIds := hv.restaurantIds.snoc (fresh_of_hasKey h.1.1.1.1)
    slugs := hv.slugs.snoc (fresh_of_hasKey h.1.1.1.2)
    tableRestaurant := hv.tableRestaurant.snoc_target r
    categoryRestaurant := hv.categoryRestaurant.snoc_target r
    itemRestaurant := hv.itemRestaurant.snoc_target r
    orderRestaurant := hv.orderRestaurant.snoc_target r
    bookingRestaurant := hv.bookingRestaurant.snoc_target r }

def Db.insertRestaurant (db : Db) (r : RestaurantRow) : Except DbError Db :=
  if h : r.accepted db.toTables = true then
    .ok { toTables := { db.toTables with restaurants := db.restaurants ++ [r] }
          valid := db.valid.insertRestaurant h }
  else .error (.rejected "restaurants")

theorem Db.insertRestaurant_ok {db : Db} (h : r.accepted db.toTables = true) : ∃ db',
    db.insertRestaurant r = .ok db' ∧
      db'.toTables = { db.toTables with restaurants := db.restaurants ++ [r] } :=
  Db.checked_ok h

/-- The checks on the columns of a table's row that are not keys. -/
def TableRow.wellFormed (t : Tables) (r : TableRow) : Bool :=
  hasKey RestaurantRow.id t.restaurants r.restaurantId &&
    refOk UserRow.id t.users r.currentWaiterId && decide (FitsInt4 r.tableNumber) &&
    decide (IsVarchar 50 r.status)

def TableRow.accepted (t : Tables) (r : TableRow) : Bool :=
  !hasKey TableRow.id t.tables r.id && !hasKey TableRow.qrUuid t.tables r.qrUuid && r.wellFormed t

theorem Tables.Valid.insertTable (hv : Tables.Valid t) (h : TableRow.accepted t r = true) :
    Tables.Valid { t with tables := t.tables ++ [r] } := by
  simp only [TableRow.accepted, TableRow.wellFormed, Bool.and_eq_true, Bool.not_eq_true'] at h
  exact { hv with
    tableIds := hv.tableIds.snoc (fresh_of_hasKey h.1.1)
    qrUuids := hv.qrUuids.snoc (fresh_of_hasKey h.1.2)
    tableRestaurant := hv.tableRestaurant.snoc fun k hk => by
      cases hk
      exact hasKey_iff.1 h.2.1.1.1
    tableWaiter := hv.tableWaiter.snoc (refOk_iff.1 h.2.1.1.2)
    orderTable := hv.orderTable.snoc_target r
    bookingTable := hv.bookingTable.snoc_target r }

def Db.insertTable (db : Db) (r : TableRow) : Except DbError Db :=
  if h : r.accepted db.toTables = true then
    .ok { toTables := { db.toTables with tables := db.tables ++ [r] }
          valid := db.valid.insertTable h }
  else .error (.rejected "tables")

theorem Db.insertTable_ok {db : Db} (h : r.accepted db.toTables = true) : ∃ db',
    db.insertTable r = .ok db' ∧
      db'.toTables = { db.toTables with tables := db.tables ++ [r] } :=
  Db.checked_ok h

def MenuCategoryRow.accepted (t : Tables) (r : MenuCategoryRow) : Bool :=
  !hasKey MenuCategoryRow.id t.menuCategories r.id &&
    hasKey RestaurantRow.id t.restaurants r.restaurantId && decide (IsVarchar 256 r.name) &&
    (r.nameAm.all fun s => decide (IsVarchar 256 s)) && decide (FitsInt4 r.displayOrder)

theorem Tables.Valid.insertCategory (hv : Tables.Valid t)
    (h : MenuCategoryRow.accepted t r = true) :
    Tables.Valid { t with menuCategories := t.menuCategories ++ [r] } := by
  simp only [MenuCategoryRow.accepted, Bool.and_eq_true, Bool.not_eq_true'] at h
  exact { hv with
    categoryIds := hv.categoryIds.snoc (fresh_of_hasKey h.1.1.1.1)
    categoryRestaurant := hv.categoryRestaurant.snoc fun k hk => by
      cases hk
      exact hasKey_iff.1 h.1.1.1.2
    itemCategory := hv.itemCategory.snoc_target r }

def Db.insertCategory (db : Db) (r : MenuCategoryRow) : Except DbError Db :=
  if h : r.accepted db.toTables = true then
    .ok { toTables := { db.toTables with menuCategories := db.menuCategories ++ [r] }
          valid := db.valid.insertCategory h }
  else .error (.rejected "menu_categories")

theorem Db.insertCategory_ok {db : Db} (h : r.accepted db.toTables = true) : ∃ db',
    db.insertCategory r = .ok db' ∧
      db'.toTables = { db.toTables with menuCategories := db.menuCategories ++ [r] } :=
  Db.checked_ok h

/-- One `INSERT` of several rows: it takes all of them or none. -/
def insertAll (insert : Db → ρ → Except DbError Db) : List ρ → Db → Except DbError Db
  | [], db => .ok db
  | r :: rows, db =>
    match insert db r with
    | .ok db => insertAll insert rows db
    | .error e => .error e

theorem insertAll_cons_ok {insert : Db → ρ → Except DbError Db} (h : insert db r = .ok db')
    (rows : List ρ) : insertAll insert (r :: rows) db = insertAll insert rows db' := by
  rw [insertAll, h]

theorem insertAll_cons_error {insert : Db → ρ → Except DbError Db} (h : insert db r = .error e)
    (rows : List ρ) : insertAll insert (r :: rows) db = .error e := by
  rw [insertAll, h]

theorem insertAll_ok {insert : Db → ρ → Except DbError Db} {A : Tables → List ρ → Tables}
    {I : Db → List ρ → Prop} (hnil : ∀ t, A t [] = t)
    (hcons : ∀ t r rows, A (A t [r]) rows = A t (r :: rows))
    (hstep : ∀ db r rows, I db (r :: rows) →
      ∃ db', insert db r = .ok db' ∧ db'.toTables = A db.toTables [r] ∧ I db' rows)
    {db : Db} (h : I db rows) :
    ∃ db', insertAll insert rows db = .ok db' ∧ db'.toTables = A db.toTables rows := by
  induction rows generalizing db with
  | nil => exact ⟨db, rfl, (hnil _).symm⟩
  | cons r rows ih =>
    obtain ⟨db₁, hinsert, ht₁, h₁⟩ := hstep db r rows h
    obtain ⟨db', hrun, ht⟩ := ih h₁
    refine ⟨db', (insertAll_cons_ok hinsert rows).trans hrun, ?_⟩
    rw [ht, ht₁, hcons]

theorem Tables.Valid.deleteCartItems (hv : Tables.Valid t) (keep : CartItemRow → Bool) :
    Tables.Valid { t with cartItems := t.cartItems.filter keep } where
  __ := hv
  cartItem := hv.cartItem.mono fun _ => List.mem_of_mem_filter

/-- `DELETE` of the cart rows that the condition holds of. -/
def Db.deleteCartItems (db : Db) (hit : CartItemRow → Bool) : Db where
  toTables := { db.toTables with cartItems := db.cartItems.filter fun r => !hit r }
  valid := db.valid.deleteCartItems _

theorem Tables.Valid.deleteFavorites (hv : Tables.Valid t) (keep : FavoriteRow → Bool) :
    Tables.Valid { t with favorites := t.favorites.filter keep } where
  __ := hv
  favoriteUser := hv.favoriteUser.mono fun _ => List.mem_of_mem_filter
  favoriteItem := hv.favoriteItem.mono fun _ => List.mem_of_mem_filter

def Db.deleteFavorites (db : Db) (hit : FavoriteRow → Bool) : Db where
  toTables := { db.toTables with favorites := db.favorites.filter fun r => !hit r }
  valid := db.valid.deleteFavorites _

theorem Tables.Valid.deleteOrderItems (hv : Tables.Valid t) (keep : OrderItemRow → Bool) :
    Tables.Valid { t with orderItems := t.orderItems.filter keep } where
  __ := hv
  orderItemIds := hv.orderItemIds.filter _
  lineOrder := hv.lineOrder.mono fun _ => List.mem_of_mem_filter
  lineItem := hv.lineItem.mono fun _ => List.mem_of_mem_filter

def Db.deleteOrderItems (db : Db) (hit : OrderItemRow → Bool) : Db where
  toTables := { db.toTables with orderItems := db.orderItems.filter fun r => !hit r }
  valid := db.valid.deleteOrderItems _

/-- Whether a row refers to one of the rows that the condition holds of. -/
def refersTo [DecidableEq κ] (ref : ρ → κ) (rows : List ρ) (key : τ → κ) (targets : List τ)
    (hit : τ → Bool) : Bool :=
  targets.any fun t => hit t && hasKey ref rows (key t)

theorem refersTo_nil [DecidableEq κ] (ref : ρ → κ) (key : τ → κ) (targets : List τ)
    (hit : τ → Bool) : refersTo ref [] key targets hit = false := by
  rw [refersTo, List.any_eq_false]
  simp [hasKey]

theorem Refs.deleted [DecidableEq κ] {ref : ρ → κ} {key : τ → κ}
    (h : Refs (fun r => some (ref r)) rows key targets)
    (hfree : refersTo ref rows key targets hit = false) :
    Refs (fun r => some (ref r)) rows key (targets.filter fun t => !hit t) := by
  apply h.filter_target
  intro t ht hdeleted r hr he
  have hhit : hit t = true := by simpa using hdeleted
  have hnone := List.any_eq_false.1 hfree t ht
  rw [hhit, Bool.true_and, Bool.not_eq_true] at hnone
  exact fresh_of_hasKey hnone r hr (Option.some.inj he)

theorem Tables.Valid.deleteOrders (hv : Tables.Valid t)
    (h : refersTo OrderItemRow.orderId t.orderItems OrderRow.id t.orders hit = false) :
    Tables.Valid { t with orders := t.orders.filter fun o => !hit o } where
  __ := hv
  orderIds := hv.orderIds.filter _
  orderRestaurant := hv.orderRestaurant.mono fun _ => List.mem_of_mem_filter
  orderTable := hv.orderTable.mono fun _ => List.mem_of_mem_filter
  orderUser := hv.orderUser.mono fun _ => List.mem_of_mem_filter
  lineOrder := Refs.deleted hv.lineOrder h

def Db.deleteOrders (db : Db) (hit : OrderRow → Bool) : Except DbError Db :=
  if h : refersTo OrderItemRow.orderId db.orderItems OrderRow.id db.orders hit = false then
    .ok { toTables := { db.toTables with orders := db.orders.filter fun o => !hit o }
          valid := db.valid.deleteOrders h }
  else .error (.rejected "orders")

theorem Db.deleteOrders_ok {db : Db}
    (h : refersTo OrderItemRow.orderId db.orderItems OrderRow.id db.orders hit = false) :
    ∃ db', db.deleteOrders hit = .ok db' ∧
      db'.toTables = { db.toTables with orders := db.orders.filter fun o => !hit o } :=
  Db.checked_ok h

/-- The dishes that stay, and the favorites of them. -/
def Tables.withoutItems (t : Tables) (hit : MenuItemRow → Bool) : Tables :=
  { t with
    menuItems := t.menuItems.filter fun r => !hit r
    favorites := t.favorites.filter fun f =>
      !hasKey MenuItemRow.id (t.menuItems.filter hit) f.menuItemId }

/-- Order lines and cart rows keep a dish from being deleted; favorites go with it. -/
def Tables.itemsInUse (t : Tables) (hit : MenuItemRow → Bool) : Bool :=
  refersTo OrderItemRow.menuItemId t.orderItems MenuItemRow.id t.menuItems hit ||
    refersTo CartItemRow.menuItemId t.cartItems MenuItemRow.id t.menuItems hit

theorem Tables.Valid.deleteMenuItems (hv : Tables.Valid t) (h : t.itemsInUse hit = false) :
    (t.withoutItems hit).Valid where
  __ := hv
  menuItemIds := hv.menuItemIds.filter _
  itemRestaurant := hv.itemRestaurant.mono fun _ => List.mem_of_mem_filter
  itemCategory := hv.itemCategory.mono fun _ => List.mem_of_mem_filter
  lineItem := Refs.deleted hv.lineItem (Bool.or_eq_false_iff.1 h).1
  cartItem := Refs.deleted hv.cartItem (Bool.or_eq_false_iff.1 h).2
  favoriteUser := hv.favoriteUser.mono fun _ => List.mem_of_mem_filter
  favoriteItem := by
    refine Refs.filter_target (hv.favoriteItem.mono fun _ => List.mem_of_mem_filter) ?_
    intro r hr hdeleted f hf he
    have hhit : hit r = true := by simpa using hdeleted
    have hgone : hasKey MenuItemRow.id (t.menuItems.filter hit) f.menuItemId = false := by
      simpa using (List.mem_filter.1 hf).2
    exact fresh_of_hasKey hgone r (List.mem_filter.2 ⟨hr, hhit⟩) (Option.some.inj he).symm
  itemPrices := fun r hr => hv.itemPrices r (List.mem_of_mem_filter hr)

def Db.deleteMenuItems (db : Db) (hit : MenuItemRow → Bool) : Except DbError Db :=
  if h : db.itemsInUse hit = false then
    .ok ⟨db.withoutItems hit, db.valid.deleteMenuItems h⟩
  else .error (.rejected "menu_items")

theorem Db.deleteMenuItems_ok {db : Db} (h : db.itemsInUse hit = false) : ∃ db',
    db.deleteMenuItems hit = .ok db' ∧ db'.toTables = db.withoutItems hit :=
  Db.checked_ok h

theorem Tables.Valid.deleteCategories (hv : Tables.Valid t)
    (h : refersTo MenuItemRow.categoryId t.menuItems MenuCategoryRow.id t.menuCategories hit =
      false) :
    Tables.Valid { t with menuCategories := t.menuCategories.filter fun c => !hit c } where
  __ := hv
  categoryIds := hv.categoryIds.filter _
  categoryRestaurant := hv.categoryRestaurant.mono fun _ => List.mem_of_mem_filter
  itemCategory := Refs.deleted hv.itemCategory h

def Db.deleteCategories (db : Db) (hit : MenuCategoryRow → Bool) : Except DbError Db :=
  if h : refersTo MenuItemRow.categoryId db.menuItems MenuCategoryRow.id db.menuCategories hit =
      false then
    .ok { toTables := { db.toTables with
            menuCategories := db.menuCategories.filter fun c => !hit c }
          valid := db.valid.deleteCategories h }
  else .error (.rejected "menu_categories")

theorem Db.deleteCategories_ok {db : Db}
    (h : refersTo MenuItemRow.categoryId db.menuItems MenuCategoryRow.id db.menuCategories hit =
      false) :
    ∃ db', db.deleteCategories hit = .ok db' ∧
      db'.toTables = { db.toTables with
        menuCategories := db.menuCategories.filter fun c => !hit c } :=
  Db.checked_ok h

end DineFlow
