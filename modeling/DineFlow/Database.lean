import DineFlow.Schema

namespace DineFlow
open Relational
set_option autoImplicit true

/-- Why a database statement raises. `emptyList` and `emptySet` are the query builder's own
refusals of an `IN ()` condition and of an update without columns; `nullCharacter` is a text
parameter that holds one; `rejected` is a violated constraint of the table. -/
inductive DbError where
  | connection
  | invalidUuid (text : String)
  | nullCharacter
  | rejected (table : String)
  | emptyList
  | emptySet
  deriving DecidableEq, Repr

def parseUuid (s : String) : Except DbError Uuid :=
  match Uuid.parse s with
  | some u => .ok u
  | none => .error (.invalidUuid s)

theorem parseUuid_ok_iff : parseUuid s = .ok u ↔ Uuid.parse s = some u := by
  rw [parseUuid]
  cases Uuid.parse s <;> simp

@[simp] theorem parseUuid_text (u : Uuid) : parseUuid u.text = .ok u := by
  rw [parseUuid, Uuid.parse_text]

def parseUuids : List String → Except DbError (List Uuid)
  | [] => .ok []
  | s :: ss =>
    match parseUuid s, parseUuids ss with
    | .ok u, .ok us => .ok (u :: us)
    | .error e, _ => .error e
    | _, .error e => .error e

/-- A text that a query is given. -/
def textParam (s : String) : Except DbError String :=
  if Storable s then .ok s else .error .nullCharacter

def optTextParam : Option String → Except DbError (Option String)
  | none => .ok none
  | some s => (textParam s).map some

theorem map_ok {x : Except ε α} {g : α → β} (h : x.map g = .ok b) :
    ∃ a, x = .ok a ∧ g a = b := by
  cases x with
  | error e => cases h
  | ok a => exact ⟨a, rfl, Except.ok.inj h⟩

theorem toOption_ok {r : Except ε α} (h : a ∈ r.toOption) : r = .ok a := by
  cases r with
  | error e => cases h
  | ok b => exact congrArg Except.ok (Option.some.inj h)

theorem optTextParam_ok_iff :
    optTextParam s = .ok s' ↔ (∀ t ∈ s, Storable t) ∧ s' = s := by
  cases s with
  | none => simp [optTextParam, eq_comm]
  | some t =>
    rw [optTextParam, textParam]
    split
    · rename_i ht
      simp [Except.map, ht, eq_comm]
    · rename_i ht
      simp [Except.map, ht]

theorem bind_ok {x : Except ε α} {g : α → Except ε β} (h : x.bind g = .ok b) :
    ∃ a, x = .ok a ∧ g a = .ok b := by
  cases x with
  | error e => cases h
  | ok a => exact ⟨a, rfl, h⟩

/-- `inArray(column, values)` on a uuid column. -/
def inArray (ss : List String) : Except DbError (List Uuid) :=
  if ss = [] then .error .emptyList else parseUuids ss

/-- The tie-breaking order in which the planner happens to deliver rows. -/
structure RowOrder where
  places : Nat → List Nat
  perm : ∀ n, (places n).Perm (List.range n)

/-- Rows in the order they were stored. -/
def RowOrder.stored : RowOrder := ⟨List.range, fun _ => .refl _⟩

def RowOrder.arrange (plan : RowOrder) (rows : List ρ) : List ρ :=
  (plan.places rows.length).filterMap fun i => rows[i]?

theorem filterMap_range (rows : List ρ) :
    (List.range rows.length).filterMap (fun i => rows[i]?) = rows := by
  induction rows with
  | nil => rfl
  | cons r rows ih =>
    rw [List.length_cons, List.range_succ_eq_map, List.filterMap_cons, List.filterMap_map]
    exact congrArg (r :: ·) ih

theorem RowOrder.arrange_perm (plan : RowOrder) (rows : List ρ) :
    (plan.arrange rows).Perm rows := by
  have h := (plan.perm rows.length).filterMap fun i => rows[i]?
  rwa [filterMap_range] at h

/-- `ORDER BY` one column; rows that tie come in the planner's order. -/
def orderBy [LinearOrder κ] (plan : RowOrder) (key : ρ → κ) (rows : List ρ) : List ρ :=
  (plan.arrange rows).insertionSort fun a b => key a ≤ key b

theorem orderBy_perm [LinearOrder κ] (plan : RowOrder) (key : ρ → κ) (rows : List ρ) :
    (orderBy plan key rows).Perm rows :=
  (List.perm_insertionSort _ _).trans (plan.arrange_perm rows)

theorem orderBy_sorted [LinearOrder κ] (plan : RowOrder) (key : ρ → κ) (rows : List ρ) :
    (orderBy plan key rows).Pairwise fun a b => key a ≤ key b := by
  have ht : Std.Total fun a b : ρ => key a ≤ key b := ⟨fun a b => le_total _ _⟩
  have hi : IsTrans ρ fun a b => key a ≤ key b := ⟨fun _ _ _ => le_trans⟩
  exact List.pairwise_insertionSort _ _

theorem Db.eq_of_toTables {db db' : Db} (h : db.toTables = db'.toTables) : db = db' := by
  cases db
  cases db'
  cases h
  rfl

theorem Db.checked_ok_iff {c : Prop} [Decidable c] {t : Tables} {hv : c → t.Valid}
    {e : DbError} {db : Db} :
    (if h : c then Except.ok (Db.mk t (hv h)) else .error e) = .ok db ↔ c ∧ db.toTables = t := by
  split
  case isTrue h =>
    refine ⟨fun he => ?_, fun he => congrArg _ (Db.eq_of_toTables he.2.symm)⟩
    cases he
    exact ⟨h, rfl⟩
  case isFalse h =>
    refine ⟨fun he => ?_, fun he => absurd he.1 h⟩
    cases he

/-- The texts of a row that is inserted fit their columns. -/
def UserRow.fits (u : UserRow) : Bool :=
  decide (FitsVarchar 256 u.name) && decide (FitsVarchar 256 u.email) &&
    decide (FitsVarchar 256 u.passwordHash) && u.profileImageUrl.all fun s => decide (Storable s)

/-- The row as its columns hold it. -/
def UserRow.stored (u : UserRow) : UserRow :=
  { u with
    name := cutVarchar 256 u.name
    email := cutVarchar 256 u.email
    passwordHash := cutVarchar 256 u.passwordHash }

def UserRow.accepted (t : Tables) (u : UserRow) : Bool :=
  !hasKey UserRow.id t.users u.id && !hasKey UserRow.email t.users u.stored.email && u.fits

/-- The checks on a menu item's columns, whether it is inserted or updated. -/
def MenuItemRow.wellFormed (t : Tables) (r : MenuItemRow) : Bool :=
  hasKey RestaurantRow.id t.restaurants r.restaurantId &&
    hasKey MenuCategoryRow.id t.menuCategories r.categoryId && decide (FitsNumeric r.price) &&
    r.prepTime.all fun n => decide (FitsInt4 n)

def MenuItemRow.fits (r : MenuItemRow) : Bool :=
  decide (FitsVarchar 256 r.name) && (r.nameAm.all fun s => decide (FitsVarchar 256 s)) &&
    (r.description.all fun s => decide (Storable s)) &&
    (r.descriptionAm.all fun s => decide (Storable s)) &&
    r.imageUrl.all fun s => decide (Storable s)

def MenuItemRow.stored (r : MenuItemRow) : MenuItemRow :=
  { r with name := cutVarchar 256 r.name, nameAm := r.nameAm.map (cutVarchar 256) }

def OrderRow.fits (o : OrderRow) : Bool :=
  (o.guestId.all fun g => decide (FitsVarchar 256 g)) &&
    o.specialInstructions.all fun s => decide (Storable s)

def OrderRow.stored (o : OrderRow) : OrderRow :=
  { o with guestId := o.guestId.map (cutVarchar 256) }

def OrderRow.accepted (t : Tables) (o : OrderRow) : Bool :=
  !hasKey OrderRow.id t.orders o.id && hasKey RestaurantRow.id t.restaurants o.restaurantId &&
    refOk TableRow.id t.tables o.tableId && refOk UserRow.id t.users o.userId && o.fits &&
    decide (FitsNumeric o.totalAmount)

def OrderItemRow.accepted (t : Tables) (r : OrderItemRow) : Bool :=
  !hasKey OrderItemRow.id t.orderItems r.id && hasKey OrderRow.id t.orders r.orderId &&
    hasKey MenuItemRow.id t.menuItems r.menuItemId && decide (FitsInt4 r.quantity) &&
    decide (FitsNumeric r.price) && r.notes.all fun s => decide (Storable s)

def BookingRow.fits (b : BookingRow) : Bool :=
  (b.guestEmail.all fun s => decide (FitsVarchar 255 s)) &&
    (b.guestName.all fun s => decide (FitsVarchar 255 s)) &&
    (b.guestPhone.all fun s => decide (FitsVarchar 20 s)) && decide (FitsVarchar 20 b.date) &&
    decide (FitsVarchar 10 b.time) && decide (FitsVarchar 20 b.status) &&
    b.specialRequest.all fun s => decide (Storable s)

def BookingRow.stored (b : BookingRow) : BookingRow :=
  { b with
    guestEmail := b.guestEmail.map (cutVarchar 255)
    guestName := b.guestName.map (cutVarchar 255)
    guestPhone := b.guestPhone.map (cutVarchar 20)
    date := cutVarchar 20 b.date
    time := cutVarchar 10 b.time
    status := cutVarchar 20 b.status }

def BookingRow.wellFormed (t : Tables) (b : BookingRow) : Bool :=
  hasKey RestaurantRow.id t.restaurants b.restaurantId && refOk UserRow.id t.users b.userId &&
    refOk TableRow.id t.tables b.tableId && decide (FitsInt4 b.partySize) && b.fits

theorem all_storable_iff {o : Option String} :
    (o.all fun s => decide (Storable s)) = true ↔ ∀ s ∈ o, Storable s := by
  cases o <;> simp

theorem fresh_of_hasKey [DecidableEq κ] {key : ρ → κ} (h : hasKey key rows k = false) :
    ∀ r ∈ rows, key r ≠ k := by
  intro r hr he
  have ht : hasKey key rows k = true := hasKey_iff.2 ⟨r, hr, he⟩
  rw [h] at ht
  cases ht

theorem hasKey_of_fresh [DecidableEq κ] {key : ρ → κ} (h : ∀ r ∈ rows, key r ≠ k) :
    hasKey key rows k = false := by
  rw [Bool.eq_false_iff]
  intro ht
  obtain ⟨r, hr, he⟩ := hasKey_iff.1 ht
  exact h r hr he

theorem UserRow.accepted_fresh (h : UserRow.accepted t u = true) :
    (∀ r ∈ t.users, r.id ≠ u.id) ∧ ∀ r ∈ t.users, r.email ≠ u.stored.email := by
  simp only [UserRow.accepted, Bool.and_eq_true, Bool.not_eq_true'] at h
  exact ⟨fresh_of_hasKey h.1.1, fresh_of_hasKey h.1.2⟩

theorem Tables.Valid.insertUser (hv : Tables.Valid t) (h : UserRow.accepted t u = true) :
    Tables.Valid { t with users := t.users ++ [u.stored] } where
  __ := hv
  userIds := hv.userIds.snoc (UserRow.accepted_fresh h).1
  emails := hv.emails.snoc (UserRow.accepted_fresh h).2
  tableWaiter := hv.tableWaiter.snoc_target u.stored
  orderUser := hv.orderUser.snoc_target u.stored
  favoriteUser := hv.favoriteUser.snoc_target u.stored
  bookingUser := hv.bookingUser.snoc_target u.stored

def Db.insertUser (db : Db) (u : UserRow) : Except DbError Db :=
  if h : u.accepted db.toTables = true then
    .ok { toTables := { db.toTables with users := db.users ++ [u.stored] }
          valid := db.valid.insertUser h }
  else .error (.rejected "users")

theorem Db.insertUser_ok_iff {db : Db} :
    db.insertUser u = .ok db' ↔ u.accepted db.toTables = true ∧
      db'.toTables = { db.toTables with users := db.users ++ [u.stored] } :=
  Db.checked_ok_iff

/-- The columns `UPDATE users` may set. An update checks them only on a row it matches. -/
structure ProfilePatch where
  name : Option String
  profileImageUrl : Option (Option String)
  updatedAt : Nat

def ProfilePatch.storable (p : ProfilePatch) : Bool :=
  (p.name.all fun s => decide (Storable s)) &&
    (p.profileImageUrl.getD none).all fun s => decide (Storable s)

def ProfilePatch.apply (p : ProfilePatch) (u : UserRow) : UserRow :=
  { u with
    name := (p.name.map (cutVarchar 256)).getD u.name
    profileImageUrl := p.profileImageUrl.getD u.profileImageUrl
    updatedAt := some p.updatedAt }

@[simp] theorem ProfilePatch.apply_id (p : ProfilePatch) (u : UserRow) :
    (p.apply u).id = u.id := rfl

@[simp] theorem ProfilePatch.apply_role (p : ProfilePatch) (u : UserRow) :
    (p.apply u).role = u.role := rfl

theorem Tables.Valid.updateUser (hv : Tables.Valid t) (k : Uuid) (p : ProfilePatch) :
    Tables.Valid { t with users := updateWhere UserRow.id k p.apply t.users } where
  __ := hv
  userIds := hv.userIds.updateWhere (by exact fun _ => rfl) k
  emails := hv.emails.updateWhere (by exact fun _ => rfl) k
  tableWaiter := hv.tableWaiter.updateWhere_target (by exact fun _ => rfl) k
  orderUser := hv.orderUser.updateWhere_target (by exact fun _ => rfl) k
  favoriteUser := hv.favoriteUser.updateWhere_target (by exact fun _ => rfl) k
  bookingUser := hv.bookingUser.updateWhere_target (by exact fun _ => rfl) k

def Db.updateUser (db : Db) (k : Uuid) (p : ProfilePatch) : Except DbError Db :=
  if !p.storable then .error .nullCharacter
  else if hasKey UserRow.id db.users k && !p.name.all fun n => decide (FitsVarchar 256 n) then
    .error (.rejected "users")
  else
    .ok { toTables := { db.toTables with users := updateWhere UserRow.id k p.apply db.users }
          valid := db.valid.updateUser k p }

theorem Db.updateUser_ok {db : Db} (h : db.updateUser k p = .ok db') :
    db'.toTables = { db.toTables with users := updateWhere UserRow.id k p.apply db.users } := by
  rw [Db.updateUser] at h
  split at h
  · cases h
  · split at h
    · cases h
    · cases h
      rfl

theorem MenuItemRow.wellFormed_refs (h : MenuItemRow.wellFormed t r = true) :
    (∃ x ∈ t.restaurants, x.id = r.restaurantId) ∧
      (∃ x ∈ t.menuCategories, x.id = r.categoryId) ∧ FitsNumeric r.price := by
  simp only [MenuItemRow.wellFormed, Bool.and_eq_true, decide_eq_true_eq] at h
  exact ⟨hasKey_iff.1 h.1.1.1, hasKey_iff.1 h.1.1.2, h.1.2⟩

theorem Tables.Valid.insertMenuItem (hv : Tables.Valid t)
    (hid : hasKey MenuItemRow.id t.menuItems r.id = false) (h : MenuItemRow.wellFormed t r = true) :
    Tables.Valid { t with menuItems := t.menuItems ++ [r.stored] } where
  __ := hv
  menuItemIds := hv.menuItemIds.snoc (fresh_of_hasKey hid)
  itemRestaurant := hv.itemRestaurant.snoc fun k hk => by
    cases hk
    exact (MenuItemRow.wellFormed_refs h).1
  itemCategory := hv.itemCategory.snoc fun k hk => by
    cases hk
    exact (MenuItemRow.wellFormed_refs h).2.1
  lineItem := hv.lineItem.snoc_target r.stored
  cartItem := hv.cartItem.snoc_target r.stored
  favoriteItem := hv.favoriteItem.snoc_target r.stored
  itemPrices := by
    intro x hx
    rcases List.mem_append.1 hx with hx | hx
    · exact hv.itemPrices x hx
    · rw [List.mem_singleton.1 hx]
      exact (MenuItemRow.wellFormed_refs h).2.2

def Db.insertMenuItem (db : Db) (r : MenuItemRow) : Except DbError Db :=
  if h : hasKey MenuItemRow.id db.menuItems r.id = false ∧ r.fits = true ∧
      r.wellFormed db.toTables = true then
    .ok { toTables := { db.toTables with menuItems := db.menuItems ++ [r.stored] }
          valid := db.valid.insertMenuItem h.1 h.2.2 }
  else .error (.rejected "menu_items")

theorem Db.insertMenuItem_ok_iff {db : Db} :
    db.insertMenuItem r = .ok db' ↔
      (hasKey MenuItemRow.id db.menuItems r.id = false ∧ r.fits = true ∧
        r.wellFormed db.toTables = true) ∧
      db'.toTables = { db.toTables with menuItems := db.menuItems ++ [r.stored] } :=
  Db.checked_ok_iff

/-- The columns `UPDATE menu_items` may set. -/
structure MenuItemPatch where
  name : Option String := none
  description : Option (Option String) := none
  price : Option Int := none
  imageUrl : Option (Option String) := none
  prepTime : Option (Option Int) := none
  categoryId : Option Uuid := none
  isAvailable : Option Bool := none
  deriving DecidableEq

def MenuItemPatch.apply (p : MenuItemPatch) (r : MenuItemRow) : MenuItemRow :=
  { r with
    name := (p.name.map (cutVarchar 256)).getD r.name
    description := p.description.getD r.description
    price := p.price.getD r.price
    imageUrl := p.imageUrl.getD r.imageUrl
    prepTime := p.prepTime.getD r.prepTime
    categoryId := p.categoryId.getD r.categoryId
    isAvailable := p.isAvailable.getD r.isAvailable }

def MenuItemPatch.storable (p : MenuItemPatch) : Bool :=
  (p.name.all fun s => decide (Storable s)) &&
    ((p.description.getD none).all fun s => decide (Storable s)) &&
    (p.imageUrl.getD none).all fun s => decide (Storable s)

def MenuItemPatch.accepted (t : Tables) (k : Uuid) (p : MenuItemPatch) : Bool :=
  p.storable && t.menuItems.all fun r => !decide (r.id = k) ||
    (p.name.all fun s => decide (FitsVarchar 256 s)) && (p.apply r).wellFormed t

theorem MenuItemPatch.accepted_row (h : MenuItemPatch.accepted t k p = true)
    (hr : r ∈ t.menuItems) (hid : r.id = k) : (p.apply r).wellFormed t = true := by
  have hall := List.all_eq_true.1 (Bool.and_eq_true_iff.1 h).2 r hr
  rw [hid, decide_eq_true rfl, Bool.not_true, Bool.false_or] at hall
  exact (Bool.and_eq_true_iff.1 hall).2

theorem Tables.Valid.updateMenuItem (hv : Tables.Valid t)
    (h : MenuItemPatch.accepted t k p = true) :
    Tables.Valid { t with menuItems := updateWhere MenuItemRow.id k p.apply t.menuItems } where
  __ := hv
  menuItemIds := hv.menuItemIds.updateWhere (by exact fun _ => rfl) k
  itemRestaurant := hv.itemRestaurant.updateWhere (by exact fun _ => rfl) k
  itemCategory := by
    intro r hr k hk
    rcases mem_updateWhere hr with hr | ⟨r', hr', hid, rfl⟩
    · exact hv.itemCategory r hr k hk
    · cases hk
      exact (MenuItemRow.wellFormed_refs (MenuItemPatch.accepted_row h hr' hid)).2.1
  lineItem := hv.lineItem.updateWhere_target (by exact fun _ => rfl) k
  cartItem := hv.cartItem.updateWhere_target (by exact fun _ => rfl) k
  favoriteItem := hv.favoriteItem.updateWhere_target (by exact fun _ => rfl) k
  itemPrices := by
    intro r hr
    rcases mem_updateWhere hr with hr | ⟨r', hr', hid, rfl⟩
    · exact hv.itemPrices r hr
    · exact (MenuItemRow.wellFormed_refs (MenuItemPatch.accepted_row h hr' hid)).2.2

def Db.updateMenuItem (db : Db) (k : Uuid) (p : MenuItemPatch) : Except DbError Db :=
  if h : p.accepted db.toTables k = true then
    .ok { toTables := { db.toTables with
            menuItems := updateWhere MenuItemRow.id k p.apply db.menuItems }
          valid := db.valid.updateMenuItem h }
  else .error (.rejected "menu_items")

theorem Db.updateMenuItem_ok_iff {db : Db} :
    db.updateMenuItem k p = .ok db' ↔ p.accepted db.toTables k = true ∧
      db'.toTables = { db.toTables with
        menuItems := updateWhere MenuItemRow.id k p.apply db.menuItems } :=
  Db.checked_ok_iff

/-- A menu item is referenced `ON DELETE no action` by order lines and cart rows. -/
def Tables.itemInUse (t : Tables) (k : Uuid) : Bool :=
  hasKey OrderItemRow.menuItemId t.orderItems k || hasKey CartItemRow.menuItemId t.cartItems k

theorem Refs.delete_target [DecidableEq κ] {ref : ρ → κ} {key : τ → κ}
    (h : Refs (fun r => some (ref r)) rows key ts) (hf : hasKey ref rows k = false) :
    Refs (fun r => some (ref r)) rows key (ts.filter fun t => !decide (key t = k)) := by
  apply h.filter_target
  intro t _ hdeleted r hr he
  have hk : key t = k := by simpa using hdeleted
  exact fresh_of_hasKey hf r hr ((Option.some.inj he).trans hk)

theorem Tables.Valid.deleteMenuItem (hv : Tables.Valid t) (h : t.itemInUse k = false) :
    Tables.Valid { t with
      menuItems := t.menuItems.filter fun r => !decide (r.id = k)
      favorites := t.favorites.filter fun r => !decide (r.menuItemId = k) } where
  __ := hv
  menuItemIds := hv.menuItemIds.filter _
  itemRestaurant := hv.itemRestaurant.mono fun r hr => List.mem_of_mem_filter hr
  itemCategory := hv.itemCategory.mono fun r hr => List.mem_of_mem_filter hr
  lineItem := Refs.delete_target hv.lineItem (Bool.or_eq_false_iff.1 h).1
  cartItem := Refs.delete_target hv.cartItem (Bool.or_eq_false_iff.1 h).2
  favoriteUser := hv.favoriteUser.mono fun r hr => List.mem_of_mem_filter hr
  favoriteItem := by
    intro r hr k hk
    obtain ⟨hr, hne⟩ := List.mem_filter.1 hr
    obtain ⟨t, ht, he⟩ := hv.favoriteItem r hr k hk
    refine ⟨t, List.mem_filter.2 ⟨ht, ?_⟩, he⟩
    cases hk
    simpa [he] using hne
  itemPrices := fun r hr => hv.itemPrices r (List.mem_of_mem_filter hr)

def Db.deleteMenuItem (db : Db) (k : Uuid) : Except DbError Db :=
  if h : db.itemInUse k = false then
    .ok { toTables := { db.toTables with
            menuItems := db.menuItems.filter fun r => !decide (r.id = k)
            favorites := db.favorites.filter fun r => !decide (r.menuItemId = k) }
          valid := db.valid.deleteMenuItem h }
  else .error (.rejected "menu_items")

theorem Db.deleteMenuItem_ok_iff {db : Db} :
    db.deleteMenuItem k = .ok db' ↔ db.itemInUse k = false ∧
      db'.toTables = { db.toTables with
        menuItems := db.menuItems.filter fun r => !decide (r.id = k)
        favorites := db.favorites.filter fun r => !decide (r.menuItemId = k) } :=
  Db.checked_ok_iff

theorem OrderRow.accepted_refs (h : OrderRow.accepted t o = true) :
    (∀ r ∈ t.orders, r.id ≠ o.id) ∧ (∃ r ∈ t.restaurants, r.id = o.restaurantId) ∧
      (∀ k, o.tableId = some k → ∃ r ∈ t.tables, r.id = k) ∧
      ∀ k, o.userId = some k → ∃ r ∈ t.users, r.id = k := by
  simp only [OrderRow.accepted, Bool.and_eq_true, Bool.not_eq_true'] at h
  exact ⟨fresh_of_hasKey h.1.1.1.1.1, hasKey_iff.1 h.1.1.1.1.2, refOk_iff.1 h.1.1.1.2,
    refOk_iff.1 h.1.1.2⟩

theorem Tables.Valid.insertOrder (hv : Tables.Valid t) (h : OrderRow.accepted t o = true) :
    Tables.Valid { t with orders := t.orders ++ [o.stored] } where
  __ := hv
  orderIds := hv.orderIds.snoc (OrderRow.accepted_refs h).1
  orderRestaurant := hv.orderRestaurant.snoc fun k hk => by
    cases hk
    exact (OrderRow.accepted_refs h).2.1
  orderTable := hv.orderTable.snoc (OrderRow.accepted_refs h).2.2.1
  orderUser := hv.orderUser.snoc (OrderRow.accepted_refs h).2.2.2
  lineOrder := hv.lineOrder.snoc_target o.stored

def Db.insertOrder (db : Db) (o : OrderRow) : Except DbError Db :=
  if h : o.accepted db.toTables = true then
    .ok { toTables := { db.toTables with orders := db.orders ++ [o.stored] }
          valid := db.valid.insertOrder h }
  else .error (.rejected "orders")

theorem Db.insertOrder_ok_iff {db : Db} :
    db.insertOrder o = .ok db' ↔ o.accepted db.toTables = true ∧
      db'.toTables = { db.toTables with orders := db.orders ++ [o.stored] } :=
  Db.checked_ok_iff

def OrderRow.setStatus (status : OrderStatus) (o : OrderRow) : OrderRow :=
  { o with status := status.text }

theorem Tables.Valid.updateOrderStatus (hv : Tables.Valid t) (k : Uuid) (s : OrderStatus) :
    Tables.Valid
      { t with orders := updateWhere OrderRow.id k (OrderRow.setStatus s) t.orders } where
  __ := hv
  orderIds := hv.orderIds.updateWhere (by exact fun _ => rfl) k
  orderRestaurant := hv.orderRestaurant.updateWhere (by exact fun _ => rfl) k
  orderTable := hv.orderTable.updateWhere (by exact fun _ => rfl) k
  orderUser := hv.orderUser.updateWhere (by exact fun _ => rfl) k
  lineOrder := hv.lineOrder.updateWhere_target (by exact fun _ => rfl) k

def Db.updateOrderStatus (db : Db) (k : Uuid) (s : OrderStatus) : Db where
  toTables :=
    { db.toTables with orders := updateWhere OrderRow.id k (OrderRow.setStatus s) db.orders }
  valid := db.valid.updateOrderStatus k s

theorem OrderItemRow.accepted_refs (h : OrderItemRow.accepted t r = true) :
    (∀ x ∈ t.orderItems, x.id ≠ r.id) ∧ (∃ x ∈ t.orders, x.id = r.orderId) ∧
      ∃ x ∈ t.menuItems, x.id = r.menuItemId := by
  simp only [OrderItemRow.accepted, Bool.and_eq_true, Bool.not_eq_true'] at h
  exact ⟨fresh_of_hasKey h.1.1.1.1.1, hasKey_iff.1 h.1.1.1.1.2, hasKey_iff.1 h.1.1.1.2⟩

theorem Tables.Valid.insertOrderItem (hv : Tables.Valid t)
    (h : OrderItemRow.accepted t r = true) :
    Tables.Valid { t with orderItems := t.orderItems ++ [r] } where
  __ := hv
  orderItemIds := hv.orderItemIds.snoc (OrderItemRow.accepted_refs h).1
  lineOrder := hv.lineOrder.snoc fun k hk => by
    cases hk
    exact (OrderItemRow.accepted_refs h).2.1
  lineItem := hv.lineItem.snoc fun k hk => by
    cases hk
    exact (OrderItemRow.accepted_refs h).2.2

def Db.insertOrderItem (db : Db) (r : OrderItemRow) : Except DbError Db :=
  if h : r.accepted db.toTables = true then
    .ok { toTables := { db.toTables with orderItems := db.orderItems ++ [r] }
          valid := db.valid.insertOrderItem h }
  else .error (.rejected "order_items")

theorem Db.insertOrderItem_ok_iff {db : Db} :
    db.insertOrderItem r = .ok db' ↔ r.accepted db.toTables = true ∧
      db'.toTables = { db.toTables with orderItems := db.orderItems ++ [r] } :=
  Db.checked_ok_iff

theorem BookingRow.wellFormed_refs (h : BookingRow.wellFormed t b = true) :
    (∃ r ∈ t.restaurants, r.id = b.restaurantId) ∧
      (∀ k, b.userId = some k → ∃ r ∈ t.users, r.id = k) ∧
      ∀ k, b.tableId = some k → ∃ r ∈ t.tables, r.id = k := by
  simp only [BookingRow.wellFormed, Bool.and_eq_true] at h
  exact ⟨hasKey_iff.1 h.1.1.1.1, refOk_iff.1 h.1.1.1.2, refOk_iff.1 h.1.1.2⟩

theorem Tables.Valid.insertBooking (hv : Tables.Valid t)
    (hid : hasKey BookingRow.id t.bookings b.id = false) (h : BookingRow.wellFormed t b = true) :
    Tables.Valid { t with bookings := t.bookings ++ [b.stored] } where
  __ := hv
  bookingIds := hv.bookingIds.snoc (fresh_of_hasKey hid)
  bookingRestaurant := hv.bookingRestaurant.snoc fun k hk => by
    cases hk
    exact (BookingRow.wellFormed_refs h).1
  bookingUser := hv.bookingUser.snoc (BookingRow.wellFormed_refs h).2.1
  bookingTable := hv.bookingTable.snoc (BookingRow.wellFormed_refs h).2.2

def Db.insertBooking (db : Db) (b : BookingRow) : Except DbError Db :=
  if h : hasKey BookingRow.id db.bookings b.id = false ∧ b.wellFormed db.toTables = true then
    .ok { toTables := { db.toTables with bookings := db.bookings ++ [b.stored] }
          valid := db.valid.insertBooking h.1 h.2 }
  else .error (.rejected "bookings")

theorem Db.insertBooking_ok_iff {db : Db} :
    db.insertBooking b = .ok db' ↔
      (hasKey BookingRow.id db.bookings b.id = false ∧ b.wellFormed db.toTables = true) ∧
      db'.toTables = { db.toTables with bookings := db.bookings ++ [b.stored] } :=
  Db.checked_ok_iff

def BookingRow.setStatus (status : String) (now : Nat) (b : BookingRow) : BookingRow :=
  { b with status := cutVarchar 20 status, updatedAt := some now }

theorem Tables.Valid.updateBooking (hv : Tables.Valid t) (k : Uuid) (s : String) (now : Nat) :
    Tables.Valid { t with
      bookings := updateWhere BookingRow.id k (BookingRow.setStatus s now) t.bookings } where
  __ := hv
  bookingIds := hv.bookingIds.updateWhere (by exact fun _ => rfl) k
  bookingRestaurant := hv.bookingRestaurant.updateWhere (by exact fun _ => rfl) k
  bookingUser := hv.bookingUser.updateWhere (by exact fun _ => rfl) k
  bookingTable := hv.bookingTable.updateWhere (by exact fun _ => rfl) k

def Db.updateBooking (db : Db) (k : Uuid) (s : String) (now : Nat) : Except DbError Db :=
  if ¬Storable s then .error .nullCharacter
  else if hasKey BookingRow.id db.bookings k && !decide (FitsVarchar 20 s) then
    .error (.rejected "bookings")
  else
    .ok { toTables := { db.toTables with
            bookings := updateWhere BookingRow.id k (BookingRow.setStatus s now) db.bookings }
          valid := db.valid.updateBooking k s now }

theorem Db.updateBooking_ok {db : Db} (h : db.updateBooking k s now = .ok db') :
    db'.toTables = { db.toTables with
      bookings := updateWhere BookingRow.id k (BookingRow.setStatus s now) db.bookings } := by
  rw [Db.updateBooking] at h
  split at h
  · cases h
  · split at h
    · cases h
    · cases h
      rfl

/-- The uuids of the sample rows. -/
def sampleId (d : Fin 16) : Uuid :=
  let z : Quad := ⟨0, 0, 0, 0⟩
  ⟨z, z, z, z, z, z, z, ⟨0, 0, 0, d⟩⟩

def sampleTables : Tables where
  users := [⟨sampleId 5, "Manager", "manager@dineflow.com", "", none, .manager, some 0, some 0⟩]
  restaurants := [⟨sampleId 1, "Habesha", "habesha", none, none, none, some 0, some 0⟩]
  tables := [⟨sampleId 2, sampleId 1, 1, sampleId 2, none, "available", 0, 0⟩]
  menuCategories := [⟨sampleId 3, sampleId 1, "Mains", none, none, none, 0, 0, 0⟩]
  menuItems := [⟨sampleId 4, sampleId 1, sampleId 3, "Injera", none, none, none, 1, none, true,
    none, 0, 0⟩]
  orders := []
  orderItems := []
  cartItems := []
  favorites := []
  bookings := []

theorem sampleTables_valid : sampleTables.Valid := by
  constructor <;> simp [sampleTables, UniqueKey, Refs, FitsNumeric]

/-- A restaurant with its manager, one table and one dish, before the first order. -/
def sampleDb : Db := ⟨sampleTables, sampleTables_valid⟩

end DineFlow
