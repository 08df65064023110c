import DineFlow.Keys
import DineFlow.Uuid

namespace DineFlow
open Relational
set_option autoImplicit true

inductive UserRole where
  | admin
  | manager
  | waiter
  | kitchen
  | customer
  deriving DecidableEq, Repr

def UserRole.text : UserRole → String
  | .admin => "admin"
  | .manager => "manager"
  | .waiter => "waiter"
  | .kitchen => "kitchen"
  | .customer => "customer"

/-- The roles the source compares with when it asks for a staff member. -/
def UserRole.isStaff : UserRole → Bool
  | .waiter | .kitchen | .manager | .admin => true
  | .customer => false

inductive OrderStatus where
  | pending
  | cooking
  | ready
  | served
  | paid
  | cancelled
  deriving DecidableEq, Repr

def OrderStatus.text : OrderStatus → String
  | .pending => "PENDING"
  | .cooking => "COOKING"
  | .ready => "READY"
  | .served => "SERVED"
  | .paid => "PAID"
  | .cancelled => "CANCELLED"

structure UserRow where
  id : Uuid
  name : String
  email : String
  passwordHash : String
  profileImageUrl : Option String
  role : UserRole
  createdAt : Option Nat
  updatedAt : Option Nat
  deriving DecidableEq, Repr

structure RestaurantRow where
  id : Uuid
  name : String
  slug : String
  description : Option String
  address : Option String
  phone : Option String
  createdAt : Option Nat
  updatedAt : Option Nat
  deriving DecidableEq, Repr

structure TableRow where
  id : Uuid
  restaurantId : Uuid
  tableNumber : Int
  qrUuid : Uuid
  currentWaiterId : Option Uuid
  status : String
  createdAt : Nat
  updatedAt : Nat
  deriving DecidableEq, Repr

structure MenuCategoryRow where
  id : Uuid
  restaurantId : Uuid
  name : String
  nameAm : Option String
  description : Option String
  descriptionAm : Option String
  displayOrder : Int
  createdAt : Nat
  updatedAt : Nat
  deriving DecidableEq, Repr

/-- Prices and totals are `numeric(10,2)` columns, held here in hundredths. -/
structure MenuItemRow where
  id : Uuid
  restaurantId : Uuid
  categoryId : Uuid
  name : String
  nameAm : Option String
  description : Option String
  descriptionAm : Option String
  price : Int
  imageUrl : Option String
  isAvailable : Bool
  prepTime : Option Int
  createdAt : Nat
  updatedAt : Nat
  deriving DecidableEq, Repr

structure OrderRow where
  id : Uuid
  restaurantId : Uuid
  tableId : Option Uuid
  userId : Option Uuid
  guestId : Option String
  status : String
  totalAmount : Int
  specialInstructions : Option String
  createdAt : Nat
  updatedAt : Nat
  deriving DecidableEq, Repr

structure OrderItemRow where
  id : Uuid
  orderId : Uuid
  menuItemId : Uuid
  quantity : Int
  price : Int
  notes : Option String
  createdAt : Nat
  updatedAt : Nat
  deriving DecidableEq, Repr

structure CartItemRow where
  id : Uuid
  menuItemId : Uuid
  deriving DecidableEq, Repr

structure FavoriteRow where
  userId : Uuid
  menuItemId : Uuid
  deriving DecidableEq, Repr

structure BookingRow where
  id : Uuid
  restaurantId : Uuid
  userId : Option Uuid
  guestEmail : Option String
  guestName : Option String
  guestPhone : Option String
  date : String
  time : String
  partySize : Int
  status : String
  specialRequest : Option String
  tableId : Option Uuid
  createdAt : Option Nat
  updatedAt : Option Nat
  deriving DecidableEq, Repr

/-- An `integer` column holds 32 bits. -/
def FitsInt4 (n : Int) : Prop := -2147483648 ≤ n ∧ n ≤ 2147483647

/-- A `numeric(10,2)` column holds eight digits before the point. -/
def FitsNumeric (n : Int) : Prop := -10000000000 < n ∧ n < 10000000000

instance (n : Int) : Decidable (FitsInt4 n) := inferInstanceAs (Decidable (_ ∧ _))

instance (n : Int) : Decidable (FitsNumeric n) := inferInstanceAs (Decidable (_ ∧ _))

/-- No text of the database holds a null character. -/
def Storable (s : String) : Prop := '\x00' ∉ s.toList

/-- A text that may be assigned to a `varchar` column: what goes beyond its width is blank. -/
def FitsVarchar (width : Nat) (s : String) : Prop :=
  Storable s ∧ (s.length ≤ width ∨ ∀ c ∈ s.toList.drop width, c = ' ')

instance (s : String) : Decidable (Storable s) := inferInstanceAs (Decidable (_ ∉ _))

instance (width : Nat) (s : String) : Decidable (FitsVarchar width s) :=
  inferInstanceAs (Decidable (_ ∧ _))

/-- What the column holds of such a text: the blanks beyond its width are cut off. -/
def cutVarchar (width : Nat) (s : String) : String :=
  if s.length ≤ width then s else String.ofList (s.toList.take width)

theorem length_cutVarchar_le (width : Nat) (s : String) : (cutVarchar width s).length ≤ width := by
  rw [cutVarchar]
  split
  · assumption
  · rw [String.length_ofList, List.length_take]
    exact Nat.min_le_left _ _

theorem cutVarchar_eq_iff : cutVarchar width s = s ↔ s.length ≤ width :=
  ⟨fun h => h ▸ length_cutVarchar_le width s, fun h => if_pos h⟩

theorem Storable.cutVarchar (h : Storable s) (width : Nat) : Storable (cutVarchar width s) := by
  rw [DineFlow.cutVarchar]
  split
  · exact h
  · intro hmem
    rw [String.toList_ofList] at hmem
    exact h (List.mem_of_mem_take hmem)

/-- A text that the column holds as it is. -/
def IsVarchar (width : Nat) (s : String) : Prop := Storable s ∧ s.length ≤ width

instance (width : Nat) (s : String) : Decidable (IsVarchar width s) :=
  inferInstanceAs (Decidable (_ ∧ _))

theorem IsVarchar.fits (h : IsVarchar width s) : FitsVarchar width s := ⟨h.1, .inl h.2⟩

theorem IsVarchar.cut (h : IsVarchar width s) : cutVarchar width s = s := cutVarchar_eq_iff.2 h.2

structure Tables where
  users : List UserRow
  restaurants : List RestaurantRow
  tables : List TableRow
  menuCategories : List MenuCategoryRow
  menuItems : List MenuItemRow
  orders : List OrderRow
  orderItems : List OrderItemRow
  cartItems : List CartItemRow
  favorites : List FavoriteRow
  bookings : List BookingRow

/-- The primary keys, unique columns, foreign keys and column ranges of the schema. -/
structure Tables.Valid (t : Tables) : Prop where
  userIds : UniqueKey UserRow.id t.users
  emails : UniqueKey UserRow.email t.users
  restaurantIds : UniqueKey RestaurantRow.id t.restaurants
  slugs : UniqueKey RestaurantRow.slug t.restaurants
  tableIds : UniqueKey TableRow.id t.tables
  qrUuids : UniqueKey TableRow.qrUuid t.tables
  categoryIds : UniqueKey MenuCategoryRow.id t.menuCategories
  menuItemIds : UniqueKey MenuItemRow.id t.menuItems
  orderIds : UniqueKey OrderRow.id t.orders
  orderItemIds : UniqueKey OrderItemRow.id t.orderItems
  bookingIds : UniqueKey BookingRow.id t.bookings
  tableRestaurant : Refs (fun r => some r.restaurantId) t.tables RestaurantRow.id t.restaurants
  tableWaiter : Refs TableRow.currentWaiterId t.tables UserRow.id t.users
  categoryRestaurant :
    Refs (fun r => some r.restaurantId) t.menuCategories RestaurantRow.id t.restaurants
  itemRestaurant : Refs (fun r => some r.restaurantId) t.menuItems RestaurantRow.id t.restaurants
  itemCategory : Refs (fun r => some r.categoryId) t.menuItems MenuCategoryRow.id t.menuCategories
  orderRestaurant : Refs (fun r => some r.restaurantId) t.orders RestaurantRow.id t.restaurants
  orderTable : Refs OrderRow.tableId t.orders TableRow.id t.tables
  orderUser : Refs OrderRow.userId t.orders UserRow.id t.users
  lineOrder : Refs (fun r => some r.orderId) t.orderItems OrderRow.id t.orders
  lineItem : Refs (fun r => some r.menuItemId) t.orderItems MenuItemRow.id t.menuItems
  cartItem : Refs (fun r => some r.menuItemId) t.cartItems MenuItemRow.id t.menuItems
  favoriteUser : Refs (fun r => some r.userId) t.favorites UserRow.id t.users
  favoriteItem : Refs (fun r => some r.menuItemId) t.favorites MenuItemRow.id t.menuItems
  bookingRestaurant : Refs (fun r => some r.restaurantId) t.bookings RestaurantRow.id t.restaurants
  bookingUser : Refs BookingRow.userId t.bookings UserRow.id t.users
  bookingTable : Refs BookingRow.tableId t.bookings TableRow.id t.tables
  itemPrices : ∀ r ∈ t.menuItems, FitsNumeric r.price

/-- A database state: tables that satisfy every declared constraint. -/
structure Db extends Tables where
  valid : toTables.Valid

end DineFlow
