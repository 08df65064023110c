import DineFlow.OrderService

namespace DineFlow
open Atomic Relational
set_option autoImplicit true

structure CreateMenuItemInput where
  name : String
  nameAm : Option String
  description : Option String
  descriptionAm : Option String
  price : Rat
  imageUrl : Option String
  prepTime : Option Int
  categoryId : Option String
  restaurantId : String

/-- A field that the client left out is `none`, one it set to null is `some none`. -/
structure UpdateMenuItemInput where
  id : String
  name : Option (Option String)
  description : Option (Option String)
  price : Option (Option Rat)
  imageUrl : Option (Option String)
  prepTime : Option (Option Int)
  categoryId : Option (Option String)
  isAvailable : Option (Option Bool)

def itemById (itemId : String) (db : Db) : Except DbError (Option MenuItemRow) :=
  (parseUuid itemId).map fun u => lookup MenuItemRow.id u db.menuItems

def menuKey (tableId : String) : String := "menu:table:" ++ tableId

def itemsKey (tableId : String) : String := "menu:table:" ++ tableId ++ ":items"

def menuPattern (restaurantId : String) : String := "menu:" ++ restaurantId ++ ":*"

def delMenuKeys (keys : List String) : Api Unit :=
  if keys = [] then .ret ()
  else .exec .menuDel (fun w => .ok ((), { w with redis := w.redis.delKeys keys })) (.error .redis)

/-- `KEYS` and `DEL` are the two calls of the client whose errors are not caught. -/
def invalidateMenuCache (restaurantId : String) : Api Unit := do
  let keys ← .query .menuKeys (fun w => .ok (w.redis.keys (menuPattern restaurantId)))
    (.error .redis)
  delMenuKeys keys

def verifyRole (allowed : UserRole → Bool) (message : String) (userId : String) : Api Unit := do
  let user ← select .menuRole (userById userId)
  match user with
  | some u => if allowed u.role then .ret () else .throw (.forbidden message)
  | none => .throw (.forbidden message)

def verifyManagerPermission : String → Api Unit :=
  verifyRole (fun r => r = .manager) "Only managers can modify menu items"

def verifyKitchenOrManagerPermission : String → Api Unit :=
  verifyRole (fun r => r = .manager || r = .kitchen)
    "Only managers and kitchen staff can toggle menu item availability"

def newMenuItem (env : Env) (input : CreateMenuItemInput) (category restaurant : Uuid) :
    MenuItemRow :=
  { id := env.uuid 0
    restaurantId := restaurant
    categoryId := category
    name := input.name
    nameAm := none
    description := input.description
    descriptionAm := none
    price := toCents input.price
    imageUrl := input.imageUrl
    isAvailable := true
    prepTime := some (input.prepTime.getD 0)
    createdAt := env.now
    updatedAt := env.now }

def insertMenuItem (env : Env) (input : CreateMenuItemInput) (db : Db) :
    Except DbError (MenuItemRow × Db) :=
  match parseOptUuid input.categoryId, parseUuid input.restaurantId with
  | .ok (some c), .ok r =>
    let row := newMenuItem env input c r
    (db.insertMenuItem row).map fun db => (row.stored, db)
  | .ok none, .ok _ => .error (.rejected "menu_items")
  | .error e, _ => .error e
  | _, .error e => .error e

def createMenuItem (env : Env) (input : CreateMenuItemInput) (userId : String) : Api MenuItem := do
  verifyManagerPermission userId
  let row ← dbWrite .menuWrite (insertMenuItem env input)
  invalidateMenuCache input.restaurantId
  return menuItemFromDb row.like

/-- A null for a column that may not be null is refused by the database. -/
def notNull (table : String) : Option (Option α) → Except DbError (Option α)
  | none => .ok none
  | some none => .error (.rejected table)
  | some (some a) => .ok (some a)

def UpdateMenuItemInput.patch (input : UpdateMenuItemInput) : Except DbError MenuItemPatch := do
  let name ← notNull "menu_items" input.name
  let price ← notNull "menu_items" input.price
  let categoryId ← notNull "menu_items" input.categoryId
  let categoryId ← parseOptUuid categoryId
  let isAvailable ← notNull "menu_items" input.isAvailable
  return { name := name
           description := input.description
           price := price.map toCents
           imageUrl := input.imageUrl
           prepTime := input.prepTime
           categoryId := categoryId
           isAvailable := isAvailable }

/-- The row `RETURNING` gives back is the updated one. -/
def patchMenuItem (itemId : String) (p : MenuItemPatch) (db : Db) :
    Except DbError (Option MenuItemRow × Db) :=
  match parseUuid itemId with
  | .error e => .error e
  | .ok u => (db.updateMenuItem u p).map fun db => (lookup MenuItemRow.id u db.menuItems, db)

/-- The query builder refuses an update that sets no column. -/
def writePatch (itemId : String) (patch : Except DbError MenuItemPatch) (db : Db) :
    Except DbError (Option MenuItemRow × Db) :=
  match patch with
  | .error e => .error e
  | .ok p => if p = {} then .error .emptySet else patchMenuItem itemId p db

def existingItem (itemId : String) : Api MenuItemRow := do
  let row ← select .menuItemRow (itemById itemId)
  orElse row (.notFound "Menu item not found")

def updateMenuItem (input : UpdateMenuItemInput) (userId : String) : Api MenuItem := do
  let existing ← existingItem input.id
  verifyManagerPermission userId
  let updated ← dbWrite .menuWrite (writePatch input.id input.patch)
  invalidateMenuCache existing.restaurantId.text
  let updated ← orElse updated .typeError
  return menuItemFromDb updated.like

def deleteItem (itemId : String) (db : Db) : Except DbError (Unit × Db) :=
  match parseUuid itemId with
  | .error e => .error e
  | .ok u => (db.deleteMenuItem u).map fun db => ((), db)

def deleteMenuItem (itemId : String) (userId : String) : Api Bool := do
  let existing ← existingItem itemId
  verifyManagerPermission userId
  dbWrite .menuWrite (deleteItem itemId)
  invalidateMenuCache existing.restaurantId.text
  return true

def getMenuItemById (itemId : String) : Api MenuItem := do
  let row ← existingItem itemId
  return menuItemFromDb row.like

def getMenuItemsByRestaurant (plan : RowOrder) (restaurantId : String) : Api (List MenuItem) := do
  let rows ← select .menuList fun db => (parseUuid restaurantId).map fun u =>
    plan.arrange (db.menuItems.filter fun r => r.restaurantId = u)
  return rows.map fun r => menuItemFromDb r.like

def toggleAvailability (itemId : String) (userId : String) : Api MenuItem := do
  let existing ← existingItem itemId
  verifyKitchenOrManagerPermission userId
  let updated ← dbWrite .menuWrite
    (patchMenuItem itemId { isAvailable := some !existing.isAvailable })
  invalidateMenuCache existing.restaurantId.text
  let updated ← orElse updated .typeError
  return menuItemFromDb updated.like

structure MenuCategory where
  id : Uuid
  name : String
  nameAm : Option String
  description : Option String
  descriptionAm : Option String
  displayOrder : Int
  items : List MenuItem
  deriving DecidableEq, Repr

structure Menu where
  tableId : String
  restaurantId : Uuid
  categories : List MenuCategory
  deriving DecidableEq, Repr

def formatMenu (m : CachedMenu) : Menu :=
  { tableId := m.tableId
    restaurantId := m.restaurantId
    categories := m.categories.map fun c =>
      { id := c.id
        name := c.name
        nameAm := c.nameAm
        description := c.description
        descriptionAm := c.descriptionAm
        displayOrder := c.displayOrder
        items := c.items.map menuItemFromDb } }

def categoryRows (plan : RowOrder) (restaurant : Uuid) (db : Db) : List MenuCategoryRow :=
  orderBy plan MenuCategoryRow.displayOrder
    (db.menuCategories.filter fun c => c.restaurantId = restaurant)

def categoryItems (plan : RowOrder) (category : Uuid) (db : Db) : List MenuItemRow :=
  plan.arrange (db.menuItems.filter fun r => r.categoryId = category && r.isAvailable)

def MenuCategoryRow.withItems (c : MenuCategoryRow) (rows : List MenuItemRow) :
    CategoryWithItems :=
  { c with
    createdAt := .date c.createdAt
    updatedAt := .date c.updatedAt
    items := rows.map MenuItemRow.like }

def Cached.asMenu : Cached → Except ApiError CachedMenu
  | .menu m => .ok m
  | _ => .error .typeError

def Cached.asItems : Cached → Except ApiError (List MenuItemRowLike)
  | .items rows => .ok rows
  | _ => .error .typeError

def loadMenu (plan : RowOrder) (tableId : String) : Api CachedMenu := do
  let table ← select .menuTable (tableById tableId)
  let table ← orElse table (.notFound "Table not found")
  let categories ← select .menuCategories fun db => .ok (categoryRows plan table.restaurantId db)
  let categories ← .mapAll (fun c => do
    let rows ← select .menuCategoryItems fun db => .ok (categoryItems plan c.id db)
    return c.withItems rows) categories
  return ⟨categories, table.restaurantId, tableId⟩

def getMenuByTableId.withCached (env : Env) (plan : RowOrder) (tableId : String) :
    Option Cached → Api Menu
  | some c => do
    let m ← .ofExcept c.asMenu
    return formatMenu m
  | none => do
    let m ← loadMenu plan tableId
    setCachedObject .menuSet env.now (menuKey tableId) (.menu m) (some 300)
    return formatMenu m

def getMenuByTableId (env : Env) (plan : RowOrder) (tableId : String) : Api Menu := do
  let cached ← getCachedObject .menuGet (menuKey tableId)
  getMenuByTableId.withCached env plan tableId cached

def availableRows (plan : RowOrder) (restaurant : Uuid) (db : Db) : List MenuItemRow :=
  plan.arrange (db.menuItems.filter fun r => r.restaurantId = restaurant && r.isAvailable)

def loadItems (plan : RowOrder) (tableId : String) : Api (List MenuItemRowLike) := do
  let table ← select .itemsTable (tableById tableId)
  let table ← orElse table (.notFound "Table not found")
  let rows ← select .itemsRows fun db => .ok (availableRows plan table.restaurantId db)
  return rows.map MenuItemRow.like

def findByTable.withCached (env : Env) (plan : RowOrder) (tableId : String) :
    Option Cached → Api (List MenuItem)
  | some c => do
    let rows ← .ofExcept c.asItems
    return rows.map menuItemFromDb
  | none => do
    let rows ← loadItems plan tableId
    setCachedObject .itemsSet env.now (itemsKey tableId) (.items rows) (some 300)
    return rows.map menuItemFromDb

def findByTable (env : Env) (plan : RowOrder) (tableId : String) : Api (List MenuItem) := do
  let cached ← getCachedObject .itemsGet (itemsKey tableId)
  findByTable.withCached env plan tableId cached

end DineFlow
