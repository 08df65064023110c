import DineFlow.World

namespace DineFlow
open Atomic Relational
set_option autoImplicit true

structure AddToCartInput where
  menuItemId : String
  quantity : Int
  notes : Option String
  deriving DecidableEq, Repr

structure PlaceOrderInput where
  tableId : String
  items : Option (List AddToCartInput)
  specialInstructions : Option String
  deriving DecidableEq, Repr

/-- An optional string that the code would take for true. -/
def given (s : Option String) : Option String := s.filter fun s => s ≠ ""

theorem storable_given_iff {o : Option String} :
    (∀ s ∈ o, Storable s) ↔ ∀ s ∈ given o, Storable s := by
  cases o with
  | none => rfl
  | some s =>
    by_cases hs : s = ""
    · simp [given, hs, Storable]
    · simp [given, hs]

def cartKey (userId guestId : Option String) : Option String :=
  match given userId, given guestId with
  | some u, _ => some ("user:cart:" ++ u)
  | none, some g => some ("guest:cart:" ++ g)
  | none, none => none

def getCartKey (userId guestId : Option String) : Except ApiError String :=
  match cartKey userId guestId with
  | some key => .ok key
  | none => .error (.badRequest "Either userId or guestId must be provided")

def Cached.asCart : Cached → Except ApiError Cart
  | .cart c => .ok c
  | _ => .error .typeError

/-- `priceMap.get(id)`: the map is keyed by the canonical text of the rows' ids. -/
def rowOf (rows : List MenuItemRow) (menuItemId : String) : Option MenuItemRow :=
  rows.find? fun r => r.id.text = menuItemId

def cartTotal (rows : List MenuItemRow) (items : List CartItem) : Int :=
  (items.map fun i =>
    match rowOf rows i.menuItemId with
    | some r => r.price * i.quantity
    | none => 0).sum

def menuItemsIn (ids : List String) (db : Db) : Except DbError (List MenuItemRow) :=
  (inArray ids).map fun us => db.menuItems.filter fun r => r.id ∈ us

def calculateCartTotalAmount (cart : Cart) : Api Int :=
  if cart.items = [] then .ret 0
  else do
    let rows ← select .cartPrices (menuItemsIn (cart.items.map CartItem.menuItemId))
    return cartTotal rows cart.items

def availableItem (menuItemId : String) (db : Db) : Except DbError (Option MenuItemRow) :=
  (parseUuid menuItemId).map fun u => db.menuItems.find? fun r => r.id = u && r.isAvailable

def emptyCart (now : Nat) : Cart := ⟨[], .date now, .date now, 0⟩

/-- The line that `addToCart` changes, or the one it adds at the end. -/
def mergeItem (now : Nat) (input : AddToCartInput) (row : MenuItemRow) :
    List CartItem → List CartItem
  | [] => [⟨input.menuItemId, row.name, input.quantity, row.price, input.notes, .date now⟩]
  | i :: is =>
    if i.menuItemId = input.menuItemId then
      { i with
        quantity := i.quantity + input.quantity
        notes := if (given input.notes).isSome then input.notes else i.notes
        price := row.price
        menuItemName := row.name } :: is
    else i :: mergeItem now input row is

def cartTtl (guestId : Option String) : Option Nat :=
  if (given guestId).isSome then some 900 else none

def saveCart (env : Env) (key : String) (guestId : Option String) (cart : Cart) : Api Cart := do
  setCachedObject .cartSet env.now key (.cart cart) (cartTtl guestId)
  return cart

/-- How `addToCart` and `removeFromCart` end: the changed cart gets its total and is stored. -/
def storeCart (env : Env) (key : String) (guestId : Option String)
    (cart : Except ApiError Cart) : Api Cart := do
  let cart ← .ofExcept cart
  let total ← calculateCartTotalAmount cart
  saveCart env key guestId { cart with totalAmount := total }

def addToCart.currentCart (now : Nat) : Option Cached → Except ApiError Cart
  | some c => c.asCart
  | none => .ok (emptyCart now)

def addToCart.update (env : Env) (input : AddToCartInput) (row : MenuItemRow) (cart : Cart) :
    Cart :=
  { cart with items := mergeItem env.now input row cart.items, updatedAt := .date env.now }

def addToCart.withCart (env : Env) (input : AddToCartInput) (key : String)
    (guestId : Option String) (row : MenuItemRow) (cached : Option Cached) : Api Cart :=
  storeCart env key guestId
    ((addToCart.currentCart env.now cached).map (addToCart.update env input row))

def addToCart.withItem (env : Env) (input : AddToCartInput) (key : String)
    (guestId : Option String) (row : Option MenuItemRow) : Api Cart :=
  match row with
  | none => .throw (.notFound "Menu item not found or not available")
  | some row => do
    let cached ← getCachedObject .cartGet key
    addToCart.withCart env input key guestId row cached

def addToCart (env : Env) (input : AddToCartInput) (userId guestId : Option String) :
    Api Cart := do
  let key ← .ofExcept (getCartKey userId guestId)
  let row ← select .availableItem (availableItem input.menuItemId)
  addToCart.withItem env input key guestId row

def getCart (env : Env) (userId guestId : Option String) : Api Cart := do
  let key ← .ofExcept (getCartKey userId guestId)
  let cached ← getCachedObject .cartGet key
  match cached with
  | none => .ret (emptyCart env.now)
  | some c =>
    let cart ← .ofExcept c.asCart
    let total ← calculateCartTotalAmount cart
    return { cart with totalAmount := total }

def removeFromCart.currentCart : Option Cached → Except ApiError Cart
  | some c => c.asCart
  | none => .error (.notFound "Cart not found")

def removeFromCart.update (env : Env) (menuItemId : String) (cart : Cart) : Cart :=
  { cart with
    items := cart.items.filter fun i => i.menuItemId ≠ menuItemId
    updatedAt := .date env.now }

def removeFromCart.withCart (env : Env) (menuItemId : String) (key : String)
    (guestId : Option String) (cached : Option Cached) : Api Cart :=
  storeCart env key guestId
    ((removeFromCart.currentCart cached).map (removeFromCart.update env menuItemId))

def removeFromCart (env : Env) (menuItemId : String) (userId guestId : Option String) :
    Api Cart := do
  let key ← .ofExcept (getCartKey userId guestId)
  let cached ← getCachedObject .cartGet key
  removeFromCart.withCart env menuItemId key guestId cached

def clearCart (userId guestId : Option String) : Api Unit := do
  let key ← .ofExcept (getCartKey userId guestId)
  delCached .cartDel key

/-- The price is read back as a number; the stored decimal stays exact. -/
structure MenuItem where
  id : Uuid
  name : String
  nameAm : Option String
  description : Option String
  descriptionAm : Option String
  price : Int
  imageUrl : Option String
  isAvailable : Bool
  prepTime : Int
  createdAt : Stamp
  updatedAt : Stamp
  categoryId : Uuid
  restaurantId : Uuid
  deriving DecidableEq, Repr

def menuItemFromDb (row : MenuItemRowLike) : MenuItem :=
  { row with prepTime := row.prepTime.getD 15 }

structure OrderItem where
  id : Uuid
  quantity : Int
  price : Int
  notes : Option String
  menuItem : MenuItem
  deriving DecidableEq, Repr

structure Order where
  id : Uuid
  table : TableRow
  guestId : Option String
  items : List OrderItem
  status : OrderStatus
  totalAmount : Int
  specialInstructions : Option String
  createdAt : Nat
  updatedAt : Nat
  deriving DecidableEq, Repr

def orderStatusFromDb (status : String) : OrderStatus :=
  let key := String.ofList (status.toList.map Char.toUpper)
  if key = "COOKING" then .cooking
  else if key = "READY" then .ready
  else if key = "SERVED" then .served
  else if key = "PAID" then .paid
  else if key = "CANCELLED" then .cancelled
  else .pending

def orderById (orderId : String) (db : Db) : Except DbError (Option OrderRow) :=
  (parseUuid orderId).map fun u => lookup OrderRow.id u db.orders

/-- `eq(tables.id, order.tableId)` matches no row when the order has no table. -/
def tableOfOrder (order : OrderRow) (db : Db) : Option TableRow :=
  match order.tableId with
  | some t => lookup TableRow.id t db.tables
  | none => none

def linesOf (order : Uuid) (db : Db) : List OrderItemRow :=
  db.orderItems.filter fun r => r.orderId = order

def orderItemsView (lines : List OrderItemRow) (rows : List MenuItemRow) : List OrderItem :=
  lines.filterMap fun l =>
    (rows.find? fun r => r.id = l.menuItemId).map fun r =>
      ⟨l.id, l.quantity, l.price, l.notes, menuItemFromDb r.like⟩

def orderView (order : OrderRow) (table : TableRow) (lines : List OrderItemRow)
    (rows : List MenuItemRow) : Order :=
  { id := order.id
    table := table
    guestId := order.guestId
    items := orderItemsView lines rows
    status := orderStatusFromDb order.status
    totalAmount := order.totalAmount
    -- the mapping does not set this field
    specialInstructions := none
    createdAt := order.createdAt
    updatedAt := order.updatedAt }

def orElse (o : Option α) (e : ApiError) : Api α :=
  match o with
  | some a => .ret a
  | none => .throw e

def getOrderWithDetails (orderId : String) : Api Order := do
  let order ← select .detailOrder (orderById orderId)
  let order ← orElse order (.notFound "Order not found")
  let table ← select .detailTable fun db => .ok (tableOfOrder order db)
  let table ← orElse table (.notFound "Table not found for order")
  let lines ← select .detailLines fun db => .ok (linesOf order.id db)
  let rows ← select .detailMenu (menuItemsIn (lines.map fun l => l.menuItemId.text))
  return orderView order table lines rows

structure EffectiveItem where
  menuItemId : String
  quantity : Int
  notes : Option String
  deriving DecidableEq, Repr

/-- The lines of a cart read from Redis; a value of another shape counts as no cart. -/
def cartLines : Option Cached → List EffectiveItem
  | some (.cart c) => c.items.map fun i => ⟨i.menuItemId, i.quantity, i.notes⟩
  | _ => []

def effectiveItems (cached : Option Cached) (input : PlaceOrderInput) : List EffectiveItem :=
  if cartLines cached = [] then
    (input.items.getD []).map fun i => ⟨i.menuItemId, i.quantity, i.notes⟩
  else cartLines cached

structure OrderItemData where
  menuItemId : String
  quantity : Int
  price : Int
  notes : Option String
  deriving DecidableEq, Repr

def orderItemsData (rows : List MenuItemRow) (items : List EffectiveItem) : List OrderItemData :=
  items.filterMap fun i =>
    (rowOf rows i.menuItemId).map fun r => ⟨i.menuItemId, i.quantity, r.price, i.notes⟩

/-- What the lines are added up from: the price in cents and the quantity of each. -/
def OrderItemData.amounts (data : List OrderItemData) : List (Int × Int) :=
  data.map fun d => (d.price, d.quantity)

def unavailableItems (rows : List MenuItemRow) (items : List EffectiveItem) : List String :=
  (items.map EffectiveItem.menuItemId).filter fun i => (rowOf rows i).isNone

def availableItemsIn (ids : List String) (db : Db) : Except DbError (List MenuItemRow) :=
  (inArray ids).map fun us => db.menuItems.filter fun r => r.id ∈ us && r.isAvailable

def parseOptUuid : Option String → Except DbError (Option Uuid)
  | none => .ok none
  | some s => (parseUuid s).map some

/-- The row of `INSERT INTO orders`, once its uuid parameters have been read. The total is printed
and read as a decimal of two places. -/
def newOrder (env : Env) (input : PlaceOrderInput) (table : TableRow) (userId : Option Uuid)
    (guestId : Option String) (amounts : List (Int × Int)) : OrderRow :=
  { id := env.uuid 0
    restaurantId := table.restaurantId
    tableId := some table.id
    userId := userId
    guestId := given guestId
    status := OrderStatus.pending.text
    totalAmount := env.arithmetic.cents amounts
    specialInstructions := input.specialInstructions
    createdAt := env.now
    updatedAt := env.now }

def insertOrder (env : Env) (input : PlaceOrderInput) (table : TableRow)
    (userId guestId : Option String) (amounts : List (Int × Int)) (db : Db) :
    Except DbError (OrderRow × Db) :=
  match parseOptUuid (given userId) with
  | .error e => .error e
  | .ok u =>
    let row := newOrder env input table u guestId amounts
    (db.insertOrder row).map fun db => (row.stored, db)

def newLine (env : Env) (order : Uuid) (i : Nat) (item : Uuid) (d : OrderItemData) :
    OrderItemRow :=
  { id := env.uuid (i + 1)
    orderId := order
    menuItemId := item
    quantity := d.quantity
    price := d.price
    notes := d.notes
    createdAt := env.now
    updatedAt := env.now }

def insertLine (env : Env) (order : Uuid) (i : Nat) (d : OrderItemData) (db : Db) :
    Except DbError (Unit × Db) :=
  match parseUuid d.menuItemId with
  | .error e => .error e
  | .ok u => (db.insertOrderItem (newLine env order i u d)).map fun db => ((), db)

/-- An emit through the gateway; `fault` is what the caller sees if it throws. -/
def notify (site : Site) (emit : Gateway → Gateway) (fault : Except ApiError Unit) : Api Unit :=
  .exec site (fun w => .ok ((), { w with gateway := emit w.gateway })) fault

def emitOrderPlaced (e : OrderPlacedEvent) (g : Gateway) : Gateway :=
  (g.emit ("restaurant:" ++ e.restaurantId) (.orderNew e)).emit
    ("kitchen:" ++ e.restaurantId) (.orderNew e)

def placedEvent (order : OrderRow) (rows : List MenuItemRow) (data : List OrderItemData)
    (total : Rat) : OrderPlacedEvent :=
  { orderId := order.id
    tableId := order.tableId
    restaurantId := order.restaurantId.text
    items := data.map fun d =>
      (((rowOf rows d.menuItemId).map MenuItemRow.name).getD "Unknown Item", d.quantity)
    totalAmount := total
    createdAt := order.createdAt }

def clearSession : Option String → Api Unit
  | some key => delCached .cartDel key
  | none => .ret ()

/-- Everything after the order lines: the cart is cleared, staff are told, the order is read
back. A failure to tell staff is logged and dropped. -/
def placeOrder.finish (env : Env) (key : Option String) (order : OrderRow)
    (rows : List MenuItemRow) (data : List OrderItemData) : Api Order := do
  clearSession key
  notify .emitPlaced (emitOrderPlaced (placedEvent order rows data
    (env.arithmetic.total (OrderItemData.amounts data)))) (.ok ())
  getOrderWithDetails order.id.text

def insertLines (env : Env) (order : Uuid) (n : Nat) (data : List OrderItemData) : Api Unit :=
  .each (fun i d => dbWrite (.lineInsert i) (insertLine env order i d)) n data

def placeOrder.lines (env : Env) (key : Option String) (order : OrderRow)
    (rows : List MenuItemRow) (data : List OrderItemData) : Api Order := do
  insertLines env order.id 0 data
  placeOrder.finish env key order rows data

def placeOrder.withMenu (env : Env) (input : PlaceOrderInput) (userId guestId : Option String)
    (items : List EffectiveItem) (table : TableRow) (rows : List MenuItemRow) : Api Order :=
  if unavailableItems rows items ≠ [] then
    .throw (.badRequest ("Menu items not available: " ++
      String.intercalate ", " (unavailableItems rows items)))
  else do
    let data := orderItemsData rows items
    let order ← dbWrite .orderInsert
      (insertOrder env input table userId guestId (OrderItemData.amounts data))
    placeOrder.lines env (cartKey userId guestId) order rows data

def tableById (tableId : String) (db : Db) : Except DbError (Option TableRow) :=
  (parseUuid tableId).map fun u => lookup TableRow.id u db.tables

def placeOrder.withTable (env : Env) (input : PlaceOrderInput) (userId guestId : Option String)
    (items : List EffectiveItem) (table : Option TableRow) : Api Order := do
  let table ← orElse table (.notFound "Table not found")
  let rows ← select .placeMenu (availableItemsIn (items.map EffectiveItem.menuItemId))
  placeOrder.withMenu env input userId guestId items table rows

def placeOrder.withCart (env : Env) (input : PlaceOrderInput) (userId guestId : Option String)
    (cached : Option Cached) : Api Order :=
  let items := effectiveItems cached input
  if items = [] then
    .throw (.badRequest "Cart is empty — add items before placing an order")
  else do
    let table ← select .placeTable (tableById input.tableId)
    placeOrder.withTable env input userId guestId items table

def placeOrder (env : Env) (input : PlaceOrderInput) (userId guestId : Option String) :
    Api Order :=
  match cartKey userId guestId with
  | none => placeOrder.withCart env input userId guestId none
  | some key => do
    let cached ← getCachedObject .cartGet key
    placeOrder.withCart env input userId guestId cached

def userById (userId : String) (db : Db) : Except DbError (Option UserRow) :=
  (parseUuid userId).map fun u => lookup UserRow.id u db.users

def verifyStaffPermission (userId : String) : Api Unit := do
  let user ← select .staffCheck (userById userId)
  match user with
  | some u =>
    if u.role.isStaff then .ret ()
    else .throw (.forbidden "Only staff members can update order status")
  | none => .throw (.forbidden "Only staff members can update order status")

def emitOrderStatusChanged (e : OrderStatusEvent) (g : Gateway) : Gateway :=
  g.emit ("restaurant:" ++ e.restaurantId) (.orderStatus e)

def updateStatus (orderId : String) (status : OrderStatus) (db : Db) :
    Except DbError (Option OrderRow × Db) :=
  (parseUuid orderId).map fun u =>
    let db := db.updateOrderStatus u status
    (lookup OrderRow.id u db.orders, db)

def updateOrderStatus (orderId : String) (status : OrderStatus) (userId : String) :
    Api Order := do
  verifyStaffPermission userId
  let order ← select .statusOrder (orderById orderId)
  let _ ← orElse order (.notFound "Order not found")
  let updated ← dbWrite .statusUpdate (updateStatus orderId status)
  let updated ← orElse updated (.error "Failed to update order status")
  notify .emitStatus
    (emitOrderStatusChanged ⟨updated.id, updated.status, updated.restaurantId.text⟩)
    (.error .emitFailed)
  getOrderWithDetails updated.id.text

def myOrderRows (plan : RowOrder) (userId guestId : Option String) (db : Db) :
    Except DbError (List OrderRow) :=
  match parseOptUuid (given userId), optTextParam (given guestId) with
  | .ok u, .ok g => .ok (orderBy plan OrderRow.createdAt (db.orders.filter fun o =>
      (u.isSome && o.userId = u) || (g.isSome && o.guestId = g)))
  | .error e, _ => .error e
  | _, .error e => .error e

theorem myOrderRows_ok (h : myOrderRows plan userId guestId db = .ok rows) :
    ∃ u, parseOptUuid (given userId) = .ok u ∧
      rows = orderBy plan OrderRow.createdAt (db.orders.filter fun o =>
        (u.isSome && o.userId = u) || ((given guestId).isSome && o.guestId = given guestId)) := by
  rw [myOrderRows] at h
  split at h
  · rename_i u g hu hg
    rw [← (optTextParam_ok_iff.1 hg).2]
    exact ⟨u, hu, (Except.ok.inj h).symm⟩
  all_goals cases h

def getMyOrders (plan : RowOrder) (userId guestId : Option String) : Api (List Order) :=
  if given userId = none ∧ given guestId = none then .ret []
  else do
    let rows ← select .myOrders (myOrderRows plan userId guestId)
    .mapAll (fun o => getOrderWithDetails o.id.text) rows

def activeStatuses : List OrderStatus := [.pending, .cooking, .ready]

def OrderRow.isActive (o : OrderRow) : Bool := o.status ∈ activeStatuses.map OrderStatus.text

def kitchenRows (plan : RowOrder) (restaurantId : Option String) (db : Db) :
    Except DbError (List OrderRow) :=
  (parseOptUuid (given restaurantId)).map fun r =>
    orderBy plan OrderRow.createdAt (db.orders.filter fun o =>
      (r.isNone || some o.restaurantId = r) && o.isActive)

def getKitchenOrders (plan : RowOrder) (restaurantId : Option String) : Api (List Order) := do
  let rows ← select .kitchenOrders (kitchenRows plan restaurantId)
  .mapAll (fun o => getOrderWithDetails o.id.text) rows

end DineFlow
