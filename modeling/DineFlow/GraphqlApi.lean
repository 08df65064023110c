import DineFlow.BookingService
import DineFlow.Pages

namespace DineFlow
open Atomic Relational
set_option autoImplicit true

/-- A request: the tokens it carries, and what its execution takes from outside. -/
structure Request where
  tokenCookie : Option String
  authorization : Option String
  guestCookie : Option String
  guestHeader : Option String
  env : Env
  plan : RowOrder

/-- Whom a request comes from: a row of the users table, or a guest session. -/
inductive Caller where
  | user (row : UserRow)
  | guest (sessionId tableId : String)
  deriving DecidableEq, Repr

def Caller.id : Caller → Option String
  | .user u => some u.id.text
  | .guest _ _ => none

def Caller.role : Caller → UserRole
  | .user u => u.role
  | .guest _ _ => .customer

def Request.jwt (pf : Platform) (r : Request) : Option String :=
  match given r.tokenCookie with
  | some t => some t
  | none => given (r.authorization.bind pf.bearer)

/-- The guest token of a request, which is also the id of its cart. -/
def Request.guestId (r : Request) : Option String :=
  match given r.guestCookie with
  | some t => some t
  | none => r.guestHeader

/-- The guest token strategy; whatever goes wrong in it, it throws the same error. -/
def guestStrategy (pf : Platform) (r : Request) : Except ApiError Caller :=
  match given r.guestId with
  | none => .error (.unauthorized "Invalid guest token")
  | some t =>
    match verifyGuestToken pf r.env.seconds t with
    | .ok p => .ok (.guest p.sessionId p.tableId)
    | .error _ => .error (.unauthorized "Invalid guest token")

/-- The claims of a token that verifies; without one the strategy fails and the next is tried. -/
def Request.claims (pf : Platform) (r : Request) : Option Claims :=
  (r.jwt pf).bind (pf.verify r.env.seconds)

/-- Passport: the web token first, then the guest token. -/
def authenticate (pf : Platform) (r : Request) : Api (Except ApiError Caller) :=
  match r.claims pf with
  | none => .ret (guestStrategy pf r)
  | some claims => do
    let user ← findUserById ((claims.get "sub").getD "undefined")
    match user with
    | some u => .ret (.ok (.user u))
    | none =>
      if pf.goesOn then .ret (guestStrategy pf r)
      else .ret (.error (.unauthorized "Invalid token"))

/-- What guards a route: whether it is public, and the roles of its own guards if it has any. -/
structure Route where
  isPublic : Bool
  guarded : Option (List UserRole)

/-- On a public route a failure to authenticate only leaves the caller unknown. -/
def gqlAuthGuard (pf : Platform) (route : Route) (r : Request) : Api (Option Caller) := do
  let outcome ← authenticate pf r
  match outcome with
  | .ok c => .ret (some c)
  | .error e => if route.isPublic then .ret none else .throw e

def publicGuard (route : Route) (caller : Option Caller) : Api Unit :=
  if route.isPublic || caller.isSome then .ret () else .throw (.forbidden "Forbidden resource")

def rolesGuard (roles : List UserRole) : Option Caller → Api Unit
  | none =>
    if roles = [] then .ret () else .throw (.forbidden "User not authenticated")
  | some c =>
    if roles = [] ∨ c.role ∈ roles then .ret () else .throw (.forbidden "Insufficient permissions")

/-- The two guards of the application, then those of the method. -/
def guards (pf : Platform) (route : Route) (r : Request) : Api (Option Caller) := do
  let caller ← gqlAuthGuard pf route r
  publicGuard route caller
  match route.guarded with
  | none => .ret caller
  | some roles => do
    let caller ← gqlAuthGuard pf route r
    rolesGuard roles caller
    return caller

inductive Operation where
  | register (input : RegisterInput)
  | login (email password : String)
  | guestSession (tableId : String)
  | me
  | logout
  | refreshToken (token : String)
  | updateProfile (input : UpdateProfileInput)
  | paginatedUsers (args : UsersArgs)
  | menu (tableId : String)
  | menuItem (itemId : String)
  | menuItemsByRestaurant (restaurantId : String)
  | createMenuItem (input : CreateMenuItemInput)
  | updateMenuItem (input : UpdateMenuItemInput)
  | deleteMenuItem (itemId : String)
  | toggleMenuItemAvailability (itemId : String)
  | menuItemsByTable (tableId : String)
  | paginatedMenuItems (args : MenuItemsArgs)
  | addToCart (input : AddToCartInput)
  | cart
  | removeFromCart (menuItemId : String)
  | clearCart
  | placeOrder (input : PlaceOrderInput)
  | order (orderId : String)
  | myOrders
  | kitchenOrders (restaurantId : Option String)
  | updateOrderStatus (orderId : String) (status : OrderStatus)
  | tables (restaurantId : Option String)
  | table (tableId : String)
  | createBooking (input : CreateBookingInput)
  | myBookings
  | bookings (restaurantId : String) (date : Option String)
  | updateBookingStatus (bookingId status : String)
  | hello

def openRoute : Route := ⟨true, none⟩

/-- A route without guards of its own. -/
def plainRoute : Route := ⟨false, none⟩

def Operation.route : Operation → Route
  | .register _ | .login _ _ | .guestSession _ | .refreshToken _ => openRoute
  | .me | .updateProfile _ => ⟨false, some []⟩
  | .paginatedUsers _ => ⟨false, some [.manager, .admin]⟩
  | .logout | .hello => plainRoute
  | .menu _ | .menuItem _ | .menuItemsByRestaurant _ | .menuItemsByTable _
  | .paginatedMenuItems _ => openRoute
  | .createMenuItem _ | .updateMenuItem _ | .deleteMenuItem _ => ⟨false, some [.manager, .admin]⟩
  | .toggleMenuItemAvailability _ => ⟨false, some [.manager, .kitchen, .admin]⟩
  | .addToCart _ | .cart | .removeFromCart _ | .clearCart | .placeOrder _ | .order _
  | .myOrders => openRoute
  | .kitchenOrders _ | .updateOrderStatus _ _ =>
    ⟨false, some [.waiter, .kitchen, .manager, .admin]⟩
  | .tables _ | .table _ | .createBooking _ => openRoute
  | .myBookings | .bookings _ _ | .updateBookingStatus _ _ => plainRoute

inductive Response where
  | authPayload (user : UserRow) (accessToken : String)
  | guestSession (session : GuestSession)
  | user (user : UserRow)
  | guestUser (sessionId : String)
  | users (page : Page UserRow)
  | menu (menu : Menu)
  | menuItem (item : MenuItem)
  | menuItems (items : List MenuItem)
  | menuPage (page : Page MenuItem)
  | cart (cart : Cart)
  | order (order : Order)
  | orders (orders : List Order)
  | tables (tables : List TableRow)
  | table (table : Option TableRow)
  | booking (booking : BookingRow)
  | bookings (bookings : List BookingRow)
  | done
  | text (text : String)

def me (caller : Option Caller) : Api Response :=
  match caller with
  | some (.guest sessionId _) => .ret (.guestUser sessionId)
  | some (.user u) => do
    let user ← findUserById u.id.text
    let user ← orElse user (.error "User not found")
    return .user user
  | none => .throw .typeError

/-- The resolvers. A route that is not public always has a caller. -/
def Operation.resolve (pf : Platform) (r : Request) (caller : Option Caller) :
    Operation → Api Response
  | .register input => do
    let user ← DineFlow.register pf r.env input
    return .authPayload user (DineFlow.login pf r.env.seconds user)
  | .login email password => do
    let user ← validateUser pf email password
    return .authPayload user (DineFlow.login pf r.env.seconds user)
  | .guestSession tableId => .ret (.guestSession (generateGuestToken pf r.env tableId))
  | .me => DineFlow.me caller
  | .logout => .ret .done
  | .refreshToken _ => .throw (.error "Refresh token not implemented")
  | .updateProfile input => do
    let user ← DineFlow.updateProfile r.env (caller.bind Caller.id) input
    return .user user
  | .paginatedUsers args => do
    let page ← getPaginatedUsers pf r.plan args
    return .users page
  | .menu tableId => do
    let m ← getMenuByTableId r.env r.plan tableId
    return .menu m
  | .menuItem itemId => do
    let item ← getMenuItemById itemId
    return .menuItem item
  | .menuItemsByRestaurant restaurantId => do
    let items ← getMenuItemsByRestaurant r.plan restaurantId
    return .menuItems items
  | .createMenuItem input => do
    let item ← DineFlow.createMenuItem r.env input ((caller.bind Caller.id).getD "")
    return .menuItem item
  | .updateMenuItem input => do
    let item ← DineFlow.updateMenuItem input ((caller.bind Caller.id).getD "")
    return .menuItem item
  | .deleteMenuItem itemId => do
    let _ ← DineFlow.deleteMenuItem itemId ((caller.bind Caller.id).getD "")
    return .done
  | .toggleMenuItemAvailability itemId => do
    let item ← toggleAvailability itemId ((caller.bind Caller.id).getD "")
    return .menuItem item
  | .menuItemsByTable tableId => do
    let items ← findByTable r.env r.plan tableId
    return .menuItems items
  | .paginatedMenuItems args => do
    let page ← getPaginatedMenuItems pf r.plan args
    return .menuPage page
  | .addToCart input => do
    let cart ← DineFlow.addToCart r.env input (caller.bind Caller.id) r.guestId
    return .cart cart
  | .cart => do
    let cart ← getCart r.env (caller.bind Caller.id) r.guestId
    return .cart cart
  | .removeFromCart menuItemId => do
    let cart ← DineFlow.removeFromCart r.env menuItemId (caller.bind Caller.id) r.guestId
    return .cart cart
  | .clearCart => do
    DineFlow.clearCart (caller.bind Caller.id) r.guestId
    return .done
  | .placeOrder input => do
    let order ← DineFlow.placeOrder r.env input (caller.bind Caller.id) r.guestId
    return .order order
  | .order orderId => do
    let order ← getOrderWithDetails orderId
    return .order order
  | .myOrders => do
    let orders ← getMyOrders r.plan (caller.bind Caller.id) r.guestId
    return .orders orders
  | .kitchenOrders restaurantId => do
    let orders ← getKitchenOrders r.plan restaurantId
    return .orders orders
  | .updateOrderStatus orderId status => do
    let order ← DineFlow.updateOrderStatus orderId status ((caller.bind Caller.id).getD "")
    return .order order
  | .tables restaurantId => do
    let rows ← getTables r.plan restaurantId
    return .tables rows
  | .table tableId => do
    let row ← getTableById tableId
    return .table row
  | .createBooking input => do
    let booking ← DineFlow.createBooking r.env input (caller.bind Caller.id)
    return .booking booking
  | .myBookings => do
    let rows ← DineFlow.myBookings r.plan (caller.bind Caller.id)
    return .bookings rows
  | .bookings restaurantId date => do
    let rows ← bookingsByRestaurant r.plan restaurantId date
    return .bookings rows
  | .updateBookingStatus bookingId status => do
    let booking ← DineFlow.updateBookingStatus r.env bookingId status
    return .booking booking
  | .hello => .ret (.text "Welcome to DineFlow API!")

/-- A request to the API: the guards, then the resolver. -/
def handle (pf : Platform) (r : Request) (op : Operation) : Api Response := do
  let caller ← guards pf op.route r
  op.resolve pf r caller

end DineFlow
