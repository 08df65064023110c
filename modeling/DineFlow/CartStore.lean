import DineFlow.AuthService

namespace DineFlow.CartStore
open Atomic
set_option autoImplicit true

/-- A line of the cart in the browser. -/
structure CartItem where
  id : String
  name : String
  price : Rat
  quantity : Int
  imageUrl : Option String
  notes : Option String

/-- What the menu page passes to `addItem`. -/
structure ItemInput where
  id : String
  name : String
  price : Rat
  imageUrl : Option String

structure CartState where
  items : List CartItem
  tableId : Option String
  guestToken : Option String
  isLoading : Bool
  error : Option ApiError
  guestSessionReady : Bool

def CartState.initial : CartState := ⟨[], none, none, false, none, false⟩

/-- The state after the page is loaded again from what is persisted. -/
def CartState.rehydrate (st : CartState) : CartState :=
  { CartState.initial with items := st.items, tableId := st.tableId, guestToken := st.guestToken }

/-- The store of one page together with the server it talks to. -/
structure Browser where
  store : CartState
  server : World

/-- One unit more of a dish in the local cart, with quantities that are counted up by `more`. -/
def addLocalBy (more : Int → Int) (item : ItemInput) (notes : Option String)
    (items : List CartItem) : List CartItem :=
  if items.any fun i => i.id = item.id then
    items.map fun i =>
      if i.id = item.id then
        { i with quantity := more i.quantity, notes := notes.or i.notes }
      else i
  else items ++ [⟨item.id, item.name, item.price, 1, item.imageUrl, notes⟩]

/-- The same with quantities that are counted up exactly, as doubles are up to `2 ^ 53`. -/
def addLocal (item : ItemInput) (notes : Option String) (items : List CartItem) : List CartItem :=
  addLocalBy (· + 1) item notes items

/-- The session is open and has a token, so that it is used again. -/
def CartState.sessionOpen (st : CartState) : Bool :=
  st.guestSessionReady && (given st.guestToken).isSome

section Actions

-- the user whose web token goes with every request, if there is one
variable (pf : Platform) (userId : Option String) (demoTableId : String)

def ensureGuestSession (session : Env) (tableId : String) (st : CartState) : CartState :=
  if st.sessionOpen then st
  else
    { st with
      guestToken := some (generateGuestToken pf session tableId).token
      guestSessionReady := true }

def setTableId (tableId : String) (b : Browser) : Browser :=
  { b with store := { b.store with tableId := some tableId } }

/-- The local cart first, then the server: a guest session, and one unit more. -/
def addItem (session env : Env) (item : ItemInput) (notes : Option String) (b : Browser) :
    Browser :=
  let st := { b.store with items := addLocal item notes b.store.items }
  let st := ensureGuestSession pf session ((given st.tableId).getD demoTableId) st
  let r := (addToCart env ⟨item.id, 1, some (notes.getD "")⟩ userId st.guestToken).run noFault
    b.server
  ⟨st, r.2⟩

def removeItem (env : Env) (id : String) (b : Browser) : Browser :=
  let st := { b.store with items := b.store.items.filter fun i => i.id ≠ id }
  let r := (removeFromCart env id userId st.guestToken).run noFault b.server
  ⟨st, r.2⟩

def updateQuantity (env : Env) (id : String) (quantity : Int) (b : Browser) : Browser :=
  if quantity ≤ 0 then removeItem userId env id b
  else
    { b with store := { b.store with
        items := b.store.items.map fun i =>
          if i.id = id then { i with quantity := quantity } else i } }

def clearCart (b : Browser) : Browser :=
  let st := { b.store with items := [], isLoading := false, guestSessionReady := false }
  let r := (DineFlow.clearCart userId st.guestToken).run noFault b.server
  ⟨st, r.2⟩

def reload (b : Browser) : Browser := { b with store := b.store.rehydrate }

def localItems (items : List CartItem) : List AddToCartInput :=
  items.map fun i => ⟨i.id, i.quantity, some (i.notes.getD "")⟩

/-- The local lines go with the request; the server takes them when the session has no cart. -/
def placeOrder (session env : Env) (tableId : String) (specialInstructions : Option String)
    (b : Browser) : Except ApiError Order × Browser :=
  let st := ensureGuestSession pf session tableId { b.store with isLoading := true, error := none }
  let input := ⟨tableId, some (localItems st.items), some (specialInstructions.getD "")⟩
  let r := (DineFlow.placeOrder env input userId st.guestToken).run noFault b.server
  match r.1 with
  | .ok order =>
    (.ok order, ⟨{ st with items := [], isLoading := false, guestSessionReady := false }, r.2⟩)
  | .error e => (.error e, ⟨{ st with error := some e, isLoading := false }, r.2⟩)

end Actions

/-- What can happen to the store between two orders. -/
inductive Action where
  | setTableId (tableId : String)
  | addItem (session env : Env) (item : ItemInput) (notes : Option String)
  | removeItem (env : Env) (id : String)
  | updateQuantity (env : Env) (id : String) (quantity : Int)
  | clearCart
  | reload

def step (pf : Platform) (userId : Option String) (demoTableId : String) (b : Browser) :
    Action → Browser
  | .setTableId tableId => setTableId tableId b
  | .addItem session env item notes => addItem pf userId demoTableId session env item notes b
  | .removeItem env id => removeItem userId env id b
  | .updateQuantity env id quantity => updateQuantity userId env id quantity b
  | .clearCart => clearCart userId b
  | .reload => reload b

end DineFlow.CartStore
