import DineFlow.CartStore
import DineFlow.Exchange

namespace DineFlow.CartStore
open Atomic
set_option autoImplicit true

/-- What the store goes on with once it has a guest session. -/
inductive Waiting where
  | add (item : ItemInput) (notes : Option String)
  | order (tableId : String) (specialInstructions : Option String)

/-- A request of the page with the guest token that it carries. -/
inductive Call where
  | guestSession (tableId : String) (next : Waiting)
  | addToCart (token : Option String) (input : AddToCartInput)
  | removeFromCart (token : Option String) (id : String)
  | placeOrder (token : Option String) (input : PlaceOrderInput)

/-- A reply; of an addition or a removal the store at most logs that it failed. -/
inductive Reply where
  | guestSession (token : String) (next : Waiting)
  | synced
  | placeOrder (outcome : Except ApiError Order)

inductive Tap where
  | addItem (item : ItemInput) (notes : Option String)
  | removeItem (id : String)
  | placeOrder (tableId : String) (specialInstructions : Option String)

/-- The request that was held back; the order takes the items as they are now. -/
def Waiting.call (st : CartState) : Waiting → Call
  | .add item notes => .addToCart st.guestToken ⟨item.id, 1, some (notes.getD "")⟩
  | .order tableId specialInstructions => .placeOrder st.guestToken
      ⟨tableId, some (localItems st.items), some (specialInstructions.getD "")⟩

/-- A session that is open is used at once, otherwise one is asked for first. -/
def Waiting.send (st : CartState) (tableId : String) (next : Waiting) : Call :=
  if st.sessionOpen then next.call st else .guestSession tableId next

section Traffic

variable (pf : Platform) (userId : Option String) (demoTableId : String)

def Tap.act : Tap → CartState → CartState × List Call
  | .addItem item notes, st =>
    let st := { st with items := addLocal item notes st.items }
    (st, [Waiting.send st ((given st.tableId).getD demoTableId) (.add item notes)])
  | .removeItem id, st =>
    let st := { st with items := st.items.filter fun i => i.id ≠ id }
    (st, [.removeFromCart st.guestToken id])
  | .placeOrder tableId specialInstructions, st =>
    let st := { st with isLoading := true, error := none }
    (st, [Waiting.send st tableId (.order tableId specialInstructions)])

def Call.serve (env : Env) : Call → World → Reply × World
  | .guestSession tableId next, w =>
    (.guestSession (generateGuestToken pf env tableId).token next, w)
  | .addToCart token input, w =>
    (.synced, ((DineFlow.addToCart env input userId token).run noFault w).2)
  | .removeFromCart token id, w =>
    (.synced, ((DineFlow.removeFromCart env id userId token).run noFault w).2)
  | .placeOrder token input, w =>
    let r := (DineFlow.placeOrder env input userId token).run noFault w
    (.placeOrder r.1, r.2)

def Reply.receive : Reply → CartState → CartState × List Call
  | .guestSession token next, st =>
    let st := { st with guestToken := some token, guestSessionReady := true }
    (st, [next.call st])
  | .synced, st => (st, [])
  | .placeOrder (.ok _), st =>
    ({ st with items := [], isLoading := false, guestSessionReady := false }, [])
  | .placeOrder (.error e), st => ({ st with error := some e, isLoading := false }, [])

/-- The page and the server, each message taking its own time. -/
def traffic : Exchange CartState World Tap Env Call Reply where
  act := Tap.act demoTableId
  serve := Call.serve pf userId
  receive := Reply.receive

end Traffic

/-- The page, the server and the messages between them. -/
abbrev Line : Type := Wire CartState World Call Reply

end DineFlow.CartStore
