import DineFlow.AuthService

namespace DineFlow
open Atomic Relational
set_option autoImplicit true

structure Handshake where
  token : Option String
  authorization : Option String
  guestToken : Option String
  deriving DecidableEq, Repr

structure WebSocketAuthPayload where
  userId : Option String := none
  sessionId : Option String := none
  role : Option String := none
  restaurantId : Option String := none
  tableId : Option String := none
  deriving DecidableEq, Repr

/-- A text without the first occurrence of a part. -/
def removeFirst (part : List Char) : List Char → List Char
  | [] => []
  | c :: cs =>
    if part.isPrefixOf (c :: cs) then (c :: cs).drop part.length else c :: removeFirst part cs

/-- The web token of a handshake: its own field, or else the authorization header. -/
def Handshake.jwt (h : Handshake) : Option String :=
  match given h.token with
  | some t => some t
  | none => given (h.authorization.map fun a =>
      String.ofList (removeFirst "Bearer ".toList a.toList))

def authenticateGuest (pf : Platform) (now : Nat) (h : Handshake) : Option WebSocketAuthPayload :=
  match given h.guestToken with
  | none => none
  | some t =>
    match verifyGuestToken pf now t with
    | .ok p =>
      some { sessionId := some p.sessionId, role := some "customer", tableId := some p.tableId }
    | .error _ => none

def authenticateSocket (pf : Platform) (now : Nat) (h : Handshake) :
    Option WebSocketAuthPayload :=
  match h.jwt.bind (pf.verify now) with
  | some claims => some
      { userId := claims.get "sub"
        role := claims.get "role"
        restaurantId := claims.get "restaurantId" }
  | none => authenticateGuest pf now h

/-- The rooms of `joinRelevantRooms`, in the order they are joined. -/
def relevantRooms (m : SocketMetadata) : List String :=
  (match given m.tableId with
    | some t => if m.role = "customer" then ["table:" ++ t] else []
    | none => []) ++
  (match given m.restaurantId with
    | some r =>
      (if m.role ∈ ["waiter", "kitchen", "manager", "admin"] then ["restaurant:" ++ r] else []) ++
      (if m.role = "kitchen" then ["kitchen:" ++ r] else []) ++
      (match given m.userId with
        | some u => if m.role = "waiter" then ["waiter:" ++ u] else []
        | none => [])
    | none => []) ++
  ["system:notifications"]

def WebSocketAuthPayload.metadata (a : WebSocketAuthPayload) : SocketMetadata :=
  let m : SocketMetadata :=
    { userId := a.userId
      sessionId := a.sessionId
      role := (given a.role).getD "guest"
      restaurantId := a.restaurantId
      tableId := a.tableId
      joinedRooms := [] }
  { m with joinedRooms := relevantRooms m }

def handleDisconnect (id : String) (g : Gateway) : Gateway :=
  { g with
    sockets := g.sockets.filter fun s => s.id ≠ id
    connectedClients := g.connectedClients.filter fun c => c.1 ≠ id }

/-- A socket that connects; one that is not authenticated is disconnected at once. -/
def handleConnection (pf : Platform) (now : Nat) (id : String) (plain : ':' ∉ id.toList)
    (h : Handshake) (g : Gateway) : Gateway :=
  match authenticateSocket pf now h with
  | none => handleDisconnect id g
  | some a =>
    let g := handleDisconnect id g
    { g with
      sockets := ⟨id, id :: a.metadata.joinedRooms, plain⟩ :: g.sockets
      connectedClients := (id, a.metadata) :: g.connectedClients }

def Gateway.client (g : Gateway) (id : String) : Option SocketMetadata :=
  (g.connectedClients.find? fun c => c.1 = id).map Prod.snd

def Gateway.send (g : Gateway) (id : String) (e : Event) : Gateway :=
  { g with sent := g.sent ++ [(id, e)] }

/-- A restaurant that is missing is written into the room's name as such. -/
def emitTableRequest (e : TableRequestEvent) (g : Gateway) : Gateway :=
  g.emit ("restaurant:" ++ e.restaurantId.getD "undefined") (.tableRequest e)

def handleTableRequest (id : String) (tableId requestType : String) (g : Gateway) : Gateway :=
  match g.client id with
  | some m =>
    if m.role ≠ "customer" then g.send id (.error "Unauthorized")
    else emitTableRequest ⟨tableId, requestType, m.restaurantId⟩ g
  | none => g.send id (.error "Unauthorized")

def handleOrderAcknowledge (id : String) (g : Gateway) : Gateway :=
  match g.client id with
  | some m =>
    if m.role ∉ ["waiter", "kitchen", "manager"] then g.send id (.error "Unauthorized") else g
  | none => g.send id (.error "Unauthorized")

end DineFlow
