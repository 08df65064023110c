import DineFlow.Callers
import DineFlow.Exchange

namespace DineFlow.AuthStore
open Atomic
set_option autoImplicit true

/-- The user that the page shows. -/
structure User where
  id : String
  email : Option String
  displayName : Option String
  role : UserRole
  profileImageUrl : Option String
  deriving DecidableEq, Repr

structure AuthState where
  user : Option User
  accessToken : Option String
  isAuthenticated : Bool
  isLoading : Bool
  error : Option ApiError
  deriving DecidableEq, Repr

def AuthState.initial : AuthState := ⟨none, none, false, false, none⟩

inductive Call where
  | login (email password : String)
  | register (email password displayName : String)
  | logout
  | getCurrentUser
  deriving DecidableEq, Repr

def Call.operation : Call → Operation
  | .login email password => .login email password
  | .register email password displayName => .register ⟨email, password, displayName, none⟩
  | .logout => .logout
  | .getCurrentUser => .me

def userOf (row : UserRow) : User :=
  ⟨row.id.text, some row.email, some row.name, row.role, row.profileImageUrl⟩

/-- What the page makes of the user of a login or a registration. -/
def signedIn : Response → Option User
  | .authPayload row _ => some (userOf row)
  | _ => none

/-- What the page makes of `me`, which answers a guest with the id of the session. -/
def currentUser : Response → Option User
  | .user row => some (userOf row)
  | .guestUser sessionId => some ⟨sessionId, none, none, .customer, none⟩
  | _ => none

/-- What a call does before it waits for the server. -/
def Call.start (st : AuthState) : Call → AuthState
  | .login _ _ | .register _ _ _ => { st with isLoading := true, error := none }
  | .logout | .getCurrentUser => { st with isLoading := true }

/-- The end of a login or a registration. The queries do not ask for the access token. -/
def settleSignIn (outcome : Except ApiError Response) : AuthState :=
  match outcome with
  | .error e => ⟨none, none, false, false, some e⟩
  | .ok r =>
    match signedIn r with
    | some u => ⟨some u, none, true, false, none⟩
    | none => ⟨none, none, false, false, some .typeError⟩

/-- What a call does with the answer. -/
def Call.settle (outcome : Except ApiError Response) (st : AuthState) : Call → AuthState
  | .login _ _ | .register _ _ _ => settleSignIn outcome
  | .logout => ⟨none, none, false, false, none⟩
  | .getCurrentUser =>
    match outcome with
    | .error _ => ⟨none, none, false, false, none⟩
    | .ok r =>
      match currentUser r with
      | some u =>
        { st with user := some u, isAuthenticated := true, isLoading := false, error := none }
      | none => { st with isLoading := false }

/-- How far a request gets. -/
inductive Fate where
  | answered
  | unsent
  | unanswered
  deriving DecidableEq, Repr

def networkError : ApiError := .error "Failed to fetch"

def serveCall (pf : Platform) (fate : Fate) (m : Call × Request) (w : World) :
    (Call × Except ApiError Response) × World :=
  let o := (handle pf m.2 m.1.operation).run noFault w
  match fate with
  | .answered => ((m.1, o.1), o.2)
  | .unsent => ((m.1, .error networkError), w)
  | .unanswered => ((m.1, .error networkError), o.2)

/-- The store and the API: a call is sent with the tokens that the browser has, and the store goes
on when the answer is there. -/
def sessions (pf : Platform) :
    Exchange AuthState World (Call × Request) Fate (Call × Request)
      (Call × Except ApiError Response) where
  act m st := (m.1.start st, [m])
  serve := serveCall pf
  receive b st := (b.1.settle b.2 st, [])

/-- The store, the API and the messages between them. -/
abbrev Tab : Type := Wire AuthState World (Call × Request) (Call × Except ApiError Response)

abbrev TabMove : Type := Move (Call × Request) Fate

end DineFlow.AuthStore
