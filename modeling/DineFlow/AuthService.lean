import DineFlow.Base64
import DineFlow.OrderService

namespace DineFlow
open Atomic Relational
set_option autoImplicit true

/-- The claims of a web token. -/
abbrev Claims : Type := List (String × String)

def Claims.get (c : Claims) (name : String) : Option String :=
  (c.find? fun p => p.1 = name).map Prod.snd

structure GuestTokenPayload where
  sessionId : String
  tableId : String
  iat : Nat
  exp : Nat
  deriving DecidableEq, Repr

/-- What the services take from their libraries: password hashing, signed web tokens and the
header they come in, whether a login strategy is tried after another one has thrown, the keyed
hash of guest tokens and the reading of their payload, and the collation of the database. -/
structure Platform where
  hash : String → String
  compare : String → String → Bool
  sign : Nat → Claims → String → String
  verify : Nat → String → Option Claims
  bearer : String → Option String
  goesOn : Bool
  hmac : String → String
  readPayload : String → Option GuestTokenPayload
  foldCase : Char → Char

/-- `JSON.stringify` of one character of a string. -/
def jsonChar (c : Char) : List Char :=
  if c = '"' then ['\\', '"']
  else if c = '\\' then ['\\', '\\']
  else if c = '\x08' then ['\\', 'b']
  else if c = '\x0c' then ['\\', 'f']
  else if c = '\n' then ['\\', 'n']
  else if c = '\r' then ['\\', 'r']
  else if c = '\t' then ['\\', 't']
  else if c.toNat < 32 then
    ['\\', 'u', '0', '0', hexChar (Fin.ofNat 16 (c.toNat / 16)), hexChar (Fin.ofNat 16 c.toNat)]
  else [c]

def jsonString (s : String) : List Char := '"' :: (s.toList.flatMap jsonChar ++ ['"'])

def GuestTokenPayload.json (p : GuestTokenPayload) : String :=
  String.ofList ("\x7b\"sessionId\":".toList ++ (jsonString p.sessionId ++
    (",\"tableId\":".toList ++ (jsonString p.tableId ++ (",\"iat\":".toList ++
      (Nat.toDigits 10 p.iat ++ (",\"exp\":".toList ++ (Nat.toDigits 10 p.exp ++ ['}']))))))))

def base64 (s : String) : List Char := Base64.encode s.toByteArray.data.toList

structure GuestSession where
  token : String
  sessionId : String
  expiresAt : Nat
  deriving DecidableEq, Repr

section Tokens

variable (pf : Platform)

def generateGuestToken (env : Env) (tableId : String) : GuestSession :=
  let sessionId := (env.uuid 0).text
  let payload : GuestTokenPayload := ⟨sessionId, tableId, env.seconds, env.seconds + 15 * 60⟩
  ⟨String.ofList (base64 payload.json ++ '.' :: (pf.hmac payload.json).toList), sessionId,
    payload.exp * 1000⟩

/-- The part of a text before its first dot, and the part after it up to the next one. -/
def splitToken (token : String) : List Char × List Char :=
  (token.toList.takeWhile (· ≠ '.'),
    ((token.toList.dropWhile (· ≠ '.')).drop 1).takeWhile (· ≠ '.'))

def verifyGuestToken (now : Nat) (token : String) : Except ApiError GuestTokenPayload :=
  let (encodedPayload, signature) := splitToken token
  if encodedPayload = [] ∨ signature = [] then
    .error (.unauthorized "Invalid guest token format")
  else
    match pf.readPayload (String.ofList encodedPayload) with
    | none => .error (.unauthorized "Invalid guest token")
    | some payload =>
      if payload.exp < now then .error (.unauthorized "Guest token expired")
      else
        let expected := pf.hmac payload.json
        -- the comparison of buffers of different lengths throws
        if (String.ofList signature).utf8ByteSize ≠ expected.utf8ByteSize then
          .error (.unauthorized "Invalid guest token")
        else if String.ofList signature ≠ expected then
          .error (.unauthorized "Invalid guest token signature")
        else .ok payload

def login (now : Nat) (user : UserRow) : String :=
  pf.sign now [("sub", user.id.text), ("email", user.email), ("role", user.role.text)]
    (if user.role = .customer then "30d" else "24h")

end Tokens

/-- A query inside a `try` block that throws `e` whatever goes wrong. -/
def selectOr (site : Site) (e : ApiError) (read : Db → Except DbError α) : Api α :=
  .query site (fun w => (read w.db).mapError fun _ => e) (.error e)

theorem run_selectOr (site : Site) (e : ApiError) (read : Db → Except DbError α) (w : World) :
    (selectOr site e read).run noFault w = ((read w.db).mapError fun _ => e, w) := by
  rw [selectOr, Prog.run_query]
  rfl

/-- A statement inside a `try` block that throws `e` whatever goes wrong. -/
def dbWriteOr (site : Site) (e : ApiError) (act : Db → Except DbError (α × Db)) : Api α :=
  .exec site (fun w => ((act w.db).mapError fun _ => e).map fun r => (r.1, { w with db := r.2 }))
    (.error e)

def userByEmail (email : String) (db : Db) : Except DbError (Option UserRow) :=
  (textParam email).map fun e => lookup UserRow.email e db.users

theorem userByEmail_ok_iff : userByEmail email db = .ok u ↔
    Storable email ∧ u = lookup UserRow.email email db.users := by
  rw [userByEmail, textParam]
  split <;> simp [Except.map, *, eq_comm]

def validateUser (pf : Platform) (email password : String) : Api UserRow := do
  let user ← selectOr .userByEmail (.unauthorized "Invalid credentials") (userByEmail email)
  match user with
  | some u =>
    if u.passwordHash = "" ∨ pf.compare password u.passwordHash = false then
      .throw (.unauthorized "Invalid credentials")
    else .ret u
  | none => .throw (.unauthorized "Invalid credentials")

structure RegisterInput where
  email : String
  password : String
  displayName : String
  role : Option UserRole
  deriving DecidableEq, Repr

def newUser (pf : Platform) (env : Env) (input : RegisterInput) : UserRow :=
  { id := env.uuid 0
    name := input.displayName
    email := input.email
    passwordHash := pf.hash input.password
    profileImageUrl := none
    role := input.role.getD .customer
    createdAt := some env.now
    updatedAt := some env.now }

def insertUser (pf : Platform) (env : Env) (input : RegisterInput) (db : Db) :
    Except DbError (UserRow × Db) :=
  (db.insertUser (newUser pf env input)).map fun db => ((newUser pf env input).stored, db)

def register (pf : Platform) (env : Env) (input : RegisterInput) : Api UserRow := do
  let existing ← selectOr .userByEmail (.error "Failed to register user") (userByEmail input.email)
  match existing with
  | some _ => .throw (.conflict "User with this email already exists")
  | none => dbWriteOr .userInsert (.error "Failed to register user") (insertUser pf env input)

/-- Any error is caught and read as no user. -/
def findUserById (userId : String) : Api (Option UserRow) :=
  .query .userById (fun w => .ok ((userById userId w.db).toOption.getD none)) (.ok none)

structure UpdateProfileInput where
  displayName : Option (Option String)
  profileImageUrl : Option (Option String)
  deriving DecidableEq, Repr

/-- The update of one's own row; a guest has no id, and a comparison with null matches no row. -/
def writeProfile (env : Env) (userId : Option String) (input : UpdateProfileInput) (db : Db) :
    Except DbError (Option UserRow × Db) :=
  match userId with
  | none => .ok (none, db)
  | some userId =>
    match parseUuid userId with
    | .error e => .error e
    | .ok u =>
      -- a name that is set to null is refused where it meets a row
      if input.displayName = some none ∧ hasKey UserRow.id db.users u then
        .error (.rejected "users")
      else
        (db.updateUser u ⟨input.displayName.getD none, input.profileImageUrl, env.now⟩).map
          fun db => (lookup UserRow.id u db.users, db)

def updateProfile (env : Env) (userId : Option String) (input : UpdateProfileInput) :
    Api UserRow := do
  let updated ← dbWrite .profileUpdate (writeProfile env userId input)
  orElse updated (.error "User not found")

def sampleManager : UserRow :=
  ⟨sampleId 5, "Manager", "manager@dineflow.com", "", none, .manager, some 0, some 0⟩

def managerClaims : Claims :=
  [("sub", (sampleId 5).text), ("email", "manager@dineflow.com"), ("role", "manager")]

def guestPayload : GuestTokenPayload := ⟨"g", (sampleId 2).text, 0, 900⟩

/-- Libraries that know the token of the manager and that of one guest. -/
def samplePlatform : Platform where
  hash := id
  compare := fun password hash => password = hash
  sign := fun _ c _ => if c = managerClaims then "manager" else "other"
  verify := fun _ t => if t = "manager" then some managerClaims else none
  bearer := fun _ => none
  goesOn := false
  hmac := fun s => if s = guestPayload.json then "signature" else ""
  readPayload := fun s => if s = "payload" then some guestPayload else none
  foldCase := Char.toLower

end DineFlow
