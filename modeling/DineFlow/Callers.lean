import DineFlow.GraphqlApi

namespace DineFlow
open Atomic Relational
set_option autoImplicit true

/-- Whom the strategies take a request to come from. -/
def callerOf (pf : Platform) (r : Request) (db : Db) : Except ApiError Caller :=
  match r.claims pf with
  | none => guestStrategy pf r
  | some claims =>
    match (userById ((claims.get "sub").getD "undefined") db).toOption.getD none with
    | some u => .ok (.user u)
    | none =>
      if pf.goesOn then guestStrategy pf r else .error (.unauthorized "Invalid token")

theorem run_findUserById (userId : String) (w : World) :
    (findUserById userId).run noFault w =
      (.ok ((userById userId w.db).toOption.getD none), w) := rfl

theorem run_authenticate (pf : Platform) (r : Request) (w : World) :
    (authenticate pf r).run noFault w = (.ok (callerOf pf r w.db), w) := by
  rw [authenticate, callerOf]
  cases r.claims pf with
  | none => rfl
  | some claims =>
    dsimp only
    rw [Prog.bind_eq, Prog.run_bind_ok (run_findUserById _ w)]
    cases (userById ((claims.get "sub").getD "undefined") w.db).toOption.getD none with
    | some u => rfl
    | none =>
      dsimp only
      split <;> rfl

theorem guards_open (pf : Platform) (r : Request) :
    guards pf openRoute r = (authenticate pf r).bind fun outcome => .ret outcome.toOption := by
  rw [guards, gqlAuthGuard, Prog.bind_eq, Prog.bind_eq, Prog.bind_assoc]
  congr 1
  funext outcome
  cases outcome <;> rfl

theorem run_handle_open (pf : Platform) (r : Request) (h : Operation.route op = openRoute)
    (w : World) : (handle pf r op).run noFault w =
      (op.resolve pf r (callerOf pf r w.db).toOption).run noFault w := by
  rw [handle, h, guards_open, Prog.bind_eq, Prog.bind_assoc,
    Prog.run_bind_ok (run_authenticate pf r w)]
  rfl

theorem guestStrategy_ne_user : guestStrategy pf r ≠ .ok (.user u) := by
  intro h
  rw [guestStrategy] at h
  split at h
  · cases h
  · split at h
    · cases h
    · cases h

theorem userById_row (h : (userById userId db).toOption.getD none = some u) :
    u ∈ db.users ∧ Uuid.parse userId = some u.id := by
  rw [userById, parseUuid] at h
  cases hp : Uuid.parse userId with
  | none =>
    rw [hp] at h
    cases h
  | some k =>
    rw [hp] at h
    obtain ⟨hu, rfl⟩ := lookup_mem h
    exact ⟨hu, rfl⟩

theorem callerOf_user_mem (h : callerOf pf r db = .ok (.user u)) : u ∈ db.users := by
  rw [callerOf] at h
  split at h
  · exact absurd h guestStrategy_ne_user
  · rename_i claims _
    split at h
    · rename_i row hrow
      cases h
      exact (userById_row hrow).1
    · split at h
      · exact absurd h guestStrategy_ne_user
      · cases h

/-- A request that sends a guest id and no web token. -/
def bearer (guestId : String) : Request := ⟨none, none, some guestId, none, sampleEnv, .stored⟩

/-- A platform on which the id of a user is a token of that user. -/
def trustingPlatform : Platform :=
  { samplePlatform with verify := fun _ token => some [("sub", token)] }

/-- A request of a user, from a device that holds a guest token or none. -/
def fromDevice (user : Uuid) (guestId : Option String) : Request :=
  ⟨some user.text, none, guestId, none, sampleEnv, .stored⟩

end DineFlow
