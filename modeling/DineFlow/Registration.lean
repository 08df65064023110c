import DineFlow.AuthSessions
import DineFlow.Receipts

namespace DineFlow
open Atomic Relational
set_option autoImplicit true

theorem register_follows {P : Account → Prop} {r : Request} {input : RegisterInput}
    (hP : P (newUser pf r.env input).stored.account) :
    (register pf r.env input).Follows V
      (Pool.ClaimStep (fun w => w.db.ledger.accounts) Account.email P)
      (fun g u => g = some u.account ∧ u = (newUser pf r.env input).stored ∧
        (newUser pf r.env input).fits = true) none := by
  refine (reads_follow (Prog.keeps_query _ _ _ _) none).bind fun g existing hg => ?_
  rw [hg.1]
  cases existing with
  | some u => trivial
  | none =>
    refine Prog.follows_exec (fun w => .grow (List.prefix_refl _)) _ (fun w res h => ?_)
      fun _ hz => by cases hz
    obtain ⟨res', hres', rfl⟩ := map_ok h
    obtain ⟨db, hdb, rfl⟩ := map_ok (mapError_ok hres')
    have husers := Db.insertUser_users hdb
    have hfits := (Bool.and_eq_true_iff.1 (Db.insertUser_ok_iff.1 hdb).1).2
    refine ⟨_, .claim hP (fun a ha => ?_) ?_, rfl, rfl, hfits⟩
    · -- the unique column is checked by the insert itself
      obtain ⟨u, hu, rfl⟩ := List.mem_map.1 ha
      have hunique := db.valid.emails
      rw [husers] at hunique
      exact hunique.fresh_of_append u hu
    · change db.users.map UserRow.account = _
      rw [husers, List.map_append]
      rfl

/-- A registration answers with the account that it has opened. -/
def registrations (pf : Platform) :
    Receipt pf (fun w => w.db.ledger.accounts) Account.email where
  gives
    | .register _ => true
    | _ => false
  makes
    | (r, .register input), a => a = (newUser pf r.env input).stored.account
    | _, _ => False
  answers
    | (r, .register input), a, v => (newUser pf r.env input).fits = true ∧
        a = (newUser pf r.env input).stored.account ∧
        v = .authPayload (newUser pf r.env input).stored
          (login pf r.env.seconds (newUser pf r.env input).stored)
    | _, _, _ => False
  follows := by
    intro r op P hgives hP
    cases op
    case register input =>
      refine (reads_follow (guards_keeps pf _ r) none).bind fun g _ hg => ?_
      rw [hg.1]
      refine (register_follows (hP _ rfl)).bind fun g u hu => ?_
      obtain ⟨rfl, rfl, hfits⟩ := hu
      exact ⟨_, rfl, hfits, rfl, rfl⟩
    all_goals cases hgives

/-- Of the registrations with one email, however they interleave, at most one succeeds. -/
theorem one_registration_per_email (pf : Platform) (calls : List (Request × Operation))
    (ops : List SocketOp) (w : World) (turns : List (Nat × Bool)) (i j : Nat) (hne : i ≠ j)
    (r r' : Request) (input input' : RegisterInput) (v : Response)
    (hi : calls[i]? = some (r, .register input)) (hj : calls[j]? = some (r', .register input'))
    (hemail : input.email = input'.email)
    (hv : (runs Pool.turn (serveLive pf calls ops w) turns).threads[i]? = some (.ret v)) :
    ∀ v', (runs Pool.turn (serveLive pf calls ops w) turns).threads[j]? ≠ some (.ret v') := by
  intro v' hv'
  obtain ⟨a, a', ⟨_, rfl, _⟩, ⟨_, rfl, _⟩, hdistinct⟩ :=
    (registrations pf).distinct kept_accounts ops w turns hne hi hj rfl rfl hv hv'
  exact hdistinct (congrArg (cutVarchar 256) hemail)

/-- A visitor registers twice at the same time, and both times the email is not taken yet. -/
def signUpTwice : Pool (Api Response) Site World :=
  runs Pool.turn (serveLive samplePlatform [signUp none, signUp none] [] sampleWorld)
    [(0, false), (1, false), (0, false), (1, false)]

theorem one_registration_per_email_sample :
    (∃ v, signUpTwice.threads[0]? = some (.ret v)) ∧
      ∀ v, signUpTwice.threads[1]? ≠ some (.ret v) := by
  have hreturned : ∃ v, signUpTwice.threads[0]? = some (.ret v) := ⟨_, rfl⟩
  obtain ⟨v, hv⟩ := hreturned
  exact ⟨⟨v, hv⟩, one_registration_per_email samplePlatform [signUp none, signUp none] []
    sampleWorld [(0, false), (1, false), (0, false), (1, false)] 0 1 (by decide) _ _ _ _ v rfl rfl
    rfl hv⟩

theorem run_login (pf : Platform) (r : Request) (hu : u ∈ w.db.users) (hemail : Storable u.email)
    (hhash : u.passwordHash ≠ "") (hcompare : pf.compare password u.passwordHash = true) :
    (handle pf r (.login u.email password)).run noFault w =
      (.ok (.authPayload u (login pf r.env.seconds u)), w) := by
  have hfind : (selectOr .userByEmail (.unauthorized "Invalid credentials")
      (userByEmail u.email)).run noFault w = (.ok (some u), w) := by
    rw [run_selectOr, userByEmail_ok_iff.2 ⟨hemail, (w.db.valid.emails.lookup hu).symm⟩]
    rfl
  have hvalid : (validateUser pf u.email password).run noFault w = (.ok u, w) := by
    rw [validateUser, Prog.bind_eq, Prog.run_bind_ok hfind]
    dsimp only
    rw [if_neg]
    · rfl
    · rintro (h | h)
      · exact hhash h
      · rw [hcompare] at h
        cases h
  rw [run_handle_open pf r rfl, Operation.resolve, Prog.bind_eq, Prog.run_bind_ok hvalid]
  rfl

theorem callerOf_of_sub {claims : Claims} {db : Db} (hclaims : r.claims pf = some claims)
    (hsub : claims.get "sub" = some u.id.text) (hu : u ∈ db.users) :
    callerOf pf r db = .ok (.user u) := by
  have hrow : userById u.id.text db = .ok (some u) := by
    rw [userById, parseUuid_text]
    exact congrArg Except.ok (db.valid.userIds.lookup hu)
  rw [callerOf, hclaims]
  dsimp only
  rw [hsub, Option.getD_some, hrow]
  rfl

theorem run_me_of_login (pf : Platform) {r : Request} (hu : u ∈ w.db.users) (hne : token ≠ "")
    (htoken : r.tokenCookie = some token)
    (hverify : pf.verify r.env.seconds token = some [("sub", u.id.text), ("email", u.email),
      ("role", u.role.text)]) :
    (handle pf r .me).run noFault w = (.ok (.user u), w) := by
  have hrow : userById u.id.text w.db = .ok (some u) := by
    rw [userById, parseUuid_text]
    exact congrArg Except.ok (w.db.valid.userIds.lookup hu)
  have hcaller : callerOf pf r w.db = .ok (.user u) := by
    have hclaims : r.claims pf = some [("sub", u.id.text), ("email", u.email),
        ("role", u.role.text)] := by
      rw [Request.claims, Request.jwt, htoken, given, Option.filter_some,
        if_pos (by simpa using hne)]
      exact hverify
    exact callerOf_of_sub hclaims rfl hu
  rw [AuthStore.run_me, hcaller]
  dsimp only
  rw [me, Prog.bind_eq, Prog.run_bind_ok (run_findUserById _ w), hrow]
  rfl

/-- Once a registration has been answered, whatever else happens, its email as it is stored and its
password log in, to the account that it opened, and the token of that login is good for it. -/
theorem registered_can_log_in (pf : Platform) (calls : List (Request × Operation))
    (ops : List SocketOp) (w : World) (turns later : List (Nat × Bool)) (i : Nat) (r : Request)
    (input : RegisterInput) (v : Response) (hi : calls[i]? = some (r, .register input))
    (hv : (runs Pool.turn (serveLive pf calls ops w) turns).threads[i]? = some (.ret v))
    (hhash : pf.hash input.password ≠ "") (hwidth : (pf.hash input.password).length ≤ 256)
    (hcompare : pf.compare input.password (pf.hash input.password) = true) (r' : Request) :
    let w' := (runs Pool.turn (serveLive pf calls ops w) (turns ++ later)).state
    ∃ u ∈ w'.db.users, u.account = (newUser pf r.env input).stored.account ∧
      (handle pf r' (.login (cutVarchar 256 input.email) input.password)).run noFault w' =
        (.ok (.authPayload u (login pf r'.env.seconds u)), w') ∧
      ∀ r'' : Request, r''.tokenCookie = some (login pf r'.env.seconds u) →
        login pf r'.env.seconds u ≠ "" →
        pf.verify r''.env.seconds (login pf r'.env.seconds u) =
          some [("sub", u.id.text), ("email", u.email), ("role", u.role.text)] →
        (handle pf r'' .me).run noFault w' = (.ok (.user u), w') := by
  intro w'
  obtain ⟨a, ⟨hfits, rfl, _⟩, hstored⟩ :=
    (registrations pf).on_record kept_accounts ops w turns later hi rfl hv
  obtain ⟨u, hu, haccount⟩ := List.mem_map.1 hstored
  have hemail : u.email = cutVarchar 256 input.email := congrArg Account.email haccount
  have hpassword : u.passwordHash = pf.hash input.password :=
    (congrArg Account.passwordHash haccount).trans (cutVarchar_eq_iff.2 hwidth)
  have hstorable : Storable u.email := by
    simp only [UserRow.fits, Bool.and_eq_true, decide_eq_true_eq] at hfits
    rw [hemail]
    exact hfits.1.1.2.1.cutVarchar 256
  refine ⟨u, hu, haccount, ?_, fun r'' htoken hne hverify =>
    run_me_of_login pf hu hne htoken hverify⟩
  rw [← hemail]
  rw [← hpassword] at hhash hcompare
  exact run_login pf r' hu hstorable hhash hcompare

theorem registered_can_log_in_sample :
    ∃ u ∈ signUpTwice.state.db.users, u.email = "guest@dineflow.com" ∧
      (handle samplePlatform openRequest (.login "guest@dineflow.com" "secret")).run noFault
          signUpTwice.state =
        (.ok (.authPayload u (login samplePlatform 0 u)), signUpTwice.state) := by
  have hreturned : ∃ v, (runs Pool.turn (serveLive samplePlatform [signUp none, signUp none] []
      sampleWorld) [(0, false), (1, false), (0, false)]).threads[0]? = some (.ret v) := ⟨_, rfl⟩
  obtain ⟨v, hv⟩ := hreturned
  obtain ⟨u, hu, haccount, hlogin, _⟩ := registered_can_log_in samplePlatform
    [signUp none, signUp none] [] sampleWorld [(0, false), (1, false), (0, false)] [(1, false)] 0
    _ _ v rfl hv (by decide) (by decide) (by decide) openRequest
  have hcut : cutVarchar 256 "guest@dineflow.com" = "guest@dineflow.com" := by decide +kernel
  have hemail : u.email = "guest@dineflow.com" := (congrArg Account.email haccount).trans hcut
  exact ⟨u, hu, hemail, hcut ▸ hlogin⟩

end DineFlow
