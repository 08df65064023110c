import DineFlow.AuthSessions

namespace DineFlow.AuthStore
open Atomic Relational
set_option autoImplicit true

/-- The user that the page shows is a row of the users table. -/
def OnFile (w : World) (user : User) : Prop := ∃ row ∈ w.db.users, row.id.text = user.id

instance OnFile.decidable (w : World) (user : User) : Decidable (OnFile w user) :=
  inferInstanceAs (Decidable (∃ row ∈ w.db.users, row.id.text = user.id))

theorem OnFile.mono (h : OnFile w user) (hw : w.db.users ⊆ w'.db.users) : OnFile w' user := by
  obtain ⟨row, hrow, hid⟩ := h
  exact ⟨row, hw hrow, hid⟩

theorem onFile_userOf (h : row ∈ w.db.users) : OnFile w (userOf row) := ⟨row, h, rfl⟩

/-- Whoever is signed in is a row of the users table. -/
def Backed (w : World) (st : AuthState) : Prop :=
  st.isAuthenticated = true → ∃ user ∈ st.user, OnFile w user

instance Backed.decidable (w : World) (st : AuthState) : Decidable (Backed w st) :=
  inferInstanceAs (Decidable (_ → _))

theorem Backed.mono (h : Backed w st) (hw : w.db.users ⊆ w'.db.users) : Backed w' st := by
  intro hauth
  obtain ⟨user, huser, hfile⟩ := h hauth
  exact ⟨user, huser, hfile.mono hw⟩

/-- The service answers with a user of the table it leaves, which has lost no row. -/
def Files (w : World) (o : Except ApiError UserRow × World) : Prop :=
  w.db.users ⊆ o.2.db.users ∧ ∀ u, o.1 = .ok u → u ∈ o.2.db.users

theorem Files.error : Files w (.error e, w) := by
  refine ⟨List.Subset.refl _, fun u hu => ?_⟩
  cases hu

theorem validateUser_files (pf : Platform) (email password : String) (w : World) :
    Files w ((validateUser pf email password).run noFault w) := by
  rw [validateUser, Prog.bind_eq, Prog.run_bind, run_selectOr]
  cases hread : userByEmail email w.db with
  | error e => exact Files.error
  | ok user =>
    cases user with
    | none => exact Files.error
    | some u =>
      dsimp only [Except.mapError]
      split
      · exact Files.error
      · refine ⟨List.Subset.refl _, fun v hv => ?_⟩
        cases hv
        exact (lookup_mem (userByEmail_ok_iff.1 hread).2.symm).1

theorem register_files (pf : Platform) (env : Env) (input : RegisterInput) (w : World) :
    Files w ((register pf env input).run noFault w) := by
  rw [register, Prog.bind_eq, Prog.run_bind, run_selectOr]
  cases userByEmail input.email w.db with
  | error e => exact Files.error
  | ok user =>
    cases user with
    | some u => exact Files.error
    | none =>
      dsimp only [Except.mapError]
      rw [dbWriteOr, Prog.run_exec, insertUser]
      cases hdb : w.db.insertUser (newUser pf env input) with
      | error e => exact Files.error
      | ok db =>
        have husers := Db.insertUser_users hdb
        refine ⟨?_, fun v hv => ?_⟩
        · change w.db.users ⊆ db.users
          rw [husers]
          exact List.subset_append_left _ _
        · cases hv
          change (newUser pf env input).stored ∈ db.users
          rw [husers]
          exact List.mem_append_right _ List.mem_cons_self

/-- What the page takes from the answer to a call. -/
def Call.shown : Call → Response → Option User
  | .login _ _ | .register _ _ _ => signedIn
  | .logout => fun _ => none
  | .getCurrentUser => currentUser

/-- Whatever the page takes from this reply is a row of the users table. -/
def Genuine (w : World) (b : Call × Except ApiError Response) : Prop :=
  ∀ x user, b.2 = .ok x → b.1.shown x = some user → OnFile w user

theorem Genuine.mono (h : Genuine w b) (hw : w.db.users ⊆ w'.db.users) : Genuine w' b :=
  fun x user hx huser => (h x user hx huser).mono hw

theorem genuine_error (call : Call) (e : ApiError) (w : World) : Genuine w (call, .error e) := by
  intro x user hx
  cases hx

theorem backed_signedOut (token : Option String) (e : Option ApiError) (w : World) :
    Backed w ⟨none, token, false, false, e⟩ :=
  fun hauth => absurd hauth Bool.false_ne_true

theorem backed_settleSignIn
    (h : ∀ x user, outcome = .ok x → signedIn x = some user → OnFile w user) :
    Backed w (settleSignIn outcome) := by
  cases outcome with
  | error e => exact backed_signedOut _ _ w
  | ok x =>
    rw [settleSignIn]
    cases hx : signedIn x with
    | none => exact backed_signedOut _ _ w
    | some user => exact fun _ => ⟨user, rfl, h x user rfl hx⟩

theorem Backed.settle (h : Backed w st) {call : Call} (hb : Genuine w (call, outcome)) :
    Backed w (call.settle outcome st) := by
  cases call with
  | login email password => exact backed_settleSignIn hb
  | register email password displayName => exact backed_settleSignIn hb
  | logout => exact backed_signedOut _ _ w
  | getCurrentUser =>
    cases outcome with
    | error e => exact backed_signedOut _ _ w
    | ok x =>
      rw [Call.settle]
      cases hx : currentUser x with
      | none => exact h
      | some user => exact fun _ => ⟨user, rfl, hb x user rfl hx⟩

section Requests

variable (pf : Platform)

/-- No guest token of the request is good, or its web token names a user. -/
def Recognised (db : Db) (r : Request) : Prop :=
  (guestStrategy pf r).toOption = none ∨
    ∃ claims, r.claims pf = some claims ∧
      ((userById ((claims.get "sub").getD "undefined") db).toOption.getD none).isSome

theorem Recognised.caller {r : Request} (h : Recognised pf db r) (hc : callerOf pf r db = .ok c) :
    ∃ u, c = .user u := by
  rw [callerOf] at hc
  rcases h with h | ⟨claims, hclaims, huser⟩
  · have hguest : guestStrategy pf r ≠ .ok c := by
      intro hg
      rw [hg] at h
      cases h
    split at hc
    · exact absurd hc hguest
    · split at hc
      · cases hc
        exact ⟨_, rfl⟩
      · split at hc
        · exact absurd hc hguest
        · cases hc
  · obtain ⟨u, hu⟩ := Option.isSome_iff_exists.1 huser
    rw [hclaims] at hc
    dsimp only at hc
    rw [hu] at hc
    cases hc
    exact ⟨u, rfl⟩

/-- The table has lost no row, and whatever the page takes from the answer is one. -/
def Answers (call : Call) (w : World) (o : Except ApiError Response × World) : Prop :=
  w.db.users ⊆ o.2.db.users ∧ Genuine o.2 (call, o.1)

theorem Answers.error (call : Call) (e : ApiError) (w : World) : Answers call w (.error e, w) :=
  ⟨List.Subset.refl _, genuine_error call e w⟩

theorem Files.answers {p : Api UserRow} (h : Files w (p.run noFault w)) (token : UserRow → String)
    {call : Call} (hshown : call.shown = signedIn) :
    Answers call w ((p.bind fun u => .ret (.authPayload u (token u))).run noFault w) := by
  rw [Prog.run_bind]
  rcases hp : p.run noFault w with ⟨o, w'⟩
  rw [hp] at h
  cases o with
  | error e => exact ⟨h.1, genuine_error call e w'⟩
  | ok u =>
    refine ⟨h.1, fun x user hx huser => ?_⟩
    cases hx
    rw [hshown] at huser
    cases huser
    exact onFile_userOf (h.2 u rfl)

theorem me_answers (u : UserRow) (w : World) :
    Answers .getCurrentUser w ((me (some (.user u))).run noFault w) := by
  rw [me, Prog.bind_eq, Prog.run_bind_ok (run_findUserById _ w)]
  cases hu : (userById u.id.text w.db).toOption.getD none with
  | none => exact Answers.error _ _ w
  | some row =>
    refine ⟨List.Subset.refl _, fun x user hx huser => ?_⟩
    cases hx
    cases huser
    exact onFile_userOf (userById_row hu).1

theorem handle_answers (call : Call) (r : Request) (w : World)
    (h : call = .getCurrentUser → Recognised pf w.db r) :
    Answers call w ((handle pf r call.operation).run noFault w) := by
  cases call with
  | login email password =>
    rw [run_handle_open pf r rfl]
    exact (validateUser_files pf email password w).answers _ rfl
  | register email password displayName =>
    rw [run_handle_open pf r rfl]
    exact (register_files pf r.env _ w).answers _ rfl
  | logout =>
    have hkeeps : (handle pf r .logout).Keeps World.db :=
      (guards_keeps pf _ r).bind fun _ => trivial
    have hdb : ((handle pf r .logout).run noFault w).2.db = w.db := hkeeps.run noFault w
    refine ⟨?_, fun x user _ huser => ?_⟩
    · rw [Call.operation, hdb]
      exact List.Subset.refl _
    · cases huser
  | getCurrentUser =>
    rw [Call.operation, run_me]
    cases hc : callerOf pf r w.db with
    | error e => exact Answers.error _ e w
    | ok c =>
      obtain ⟨u, rfl⟩ := (h rfl).caller pf hc
      exact me_answers u w

theorem serveCall_answers (fate : Fate) (m : Call × Request) (w : World)
    (h : m.1 = .getCurrentUser → Recognised pf w.db m.2) :
    w.db.users ⊆ (serveCall pf fate m w).2.db.users ∧
      Genuine (serveCall pf fate m w).2 (serveCall pf fate m w).1 := by
  have hanswers := handle_answers pf m.1 m.2 w h
  rcases serveCall_cases pf fate m w with he | ⟨w', he, rfl | rfl⟩
  · rw [he]
    exact hanswers
  · rw [he]
    exact Answers.error m.1 networkError w'
  · rw [he]
    exact ⟨hanswers.1, genuine_error m.1 networkError _⟩

/-- The page and the replies on their way show rows of the users table only. -/
structure Traced (n : Tab) : Prop where
  store : Backed n.server n.client
  replies : ∀ b ∈ n.replies, Genuine n.server b

/-- The API looks at a request for the current user only where it recognises the user. -/
def AsksForUsers (n : Tab) : TabMove → Prop
  | .serve i _ =>
    ∀ r, n.requests[i]? = some (.getCurrentUser, r) → Recognised pf n.server.db r
  | _ => True

theorem Traced.step {n : Tab} (h : Traced n) {mv : TabMove} (hmv : AsksForUsers pf n mv) :
    Traced ((sessions pf).step n mv) := by
  refine Exchange.step_keeps mv h (fun m hm => ?_) (fun i fate m rest hi hm hperm => ?_)
    fun b rest hperm => ?_
  · refine ⟨?_, h.replies⟩
    obtain ⟨call, r⟩ := m
    cases call <;> exact h.store
  · subst hi
    have hserve := serveCall_answers pf fate m n.server fun hcall =>
      hmv m.2 (by rw [hm, ← hcall])
    refine ⟨h.store.mono hserve.1, fun b hb => ?_⟩
    rcases List.mem_append.1 hb with hb | hb
    · exact (h.replies b hb).mono hserve.1
    · rw [List.mem_singleton.1 hb]
      exact hserve.2
  · refine ⟨h.store.settle (h.replies b (hperm.mem_iff.2 List.mem_cons_self)), fun b' hb' => ?_⟩
    exact h.replies b' (hperm.mem_iff.2 (List.mem_cons_of_mem _ hb'))

/-- Whoever the page takes for signed in is in the users table, as long as the API is asked for
the current user only by requests in which it recognises a user. -/
theorem signedIn_backed (w : World) (moves : List TabMove)
    (h : Guarded (sessions pf).step (AsksForUsers pf) ⟨.initial, w, [], []⟩ moves) :
    Backed (runs (sessions pf).step ⟨.initial, w, [], []⟩ moves).server
      (runs (sessions pf).step ⟨.initial, w, [], []⟩ moves).client := by
  have hstart : Traced ⟨.initial, w, [], []⟩ :=
    ⟨backed_signedOut _ _ w, fun b hb => absurd hb List.not_mem_nil⟩
  exact (h.runs hstart fun n mv hn hmv => hn.step pf hmv).store

end Requests

/-- A page that holds no more than a guest token asks for the current user. -/
def guestTab : Tab :=
  runs (sessions samplePlatform).step ⟨.initial, sampleWorld, [], []⟩
    [.act (.getCurrentUser, bearer "payload.signature"), .serve 0 .answered, .receive 0]

theorem guest_signedIn : ¬Backed guestTab.server guestTab.client := by
  decide +kernel

theorem signedIn_backed_sample :
    Backed (runs (sessions trustingPlatform).step ⟨.initial, sampleWorld, [], []⟩
        [.act (.getCurrentUser, fromDevice (sampleId 5) (some "payload.signature")),
          .serve 0 .answered, .receive 0]).server
      (runs (sessions trustingPlatform).step ⟨.initial, sampleWorld, [], []⟩
        [.act (.getCurrentUser, fromDevice (sampleId 5) (some "payload.signature")),
          .serve 0 .answered, .receive 0]).client := by
  refine signedIn_backed trustingPlatform sampleWorld _ ⟨trivial, fun r hr => ?_, trivial, trivial⟩
  cases hr
  exact .inr ⟨_, rfl, by decide +kernel⟩

end DineFlow.AuthStore
