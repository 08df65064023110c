import DineFlow.AuthStore
import DineFlow.UserFrames

namespace DineFlow.AuthStore
open Atomic Relational
set_option autoImplicit true

theorem run_guards_refused (pf : Platform) {r : Request} {w : World}
    (h : callerOf pf r w.db = .error e) {route : Route} (hroute : route.isPublic = false) :
    (guards pf route r).run noFault w = (.error e, w) := by
  have hguard : (gqlAuthGuard pf route r).run noFault w = (.error e, w) := by
    rw [gqlAuthGuard, Prog.bind_eq, Prog.run_bind_ok (run_authenticate pf r w), h]
    dsimp only
    rw [hroute]
    rfl
  rw [guards, Prog.bind_eq, Prog.run_bind_error hguard]

theorem run_guards_me (pf : Platform) {r : Request} {w : World}
    (h : callerOf pf r w.db = .ok c) :
    (guards pf (Operation.route .me) r).run noFault w = (.ok (some c), w) := by
  have hguard : (gqlAuthGuard pf (Operation.route .me) r).run noFault w = (.ok (some c), w) := by
    rw [gqlAuthGuard, Prog.bind_eq, Prog.run_bind_ok (run_authenticate pf r w), h]
    rfl
  rw [guards, Prog.bind_eq, Prog.run_bind_ok hguard]
  change ((gqlAuthGuard pf (Operation.route .me) r).bind _).run noFault w = _
  rw [Prog.run_bind_ok hguard]
  rfl

theorem run_me (pf : Platform) (r : Request) (w : World) :
    (handle pf r .me).run noFault w =
      match callerOf pf r w.db with
      | .error e => (.error e, w)
      | .ok c => (me (some c)).run noFault w := by
  rw [handle, Prog.bind_eq]
  cases h : callerOf pf r w.db with
  | error e => rw [Prog.run_bind_error (run_guards_refused pf h rfl)]
  | ok c =>
    rw [Prog.run_bind_ok (run_guards_me pf h)]
    rfl

theorem serveCall_cases (pf : Platform) (fate : Fate) (m : Call × Request) (w : World) :
    serveCall pf fate m w = ((m.1, ((handle pf m.2 m.1.operation).run noFault w).1),
        ((handle pf m.2 m.1.operation).run noFault w).2) ∨
      ∃ w', serveCall pf fate m w = ((m.1, .error networkError), w') ∧
        (w' = w ∨ w' = ((handle pf m.2 m.1.operation).run noFault w).2) := by
  cases fate with
  | answered => exact .inl rfl
  | unsent => exact .inr ⟨_, rfl, .inl rfl⟩
  | unanswered => exact .inr ⟨_, rfl, .inr rfl⟩

section Logout

variable (pf : Platform)

/-- The request carries no web token that verifies, and no guest token that does. -/
def Anonymous (r : Request) : Prop :=
  r.claims pf = none ∧ (guestStrategy pf r).toOption = none

theorem Anonymous.refused {r : Request} (h : Anonymous pf r) (db : Db) :
    ∃ e, callerOf pf r db = .error e := by
  rw [callerOf, h.1]
  cases hg : guestStrategy pf r with
  | error e => exact ⟨e, rfl⟩
  | ok c =>
    have hnone := h.2
    rw [hg] at hnone
    cases hnone

def SignedOut (st : AuthState) : Prop := st.isAuthenticated = false ∧ st.user = none

instance SignedOut.decidable (st : AuthState) : Decidable (SignedOut st) :=
  inferInstanceAs (Decidable (_ ∧ _))

/-- Nothing is on its way that could sign a user in. -/
structure Silent (n : Tab) : Prop where
  signedOut : SignedOut n.client
  requests : ∀ m ∈ n.requests, m.1 = .logout ∨ m.1 = .getCurrentUser ∧ Anonymous pf m.2
  replies : ∀ b ∈ n.replies, b.1 = .logout ∨ b.1 = .getCurrentUser ∧ ∃ e, b.2 = .error e

/-- No login and no registration is started. -/
def StartsNoSession : TabMove → Prop
  | .act (.login _ _, _) | .act (.register _ _ _, _) => False
  | _ => True

/-- The user is asked for only without a token that is still good. -/
def AsksAnonymously : TabMove → Prop
  | .act (.getCurrentUser, r) => Anonymous pf r
  | _ => True

theorem Silent.act {n : Tab} (h : Silent pf n) {m : Call × Request}
    (hstart : StartsNoSession (.act m)) (hasks : AsksAnonymously pf (.act m)) :
    Silent pf ((sessions pf).acted m n) := by
  obtain ⟨call, r⟩ := m
  have hm : call = .logout ∨ call = .getCurrentUser ∧ Anonymous pf r := by
    cases call with
    | login email password => exact hstart.elim
    | register email password displayName => exact hstart.elim
    | logout => exact .inl rfl
    | getCurrentUser => exact .inr ⟨rfl, hasks⟩
  refine ⟨?_, fun m' hm' => ?_, h.replies⟩
  · rcases hm with rfl | ⟨rfl, _⟩ <;> exact h.signedOut
  · rcases List.mem_append.1 hm' with hm' | hm'
    · exact h.requests m' hm'
    · rw [List.mem_singleton.1 hm']
      exact hm

theorem Silent.serve {n : Tab} (h : Silent pf n) (fate : Fate)
    (hperm : n.requests.Perm (m :: rest)) : Silent pf ((sessions pf).served fate m rest n) := by
  have hm := h.requests m (hperm.mem_iff.2 List.mem_cons_self)
  refine ⟨h.signedOut, fun m' hm' => h.requests m' (hperm.mem_iff.2 (List.mem_cons_of_mem _ hm')),
    fun b hb => ?_⟩
  rcases List.mem_append.1 hb with hb | hb
  · exact h.replies b hb
  · rw [List.mem_singleton.1 hb]
    change (serveCall pf fate m n.server).1.1 = _ ∨ (serveCall pf fate m n.server).1.1 = _ ∧ _
    rcases serveCall_cases pf fate m n.server with he | ⟨w, he, _⟩
    · rcases hm with hm | ⟨hm, hanon⟩
      · exact .inl (he ▸ hm)
      · obtain ⟨e, hrefused⟩ := hanon.refused pf n.server.db
        have hrun := run_me pf m.2 n.server
        rw [hrefused] at hrun
        have hout : ((handle pf m.2 m.1.operation).run noFault n.server).1 = .error e := by
          rw [hm]
          exact congrArg Prod.fst hrun
        exact .inr ⟨he ▸ hm, e, (congrArg (fun o => o.1.2) he).trans hout⟩
    · rcases hm with hm | ⟨hm, _⟩
      · exact .inl (he ▸ hm)
      · exact .inr ⟨he ▸ hm, _, congrArg (fun o => o.1.2) he⟩

theorem Silent.receive {n : Tab} (h : Silent pf n) (hperm : n.replies.Perm (b :: rest)) :
    Silent pf ((sessions pf).received b rest n) := by
  obtain ⟨call, outcome⟩ := b
  have hb := h.replies (call, outcome) (hperm.mem_iff.2 List.mem_cons_self)
  refine ⟨?_, fun m hm => h.requests m (by rwa [← List.append_nil n.requests]),
    fun b' hb' => h.replies b' (hperm.mem_iff.2 (List.mem_cons_of_mem _ hb'))⟩
  rcases hb with hb | ⟨hb, e, he⟩
  · cases (hb : call = .logout)
    exact ⟨rfl, rfl⟩
  · cases (hb : call = .getCurrentUser)
    cases (he : outcome = .error e)
    exact ⟨rfl, rfl⟩

theorem Silent.step {n : Tab} (h : Silent pf n) {mv : TabMove} (hstart : StartsNoSession mv)
    (hasks : AsksAnonymously pf mv) : Silent pf ((sessions pf).step n mv) := by
  refine Exchange.step_keeps mv h (fun a ha => ?_) (fun i fate m rest _ _ hperm => ?_)
    fun b rest hperm => ?_
  · subst ha
    exact h.act pf hstart hasks
  · exact h.serve pf fate hperm
  · exact h.receive pf hperm

/-- A logout whose answer is about to arrive. -/
structure Logout where
  before : Tab
  reply : Nat
  completes : (before.replies[reply]?).map Prod.fst = some .logout

/-- The tab when the logout is completed. -/
def Logout.after (c : Logout) : Tab := (sessions pf).step c.before (.receive c.reply)

/-- A logout is final as long as nothing else was on its way when it completed, and nobody is
asked for with a good token afterwards. -/
theorem logout_final (c : Logout) (hrequests : ∀ m ∈ c.before.requests, m.1 = .logout)
    (hreplies : ∀ b ∈ c.before.replies, b.1 = .logout) (later : List TabMove)
    (hstart : ∀ mv ∈ later, StartsNoSession mv) (hasks : ∀ mv ∈ later, AsksAnonymously pf mv) :
    SignedOut (runs (sessions pf).step (c.after pf) later).client := by
  have hafter : Silent pf (c.after pf) := by
    obtain ⟨b, hb, hcall⟩ := Option.map_eq_some_iff.1 c.completes
    rw [Logout.after, Exchange.step, hb]
    refine ⟨?_, fun m hm => ?_, fun b hb => ?_⟩
    · change SignedOut (b.1.settle b.2 c.before.client)
      rw [hcall]
      exact ⟨rfl, rfl⟩
    · exact .inl (hrequests m (by rwa [← List.append_nil c.before.requests]))
    · exact .inl (hreplies b (List.mem_of_mem_eraseIdx hb))
  have hmoves : ∀ mv ∈ later, StartsNoSession mv ∧ AsksAnonymously pf mv :=
    fun mv hmv => ⟨hstart mv hmv, hasks mv hmv⟩
  have hrun : Silent pf (runs (sessions pf).step (c.after pf) later) :=
    runs_keep_of hmoves hafter fun _ _ hn hmv => hn.step pf hmv.1 hmv.2
  exact hrun.signedOut

end Logout

/-- The manager's page asks for its user and logs out at once; the server has answered both. -/
def crossedTab : Tab :=
  runs (sessions trustingPlatform).step ⟨.initial, sampleWorld, [], []⟩
    [.act (.getCurrentUser, fromDevice (sampleId 5) none),
      .act (.logout, fromDevice (sampleId 5) none), .serve 0 .answered, .serve 0 .answered]

/-- The answer to the logout arrives first. -/
def crossedLogout : Logout := ⟨crossedTab, 1, by decide +kernel⟩

theorem logout_undone :
    (∀ mv ∈ [(.receive 0 : TabMove)], StartsNoSession mv) ∧
      ¬SignedOut (runs (sessions trustingPlatform).step (crossedLogout.after trustingPlatform)
        [.receive 0]).client := by
  constructor
  · exact List.forall_mem_singleton.2 trivial
  · decide +kernel

/-- The manager logs out while nothing else is on its way. -/
def plainLogout : Logout :=
  ⟨runs (sessions trustingPlatform).step ⟨.initial, sampleWorld, [], []⟩
    [.act (.logout, fromDevice (sampleId 5) none), .serve 0 .answered], 0, by decide +kernel⟩

theorem logout_final_sample :
    SignedOut (runs (sessions trustingPlatform).step (plainLogout.after trustingPlatform)
      [.act (.getCurrentUser, ⟨none, none, none, none, sampleEnv, .stored⟩), .serve 0 .answered,
        .receive 0]).client := by
  refine logout_final trustingPlatform plainLogout (by decide +kernel) ?_ _ ?_ ?_
  · intro b hb
    have hcalls : plainLogout.before.replies.map Prod.fst = [.logout] := by decide +kernel
    exact List.mem_singleton.1 (hcalls ▸ List.mem_map_of_mem hb)
  · simp only [List.forall_mem_cons, StartsNoSession, true_and, List.not_mem_nil,
      false_implies, implies_true]
  · simp only [List.forall_mem_cons, AsksAnonymously, and_true, List.not_mem_nil,
      false_implies, implies_true]
    exact ⟨rfl, rfl⟩

end DineFlow.AuthStore
