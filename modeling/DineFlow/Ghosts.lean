import DineFlow.Interference

namespace Atomic
set_option autoImplicit true

/-- A program with a ghost: every statement moves the state, and the ghost with it, as `G` allows,
and what is returned fits the ghost. A statement that fails leaves both as they are. The states
that the statements meet are such as `V` says. -/
def Prog.Follows (V : σ → Prop) (G : γ → σ → σ → γ → Prop) (Q : γ → α → Prop) :
    Prog ι σ ε α → γ → Prop
  | .ret a, g => Q g a
  | .throw _, _ => True
  | .stmt _ u k z, g =>
    (∀ s, V s → ∃ g', G g s (u s) g' ∧ (k s).Follows V G Q g') ∧ z.Follows V G Q g

namespace Prog

section Rules

variable {V : σ → Prop} {G : γ → σ → σ → γ → Prop} {Q : γ → α → Prop}

theorem Follows.bind {p : Prog ι σ ε α} {k : α → Prog ι σ ε β} {Q' : γ → β → Prop}
    (hp : p.Follows V G Q g) (hk : ∀ g a, Q g a → (k a).Follows V G Q' g) :
    (p.bind k).Follows V G Q' g := by
  induction p generalizing g with
  | ret a => exact hk g a hp
  | throw => trivial
  | stmt i u k z ihk ihz =>
    refine ⟨fun s hs => ?_, ihz hp.2⟩
    obtain ⟨g', hstep, hrest⟩ := hp.1 s hs
    exact ⟨g', hstep, ihk s hrest⟩

theorem Follows.mono {p : Prog ι σ ε α} {Q' : γ → α → Prop} (hp : p.Follows V G Q g)
    (hQ : ∀ g a, Q g a → Q' g a) : p.Follows V G Q' g := by
  induction p generalizing g with
  | ret a => exact hQ g a hp
  | throw => trivial
  | stmt i u k z ihk ihz =>
    refine ⟨fun s hs => ?_, ihz hp.2⟩
    obtain ⟨g', hstep, hrest⟩ := hp.1 s hs
    exact ⟨g', hstep, ihk s hrest⟩

theorem Within.follows {p : Prog ι σ ε α} {Q : α → Prop} (hp : p.Within R) (hq : p.Returns Q)
    (h : ∀ s s', R s s' → G g s s' g) : p.Follows V G (fun g' a => g' = g ∧ Q a) g := by
  induction p with
  | ret a => exact ⟨rfl, hq⟩
  | throw => trivial
  | stmt i u k z ihk ihz =>
    refine ⟨fun s _ => ?_, ihz hp.2.2 hq.2⟩
    exact ⟨g, h _ _ (hp.1 s), ihk s (hp.2.1 s) (hq.1 s)⟩

theorem follows_ofExcept {r : Except ε α} (h : ∀ a, r = .ok a → Q g a) :
    (ofExcept r : Prog ι σ ε α).Follows V G Q g := by
  cases r with
  | error => trivial
  | ok a => exact h a rfl

theorem follows_query (hG : ∀ s, G g s s g) (i : ι) {read : σ → Except ε α} {z : Except ε α}
    (h : ∀ s a, V s → read s = .ok a → Q g a) (hz : ∀ a, z = .ok a → Q g a) :
    (query i read z).Follows V G Q g :=
  ⟨fun s hs => ⟨g, hG s, follows_ofExcept fun a ha => h s a hs ha⟩, follows_ofExcept hz⟩

theorem Follows.and {p : Prog ι σ ε α} (hp : p.Follows V G Q g) (hR : p.Within R) :
    p.Follows V (fun g s s' g' => G g s s' g' ∧ R s s') Q g := by
  induction p generalizing g with
  | ret a => exact hp
  | throw => trivial
  | stmt i u k z ihk ihz =>
    refine ⟨fun s hs => ?_, ihz hp.2 hR.2.2⟩
    obtain ⟨g', hstep, hrest⟩ := hp.1 s hs
    exact ⟨g', ⟨hstep, hR.1 s⟩, ihk s hrest (hR.2.1 s)⟩

theorem follows_exec (hG : ∀ s, G g s s g) (i : ι) {act : σ → Except ε (α × σ)} {z : Except ε α}
    (h : ∀ s r, act s = .ok r → ∃ g', G g s r.2 g' ∧ Q g' r.1) (hz : ∀ a, z = .ok a → Q g a) :
    (exec i act z).Follows V G Q g := by
  refine ⟨fun s _ => ?_, follows_ofExcept hz⟩
  dsimp only
  cases ha : act s with
  | error e => exact ⟨g, hG s, trivial⟩
  | ok r =>
    obtain ⟨g', hstep, hq⟩ := h s r ha
    exact ⟨g', hstep, hq⟩

theorem follows_each {F : γ → List α → Prop} {body : Nat → α → Prog ι σ ε Unit} {xs : List α}
    (h : ∀ g done x rest, done ++ x :: rest = xs → F g done →
      (body done.length x).Follows V G (fun g' _ => F g' (done ++ [x])) g) (hg : F g []) :
    (each body 0 xs).Follows V G (fun g' _ => F g' xs) g := by
  have hrest (rest : List α) : ∀ g done, done ++ rest = xs → F g done →
      (each body done.length rest).Follows V G (fun g' _ => F g' xs) g := by
    induction rest with
    | nil =>
      intro g done hxs hg
      rw [List.append_nil] at hxs
      exact hxs ▸ hg
    | cons x rest ih =>
      intro g done hxs hg
      refine (h g done x rest hxs hg).bind fun g' _ hg' => ?_
      have hnext := ih g' (done ++ [x]) (by rw [← hxs, List.append_assoc]; rfl) hg'
      rwa [List.length_append] at hnext
  exact hrest xs g [] rfl hg

end Rules

end Prog

namespace Pool

theorem turn_cases (p : Pool (Prog ι σ ε α) ι σ) (t : Nat × Bool) :
    p.turn t = p ∨ ∃ site u k z, p.threads[t.1]? = some (.stmt site u k z) ∧
      ((p.turn t).state = p.state ∧ (p.turn t).threads = p.threads.set t.1 z ∨
        (p.turn t).state = u p.state ∧ (p.turn t).threads = p.threads.set t.1 (k p.state)) := by
  obtain ⟨i, fails⟩ := t
  obtain he | ⟨q, site, act, hi, hn, -, he⟩ :=
    step_cases (if fails then Prog.failing else Prog.next) p i
  · exact .inl he
  · cases q with
    | ret => cases fails <;> cases hn
    | throw => cases fails <;> cases hn
    | stmt site u k z =>
      refine .inr ⟨site, u, k, z, hi, ?_⟩
      rw [turn, he]
      cases fails with
      | true =>
        cases hn
        exact .inl ⟨rfl, rfl⟩
      | false =>
        cases hn
        exact .inr ⟨rfl, rfl⟩

section Threads

variable {V : σ → Prop} {G : Nat → γ → σ → σ → γ → Prop} {Q : Nat → γ → α → Prop}

/-- Every thread follows the rules for its place, each with a ghost of its own. -/
def AllFollow (V : σ → Prop) (G : Nat → γ → σ → σ → γ → Prop) (Q : Nat → γ → α → Prop)
    (p : Pool (Prog ι σ ε α) ι σ) (gs : Nat → γ) : Prop :=
  ∀ (i : Nat) t, p.threads[i]? = some t → t.Follows V (G i) (Q i) (gs i)

theorem AllFollow.set {p : Pool (Prog ι σ ε α) ι σ} (hp : p.AllFollow V G Q gs)
    (hq : q.Follows V (G j) (Q j) g) (i : Nat) (t : Prog ι σ ε α)
    (hi : (p.threads.set j q)[i]? = some t) :
    t.Follows V (G i) (Q i) (Function.update gs j g i) := by
  rcases of_getElem?_set hi with ⟨rfl, rfl⟩ | ⟨hne, hi⟩
  · rw [Function.update_self]
    exact hq
  · rw [Function.update_of_ne (Ne.symm hne)]
    exact hp i t hi

theorem AllFollow.and {p : Pool (Prog ι σ ε α) ι σ} (hp : p.AllFollow V G Q gs)
    (hR : p.EachWithin R) : p.AllFollow V (fun i g s s' g' => G i g s s' g' ∧ R i s s') Q gs :=
  fun i t ht => (hp i t ht).and (hR i t ht)

theorem AllFollow.rest {p : Pool (Prog ι σ ε α) ι σ} (hp : p.AllFollow V G Q gs)
    (hi : p.threads[i]? = some (.ret a)) :
    p.AllFollow V (Function.update G i fun _ _ _ _ => False) Q gs := by
  intro j t ht
  by_cases hj : j = i
  · subst hj
    have hq := hp j t ht
    rw [hi] at ht
    cases ht
    exact hq
  · rw [Function.update_of_ne hj]
    exact hp j t ht

variable {I : σ → (Nat → γ) → Prop}

theorem turn_follows {p : Pool (Prog ι σ ε α) ι σ} (hV : V p.state)
    (hI : ∀ gs i s' g', I p.state gs → G i (gs i) p.state s' g' → I s' (Function.update gs i g'))
    (hp : p.AllFollow V G Q gs) (h : I p.state gs) (t : Nat × Bool) :
    ∃ gs', (p.turn t).AllFollow V G Q gs' ∧ I (p.turn t).state gs' := by
  rcases p.turn_cases t with he | ⟨site, u, k, z, hj, ⟨hs, ht⟩ | ⟨hs, ht⟩⟩
  · rw [he]
    exact ⟨gs, hp, h⟩
  · have hset := hp.set (hp _ _ hj).2
    rw [Function.update_eq_self, ← ht] at hset
    rw [hs]
    exact ⟨gs, hset, h⟩
  · obtain ⟨g', hstep, hrest⟩ := (hp _ _ hj).1 p.state hV
    have hset := hp.set hrest
    rw [← ht] at hset
    rw [hs]
    exact ⟨Function.update gs t.1 g', hset, hI gs t.1 _ g' h hstep⟩

/-- What every step of every thread keeps, of the state and the ghosts together, holds under every
schedule, and what a thread has returned fits its ghost. The states that the threads meet are
those of the run. -/
theorem runs_follow {p : Pool (Prog ι σ ε α) ι σ} {ts : List (Nat × Bool)}
    (hV : ∀ past, past <+: ts → V (runs turn p past).state)
    (hI : ∀ s gs i s' g', V s → I s gs → G i (gs i) s s' g' → I s' (Function.update gs i g'))
    (hp : p.AllFollow V G Q gs) (h : I p.state gs) :
    ∃ gs', (runs turn p ts).AllFollow V G Q gs' ∧ I (runs turn p ts).state gs' := by
  induction ts generalizing p gs with
  | nil => exact ⟨gs, hp, h⟩
  | cons t ts ih =>
    have hnow : V p.state := hV [] List.nil_prefix
    obtain ⟨gs', hp', h'⟩ := turn_follows hnow (fun gs i s' g' => hI p.state gs i s' g' hnow) hp h t
    exact ih (fun past hpast => hV (t :: past) (List.cons_prefix_cons.2 ⟨rfl, hpast⟩)) hp' h'

theorem runs_follow_always {p : Pool (Prog ι σ ε α) ι σ}
    (hI : ∀ s gs i s' g', I s gs → G i (gs i) s s' g' → I s' (Function.update gs i g'))
    (hp : p.AllFollow (fun _ => True) G Q gs) (h : I p.state gs) (ts : List (Nat × Bool)) :
    ∃ gs', (runs turn p ts).AllFollow (fun _ => True) G Q gs' ∧ I (runs turn p ts).state gs' :=
  runs_follow (fun _ _ => trivial) (fun s gs i s' g' _ => hI s gs i s' g') hp h

end Threads

section Claims

/-- The steps of a thread that puts at most one row into a table that only grows, under a key that
was free. -/
inductive ClaimStep (rows : σ → List ρ) (key : ρ → κ) (P : ρ → Prop) :
    Option ρ → σ → σ → Option ρ → Prop
  | grow (h : rows s <+: rows s') : ClaimStep rows key P g s s' g
  | claim (hP : P x) (hfree : ∀ y ∈ rows s, key y ≠ key x) (h : rows s' = rows s ++ [x]) :
      ClaimStep rows key P none s s' (some x)

/-- The rows that threads have put into the table are there, each under a key of its own. -/
structure Claimed (rows : σ → List ρ) (key : ρ → κ) (P : Nat → ρ → Prop) (s : σ)
    (gs : Nat → Option ρ) : Prop where
  stored : ∀ i x, gs i = some x → x ∈ rows s
  allowed : ∀ i x, gs i = some x → P i x
  apart : ∀ i j x y, gs i = some x → gs j = some y → key x = key y → i = j

variable {rows : σ → List ρ} {key : ρ → κ} {P : Nat → ρ → Prop}

theorem Claimed.start (s : σ) : Claimed rows key P s fun _ => none := by
  constructor
  · intro i x hx
    cases hx
  · intro i x hx
    cases hx
  · intro i j x y hx
    cases hx

theorem update_some {gs : Nat → Option ρ} (h : Function.update gs i g j = some x) :
    j = i ∧ g = some x ∨ j ≠ i ∧ gs j = some x := by
  by_cases hj : j = i
  · subst hj
    rw [Function.update_self] at h
    exact .inl ⟨rfl, h⟩
  · rw [Function.update_of_ne hj] at h
    exact .inr ⟨hj, h⟩

theorem Claimed.step (s : σ) (gs : Nat → Option ρ) (i : Nat) (s' : σ) (g' : Option ρ)
    (h : Claimed rows key P s gs) (hs : ClaimStep rows key (P i) (gs i) s s' g') :
    Claimed rows key P s' (Function.update gs i g') := by
  generalize hg : gs i = g at hs
  cases hs with
  | grow hgrow =>
    rw [← hg, Function.update_eq_self]
    exact ⟨fun j x hx => hgrow.subset (h.stored j x hx), h.allowed, h.apart⟩
  | claim hP hfree hrows =>
    constructor
    · intro j x hx
      rw [hrows]
      rcases update_some hx with ⟨_, hx⟩ | ⟨_, hx⟩
      · cases hx
        exact List.mem_append_right _ List.mem_cons_self
      · exact List.mem_append_left _ (h.stored j x hx)
    · intro j x hx
      rcases update_some hx with ⟨rfl, hg'⟩ | ⟨_, hx'⟩
      · cases hg'
        exact hP
      · exact h.allowed j x hx'
    · intro j k x y hx hy hkey
      rcases update_some hx with ⟨hj, hx'⟩ | ⟨_, hx'⟩
      · rcases update_some hy with ⟨hk, _⟩ | ⟨_, hy'⟩
        · exact hj.trans hk.symm
        · cases hx'
          exact absurd hkey.symm (hfree y (h.stored k y hy'))
      · rcases update_some hy with ⟨_, hy'⟩ | ⟨_, hy'⟩
        · cases hy'
          exact absurd hkey (hfree x (h.stored j x hx'))
        · exact h.apart j k x y hx' hy' hkey

end Claims

theorem turns_invariant {I : σ → Prop} {p : Pool (Prog ι σ ε α) ι σ}
    (hp : ∀ (i : Nat) t, p.threads[i]? = some t → t.Within fun s s' => I s → I s')
    (h : I p.state) (ts : List (Nat × Bool)) : I (runs turn p ts).state := by
  have hkeep (p : Pool (Prog ι σ ε α) ι σ) (t : Nat × Bool)
      (hp : p.EachWithin (fun _ s s' => I s → I s') ∧ I p.state) :
      (turn p t).EachWithin (fun _ s s' => I s → I s') ∧ I (turn p t).state := by
    obtain ⟨hstep, hrest⟩ := hp.1.turn (fun _ _ => id) t
    exact ⟨hrest, hstep hp.2⟩
  exact (runs_keep hkeep ⟨hp, h⟩ ts).2

/-- A run moves the state as its threads may. -/
theorem EachWithin.runs_related {R : σ → σ → Prop} {p : Pool (Prog ι σ ε α) ι σ}
    (hp : p.EachWithin fun _ => R) (hR : ∀ s, R s s) (ht : ∀ s s' s'', R s s' → R s' s'' → R s s'')
    (ts : List (Nat × Bool)) : R p.state (Atomic.runs Pool.turn p ts).state :=
  turns_invariant (I := R p.state) (fun i t hi => (hp i t hi).mono fun _ _ h h' => ht _ _ _ h' h)
    (hR _) ts

end Pool
end Atomic
