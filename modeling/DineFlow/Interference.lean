import DineFlow.Pool

namespace Atomic
set_option autoImplicit true

/-- The next statement of a program, if it fails. -/
def Prog.failing : Prog ι σ ε α → Option (ι × (σ → Prog ι σ ε α × σ))
  | .stmt i _ _ z => some (i, fun s => (z, s))
  | _ => none

theorem Prog.nextSite_of_turn {t : Prog ι σ ε α} {fails : Bool}
    (h : (if fails then Prog.failing else Prog.next) t = some (site, act)) :
    t.next.map Prod.fst = some site := by
  cases t with
  | ret => cases fails <;> cases h
  | throw => cases fails <;> cases h
  | stmt i u k z => cases fails <;> cases h <;> rfl

/-- A turn of one thread, with whether its statement fails. -/
def Pool.turn (p : Pool (Prog ι σ ε α) ι σ) (t : Nat × Bool) : Pool (Prog ι σ ε α) ι σ :=
  p.step (if t.2 then Prog.failing else Prog.next) t.1

/-- Started in `s`, with others moving the state within `R` before each of its statements, the
program moves it within `R` itself and returns what satisfies `Q`, whichever statements fail. -/
def Prog.Sound (R : σ → σ → Prop) (Q : σ → α → Prop) : Prog ι σ ε α → σ → Prop
  | .ret a, s => Q s a
  | .throw _, _ => True
  | .stmt _ u k z, s => ∀ s', R s s' → R s' (u s') ∧ (k s').Sound R Q (u s') ∧ z.Sound R Q s'

namespace Prog

section Rules

variable {R : σ → σ → Prop} {Q : σ → α → Prop}

theorem Sound.bind {p : Prog ι σ ε α} {g : α → Prog ι σ ε β} {Q' : σ → β → Prop}
    (hp : p.Sound R Q s) (hg : ∀ s a, Q s a → (g a).Sound R Q' s) : (p.bind g).Sound R Q' s := by
  induction p generalizing s with
  | ret a => exact hg s a hp
  | throw => trivial
  | stmt i u k z ihk ihz =>
    intro s' hs
    obtain ⟨hu, hk, hz⟩ := hp s' hs
    exact ⟨hu, ihk s' hk, ihz hz⟩

theorem Sound.mono {p : Prog ι σ ε α} {Q' : σ → α → Prop} (hp : p.Sound R Q s)
    (hQ : ∀ s a, Q s a → Q' s a) : p.Sound R Q' s := by
  induction p generalizing s with
  | ret a => exact hQ s a hp
  | throw => trivial
  | stmt i u k z ihk ihz =>
    intro s' hs
    obtain ⟨hu, hk, hz⟩ := hp s' hs
    exact ⟨hu, ihk s' hk, ihz hz⟩

theorem Sound.frame {p : Prog ι σ ε α} {F : σ → Prop} (hp : p.Sound R Q s)
    (hF : ∀ s s', R s s' → F s → F s') (hs : F s) : p.Sound R (fun s a => F s ∧ Q s a) s := by
  induction p generalizing s with
  | ret a => exact ⟨hs, hp⟩
  | throw => trivial
  | stmt i u k z ihk ihz =>
    intro s' hs'
    obtain ⟨hu, hk, hz⟩ := hp s' hs'
    have hnow := hF _ _ hs' hs
    exact ⟨hu, ihk s' hk (hF _ _ hu hnow), ihz hz hnow⟩

/-- Others can move on before a program goes on. -/
theorem Sound.later {p : Prog ι σ ε α} (hp : p.Sound R Q s)
    (ht : ∀ {a b c}, R a b → R b c → R a c) (hQ : ∀ s s' a, R s s' → Q s a → Q s' a)
    (hs : R s s') : p.Sound R Q s' := by
  cases p with
  | ret a => exact hQ s s' a hs hp
  | throw => trivial
  | stmt i u k z => exact fun s'' hs'' => hp s'' (ht hs hs'')

theorem Within.sound {p : Prog ι σ ε α} {Q : α → Prop} (hp : p.Within R) (hq : p.Returns Q)
    (s : σ) : p.Sound R (fun _ => Q) s := by
  induction p generalizing s with
  | ret a => exact hq
  | throw => trivial
  | stmt i u k z ihk ihz =>
    intro s' _
    exact ⟨hp.1 s', ihk s' (hp.2.1 s') (hq.1 s') _, ihz hp.2.2 hq.2 s'⟩

theorem sound_ofExcept {r : Except ε α} (h : ∀ a, r = .ok a → Q s a) :
    (ofExcept r : Prog ι σ ε α).Sound R Q s := by
  cases r with
  | error => trivial
  | ok a => exact h a rfl

theorem sound_query (hR : ∀ s, R s s) (i : ι) {read : σ → Except ε α} {z : Except ε α}
    (h : ∀ s' a, R s s' → read s' = .ok a → Q s' a) (hz : ∀ s' a, R s s' → z = .ok a → Q s' a) :
    (query i read z).Sound R Q s := by
  intro s' hs
  refine ⟨hR s', ?_, ?_⟩
  · exact sound_ofExcept fun a ha => h s' a hs ha
  · exact sound_ofExcept fun a ha => hz s' a hs ha

theorem sound_exec (hR : ∀ s, R s s) (i : ι) {act : σ → Except ε (α × σ)} {z : Except ε α}
    (h : ∀ s' r, R s s' → act s' = .ok r → R s' r.2 ∧ Q r.2 r.1)
    (hz : ∀ s' a, R s s' → z = .ok a → Q s' a) : (exec i act z).Sound R Q s := by
  intro s' hs
  have hfault : (ofExcept z : Prog ι σ ε α).Sound R Q s' := sound_ofExcept fun a ha => hz s' a hs ha
  dsimp only
  cases ha : act s' with
  | error e => exact ⟨hR s', trivial, hfault⟩
  | ok r => exact ⟨(h s' r hs ha).1, (h s' r hs ha).2, hfault⟩

theorem sound_each {F : σ → Prop} (hF : ∀ s s', R s s' → F s → F s')
    {body : Nat → α → Prog ι σ ε Unit}
    (h : ∀ n, ∀ x ∈ xs, ∀ s, F s → (body n x).Sound R (fun _ _ => True) s) (n : Nat) (hs : F s) :
    (each body n xs).Sound R (fun s _ => F s) s := by
  induction xs generalizing n s with
  | nil => exact hs
  | cons x xs ih =>
    refine ((h n x List.mem_cons_self s hs).frame hF hs).bind fun s _ hs' => ?_
    exact ih (fun n y hy => h n y (List.mem_cons_of_mem _ hy)) (n + 1) hs'.1

end Rules

end Prog

namespace Pool

section Threads

variable {R : σ → σ → Prop} {Q : Nat → σ → α → Prop}

/-- Every thread is sound from here on. -/
def AllSound (R : σ → σ → Prop) (Q : Nat → σ → α → Prop) (p : Pool (Prog ι σ ε α) ι σ) : Prop :=
  ∀ (i : Nat) t, p.threads[i]? = some t → t.Sound R (Q i) p.state

theorem AllSound.set {p : Pool (Prog ι σ ε α) ι σ} (hp : p.AllSound R Q)
    (ht : ∀ {a b c}, R a b → R b c → R a c) (hQ : ∀ i s s' a, R s s' → Q i s a → Q i s' a)
    (hs : R p.state s) (hq : q.Sound R (Q j) s) (log : List (Nat × ι)) :
    AllSound R Q ⟨s, p.threads.set j q, log⟩ := by
  intro i t hi
  rcases of_getElem?_set hi with ⟨rfl, rfl⟩ | ⟨_, hi⟩
  · exact hq
  · exact (hp i t hi).later ht (hQ i) hs

variable (hR : ∀ s, R s s) (ht : ∀ {a b c}, R a b → R b c → R a c)
variable (hQ : ∀ i s s' a, R s s' → Q i s a → Q i s' a)
include hR ht hQ

theorem turn_sound {p : Pool (Prog ι σ ε α) ι σ} (hp : p.AllSound R Q) (t : Nat × Bool) :
    R p.state (p.turn t).state ∧ (p.turn t).AllSound R Q := by
  obtain ⟨j, fails⟩ := t
  obtain he | ⟨q, site, act, hj, hn, -, he⟩ :=
    step_cases (if fails then Prog.failing else Prog.next) p j
  · rw [turn, he]
    exact ⟨hR _, hp⟩
  · rw [turn, he]
    cases q with
    | ret => cases fails <;> cases hn
    | throw => cases fails <;> cases hn
    | stmt i u k z =>
      obtain ⟨hu, hk, hz⟩ := hp j _ hj p.state (hR _)
      cases fails with
      | true =>
        cases hn
        exact ⟨hR _, hp.set ht hQ (hR _) hz _⟩
      | false =>
        cases hn
        exact ⟨hu, hp.set ht hQ hu hk _⟩

/-- Threads that are sound among moves within `R` stay so under every schedule. -/
theorem runs_sound {p : Pool (Prog ι σ ε α) ι σ} (hp : p.AllSound R Q) (ts : List (Nat × Bool)) :
    R p.state (runs turn p ts).state ∧ (runs turn p ts).AllSound R Q := by
  induction ts generalizing p with
  | nil => exact ⟨hR _, hp⟩
  | cons t ts ih =>
    obtain ⟨hturn, hp'⟩ := turn_sound hR ht hQ hp t
    obtain ⟨hrun, hend⟩ := ih hp'
    exact ⟨ht hturn hrun, hend⟩

end Threads

section Each

variable {S : Nat → Prop} {R : Nat → σ → σ → Prop} {B : σ → σ → Prop}

/-- Every thread in `S` relies on moves of its own kind, and has been sound from some state on, from
which moves within `B` have led here. -/
def EachSound (S : Nat → Prop) (R : Nat → σ → σ → Prop) (B : σ → σ → Prop)
    (p : Pool (Prog ι σ ε α) ι σ) : Prop :=
  ∀ (i : Nat) t, S i → p.threads[i]? = some t →
    ∃ s, B s p.state ∧ t.Sound (R i) (fun _ _ => True) s

/-- A turn is sound if the moves since the last turn of its thread are such as it relies on. -/
theorem EachSound.turn (hR : ∀ i s, R i s s) (hB : ∀ i s s', R i s s' → B s s')
    (ht : ∀ {a b c}, B a b → B b c → B a c) {p : Pool (Prog ι σ ε α) ι σ}
    (hp : p.EachSound S R B) (t : Nat × Bool) (hS : S t.1)
    (hrely : ∀ s, B s p.state → R t.1 s p.state) :
    R t.1 p.state (p.turn t).state ∧ (p.turn t).EachSound S R B := by
  obtain ⟨j, fails⟩ := t
  obtain he | ⟨q, site, act, hj, hn, -, he⟩ :=
    step_cases (if fails then Prog.failing else Prog.next) p j
  · rw [Pool.turn, he]
    exact ⟨hR _ _, hp⟩
  · have hset (q' : Prog ι σ ε α) (s : σ) (hs : R j p.state s)
        (hq' : q'.Sound (R j) (fun _ _ => True) s) :
        EachSound S R B ⟨s, p.threads.set j q', p.log ++ [(j, site)]⟩ := by
      intro i t hSi hi
      rcases of_getElem?_set hi with ⟨rfl, rfl⟩ | ⟨_, hi⟩
      · exact ⟨s, hB _ _ _ (hR j s), hq'⟩
      · obtain ⟨s₀, hs₀, hsound⟩ := hp i t hSi hi
        exact ⟨s₀, ht hs₀ (hB _ _ _ hs), hsound⟩
    rw [Pool.turn, he]
    cases q with
    | ret => cases fails <;> cases hn
    | throw => cases fails <;> cases hn
    | stmt i u k z =>
      obtain ⟨s, hs, hsound⟩ := hp j _ hS hj
      obtain ⟨hu, hk, hz⟩ := hsound p.state (hrely s hs)
      cases fails with
      | true =>
        cases hn
        exact ⟨hR _ _, hset z _ (hR _ _) hz⟩
      | false =>
        cases hn
        exact ⟨hu, hset _ _ hu hk⟩

end Each

/-- Each thread moves the state by steps of its own kind. -/
def EachWithin (R : Nat → σ → σ → Prop) (p : Pool (Prog ι σ ε α) ι σ) : Prop :=
  ∀ (i : Nat) t, p.threads[i]? = some t → t.Within (R i)

theorem EachWithin.turn {R : Nat → σ → σ → Prop} (hR : ∀ i s, R i s s)
    {p : Pool (Prog ι σ ε α) ι σ} (hp : p.EachWithin R) (t : Nat × Bool) :
    R t.1 p.state (p.turn t).state ∧ (p.turn t).EachWithin R := by
  obtain ⟨j, fails⟩ := t
  obtain he | ⟨q, site, act, hj, hn, -, he⟩ :=
    step_cases (if fails then Prog.failing else Prog.next) p j
  · rw [Pool.turn, he]
    exact ⟨hR _ _, hp⟩
  · have hset (q' : Prog ι σ ε α) (hq' : q'.Within (R j)) (s : σ) :
        EachWithin R ⟨s, p.threads.set j q', p.log ++ [(j, site)]⟩ := by
      intro i t ht
      rcases of_getElem?_set ht with ⟨rfl, rfl⟩ | ⟨_, ht⟩
      · exact hq'
      · exact hp i t ht
    rw [Pool.turn, he]
    cases q with
    | ret => cases fails <;> cases hn
    | throw => cases fails <;> cases hn
    | stmt i u k z =>
      obtain ⟨hu, hk, hz⟩ := hp j _ hj
      cases fails with
      | true =>
        cases hn
        exact ⟨hR _ _, hset z hz _⟩
      | false =>
        cases hn
        exact ⟨hu _, hset _ (hk _) _⟩

theorem EachWithin.runs {R : Nat → σ → σ → Prop} (hR : ∀ i s, R i s s)
    {p : Pool (Prog ι σ ε α) ι σ} (hp : p.EachWithin R) (ts : List (Nat × Bool)) :
    (Atomic.runs Pool.turn p ts).EachWithin R :=
  runs_keep (I := fun p : Pool (Prog ι σ ε α) ι σ => p.EachWithin R)
    (fun _ t h => (h.turn hR t).2) hp ts

end Pool
end Atomic
