import DineFlow.Ghosts

namespace Atomic
set_option autoImplicit true

namespace Prog

/-- The program does not throw any more. -/
def Sure : Prog ι σ ε α → Prop
  | .ret _ => True
  | .throw _ => False
  | .stmt _ _ k z => (∀ s, (k s).Sure) ∧ z.Sure

/-- A program that throws has left the state as it was, up to `E`: after a statement that does
more it does not throw. -/
def AllOrNothing (E : σ → σ → Prop) : Prog ι σ ε α → Prop
  | .ret _ => True
  | .throw _ => True
  | .stmt _ u k z => (∀ s, E s (u s) ∧ (k s).AllOrNothing E ∨ (k s).Sure) ∧ z.AllOrNothing E

/-- The program sees of the state only what `E` leaves of it, and changes it accordingly. Where
`E` does not relate a state to itself, nothing is asked. -/
def Blind (E : σ → σ → Prop) : Prog ι σ ε α → Prop
  | .ret _ => True
  | .throw _ => True
  | .stmt _ u k z =>
    (∀ s s', E s s' → E (u s) (u s') ∧ k s = k s' ∧ (k s).Blind E) ∧ z.Blind E

/-- The program has ended with an error. -/
def threw : Prog ι σ ε α → Bool
  | .throw _ => true
  | _ => false

theorem eq_throw_of_threw {p : Prog ι σ ε α} (h : p.threw = true) : ∃ e, p = .throw e := by
  cases p with
  | ret => cases h
  | throw e => exact ⟨e, rfl⟩
  | stmt => cases h

section Rules

variable {E : σ → σ → Prop}

theorem Sure.bind {p : Prog ι σ ε α} {g : α → Prog ι σ ε β} (hp : p.Sure) (hg : ∀ a, (g a).Sure) :
    (p.bind g).Sure := by
  induction p with
  | ret a => exact hg a
  | throw => exact hp.elim
  | stmt i u k z ihk ihz => exact ⟨fun s => ihk s (hp.1 s), ihz hp.2⟩

theorem Within.allOrNothing {p : Prog ι σ ε α} (h : p.Within E) : p.AllOrNothing E := by
  induction p with
  | ret => trivial
  | throw => trivial
  | stmt i u k z ihk ihz =>
    exact ⟨fun s => .inl ⟨h.1 s, ihk s (h.2.1 s)⟩, ihz h.2.2⟩

theorem Within.bind_allOrNothing {p : Prog ι σ ε α} {g : α → Prog ι σ ε β} (hp : p.Within E)
    (hg : ∀ a, (g a).AllOrNothing E) : (p.bind g).AllOrNothing E := by
  induction p with
  | ret a => exact hg a
  | throw => trivial
  | stmt i u k z ihk ihz =>
    exact ⟨fun s => .inl ⟨hp.1 s, ihk s (hp.2.1 s)⟩, ihz hp.2.2⟩

theorem Sure.allOrNothing {p : Prog ι σ ε α} (h : p.Sure) : p.AllOrNothing E := by
  induction p with
  | ret => trivial
  | throw => trivial
  | stmt i u k z ihk ihz => exact ⟨fun s => .inr (h.1 s), ihz h.2⟩

theorem AllOrNothing.bind_sure {p : Prog ι σ ε α} {g : α → Prog ι σ ε β}
    (hp : p.AllOrNothing E) (hg : ∀ a, (g a).Sure) : (p.bind g).AllOrNothing E := by
  induction p with
  | ret a => exact (hg a).allOrNothing
  | throw => trivial
  | stmt i u k z ihk ihz =>
    refine ⟨fun s => ?_, ihz hp.2⟩
    rcases hp.1 s with ⟨hstep, hk⟩ | hk
    · exact .inl ⟨hstep, ihk s hk⟩
    · exact .inr (hk.bind hg)

/-- A statement whose refusal changes nothing, before a program that throws only where the
statement has changed nothing either. -/
theorem allOrNothing_exec_bind (hE : ∀ s, E s s) (i : ι) {act : σ → Except ε (α × σ)}
    {z : Except ε α} {g : α → Prog ι σ ε β}
    (h : ∀ s r, act s = .ok r → E s r.2 ∧ (g r.1).AllOrNothing E ∨ (g r.1).Sure)
    (hz : ∀ a, z = .ok a → (g a).AllOrNothing E) :
    ((exec i act z).bind g).AllOrNothing E := by
  refine ⟨fun s => ?_, ?_⟩
  · dsimp only
    cases ha : act s with
    | error e => exact .inl ⟨hE s, trivial⟩
    | ok r => exact h s r ha
  · cases hza : z with
    | error e => trivial
    | ok a => exact hz a hza

theorem allOrNothing_exec (hE : ∀ s, E s s) (i : ι) (act : σ → Except ε (α × σ)) (z : Except ε α) :
    (exec i act z).AllOrNothing E := by
  refine ⟨fun s => ?_, (within_ofExcept E z).allOrNothing⟩
  dsimp only
  cases act s with
  | error e => exact .inl ⟨hE s, trivial⟩
  | ok r => exact .inr trivial

theorem blind_eq (p : Prog ι σ ε α) : p.Blind fun s s' => s = s' := by
  induction p with
  | ret => trivial
  | throw => trivial
  | stmt i u k z ihk ihz =>
    refine ⟨fun s s' h => ?_, ihz⟩
    rw [h]
    exact ⟨rfl, rfl, ihk s'⟩

theorem Blind.bind_returns {p : Prog ι σ ε α} {g : α → Prog ι σ ε β} {Q : α → Prop}
    (hp : p.Blind E) (hq : p.Returns Q) (hg : ∀ a, Q a → (g a).Blind E) : (p.bind g).Blind E := by
  induction p with
  | ret a => exact hg a hq
  | throw => trivial
  | stmt i u k z ihk ihz =>
    refine ⟨fun s s' h => ?_, ihz hp.2 hq.2⟩
    obtain ⟨hstep, hsame, hk⟩ := hp.1 s s' h
    exact ⟨hstep, congrArg (·.bind g) hsame, ihk s hk (hq.1 s)⟩

theorem Blind.bind {p : Prog ι σ ε α} {g : α → Prog ι σ ε β} (hp : p.Blind E)
    (hg : ∀ a, (g a).Blind E) : (p.bind g).Blind E :=
  hp.bind_returns (returns_true p) fun a _ => hg a

theorem blind_ofExcept (E : σ → σ → Prop) (r : Except ε α) :
    (ofExcept r : Prog ι σ ε α).Blind E := by
  cases r <;> trivial

theorem blind_query (i : ι) {read : σ → Except ε α} (z : Except ε α)
    (h : ∀ s s', E s s' → read s = read s') : (query i read z).Blind E := by
  refine ⟨fun s s' hs => ⟨hs, ?_, blind_ofExcept E _⟩, blind_ofExcept E _⟩
  exact congrArg ofExcept (h s s' hs)

theorem blind_exec (i : ι) {act : σ → Except ε (α × σ)} (z : Except ε α)
    (h : ∀ s s', E s s' → (∃ e, act s = .error e ∧ act s' = .error e) ∨
      ∃ a t t', act s = .ok (a, t) ∧ act s' = .ok (a, t') ∧ E t t') :
    (exec i act z).Blind E := by
  refine ⟨fun s s' hs => ?_, blind_ofExcept E _⟩
  dsimp only
  rcases h s s' hs with ⟨e, he, he'⟩ | ⟨a, t, t', he, he', ht⟩
  · rw [he, he']
    exact ⟨hs, rfl, trivial⟩
  · rw [he, he']
    exact ⟨ht, rfl, trivial⟩

end Rules

end Prog

namespace Pool

variable {p q : Pool (Prog ι σ ε α) ι σ}

theorem turn_threads {Φ : Nat → Prog ι σ ε α → Prop} (turn : Nat × Bool)
    (hp : ∀ (i : Nat) t, p.threads[i]? = some t → Φ i t)
    (hturn : ∀ site u k z t, p.threads[turn.1]? = some (.stmt site u k z) →
      (p.turn turn).threads = p.threads.set turn.1 t → t = z ∨ t = k p.state → Φ turn.1 t) :
    ∀ (i : Nat) t, (p.turn turn).threads[i]? = some t → Φ i t := by
  intro i t ht
  rcases p.turn_cases turn with he | ⟨site, u, k, z, hj, ⟨_, he⟩ | ⟨_, he⟩⟩
  · rw [he] at ht
    exact hp i t ht
  · rw [he] at ht
    rcases of_getElem?_set ht with ⟨rfl, rfl⟩ | ⟨_, ht⟩
    · exact hturn site u k t t hj he (.inl rfl)
    · exact hp i t ht
  · rw [he] at ht
    rcases of_getElem?_set ht with ⟨rfl, rfl⟩ | ⟨_, ht⟩
    · exact hturn site u k z _ hj he (.inr rfl)
    · exact hp i t ht

theorem sure_runs {i : Nat} (hp : ∀ t, p.threads[i]? = some t → t.Sure) (ts : List (Nat × Bool)) :
    (runs turn p ts).threads[i]? ≠ some (.throw e) := by
  intro hthrow
  have hkeep (p : Pool (Prog ι σ ε α) ι σ) (t : Nat × Bool)
      (hp : ∀ (j : Nat) u, p.threads[j]? = some u → j = i → u.Sure) :
      ∀ (j : Nat) u, (turn p t).threads[j]? = some u → j = i → u.Sure := by
    refine turn_threads t hp fun site u k z x hx _ hcase hi => ?_
    rcases hcase with rfl | rfl
    · exact (hp _ _ hx hi).2
    · exact (hp _ _ hx hi).1 _
  exact runs_keep hkeep (fun j t ht hj => hp t (hj ▸ ht)) ts i _ hthrow rfl

/-- The pools look alike to the threads in `mine`. -/
structure Alike (E : σ → σ → Prop) (mine : Nat → Bool) (p q : Pool (Prog ι σ ε α) ι σ) : Prop where
  state : E p.state q.state
  threads : ∀ i, mine i = true → p.threads[i]? = q.threads[i]?

theorem getElem?_set_congr {l l' : List τ} {i j : Nat} (hi : l[i]? = l'[i]?)
    (hj : l[j]? = l'[j]?) (x : τ) :
    (l.set i x)[j]? = (l'.set i x)[j]? := by
  by_cases h : i = j
  · subst h
    rw [List.getElem?_set_self', List.getElem?_set_self', hi]
  · rw [List.getElem?_set_ne h, List.getElem?_set_ne h, hj]

section Erase

variable {E : σ → σ → Prop} {mine : Nat → Bool}

theorem Alike.turn (h : Alike E mine p q) (hi : mine t.1 = true)
    (hblind : ∀ x, p.threads[t.1]? = some x → x.Blind E) :
    Alike E mine (p.turn t) (q.turn t) := by
  obtain ⟨i, fails⟩ := t
  have hsame := h.threads i hi
  rw [Pool.turn, Pool.turn, step, step, ← hsame]
  dsimp only
  cases hx : p.threads[i]? with
  | none => exact h
  | some x =>
    rw [hx] at hsame
    cases x with
    | ret a => cases fails <;> exact h
    | throw e => cases fails <;> exact h
    | stmt site u k z =>
      have hset (y : Prog ι σ ε α) (j : Nat) (hj : mine j = true) :
          (p.threads.set i y)[j]? = (q.threads.set i y)[j]? :=
        getElem?_set_congr (hx.trans hsame) (h.threads j hj) y
      cases fails with
      | true => exact ⟨h.state, hset z⟩
      | false =>
        obtain ⟨hstep, hk, _⟩ := (hblind _ hx).1 _ _ h.state
        refine ⟨hstep, fun j hj => ?_⟩
        have hnext := hset (k p.state) j hj
        exact hnext.trans (by rw [hk]; rfl)

/-- A thread outside of `mine` that keeps to `E`, or else ends with an error. -/
def Harmless (E : σ → σ → Prop) (last : Pool (Prog ι σ ε α) ι σ) (i : Nat) (t : Prog ι σ ε α) :
    Prop :=
  t.Within (fun s s' => E s s → E s s') ∨
    t.AllOrNothing E ∧ ∃ e, last.threads[i]? = some (.throw e)

theorem not_throw_of_sure {i : Nat} (hx : p.threads[i]? = some x)
    (ht : q.threads = p.threads.set i y) (hsure : y.Sure) (ts : List (Nat × Bool)) :
    ¬∃ e, (runs Pool.turn q ts).threads[i]? = some (.throw e) := by
  rintro ⟨e, hthrow⟩
  refine sure_runs (fun t hy => ?_) ts hthrow
  rw [ht, List.getElem?_set_self (List.getElem?_eq_some_iff.1 hx).1] at hy
  cases hy
  exact hsure

variable (hsymm : ∀ s s', E s s' → E s' s) (htrans : ∀ s s' s'', E s s' → E s' s'' → E s s'')
include hsymm htrans

/-- The turn of a harmless thread is not seen by the others. -/
theorem Alike.turn_other (h : Alike E mine p q) (hi : mine t.1 = false)
    (hharmless : ∀ x, p.threads[t.1]? = some x → Harmless E (runs Pool.turn (p.turn t) ts) t.1 x) :
    Alike E mine (p.turn t) q := by
  rcases p.turn_cases t with he | ⟨site, u, k, z, hx, hcase⟩
  · rw [he]
    exact h
  · have hthreads (y : Prog ι σ ε α) (j : Nat) (hj : mine j = true) :
        (p.threads.set t.1 y)[j]? = q.threads[j]? := by
      have hne : t.1 ≠ j := by
        rintro rfl
        rw [hi] at hj
        cases hj
      rw [List.getElem?_set_ne hne]
      exact h.threads j hj
    rcases hcase with ⟨hs, ht⟩ | ⟨hs, ht⟩
    · constructor
      · rw [hs]
        exact h.state
      · rw [ht]
        exact hthreads z
    · constructor
      · rw [hs]
        refine htrans _ _ _ (hsymm _ _ ?_) h.state
        rcases hharmless _ hx with hwithin | ⟨hall, e, hthrow⟩
        · exact hwithin.1 _ (htrans _ _ _ h.state (hsymm _ _ h.state))
        · rcases hall.1 p.state with ⟨hstep, _⟩ | hsure
          · exact hstep
          · exact absurd ⟨e, hthrow⟩ (not_throw_of_sure hx ht hsure ts)
      · rw [ht]
        exact hthreads (k p.state)

/-- The turns of harmless threads can be erased: the others do the same without them. -/
theorem runs_erase (ts : List (Nat × Bool)) (h : Alike E mine p q)
    (hmine : ∀ (i : Nat) t, mine i = true → p.threads[i]? = some t → t.Blind E)
    (hothers : ∀ (i : Nat) t, mine i = false → p.threads[i]? = some t →
      Harmless E (runs turn p ts) i t) :
    Alike E mine (runs turn p ts) (runs turn q (ts.filter fun t => mine t.1)) := by
  induction ts generalizing p q with
  | nil => exact h
  | cons t ts ih =>
    have hmine' := turn_threads (Φ := fun i x => mine i = true → x.Blind E) t
      (fun i x hx hi => hmine i x hi hx) fun site u k z x hx _ hcase hi => by
        rcases hcase with rfl | rfl
        · exact (hmine _ _ hi hx).2
        · exact ((hmine _ _ hi hx).1 _ _ (htrans _ _ _ h.state (hsymm _ _ h.state))).2.2
    have hothers' := turn_threads
      (Φ := fun i x => mine i = false → Harmless E (runs turn (p.turn t) ts) i x) t
      (fun i x hx hi => hothers i x hi hx) fun site u k z x hx hthreads hcase hi => by
        rcases hothers _ _ hi hx with hwithin | ⟨hall, hthrow⟩
        · rcases hcase with rfl | rfl
          · exact .inl hwithin.2.2
          · exact .inl (hwithin.2.1 _)
        · rcases hcase with rfl | rfl
          · exact .inr ⟨hall.2, hthrow⟩
          · rcases hall.1 p.state with ⟨_, hk⟩ | hsure
            · exact .inr ⟨hk, hthrow⟩
            · exact absurd hthrow (not_throw_of_sure hx hthreads hsure ts)
    cases hi : mine t.1 with
    | true =>
      rw [List.filter_cons_of_pos (by exact hi), runs_cons, runs_cons]
      exact ih (h.turn hi fun x hx => hmine _ x hi hx) (fun i x hi hx => hmine' i x hx hi)
        fun i x hi hx => hothers' i x hx hi
    | false =>
      rw [List.filter_cons_of_neg (by rw [hi]; decide), runs_cons]
      exact ih (h.turn_other hsymm htrans hi fun x hx => hothers _ x hi hx)
        (fun i x hi hx => hmine' i x hx hi) fun i x hi hx => hothers' i x hx hi

end Erase

end Pool
end Atomic
