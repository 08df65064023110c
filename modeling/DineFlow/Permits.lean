import DineFlow.Pool

namespace Atomic
set_option autoImplicit true

/-- Until a statement at `check` has met a state that grants it, the program stays within `R` and
returns nothing outside of `Q`. -/
def Prog.Awaits (check : ι) (grants : σ → Prop) (R : σ → σ → Prop) (Q : α → Prop) :
    Prog ι σ ε α → Prop
  | .ret a => Q a
  | .throw _ => True
  | .stmt i u k z =>
    (∀ s, R s (u s)) ∧ (∀ s, ¬(i = check ∧ grants s) → (k s).Awaits check grants R Q) ∧
      z.Awaits check grants R Q

namespace Prog

section Awaits

variable {check : ι} {grants : σ → Prop} {R : σ → σ → Prop}

theorem Awaits.bind {p : Prog ι σ ε α} {g : α → Prog ι σ ε β} (hp : p.Awaits check grants R Q)
    (hg : ∀ a, Q a → (g a).Awaits check grants R Q') : (p.bind g).Awaits check grants R Q' := by
  induction p with
  | ret a => exact hg a hp
  | throw => trivial
  | stmt i u k z ihk ihz =>
    exact ⟨hp.1, fun s hs => ihk s (hp.2.1 s hs), ihz hp.2.2⟩

theorem Within.awaits {p : Prog ι σ ε α} (hp : p.Within R) (hq : p.Returns Q) :
    p.Awaits check grants R Q := by
  induction p with
  | ret a => exact hq
  | throw => trivial
  | stmt i u k z ihk ihz =>
    exact ⟨hp.1, fun s _ => ihk s (hp.2.1 s) (hq.1 s), ihz hp.2.2 hq.2⟩

/-- The check itself: what it reads in a state that does not grant it is all that gets through. -/
theorem awaits_query {Q : α → Prop} (hR : ∀ s, R s s) {read : σ → Except ε α} {z : Except ε α}
    (h : ∀ s a, ¬grants s → read s = .ok a → Q a) (hz : ∀ a, z = .ok a → Q a) :
    (query check read z).Awaits check grants R Q := by
  refine ⟨hR, ?_, (within_ofExcept R z).awaits (returns_ofExcept hz)⟩
  intro s hs
  apply (within_ofExcept R _).awaits
  apply returns_ofExcept
  intro a ha
  exact h s a (fun hg => hs ⟨rfl, hg⟩) ha

end Awaits

end Prog

namespace Pool

/-- Along the schedule, thread `i` ran the statement at `check` in a state that grants it. -/
def Granted (next : τ → Option (ι × (σ → τ × σ))) (p : Pool τ ι σ) (is : List Nat) (i : Nat)
    (check : ι) (grants : σ → Prop) : Prop :=
  ∃ js ks, is = js ++ i :: ks ∧ (runs (step next) p js).nextSite next i = some check ∧
    grants (runs (step next) p js).state

theorem Granted.cons (h : Granted next (step next p j) is i check grants) :
    Granted next p (j :: is) i check grants := by
  obtain ⟨js, ks, rfl, hsite, hgrants⟩ := h
  exact ⟨j :: js, ks, rfl, hsite, hgrants⟩

section Runs

variable {p : Pool (Prog ι σ ε α) ι σ} {check : ι} {grants : σ → Prop} {R : σ → σ → Prop}

theorem awaits_runs (ht : p.threads[i]? = some t) (h : t.Awaits check grants R Q) (is : List Nat) :
    Granted Prog.next p is i check grants ∨
      ∃ t', (runs (step Prog.next) p is).threads[i]? = some t' ∧ t'.Awaits check grants R Q := by
  induction is generalizing p t with
  | nil => exact .inr ⟨t, ht, h⟩
  | cons j is ih =>
    by_cases hij : j = i
    · subst hij
      cases t with
      | ret a =>
        rw [runs_cons, step_ended Prog.next ht rfl]
        exact (ih ht h).imp_left fun hg => .cons (by rwa [step_ended Prog.next ht rfl])
      | throw e =>
        rw [runs_cons, step_ended Prog.next ht rfl]
        exact (ih ht h).imp_left fun hg => .cons (by rwa [step_ended Prog.next ht rfl])
      | stmt site u k z =>
        obtain ⟨-, hself, hsite⟩ := step_self Prog.next ht rfl
        by_cases hg : site = check ∧ grants p.state
        · exact .inl ⟨[], is, rfl, by rw [runs_nil, hsite, hg.1], hg.2⟩
        · exact (ih hself (h.2.1 _ hg)).imp_left Granted.cons
    · exact (ih ((step_other Prog.next p hij).trans ht) h).imp_left Granted.cons

/-- Only a thread that was granted its check takes a step outside of `R`. -/
theorem granted_of_step (ht : p.threads[i]? = some t) (h : t.Awaits check grants R Q)
    (hR : ∀ s, R s s) {is : List Nat}
    (hstep : ¬R (runs (step Prog.next) p is).state
      ((runs (step Prog.next) p is).step Prog.next i).state) :
    Granted Prog.next p is i check grants := by
  rcases awaits_runs ht h is with hg | ⟨t', ht', h'⟩
  · exact hg
  · apply absurd _ hstep
    cases t' with
    | ret a =>
      rw [step_ended Prog.next ht' rfl]
      exact hR _
    | throw e =>
      rw [step_ended Prog.next ht' rfl]
      exact hR _
    | stmt site u k z =>
      rw [(step_self Prog.next ht' rfl).1]
      exact h'.1 _

theorem granted_of_ret (ht : p.threads[i]? = some t) (h : t.Awaits check grants R Q)
    {is : List Nat} (hret : (runs (step Prog.next) p is).threads[i]? = some (.ret a))
    (ha : ¬Q a) : Granted Prog.next p is i check grants := by
  rcases awaits_runs ht h is with hg | ⟨t', ht', h'⟩
  · exact hg
  · rw [hret] at ht'
    cases ht'
    exact absurd h' ha

end Runs

end Pool
end Atomic
