import DineFlow.Program

namespace Atomic
set_option autoImplicit true

namespace Prog

/-- From states that are alike the program ends in such states, with results related by `P`. -/
def Aligned (E : σ → σ → Prop) (P : Except ε α → Except ε α → Prop) (f : ι → Bool)
    (p : Prog ι σ ε α) : Prop :=
  ∀ s s', E s s' → P (p.run f s).1 (p.run f s').1 ∧ E (p.run f s).2 (p.run f s').2

/-- The results are the same. -/
def Respects (E : σ → σ → Prop) (f : ι → Bool) (p : Prog ι σ ε α) : Prop :=
  p.Aligned E (fun r r' => r = r') f

section Rules

variable {E : σ → σ → Prop} {f : ι → Bool} {Q : α → Prop}

theorem Returns.run {p : Prog ι σ ε α} (h : p.Returns Q) (hr : (p.run f s).1 = .ok a) : Q a := by
  induction p generalizing s with
  | ret b =>
    cases hr
    exact h
  | throw => cases hr
  | stmt i u k z ihk ihz =>
    rw [run_stmt] at hr
    split at hr
    · exact ihz h.2 hr
    · exact ihk s (h.1 s) hr

theorem Respects.bind_aligned {p : Prog ι σ ε α} {g : α → Prog ι σ ε β}
    {P : Except ε β → Except ε β → Prop} (hp : p.Respects E f) (hq : p.Returns Q)
    (hP : ∀ e, P (.error e) (.error e)) (hg : ∀ a, Q a → (g a).Aligned E P f) :
    (p.bind g).Aligned E P f := by
  intro s s' hs
  obtain ⟨hv, ht⟩ := hp s s' hs
  cases hr : (p.run f s).1 with
  | error e =>
    rw [run_bind_error (Prod.ext hr rfl), run_bind_error (Prod.ext (hv.symm.trans hr) rfl)]
    exact ⟨hP e, ht⟩
  | ok a =>
    rw [run_bind_ok (Prod.ext hr rfl), run_bind_ok (Prod.ext (hv.symm.trans hr) rfl)]
    exact hg a (hq.run hr) _ _ ht

theorem Respects.bind {p : Prog ι σ ε α} {g : α → Prog ι σ ε β} (hp : p.Respects E f)
    (hg : ∀ a, (g a).Respects E f) : (p.bind g).Respects E f :=
  hp.bind_aligned (returns_true p) (fun _ => rfl) fun a _ => hg a

end Rules

end Prog
end Atomic
