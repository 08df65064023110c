import Mathlib

namespace Atomic
set_option autoImplicit true

/-- The state after a list of steps. -/
def runs (step : σ → α → σ) (s : σ) (as : List α) : σ := as.foldl step s

@[simp] theorem runs_nil (step : σ → α → σ) (s : σ) : runs step s [] = s := rfl

@[simp] theorem runs_cons (step : σ → α → σ) (s : σ) (a : α) (as : List α) :
    runs step s (a :: as) = runs step (step s a) as := rfl

/-- What every step keeps holds after every run. -/
theorem runs_keep {step : σ → α → σ} {I : σ → Prop} (keep : ∀ s a, I s → I (step s a))
    (hs : I s) (as : List α) : I (runs step s as) := by
  induction as generalizing s with
  | nil => exact hs
  | cons a as ih => exact ih (keep s a hs)

theorem runs_keep_of {step : σ → α → σ} {I : σ → Prop} {ok : α → Prop} (h : ∀ a ∈ as, ok a)
    (hs : I s) (keep : ∀ s a, I s → ok a → I (step s a)) : I (runs step s as) := by
  induction as generalizing s with
  | nil => exact hs
  | cons a as ih =>
    obtain ⟨ha, has⟩ := List.forall_mem_cons.1 h
    exact ih has (keep s a hs ha)

/-- Every step of the run meets its condition in the state it is taken from. -/
def Guarded (step : σ → α → σ) (ok : σ → α → Prop) : σ → List α → Prop
  | _, [] => True
  | s, a :: as => ok s a ∧ Guarded step ok (step s a) as

instance Guarded.decide (step : σ → α → σ) (ok : σ → α → Prop) [∀ s a, Decidable (ok s a)] :
    ∀ s as, Decidable (Guarded step ok s as)
  | _, [] => .isTrue trivial
  | s, a :: as => @instDecidableAnd _ _ _ (Guarded.decide step ok (step s a) as)

theorem Guarded.runs {step : σ → α → σ} {I : σ → Prop} (h : Guarded step ok s as) (hs : I s)
    (keep : ∀ s a, I s → ok s a → I (step s a)) : I (runs step s as) := by
  induction as generalizing s with
  | nil => exact hs
  | cons a as ih => exact ih h.2 (keep s a hs h.1)

theorem Guarded.of_prefix {step : σ → α → σ} (h : Guarded step ok s as) (hb : bs <+: as) :
    Guarded step ok s bs := by
  induction bs generalizing s as with
  | nil => trivial
  | cons b bs ih =>
    obtain ⟨t, rfl⟩ := hb
    exact ⟨h.1, ih h.2 ⟨t, rfl⟩⟩

theorem runs_append (step : σ → α → σ) (s : σ) (as bs : List α) :
    runs step s (as ++ bs) = runs step (runs step s as) bs :=
  List.foldl_append

theorem guarded_append {step : σ → α → σ} :
    Guarded step ok s (as ++ bs) ↔ Guarded step ok s as ∧ Guarded step ok (runs step s as) bs := by
  induction as generalizing s with
  | nil => exact ⟨fun h => ⟨trivial, h⟩, And.right⟩
  | cons a as ih => exact (and_congr Iff.rfl ih).trans and_assoc.symm

/-- A condition that keeps an invariant and whose violation shows at once is met all along
a run exactly when every state of the run is good. -/
theorem guarded_iff {step : σ → α → σ} {I P : σ → Prop} (hs : I s)
    (keep : ∀ s a, I s → ok s a → I (step s a)) (good : ∀ s, I s → P s)
    (bad : ∀ s a, I s → ¬ok s a → ¬P (step s a)) :
    Guarded step ok s as ↔ ∀ bs, bs <+: as → P (runs step s bs) := by
  constructor
  · intro h bs hb
    exact good _ ((h.of_prefix hb).runs hs keep)
  · intro h
    induction as generalizing s with
    | nil => trivial
    | cons a as ih =>
      have ha : ok s a := by
        by_contra hn
        exact bad s a hs hn (h [a] ⟨as, rfl⟩)
      refine ⟨ha, ih (keep s a hs ha) fun bs hb => ?_⟩
      obtain ⟨t, rfl⟩ := hb
      exact h (a :: bs) ⟨t, rfl⟩

end Atomic
