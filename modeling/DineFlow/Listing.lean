import DineFlow.Keys

namespace Relational
set_option autoImplicit true

/-- What a query shows of a table: the lines of the rows that match, in any order. -/
def shown (vis : ρ → Bool) (line : ρ → β) (rows : List ρ) : Multiset β :=
  ((rows.filter vis).map line : List β)

/-- What it shows of one row, if there is one. -/
def shownRow (vis : ρ → Bool) (line : ρ → β) (row : Option ρ) : Option β :=
  (row.filter vis).map line

/-- The rows with any other key. -/
def others [DecidableEq κ] (key : ρ → κ) (k : κ) (rows : List ρ) : List ρ :=
  rows.filter fun r => !decide (key r = k)

theorem UniqueKey.filter_eq [DecidableEq κ] {key : ρ → κ} (h : UniqueKey key rows) (k : κ) :
    rows.filter (fun r => key r = k) = (Relational.lookup key k rows).toList := by
  induction rows with
  | nil => rfl
  | cons r rows ih =>
    obtain ⟨hr, hrows⟩ := List.nodup_cons.1 h
    by_cases hk : key r = k
    · have hnil : rows.filter (fun r => key r = k) = [] := by
        rw [List.filter_eq_nil_iff]
        intro r' hr' he
        exact hr (List.mem_map.2 ⟨r', hr', (of_decide_eq_true he).trans hk.symm⟩)
      simp [Relational.lookup, hk, hnil]
    · rw [List.filter_cons_of_neg (by simpa using hk), ih hrows]
      simp [Relational.lookup, hk]

theorem shown_append (vis : ρ → Bool) (line : ρ → β) (rows rows' : List ρ) :
    shown vis line (rows ++ rows') = shown vis line rows + shown vis line rows' := by
  rw [shown, List.filter_append, List.map_append]
  rfl

theorem shown_perm (vis : ρ → Bool) (line : ρ → β) (h : rows.Perm rows') :
    shown vis line rows = shown vis line rows' :=
  Multiset.coe_eq_coe.2 ((h.filter vis).map line)

theorem UniqueKey.shown_split [DecidableEq κ] {key : ρ → κ} (h : UniqueKey key rows) (k : κ)
    (vis : ρ → Bool) (line : ρ → β) :
    shown vis line rows = shown vis line (others key k rows) +
      (shownRow vis line (Relational.lookup key k rows)).toList := by
  have hsplit : rows.Perm (others key k rows ++ rows.filter fun r => key r = k) :=
    (List.filter_append_perm (fun r => decide (key r = k)) rows).symm.trans List.perm_append_comm
  have hrow (row : Option ρ) : shown vis line row.toList = (shownRow vis line row).toList := by
    cases row with
    | none => rfl
    | some r => cases hv : vis r <;> simp [shown, shownRow, hv, Option.filter_some]
  rw [shown_perm vis line hsplit, shown_append, h.filter_eq, hrow]

/-- Tables that agree on all other keys show the same exactly if they show the same of this one. -/
theorem shown_eq_iff [DecidableEq κ] {key : ρ → κ} (h : UniqueKey key rows)
    (h' : UniqueKey key rows') (ho : others key k rows' = others key k rows) (vis : ρ → Bool)
    (line : ρ → β) :
    shown vis line rows' = shown vis line rows ↔
      shownRow vis line (lookup key k rows') = shownRow vis line (lookup key k rows) := by
  have hrow (a b : Option β) : (a.toList : Multiset β) = b.toList ↔ a = b := by
    cases a <;> cases b <;> simp
  rw [h.shown_split k, h'.shown_split k, ho, Multiset.add_right_inj, hrow]

section OneKey

variable [DecidableEq κ] {key : ρ → κ}

theorem others_snoc (rows : List ρ) (x : ρ) : others key (key x) (rows ++ [x]) =
    others key (key x) rows := by
  simp [others]

theorem lookup_snoc (h : ∀ r ∈ rows, key r ≠ key x) :
    lookup key (key x) (rows ++ [x]) = some x := by
  rw [lookup, List.find?_append, List.find?_eq_none.2 fun r hr => by simpa using h r hr]
  simp

theorem others_others (k : κ) (rows : List ρ) :
    others key k (others key k rows) = others key k rows := by
  simp [others]

theorem lookup_others (k : κ) (rows : List ρ) : lookup key k (others key k rows) = none := by
  simp [lookup, others]

theorem others_updateWhere (hg : ∀ r, key (g r) = key r) (k : κ) (rows : List ρ) :
    others key k (updateWhere key k g rows) = others key k rows := by
  induction rows with
  | nil => rfl
  | cons r rows ih =>
    simp only [others, updateWhere, List.map_cons, List.filter_cons] at ih ⊢
    by_cases hk : key r = k <;> simp [hk, hg, ih]

end OneKey

/-- Rows that are collected group by group are the rows that belong to some group. -/
theorem UniqueKey.flatMap_perm [DecidableEq κ] {key : τ → κ} (h : UniqueKey key groups)
    (ref : ρ → κ) (p : ρ → Bool) (rows : List ρ) :
    (groups.flatMap fun g => rows.filter fun r => decide (ref r = key g) && p r).Perm
      (rows.filter fun r => hasKey key groups (ref r) && p r) := by
  induction groups with
  | nil => simp [hasKey]
  | cons g groups ih =>
    obtain ⟨hg, hgroups⟩ := List.nodup_cons.1 h
    rw [List.flatMap_cons]
    refine ((ih hgroups).append_left _).trans ?_
    have hsplit := List.filter_append_perm (fun r => decide (ref r = key g))
      (rows.filter fun r => hasKey key (g :: groups) (ref r) && p r)
    refine List.Perm.trans (.of_eq ?_) hsplit
    rw [List.filter_filter, List.filter_filter]
    congr 1
    · apply List.filter_congr
      intro r _
      by_cases hr : ref r = key g <;> simp [hasKey, hr]
    · apply List.filter_congr
      intro r _
      by_cases hr : ref r = key g
      · have hno : hasKey key groups (key g) = false := by
          rw [Bool.eq_false_iff]
          intro hk
          obtain ⟨g', hg', he⟩ := hasKey_iff.1 hk
          exact hg (List.mem_map.2 ⟨g', hg', he⟩)
        simp [hr, hno]
      · simp [hasKey, hr, Ne.symm hr]

end Relational
