import DineFlow.Listing

namespace Relational
set_option autoImplicit true

section Pages

variable [LinearOrder κ] {key : ρ → κ}

/-- The rows in an order by their keys; rows that tie stand in any order. -/
structure IsOrdering (key : ρ → κ) (rows s : List ρ) : Prop where
  perm : s.Perm rows
  sorted : s.Pairwise fun a b => key a ≤ key b

/-- How many rows come before all rows that tie with this one. -/
def rowsBelow (key : ρ → κ) (rows : List ρ) (r : ρ) : Nat := rows.countP fun x => key x < key r

/-- How many rows come before it or tie with it. -/
def rowsUpTo (key : ρ → κ) (rows : List ρ) (r : ρ) : Nat := rows.countP fun x => key x ≤ key r

def chunk (L k : Nat) (s : List ρ) : List ρ := (s.drop (k * L)).take L

/-- No rows that tie fall on different pages. -/
def Unsplit (key : ρ → κ) (L : Nat) (rows : List ρ) : Prop :=
  ∀ r ∈ rows, rowsBelow key rows r / L = (rowsUpTo key rows r - 1) / L

instance Unsplit.decidable (key : ρ → κ) (L : Nat) (rows : List ρ) :
    Decidable (Unsplit key L rows) :=
  inferInstanceAs (Decidable (∀ r ∈ rows, _))

theorem IsOrdering.place (h : IsOrdering key rows (l₁ ++ r :: l₂)) :
    rowsBelow key rows r ≤ l₁.length ∧ l₁.length < rowsUpTo key rows r := by
  obtain ⟨_, hright, hleft⟩ := List.pairwise_append.1 h.sorted
  have hafter := (List.pairwise_cons.1 hright).1
  rw [rowsBelow, rowsUpTo, ← h.perm.countP_eq, ← h.perm.countP_eq, List.countP_append,
    List.countP_append]
  constructor
  · have hnone : (r :: l₂).countP (fun x => key x < key r) = 0 := by
      rw [List.countP_eq_zero]
      intro x hx
      rcases List.mem_cons.1 hx with rfl | hx
      · simp
      · simpa using hafter x hx
    rw [hnone]
    exact List.countP_le_length
  · have hall : l₁.countP (fun x => key x ≤ key r) = l₁.length := by
      rw [List.countP_eq_length]
      intro x hx
      simpa using hleft x hx r List.mem_cons_self
    rw [hall, List.countP_cons_of_pos (by simp)]
    omega

theorem IsOrdering.page (h : IsOrdering key rows (l₁ ++ r :: l₂)) (hu : Unsplit key L rows) :
    rowsBelow key rows r / L = l₁.length / L := by
  have hr : r ∈ rows := h.perm.mem_iff.1 (List.mem_append_right _ List.mem_cons_self)
  obtain ⟨hlow, hhigh⟩ := h.place
  apply Nat.le_antisymm
  · exact Nat.div_le_div_right hlow
  · rw [hu r hr]
    exact Nat.div_le_div_right (Nat.le_sub_one_of_lt hhigh)

theorem mem_segment (h : x ∈ (List.drop n s).take m) :
    ∃ l₁ l₂, s = l₁ ++ x :: l₂ ∧ n ≤ l₁.length ∧ l₁.length < n + m := by
  obtain ⟨a, b, hab⟩ := List.append_of_mem h
  have hdrop : s.drop n = a ++ x :: (b ++ (s.drop n).drop m) := by
    rw [← List.cons_append, ← List.append_assoc, ← hab, List.take_append_drop]
  have hle : a.length + (b.length + 1) ≤ m := by
    have hlen := congrArg List.length hab
    rw [List.length_append, List.length_cons] at hlen
    exact hlen ▸ List.length_take_le m _
  have hn : n ≤ s.length := by
    by_contra hlt
    rw [List.drop_eq_nil_of_le (by omega)] at h
    simp at h
  refine ⟨s.take n ++ a, b ++ (s.drop n).drop m, ?_, ?_, ?_⟩
  · rw [List.append_assoc, ← hdrop, List.take_append_drop]
  · rw [List.length_append, List.length_take_of_le hn]
    omega
  · rw [List.length_append, List.length_take_of_le hn]
    omega

theorem chunk_eq_filter (hL : 0 < L) (g : ρ → Nat)
    (h : ∀ l₁ x l₂, s = l₁ ++ x :: l₂ → g x = l₁.length / L) (k : Nat) :
    chunk L k s = s.filter fun x => g x = k := by
  have hparts : s = s.take (k * L) ++ (chunk L k s ++ (s.drop (k * L)).drop L) := by
    rw [chunk, List.take_append_drop, List.take_append_drop]
  have hpage (n m : Nat) {x : ρ} (hx : x ∈ (s.drop n).take m) :
      ∃ i, g x = i / L ∧ n ≤ i ∧ i < n + m := by
    obtain ⟨l₁, l₂, hs, hlow, hhigh⟩ := mem_segment hx
    exact ⟨l₁.length, h l₁ x l₂ hs, hlow, hhigh⟩
  have hbefore : (s.take (k * L)).filter (fun x => g x = k) = [] := by
    rw [List.filter_eq_nil_iff]
    intro x hx he
    obtain ⟨i, hg, _, hi⟩ := hpage 0 (k * L) hx
    have hlt : i / L < k := Nat.div_lt_of_lt_mul (by rw [Nat.mul_comm]; omega)
    exact absurd (of_decide_eq_true he) (by omega)
  have hinside : (chunk L k s).filter (fun x => g x = k) = chunk L k s := by
    rw [List.filter_eq_self]
    intro x hx
    obtain ⟨i, hg, hlow, hhigh⟩ := hpage (k * L) L hx
    rw [decide_eq_true_eq, hg]
    exact Nat.div_eq_of_lt_le hlow (by rw [Nat.succ_mul]; exact hhigh)
  have hafter : ((s.drop (k * L)).drop L).filter (fun x => g x = k) = [] := by
    rw [List.filter_eq_nil_iff]
    intro x hx he
    rw [List.drop_drop] at hx
    obtain ⟨i, hg, hi, _⟩ := hpage (k * L + L) s.length
      (by rwa [List.take_of_length_le (by rw [List.length_drop]; omega)])
    have hle : k + 1 ≤ i / L := (Nat.le_div_iff_mul_le hL).2 (by rw [Nat.succ_mul]; exact hi)
    exact absurd (of_decide_eq_true he) (by omega)
  conv_rhs => rw [hparts, List.filter_append, List.filter_append, hbefore, hinside, hafter]
  rw [List.nil_append, List.append_nil]

/-- Unless ties are split, the pages hold the same rows whatever the order of the ties is. -/
theorem Unsplit.pages_perm (hu : Unsplit key L rows) (hL : 0 < L) {s : Nat → List ρ}
    (hs : ∀ k, IsOrdering key rows (s k)) :
    ((List.range (rows.length / L + 1)).flatMap fun k => chunk L k (s k)).Perm rows := by
  have hpage (k : Nat) : (chunk L k (s k)).Perm
      (rows.filter fun r => decide (rowsBelow key rows r / L = k) && true) := by
    rw [chunk_eq_filter hL (fun r => rowsBelow key rows r / L) fun l₁ x l₂ he => ?_]
    · simpa using (hs k).perm.filter _
    · exact (he ▸ hs k).page hu
  have hkeys : UniqueKey (fun k : Nat => k) (List.range (rows.length / L + 1)) := by
    rw [UniqueKey, List.map_id']
    exact List.nodup_range
  refine (List.Perm.flatMap_left _ fun k _ => hpage k).trans
    ((hkeys.flatMap_perm (fun r => rowsBelow key rows r / L) (fun _ => true) rows).trans ?_)
  rw [List.filter_eq_self.2]
  intro r hr
  rw [Bool.and_true, hasKey_iff]
  refine ⟨_, List.mem_range.2 (Nat.lt_succ_of_le (Nat.div_le_div_right ?_)), rfl⟩
  exact List.countP_le_length

theorem length_ties (key : ρ → κ) (rows : List ρ) (r : ρ) :
    rowsUpTo key rows r = rowsBelow key rows r + (rows.filter fun x => key x = key r).length := by
  rw [← List.countP_eq_length_filter, rowsUpTo, rowsBelow]
  induction rows with
  | nil => rfl
  | cons x rows ih =>
    simp only [List.countP_cons, ih, decide_eq_true_eq]
    rcases lt_trichotomy (key x) (key r) with hlt | heq | hgt
    · rw [if_pos hlt.le, if_pos hlt, if_neg hlt.ne]
      omega
    · rw [if_pos heq.le, if_neg heq.not_lt, if_pos heq]
      omega
    · rw [if_neg (not_le.2 hgt), if_neg hgt.not_gt, if_neg hgt.ne']
      omega

theorem partition_perm (rows : List ρ) (r : ρ) :
    ((rows.filter fun x => key x < key r) ++ ((rows.filter fun x => key x = key r) ++
      rows.filter fun x => key r < key x)).Perm rows := by
  have hrest := List.filter_append_perm (fun x => decide (key x = key r))
    (rows.filter fun x => !decide (key x < key r))
  refine List.Perm.trans (List.Perm.append_left _ ?_)
    (List.filter_append_perm (fun x => decide (key x < key r)) rows)
  refine List.Perm.trans (.of_eq ?_) hrest
  rw [List.filter_filter, List.filter_filter]
  congr 1
  · apply List.filter_congr
    intro x _
    by_cases hx : key x = key r <;> simp [hx]
  · apply List.filter_congr
    intro x _
    rcases lt_trichotomy (key x) (key r) with hlt | heq | hgt
    · simp [hlt, hlt.not_gt]
    · simp [heq]
    · simp [hgt, hgt.ne', hgt.not_gt]

theorem IsOrdering.of_parts {low middle high : List ρ}
    (hlow : IsOrdering key (rows.filter fun x => key x < key r) low)
    (hmiddle : middle.Perm (rows.filter fun x => key x = key r))
    (hhigh : IsOrdering key (rows.filter fun x => key r < key x) high) :
    IsOrdering key rows (low ++ (middle ++ high)) := by
  have htie (x : ρ) (hx : x ∈ middle) : key x = key r :=
    of_decide_eq_true (List.mem_filter.1 (hmiddle.mem_iff.1 hx)).2
  have hbelow (x : ρ) (hx : x ∈ low) : key x < key r :=
    of_decide_eq_true (List.mem_filter.1 (hlow.perm.mem_iff.1 hx)).2
  have habove (x : ρ) (hx : x ∈ high) : key r < key x :=
    of_decide_eq_true (List.mem_filter.1 (hhigh.perm.mem_iff.1 hx)).2
  refine ⟨(hlow.perm.append (hmiddle.append hhigh.perm)).trans (partition_perm rows r), ?_⟩
  refine List.pairwise_append.2 ⟨hlow.sorted, List.pairwise_append.2 ⟨?_, hhigh.sorted, ?_⟩, ?_⟩
  · refine List.pairwise_of_forall_mem_list fun x hx y hy => ?_
    rw [htie x hx, htie y hy]
  · intro x hx y hy
    rw [htie x hx]
    exact (habove y hy).le
  · intro x hx y hy
    rcases List.mem_append.1 hy with hy | hy
    · rw [htie y hy]
      exact (hbelow x hx).le
    · exact ((hbelow x hx).trans (habove y hy)).le

theorem isOrdering_insertionSort (key : ρ → κ) (rows : List ρ) :
    IsOrdering key rows (rows.insertionSort fun a b => key a ≤ key b) := by
  have htotal : Std.Total fun a b : ρ => key a ≤ key b := ⟨fun a b => le_total _ _⟩
  have htrans : IsTrans ρ fun a b => key a ≤ key b := ⟨fun _ _ _ => le_trans⟩
  exact ⟨List.perm_insertionSort _ _, List.pairwise_insertionSort _ _⟩

theorem exists_ordering (hr : r ∈ rows) (hlow : rowsBelow key rows r ≤ j)
    (hhigh : j < rowsUpTo key rows r) :
    ∃ l₁ l₂, IsOrdering key rows (l₁ ++ r :: l₂) ∧ l₁.length = j := by
  have hmem : r ∈ rows.filter fun x => key x = key r :=
    List.mem_filter.2 ⟨hr, decide_eq_true rfl⟩
  obtain ⟨t₁, t₂, hties⟩ := List.append_of_mem hmem
  obtain ⟨low, hsorted⟩ : ∃ low, IsOrdering key (rows.filter fun x => key x < key r) low :=
    ⟨_, isOrdering_insertionSort key _⟩
  have hlowLen : low.length = rowsBelow key rows r := by
    rw [hsorted.perm.length_eq, rowsBelow, List.countP_eq_length_filter]
  have hlen : rowsUpTo key rows r = rowsBelow key rows r + (t₁ ++ t₂).length + 1 := by
    rw [length_ties, hties, List.length_append, List.length_append, List.length_cons]
    omega
  let n := j - rowsBelow key rows r
  have hmiddle : ((t₁ ++ t₂).take n ++ r :: (t₁ ++ t₂).drop n).Perm
      (rows.filter fun x => key x = key r) := by
    rw [hties]
    refine List.perm_middle.trans ?_
    rw [List.take_append_drop]
    exact List.perm_middle.symm
  have hordering := IsOrdering.of_parts hsorted hmiddle
    (isOrdering_insertionSort key (rows.filter fun x => key r < key x))
  rw [List.append_assoc, List.cons_append, ← List.append_assoc] at hordering
  refine ⟨_, _, hordering, ?_⟩
  rw [List.length_append, hlowLen, List.length_take_of_le (by omega)]
  omega

theorem mem_chunk (h : l₁.length / L = k) (hL : 0 < L) (r : ρ) (l₂ : List ρ) :
    r ∈ chunk L k (l₁ ++ r :: l₂) := by
  have hlow : k * L ≤ l₁.length := h ▸ Nat.div_mul_le_self _ _
  have hhigh : l₁.length < k * L + L := by
    have hlt := Nat.lt_div_mul_add hL (a := l₁.length)
    rwa [h] at hlt
  apply List.mem_of_getElem? (i := l₁.length - k * L)
  rw [chunk, List.getElem?_take_of_lt (by omega), List.getElem?_drop, Nat.add_sub_cancel' hlow,
    List.getElem?_append_right le_rfl, Nat.sub_self]
  rfl

/-- Where ties are split, some row can be on two pages. -/
theorem exists_twice (hL : 0 < L) (hu : ¬Unsplit key L rows) :
    ∃ r k k', k < k' ∧ k' ≤ rows.length / L ∧ ∃ s s', IsOrdering key rows s ∧
      IsOrdering key rows s' ∧ r ∈ chunk L k s ∧ r ∈ chunk L k' s' := by
  rw [Unsplit] at hu
  push Not at hu
  obtain ⟨r, hr, hne⟩ := hu
  have hlen := length_ties key rows r
  have hpos : 0 < (rows.filter fun x => key x = key r).length :=
    List.length_pos_of_mem (List.mem_filter.2 ⟨hr, decide_eq_true rfl⟩)
  obtain ⟨l₁, l₂, hs, hl⟩ := exists_ordering hr (le_refl (rowsBelow key rows r)) (by omega)
  have hlast : rowsBelow key rows r ≤ rowsUpTo key rows r - 1 := by omega
  obtain ⟨l₁', l₂', hs', hl'⟩ := exists_ordering hr hlast (by omega)
  have hle : rowsUpTo key rows r - 1 ≤ rows.length :=
    (Nat.sub_le _ _).trans List.countP_le_length
  have hlt : rowsBelow key rows r / L < (rowsUpTo key rows r - 1) / L :=
    lt_of_le_of_ne (Nat.div_le_div_right hlast) hne
  exact ⟨r, _, _, hlt, Nat.div_le_div_right hle, _, _, hs, hs',
    mem_chunk (congrArg (· / L) hl) hL r l₂, mem_chunk (congrArg (· / L) hl') hL r l₂'⟩

/-- Pages of rows that may tie in any order are complete exactly if no ties are split. -/
theorem pages_perm_iff (hL : 0 < L) (view : ρ → β) (hn : (rows.map view).Nodup) :
    (∀ s : Nat → List ρ, (∀ k, IsOrdering key rows (s k)) →
      ((List.range (rows.length / L + 1)).flatMap fun k => (chunk L k (s k)).map view).Perm
        (rows.map view)) ↔ Unsplit key L rows := by
  constructor
  · intro hall
    by_contra hu
    obtain ⟨r, k, k', hlt, hk', s, s', hs, hs', hr, hr'⟩ := exists_twice hL hu
    have hperm := hall (fun i => if i = k then s else s') fun i => by
      split
      · exact hs
      · exact hs'
    have hdisjoint := (List.nodup_flatMap.1 (hperm.nodup_iff.2 hn)).2
    have hpair := List.pairwise_iff_getElem.1 hdisjoint k k' (by simp; omega) (by simp; omega) hlt
    simp only [List.getElem_range, Function.onFun, if_pos, if_neg hlt.ne'] at hpair
    exact hpair (List.mem_map_of_mem hr) (List.mem_map_of_mem hr')
  · intro hu s hs
    have hperm := (hu.pages_perm hL hs).map view
    rwa [List.map_flatMap] at hperm

end Pages

end Relational
