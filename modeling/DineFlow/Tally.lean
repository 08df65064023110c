import Mathlib

namespace Tally
set_option autoImplicit true

/-- What happens to a table of running tallies. -/
inductive Act (κ α : Type) where
  | add (k : κ) (a : α)
  | drop (k : κ)
  | clear

section Windows

variable {κ α : Type} [DecidableEq κ]

def windowStep (k : κ) (acc : List (Nat × α)) : Act κ α × Nat → List (Nat × α)
  | (.add k' a, n) => if k' = k then acc ++ [(n, a)] else acc
  | (.drop k', _) => if k' = k then [] else acc
  | (.clear, _) => []

/-- What was added under a key since it was last dropped or everything was cleared, with the
positions of these additions in the history. -/
def window (k : κ) (es : List (Act κ α)) : List (Nat × α) :=
  es.zipIdx.foldl (windowStep k) []

/-- The additions alone. -/
def tallied (k : κ) (es : List (Act κ α)) : List α := (window k es).map Prod.snd

/-- Of two keys that are in use, the first has been in use for longer. -/
def Before (es : List (Act κ α)) (k k' : κ) : Prop :=
  ∀ x ∈ (window k es).head?, ∀ y ∈ (window k' es).head?, x.1 < y.1

theorem window_snoc (k : κ) (es : List (Act κ α)) (e : Act κ α) :
    window k (es ++ [e]) = windowStep k (window k es) (e, es.length) := by
  rw [window, List.zipIdx_append, List.foldl_append, Nat.zero_add]
  rfl

theorem window_add_same (k : κ) (a : α) (es : List (Act κ α)) :
    window k (es ++ [.add k a]) = window k es ++ [(es.length, a)] := by
  rw [window_snoc, windowStep, if_pos rfl]

theorem window_add_other (h : k' ≠ k) (a : α) (es : List (Act κ α)) :
    window k (es ++ [.add k' a]) = window k es := by
  rw [window_snoc, windowStep, if_neg h]

theorem window_drop_same (k : κ) (es : List (Act κ α)) : window k (es ++ [.drop k]) = [] := by
  rw [window_snoc, windowStep, if_pos rfl]

theorem window_drop_other (h : k' ≠ k) (es : List (Act κ α)) :
    window k (es ++ [.drop k']) = window k es := by
  rw [window_snoc, windowStep, if_neg h]

theorem window_clear (k : κ) (es : List (Act κ α)) : window k (es ++ [.clear]) = [] := by
  rw [window_snoc, windowStep]

theorem window_lt (k : κ) (es : List (Act κ α)) : ∀ x ∈ window k es, x.1 < es.length := by
  induction es using List.reverseRecOn with
  | nil => exact fun x hx => absurd hx List.not_mem_nil
  | append_singleton es e ih =>
    have hold : ∀ x ∈ window k es, x.1 < (es ++ [e]).length := by
      intro x hx
      have hlt := ih x hx
      rw [List.length_append]
      omega
    rw [window_snoc]
    cases e with
    | clear => exact fun x hx => absurd hx List.not_mem_nil
    | drop k' =>
      rw [windowStep]
      split
      · exact fun x hx => absurd hx List.not_mem_nil
      · exact hold
    | add k' a =>
      rw [windowStep]
      split
      · intro x hx
        rcases List.mem_append.1 hx with hx | hx
        · exact hold x hx
        · rw [List.mem_singleton.1 hx, List.length_append]
          exact Nat.lt_succ_self _
      · exact hold

def standingStep (acc : List (κ × α)) : Act κ α → List (κ × α)
  | .add k a => acc ++ [(k, a)]
  | .drop k => acc.filter fun p => p.1 ≠ k
  | .clear => []

/-- The additions that nothing has dropped or cleared since. -/
def standing (es : List (Act κ α)) : List (κ × α) := es.foldl standingStep []

theorem tallied_eq_standing (k : κ) (es : List (Act κ α)) :
    tallied k es = ((standing es).filter fun p => p.1 = k).map Prod.snd := by
  induction es using List.reverseRecOn with
  | nil => rfl
  | append_singleton es e ih =>
    rw [standing, List.foldl_append, ← standing]
    cases e with
    | add k' a =>
      simp only [List.foldl_cons, List.foldl_nil, standingStep, List.filter_append, List.map_append]
      rw [← ih]
      by_cases hk : k' = k
      · subst hk
        simp [tallied, window_add_same]
      · simp [tallied, window_add_other hk, hk]
    | drop k' =>
      simp only [List.foldl_cons, List.foldl_nil, standingStep, List.filter_filter]
      by_cases hk : k' = k
      · subst hk
        simp [tallied, window_drop_same]
      · rw [tallied, window_drop_other hk, ← tallied, ih]
        congr 1
        refine List.filter_congr fun p _ => ?_
        by_cases hp : p.1 = k
        · simp [hp, Ne.symm hk]
        · simp [hp]
    | clear => rw [tallied, window_clear]; rfl

theorem window_ne_nil_iff (k : κ) (es : List (Act κ α)) :
    window k es ≠ [] ↔ k ∈ (standing es).map Prod.fst := by
  have hwindow : window k es ≠ [] ↔ tallied k es ≠ [] := by simp [tallied]
  rw [hwindow, tallied_eq_standing]
  simp

end Windows

/-- A table of lines: the line of a key is changed in place, or a new one goes to the end. -/
def merge [DecidableEq κ] (key : β → κ) (k : κ) (new : β) (more : β → β) : List β → List β
  | [] => [new]
  | l :: ls => if key l = k then more l :: ls else l :: merge key k new more ls

section Merging

variable [DecidableEq κ] {key : β → κ} {new : β} {more : β → β} {ls : List β}

theorem merge_fresh (h : k ∉ ls.map key) : merge key k new more ls = ls ++ [new] := by
  induction ls with
  | nil => rfl
  | cons l ls ih =>
    rw [List.map_cons, List.mem_cons, not_or] at h
    rw [merge, if_neg fun he => h.1 he.symm, ih h.2]
    rfl

theorem map_key_merge (hmore : ∀ l, key (more l) = key l) (h : k ∈ ls.map key) :
    (merge key k new more ls).map key = ls.map key := by
  induction ls with
  | nil => cases h
  | cons l ls ih =>
    rw [merge]
    split
    · rw [List.map_cons, List.map_cons, hmore]
    · rename_i hne
      rw [List.map_cons, List.map_cons,
        ih ((List.mem_cons.1 h).resolve_left fun he => hne he.symm)]

theorem mem_merge (hn : (ls.map key).Nodup) (h : k ∈ ls.map key)
    (hl : l ∈ merge key k new more ls) :
    (l ∈ ls ∧ key l ≠ k) ∨ ∃ l' ∈ ls, key l' = k ∧ l = more l' := by
  induction ls with
  | nil => cases h
  | cons x ls ih =>
    rw [List.map_cons, List.nodup_cons] at hn
    rw [merge] at hl
    split at hl
    · rename_i hx
      rcases List.mem_cons.1 hl with rfl | hl
      · exact .inr ⟨x, List.mem_cons_self, hx, rfl⟩
      · refine .inl ⟨List.mem_cons_of_mem _ hl, fun he => hn.1 ?_⟩
        rw [hx, ← he]
        exact List.mem_map_of_mem hl
    · rename_i hx
      rcases List.mem_cons.1 hl with rfl | hl
      · exact .inl ⟨List.mem_cons_self, hx⟩
      · have hk := (List.mem_cons.1 h).resolve_left fun he => hx he.symm
        rcases ih hn.2 hk hl with ⟨hl, hne⟩ | ⟨l', hl', he⟩
        · exact .inl ⟨List.mem_cons_of_mem _ hl, hne⟩
        · exact .inr ⟨l', List.mem_cons_of_mem _ hl', he⟩

end Merging

/-- The table holds one line for every key in use, in the order in which they came into use, and
each line is what its additions make of it. -/
structure Represents [DecidableEq κ] (key : β → κ) (Holds : List α → β → Prop)
    (es : List (Act κ α)) (ls : List β) : Prop where
  distinct : (ls.map key).Nodup
  used : ∀ k, k ∈ ls.map key ↔ window k es ≠ []
  holds : ∀ l ∈ ls, Holds (tallied (key l) es) l
  ordered : (ls.map key).Pairwise (Before es)

section Histories

variable [DecidableEq κ] {key : β → κ} {Holds : List α → β → Prop} {es : List (Act κ α)}
variable {ls : List β}

theorem Before.congr (h : Before es k k') (hk : (window k es').head? = (window k es).head?)
    (hk' : (window k' es').head? = (window k' es).head?) : Before es' k k' := by
  rw [Before, hk, hk']
  exact h

theorem Represents.nil (key : β → κ) (Holds : List α → β → Prop) :
    Represents key Holds [] [] where
  distinct := List.nodup_nil
  used := fun _ => ⟨fun h => absurd h List.not_mem_nil, fun h => absurd rfl h⟩
  holds := fun _ hl => absurd hl List.not_mem_nil
  ordered := .nil

theorem Represents.clear (key : β → κ) (Holds : List α → β → Prop) (es : List (Act κ α)) :
    Represents key Holds (es ++ [.clear]) [] where
  distinct := List.nodup_nil
  used := fun k => ⟨fun h => absurd h List.not_mem_nil, fun h => absurd (window_clear k es) h⟩
  holds := fun _ hl => absurd hl List.not_mem_nil
  ordered := .nil

theorem Represents.map (h : Represents key Holds es ls) (g : β → β) (hkey : ∀ l, key (g l) = key l)
    (hholds : ∀ as l, Holds as l → Holds as (g l)) : Represents key Holds es (ls.map g) := by
  have hkeys : (ls.map g).map key = ls.map key := by
    rw [List.map_map]
    exact List.map_congr_left fun l _ => hkey l
  refine ⟨hkeys ▸ h.distinct, hkeys ▸ h.used, ?_, hkeys ▸ h.ordered⟩
  intro l hl
  obtain ⟨l', hl', rfl⟩ := List.mem_map.1 hl
  rw [hkey]
  exact hholds _ l' (h.holds l' hl')

theorem Represents.drop (h : Represents key Holds es ls) (k : κ) :
    Represents key Holds (es ++ [.drop k]) (ls.filter fun l => key l ≠ k) := by
  have hkeys : (ls.filter fun l => key l ≠ k).map key = (ls.map key).filter fun k' => k' ≠ k := by
    rw [List.filter_map]
    rfl
  constructor
  · rw [hkeys]
    exact h.distinct.filter _
  · intro k'
    rw [hkeys, List.mem_filter, h.used, decide_eq_true_eq]
    by_cases hk : k = k'
    · subst hk
      simp [window_drop_same]
    · rw [window_drop_other hk]
      exact ⟨fun hu => hu.1, fun hu => ⟨hu, fun he => hk he.symm⟩⟩
  · intro l hl
    obtain ⟨hl, hne⟩ := List.mem_filter.1 hl
    rw [tallied, window_drop_other fun he => of_decide_eq_true hne he.symm]
    exact h.holds l hl
  · rw [hkeys]
    refine (h.ordered.filter _).imp_of_mem fun {k₁ k₂} h₁ h₂ hb => ?_
    have hne₁ : k ≠ k₁ := fun he => of_decide_eq_true (List.mem_filter.1 h₁).2 he.symm
    have hne₂ : k ≠ k₂ := fun he => of_decide_eq_true (List.mem_filter.1 h₂).2 he.symm
    exact hb.congr (by rw [window_drop_other hne₁]) (by rw [window_drop_other hne₂])

theorem head_window_add (h : window k es ≠ []) (k' : κ) (a : α) :
    (window k (es ++ [.add k' a])).head? = (window k es).head? := by
  by_cases hk : k' = k
  · subst hk
    rw [window_add_same, List.head?_append_of_ne_nil _ h]
  · rw [window_add_other hk]

theorem Represents.add_used (h : Represents key Holds es ls) {new : β} {more : β → β}
    (hk : key new ∈ ls.map key) (hmore : ∀ l, key (more l) = key l)
    (hholds : ∀ as l, Holds as l → Holds (as ++ [a]) (more l)) :
    Represents key Holds (es ++ [.add (key new) a]) (merge key (key new) new more ls) := by
  have hkeys : (merge key (key new) new more ls).map key = ls.map key := map_key_merge hmore hk
  constructor
  · exact hkeys ▸ h.distinct
  · intro k
    rw [hkeys, h.used]
    by_cases he : key new = k
    · subst he
      rw [window_add_same]
      simpa using (h.used _).1 hk
    · rw [window_add_other he]
  · intro l hl
    rcases mem_merge h.distinct hk hl with ⟨hl, hne⟩ | ⟨l', hl', he, rfl⟩
    · rw [tallied, window_add_other hne.symm]
      exact h.holds l hl
    · rw [hmore, tallied, he, window_add_same, List.map_append, ← he]
      exact hholds _ _ (h.holds l' hl')
  · rw [hkeys]
    refine h.ordered.imp_of_mem fun {k₁ k₂} h₁ h₂ hb => ?_
    exact hb.congr (head_window_add ((h.used k₁).1 h₁) _ a)
      (head_window_add ((h.used k₂).1 h₂) _ a)

theorem Represents.add_fresh (h : Represents key Holds es ls) {new : β}
    (hk : key new ∉ ls.map key) (hnew : Holds [a] new) :
    Represents key Holds (es ++ [.add (key new) a]) (ls ++ [new]) := by
  have hempty : window (key new) es = [] := by
    by_contra hne
    exact hk ((h.used _).2 hne)
  have hself : window (key new) (es ++ [.add (key new) a]) = [(es.length, a)] := by
    rw [window_add_same, hempty]
    rfl
  have hother : ∀ k ∈ ls.map key, window k (es ++ [.add (key new) a]) = window k es := by
    intro k hmem
    apply window_add_other
    rintro rfl
    exact hk hmem
  constructor
  · rw [List.map_append]
    exact h.distinct.append (List.nodup_singleton _) (List.disjoint_singleton.2 hk)
  · intro k
    rw [List.map_append, List.mem_append, h.used]
    by_cases he : key new = k
    · subst he
      simp [hself]
    · rw [window_add_other he, List.map_singleton, List.mem_singleton]
      exact or_iff_left fun hk' => he hk'.symm
  · intro l hl
    rcases List.mem_append.1 hl with hl | hl
    · rw [tallied, hother _ (List.mem_map_of_mem hl)]
      exact h.holds l hl
    · rw [List.mem_singleton.1 hl, tallied, hself]
      exact hnew
  · rw [List.map_append]
    refine List.pairwise_append.2 ⟨?_, List.pairwise_singleton _ _, ?_⟩
    · refine h.ordered.imp_of_mem fun {k₁ k₂} h₁ h₂ hb => ?_
      exact hb.congr (by rw [hother k₁ h₁]) (by rw [hother k₂ h₂])
    · intro k hmem k' hk' x hx y hy
      rw [List.mem_singleton.1 hk', hself] at hy
      rw [hother k hmem] at hx
      cases hy
      exact window_lt k es x (List.mem_of_mem_head? hx)

theorem Represents.add (h : Represents key Holds es ls) {new : β} {more : β → β}
    (hnew : Holds [a] new) (hmore : ∀ l, key (more l) = key l)
    (hholds : ∀ as l, Holds as l → Holds (as ++ [a]) (more l)) :
    Represents key Holds (es ++ [.add (key new) a]) (merge key (key new) new more ls) := by
  by_cases hk : key new ∈ ls.map key
  · exact h.add_used hk hmore hholds
  · rw [merge_fresh hk]
    exact h.add_fresh hk hnew

end Histories

section Keys

variable [DecidableEq κ] {key : β → κ} {Holds : List α → β → Prop} {es : List (Act κ α)}

theorem eraseDups_snoc (ks : List κ) (k : κ) :
    (ks ++ [k]).eraseDups = if k ∈ ks then ks.eraseDups else ks.eraseDups ++ [k] := by
  rw [List.eraseDups_append, List.removeAll]
  split
  · simp [*]
  · simp [*, List.eraseDups_cons]

theorem eraseDups_filter (p : κ → Bool) (ks : List κ) :
    (ks.filter p).eraseDups = ks.eraseDups.filter p := by
  induction ks using List.reverseRecOn with
  | nil => rfl
  | append_singleton ks k ih =>
    rw [List.filter_append, eraseDups_snoc]
    by_cases hp : p k
    · rw [List.filter_cons_of_pos hp, List.filter_nil, eraseDups_snoc, ih]
      by_cases hk : k ∈ ks
      · rw [if_pos (List.mem_filter.2 ⟨hk, hp⟩), if_pos hk]
      · rw [if_neg fun h => hk (List.mem_filter.1 h).1, if_neg hk, List.filter_append,
          List.filter_cons_of_pos hp, List.filter_nil]
    · rw [List.filter_cons_of_neg hp, List.filter_nil, List.append_nil, ih]
      split
      · rfl
      · rw [List.filter_append, List.filter_cons_of_neg hp, List.filter_nil, List.append_nil]

/-- The keys of additions, in the order in which they were first added. -/
def keys (added : List (κ × α)) : List κ := (added.map Prod.fst).eraseDups

theorem keys_add (added : List (κ × α)) (k : κ) (a : α) :
    keys (standingStep added (.add k a)) = merge id k k id (keys added) := by
  rw [standingStep, keys, List.map_append, List.map_singleton, eraseDups_snoc]
  split
  · rename_i hk
    have hmem : k ∈ (keys added).map id := by
      rw [List.map_id]
      exact List.mem_eraseDups.2 hk
    have hkept : (merge id k k id (keys added)).map id = (keys added).map id :=
      map_key_merge (fun _ => rfl) hmem
    rw [List.map_id, List.map_id] at hkept
    exact hkept.symm
  · rename_i hk
    refine (merge_fresh ?_).symm
    rw [List.map_id]
    exact fun h => hk (List.mem_eraseDups.1 h)

theorem keys_drop (added : List (κ × α)) (k : κ) :
    keys (standingStep added (.drop k)) = (keys added).filter fun k' => id k' ≠ k := by
  rw [standingStep, keys, keys, ← eraseDups_filter, List.filter_map]
  rfl

/-- The keys in use are a table of their own. -/
theorem represents_keys (es : List (Act κ α)) :
    Represents id (fun _ _ => True) es (keys (standing es)) := by
  induction es using List.reverseRecOn with
  | nil => exact .nil _ _
  | append_singleton es e ih =>
    rw [standing, List.foldl_append, ← standing]
    cases e with
    | add k a =>
      rw [List.foldl_cons, List.foldl_nil, keys_add]
      exact ih.add trivial (fun _ => rfl) fun _ _ _ => trivial
    | drop k =>
      rw [List.foldl_cons, List.foldl_nil, keys_drop]
      exact ih.drop k
    | clear => exact .clear _ _ _

theorem Before.asymm (h : Before es k k') (h' : Before es k' k) (hk : window k es ≠ [])
    (hk' : window k' es ≠ []) : False := by
  have hlt := h _ (List.head_mem_head? hk) _ (List.head_mem_head? hk')
  exact lt_asymm hlt (h' _ (List.head_mem_head? hk') _ (List.head_mem_head? hk))

theorem Represents.keys_eq (h : Represents key Holds es ls) :
    ls.map key = keys (standing es) := by
  have hkeys := represents_keys es
  have hlist := hkeys.distinct
  have hordered := hkeys.ordered
  have hused := hkeys.used
  rw [List.map_id] at hlist hordered hused
  have hperm : (ls.map key).Perm (keys (standing es)) :=
    (List.perm_ext_iff_of_nodup h.distinct hlist).2 fun k => (h.used k).trans (hused k).symm
  refine hperm.eq_of_pairwise (fun k k' hk hk' hb hb' => ?_) h.ordered hordered
  exact (hb.asymm hb' ((h.used k).1 hk) ((hused k').1 hk')).elim

end Keys

end Tally
