import Mathlib

namespace Relational
set_option autoImplicit true

/-- No two rows share a key. -/
def UniqueKey (key : ρ → κ) (rows : List ρ) : Prop := (rows.map key).Nodup

/-- Each reference held by a row is the key of a target row. -/
def Refs (ref : ρ → Option κ) (rows : List ρ) (key : τ → κ) (targets : List τ) : Prop :=
  ∀ r ∈ rows, ∀ k, ref r = some k → ∃ t ∈ targets, key t = k

/-- The first row with the given key. -/
def lookup [DecidableEq κ] (key : ρ → κ) (k : κ) (rows : List ρ) : Option ρ :=
  rows.find? fun r => key r = k

/-- The rows with one change applied where the key matches. -/
def updateWhere [DecidableEq κ] (key : ρ → κ) (k : κ) (g : ρ → ρ) (rows : List ρ) : List ρ :=
  rows.map fun r => if key r = k then g r else r

/-- Whether some row has the given key. -/
def hasKey [DecidableEq κ] (key : ρ → κ) (rows : List ρ) (k : κ) : Bool :=
  rows.any fun r => key r = k

/-- Whether a nullable reference is null or the key of some row. -/
def refOk [DecidableEq κ] (key : ρ → κ) (rows : List ρ) : Option κ → Bool
  | none => true
  | some k => hasKey key rows k

theorem hasKey_iff [DecidableEq κ] {key : ρ → κ} :
    hasKey key rows k = true ↔ ∃ r ∈ rows, key r = k := by
  simp [hasKey]

theorem refOk_iff [DecidableEq κ] {key : ρ → κ} :
    refOk key rows o = true ↔ ∀ k, o = some k → ∃ r ∈ rows, key r = k := by
  cases o with
  | none => simp [refOk]
  | some k => simp [refOk, hasKey_iff]

theorem UniqueKey.snoc (h : UniqueKey key rows) (hx : ∀ r ∈ rows, key r ≠ key x) :
    UniqueKey key (rows ++ [x]) := by
  rw [UniqueKey, List.map_append]
  refine List.nodup_append.2 ⟨h, List.nodup_singleton _, ?_⟩
  intro a ha b hb
  obtain ⟨r, hr, rfl⟩ := List.mem_map.1 ha
  rw [List.map_singleton, List.mem_singleton] at hb
  rw [hb]
  exact hx r hr

theorem UniqueKey.fresh_of_append (h : UniqueKey key (rows ++ x :: rest)) :
    ∀ r ∈ rows, key r ≠ key x := by
  rw [UniqueKey, List.map_append] at h
  intro r hr he
  exact (List.nodup_append.1 h).2.2 _ (List.mem_map_of_mem hr) _ List.mem_cons_self he

theorem UniqueKey.append (h : UniqueKey key rows) (hnew : UniqueKey key added)
    (hfresh : ∀ r ∈ rows, ∀ x ∈ added, key r ≠ key x) : UniqueKey key (rows ++ added) := by
  rw [UniqueKey, List.map_append, List.nodup_append]
  refine ⟨h, hnew, ?_⟩
  intro k hk k' hk'
  obtain ⟨r, hr, rfl⟩ := List.mem_map.1 hk
  obtain ⟨x, hx, rfl⟩ := List.mem_map.1 hk'
  exact hfresh r hr x hx

theorem UniqueKey.filter {key : ρ → κ} (h : UniqueKey key rows) (p : ρ → Bool) :
    UniqueKey key (rows.filter p) :=
  h.sublist ((List.filter_sublist).map key)

theorem UniqueKey.map {key : ρ → κ} (h : UniqueKey key rows) (hg : ∀ r, key (g r) = key r) :
    UniqueKey key (rows.map g) := by
  have he : key ∘ g = key := funext hg
  rw [UniqueKey, List.map_map, he]
  exact h

theorem map_key_updateWhere [DecidableEq κ] {key : ρ → κ'} {ix : ρ → κ}
    (hg : ∀ r, key (g r) = key r) (k : κ) (rows : List ρ) :
    (updateWhere ix k g rows).map key = rows.map key := by
  rw [updateWhere, List.map_map]
  apply List.map_congr_left
  intro r _
  simp only [Function.comp]
  split
  · exact hg r
  · rfl

theorem UniqueKey.updateWhere [DecidableEq κ] {key : ρ → κ'} {ix : ρ → κ} (h : UniqueKey key rows)
    (hg : ∀ r, key (g r) = key r) (k : κ) : UniqueKey key (updateWhere ix k g rows) := by
  rw [UniqueKey, map_key_updateWhere hg]
  exact h

theorem UniqueKey.eq_of_mem (h : UniqueKey key rows) (hr : r ∈ rows) (hr' : r' ∈ rows)
    (hk : key r = key r') : r = r' :=
  List.inj_on_of_nodup_map h hr hr' hk

theorem lookup_mem [DecidableEq κ] {key : ρ → κ} (h : lookup key k rows = some r) :
    r ∈ rows ∧ key r = k :=
  ⟨List.mem_of_find?_eq_some h, by simpa using List.find?_some h⟩

theorem UniqueKey.lookup [DecidableEq κ] {key : ρ → κ} (h : UniqueKey key rows) (hr : r ∈ rows) :
    lookup key (key r) rows = some r := by
  cases hf : Relational.lookup key (key r) rows with
  | none =>
    have hn := List.find?_eq_none.1 hf r hr
    simp at hn
  | some r' =>
    obtain ⟨hm, hk⟩ := lookup_mem hf
    rw [h.eq_of_mem hm hr hk]

theorem lookup_isSome [DecidableEq κ] {key : ρ → κ} (h : ∃ r ∈ rows, key r = k) :
    ∃ r, lookup key k rows = some r := by
  obtain ⟨r, hr, hk⟩ := h
  cases hf : lookup key k rows with
  | none =>
    have hn := List.find?_eq_none.1 hf r hr
    simp [hk] at hn
  | some r' => exact ⟨r', rfl⟩

theorem Refs.snoc (h : Refs ref rows key ts) (hx : ∀ k, ref x = some k → ∃ t ∈ ts, key t = k) :
    Refs ref (rows ++ [x]) key ts := by
  intro r hr k hk
  rcases List.mem_append.1 hr with hr | hr
  · exact h r hr k hk
  · rw [List.mem_singleton.1 hr] at hk
    exact hx k hk

theorem Refs.mono (h : Refs ref rows key ts) (hs : ∀ r ∈ rows', r ∈ rows) :
    Refs ref rows' key ts := fun r hr => h r (hs r hr)

theorem Refs.target (h : Refs ref rows key ts)
    (ht : ∀ t ∈ ts, ∃ t' ∈ ts', key t' = key t) : Refs ref rows key ts' := by
  intro r hr k hk
  obtain ⟨t, hm, he⟩ := h r hr k hk
  obtain ⟨t', hm', he'⟩ := ht t hm
  exact ⟨t', hm', he'.trans he⟩

theorem Refs.filter_target (h : Refs ref rows key ts)
    (hkeep : ∀ t ∈ ts, keep t = false → ∀ r ∈ rows, ref r ≠ some (key t)) :
    Refs ref rows key (ts.filter keep) := by
  intro r hr k hk
  obtain ⟨t, ht, rfl⟩ := h r hr k hk
  cases hkept : keep t with
  | true => exact ⟨t, List.mem_filter.2 ⟨ht, hkept⟩, rfl⟩
  | false => exact absurd hk (hkeep t ht hkept r hr)

theorem Refs.snoc_target {key : τ → κ} (h : Refs ref rows key ts) (t : τ) :
    Refs ref rows key (ts ++ [t]) :=
  h.target fun t' ht => ⟨t', List.mem_append_left _ ht, rfl⟩

theorem exists_mem_updateWhere [DecidableEq κ] {key : ρ → κ'} {ix : ρ → κ}
    (hg : ∀ r, key (g r) = key r) (k : κ) {rows : List ρ} (hr : r ∈ rows) :
    ∃ r' ∈ updateWhere ix k g rows, key r' = key r := by
  refine ⟨_, List.mem_map_of_mem hr, ?_⟩
  split
  · exact hg r
  · rfl

theorem Refs.updateWhere_target [DecidableEq κ'] {ix : τ → κ'} (h : Refs ref rows key ts)
    (hg : ∀ t, key (g t) = key t) (k : κ') : Refs ref rows key (updateWhere ix k g ts) :=
  h.target fun _ => exists_mem_updateWhere hg k

theorem updateWhere_absent [DecidableEq κ] {key : ρ → κ} (h : ∀ r ∈ rows, key r ≠ k)
    (g : ρ → ρ) : updateWhere key k g rows = rows := by
  refine (List.map_congr_left fun r hr => ?_).trans (List.map_id rows)
  rw [if_neg (h r hr)]
  rfl

theorem mem_updateWhere [DecidableEq κ] {ix : ρ → κ} (h : r ∈ updateWhere ix k g rows) :
    r ∈ rows ∨ ∃ r' ∈ rows, ix r' = k ∧ r = g r' := by
  obtain ⟨r', hr, he⟩ := List.mem_map.1 h
  split at he
  · exact .inr ⟨r', hr, ‹_›, he.symm⟩
  · exact .inl (he ▸ hr)

theorem Refs.map (h : Refs ref rows key ts) (hg : ∀ r, ref (g r) = ref r) :
    Refs ref (rows.map g) key ts := by
  intro r hr k hk
  obtain ⟨r', hr', rfl⟩ := List.mem_map.1 hr
  exact h r' hr' k ((hg r').symm.trans hk)

theorem Refs.map_target {key : τ → κ} (h : Refs ref rows key ts) (hg : ∀ t, key (g t) = key t) :
    Refs ref rows key (ts.map g) :=
  h.target fun t ht => ⟨g t, List.mem_map_of_mem ht, hg t⟩

theorem lookup_map [DecidableEq κ] {key : ρ → κ} {g : ρ → ρ} (hg : ∀ r, key (g r) = key r) (k : κ)
    (rows : List ρ) : lookup key k (rows.map g) = (lookup key k rows).map g := by
  rw [lookup, lookup, List.find?_map]
  congr 2
  funext r
  simp only [Function.comp, hg]

theorem lookup_updateWhere [DecidableEq κ] {key : ρ → κ} {g : ρ → ρ} (hg : ∀ r, key (g r) = key r)
    (j k : κ) (rows : List ρ) : lookup key j (updateWhere key k g rows) =
      if j = k then (lookup key j rows).map g else lookup key j rows := by
  have hkey (r : ρ) : key (if key r = k then g r else r) = key r := by
    split
    · exact hg r
    · rfl
  rw [updateWhere, lookup_map hkey]
  cases hl : lookup key j rows with
  | none => simp
  | some r =>
    obtain ⟨-, rfl⟩ := lookup_mem hl
    rw [Option.map_some, Option.map_some]
    split <;> rfl

/-- The next `n` keys that are drawn, from the `i`-th on, are distinct and used by no row. -/
def Draws (key : ρ → κ) (rows : List ρ) (draw : Nat → κ) (i n : Nat) : Prop :=
  (rows.map key ++ (List.range' i n).map draw).Nodup

theorem Draws.fresh (h : Draws key rows draw i (n + 1)) : ∀ r ∈ rows, key r ≠ draw i := by
  intro r hr he
  refine (List.nodup_append.1 h).2.2 _ (List.mem_map_of_mem hr) _ ?_ he
  exact List.mem_cons_self

theorem Draws.used (h : Draws key rows draw i (n + 1)) (hx : key x = draw i) :
    Draws key (rows ++ [x]) draw (i + 1) n := by
  rw [Draws, List.map_append, List.append_assoc, List.map_singleton, hx]
  exact h

theorem Draws.skip (h : Draws key rows draw i (n + 1)) : Draws key rows draw (i + 1) n :=
  h.sublist (List.Sublist.append (.refl _) (List.sublist_cons_self _ _))

theorem Draws.filter {key : ρ → κ} (h : Draws key rows draw i n) (keep : ρ → Bool) :
    Draws key (rows.filter keep) draw i n :=
  h.sublist (List.Sublist.append (List.filter_sublist.map _) (.refl _))

theorem Refs.updateWhere [DecidableEq κ'] {ix : ρ → κ'} (h : Refs ref rows key ts)
    (hg : ∀ r, ref (g r) = ref r) (k : κ') : Refs ref (updateWhere ix k g rows) key ts := by
  intro r hr j hj
  rcases mem_updateWhere hr with hr | ⟨r', hr', _, rfl⟩
  · exact h r hr j hj
  · exact h r' hr' j ((hg r').symm.trans hj)

end Relational
