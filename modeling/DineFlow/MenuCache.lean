import DineFlow.MenuWrites
import DineFlow.Runs

namespace DineFlow
open Atomic Relational
set_option autoImplicit true

/-- Each read lists what it would list with an empty cache. -/
def ReadsCurrent (w : World) : Prop :=
  ∀ (r : MenuRead) env plan env' plan' t,
    r.listing env plan t w = r.listing env' plan' t { w with redis := Redis.empty }

/-- Each key that is there lists what the current rows list. -/
def Coherent (w : World) : Prop :=
  ∀ (r : MenuRead) t e, w.redis.get (r.key t) = some e → r.cached e.value = r.fresh t w.db

theorem readsCurrent_iff : ReadsCurrent w ↔ Coherent w := by
  have hempty (r : MenuRead) (env : Env) (plan : RowOrder) (t : String) :
      r.listing env plan t { w with redis := Redis.empty } = r.fresh t w.db :=
    (r.run_miss env plan (Redis.get_empty _)).1
  constructor
  · intro h r t e he
    rw [← (r.run_hit sampleEnv .stored he).1, h r _ _ sampleEnv .stored t, hempty]
  · intro h r env plan env' plan' t
    rw [hempty]
    cases he : w.redis.get (r.key t) with
    | none => exact (r.run_miss env plan he).1
    | some e => exact (r.run_hit env plan he).1.trans (h r t e he)

inductive MenuOp where
  | mutate (userId : String) (m : MenuMutation)
  | read (r : MenuRead) (env : Env) (plan : RowOrder) (t : String)
  | expire (key : String)

/-- One operation at a time, or the end of a key's time to live. -/
def MenuOp.step (w : World) : MenuOp → World
  | .mutate userId m => ((m.prog userId).run noFault w).2
  | .read r env plan t => ((r.prog env plan t).run noFault w).2
  | .expire key => { w with redis := w.redis.del key }

/-- A mutation that no cached listing shows: where a table has a key, it sees the same of the
row that is written before and after. -/
def MenuOp.Unseen (w : World) : MenuOp → Prop
  | .mutate userId m => ∀ old new, m.written userId w.db = some (old, new) →
      ∀ (r : MenuRead) t table, (w.redis.get (r.key t)).isSome →
        tableById t w.db = .ok (some table) →
        shownRow (r.visible table w.db) MenuItemRow.line new =
          shownRow (r.visible table w.db) MenuItemRow.line old
  | _ => True

theorem no_colon_of_parse (h : Uuid.parse t = some u) : ':' ∉ t.toList :=
  fun hc => absurd (Uuid.parse_uuidChar h ':' hc) (by decide)

theorem fresh_colon (r : MenuRead) (db : Db) (h : ':' ∈ t.toList) : r.fresh t db = none := by
  have hp : Uuid.parse t = none := by
    cases hp : Uuid.parse t with
    | none => rfl
    | some u => exact absurd h (no_colon_of_parse hp)
  rw [MenuRead.fresh, tableById, parseUuid, hp]
  rfl

theorem MenuRead.key_inj (r : MenuRead) (h : r.key t = r.key t') : t = t' := by
  have hl := congrArg String.toList h
  apply String.toList_inj.1
  cases r <;> simpa [key, menuKey, itemsKey] using hl

theorem menuKey_eq_itemsKey (h : menuKey t = itemsKey t') : ':' ∈ t.toList := by
  have hl := congrArg String.toList h
  simp only [menuKey, itemsKey, String.toList_append, List.append_assoc] at hl
  rw [List.append_cancel_left hl]
  simp

/-- A listing that was just cached is right for every read that finds it: the keys of the two
reads clash only for texts that are no table's id. -/
theorem cached_of_key_eq {r r' : MenuRead} (hkey : r'.key t' = r.key t)
    (hs : (r.fresh t db).isSome) (hc : r.cached v = r.fresh t db) :
    r'.cached v = r'.fresh t' db := by
  cases r with
  | menu =>
    cases r' with
    | menu =>
      cases MenuRead.key_inj _ hkey
      exact hc
    | items =>
      rw [fresh_colon _ _ (menuKey_eq_itemsKey hkey.symm)] at hs
      cases hs
  | items =>
    cases r' with
    | menu =>
      rw [fresh_colon _ _ (menuKey_eq_itemsKey hkey)]
      cases v with
      | items => rfl
      | cart => rfl
      | menu =>
        rw [← hc] at hs
        cases hs
    | items =>
      cases MenuRead.key_inj _ hkey
      exact hc

theorem Coherent.read (h : Coherent w) (r : MenuRead) (env : Env) (plan : RowOrder) (t : String) :
    Coherent (MenuOp.step w (.read r env plan t)) := by
  rw [MenuOp.step]
  cases he : w.redis.get (r.key t) with
  | some e =>
    rw [(r.run_hit env plan he).2]
    exact h
  | none =>
    rcases (r.run_miss env plan he).2 with hw | ⟨e, hs, hc, hw⟩
    · rw [hw]
      exact h
    · rw [hw]
      intro r' t' e' he'
      by_cases hkey : r'.key t' = r.key t
      · rw [hkey, Redis.get_set_same] at he'
        cases he'
        exact cached_of_key_eq hkey hs hc
      · rw [Redis.get_set_other _ _ hkey] at he'
        exact h r' t' e' he'

theorem Coherent.expire (h : Coherent w) (key : String) :
    Coherent (MenuOp.step w (.expire key)) := by
  intro r t e he
  change (w.redis.del key).get _ = _ at he
  by_cases hkey : r.key t = key
  · rw [hkey, Redis.get_del_same] at he
    cases he
  · rw [Redis.get_del_other _ hkey] at he
    exact h r t e he

theorem globMatch_head (hc : uuidChar c) (hd : uuidChar d = false) (ps cs : List Char) :
    globMatch (c :: ps) (d :: cs) = false := by
  have hne : c ≠ d := by
    rintro rfl
    rw [hc] at hd
    cases hd
  have hplain : c ∉ ['*', '?', '\\'] := by
    intro hmem
    simp only [List.mem_cons, List.not_mem_nil, or_false] at hmem
    rcases hmem with rfl | rfl | rfl <;> exact absurd hc (by decide)
  rw [globMatch_plain hplain]
  dsimp only
  rw [beq_false_of_ne hne, Bool.false_and]

/-- The pattern that a mutation drops matches no key that a read sets. -/
theorem menuPattern_misses (h : (Uuid.parse restaurantId).isSome) (r : MenuRead) (t : String) :
    globMatch (menuPattern restaurantId).toList (r.key t).toList = false := by
  obtain ⟨u, hu⟩ := Option.isSome_iff_exists.1 h
  have hkey : ∃ cs, (r.key t).toList = "menu:".toList ++ 't' :: cs := by
    cases r with
    | menu => exact ⟨"able:".toList ++ t.toList, by simp [MenuRead.key, menuKey]⟩
    | items =>
      exact ⟨"able:".toList ++ t.toList ++ ":items".toList, by simp [MenuRead.key, itemsKey]⟩
  obtain ⟨cs, hcs⟩ := hkey
  rw [hcs, menuPattern, String.toList_append, String.toList_append]
  cases hr : restaurantId.toList with
  | nil =>
    rw [String.toList_eq_nil_iff.1 hr] at hu
    cases hu
  | cons c ps =>
    have hc := Uuid.parse_uuidChar hu c (by rw [hr]; exact List.mem_cons_self)
    exact globMatch_head hc (by decide) (ps ++ ":*".toList) cs

theorem get_invalidated (h : (Uuid.parse restaurantId).isSome) (w : World) (r : MenuRead)
    (t : String) : (w.invalidated restaurantId).redis.get (r.key t) = w.redis.get (r.key t) := by
  rw [World.invalidated, Redis.get_delKeys, if_neg]
  intro hm
  have hmatch := (List.mem_filter.1 hm).2
  rw [menuPattern_misses h] at hmatch
  cases hmatch

theorem RowChange.fresh_iff (h : RowChange k db db' old new)
    (ht : tableById t db = .ok (some table)) (r : MenuRead) :
    r.fresh t db' = r.fresh t db ↔ shownRow (r.visible table db) MenuItemRow.line new =
      shownRow (r.visible table db) MenuItemRow.line old := by
  have ht' : tableById t db' = tableById t db := by rw [tableById, tableById, h.tables]
  have hv : r.visible table db' = r.visible table db := by
    cases r with
    | menu =>
      funext row
      rw [MenuRead.visible, MenuRead.visible, h.categories]
    | items => rfl
  rw [MenuRead.fresh, MenuRead.fresh, ht', ht]
  dsimp only
  rw [hv, ← h.after, ← h.before]
  exact Option.some_inj.trans (shown_eq_iff db.valid.menuItemIds db'.valid.menuItemIds h.others _ _)

theorem RowChange.fresh_none (h : RowChange k db db' old new)
    (ht : ∀ table, tableById t db ≠ .ok (some table)) (r : MenuRead) :
    r.fresh t db' = r.fresh t db := by
  have ht' : tableById t db' = tableById t db := by rw [tableById, tableById, h.tables]
  rw [MenuRead.fresh, MenuRead.fresh, ht']
  split
  · rename_i table hok
    exact absurd hok (ht table)
  · rfl

theorem Coherent.written_iff (h : Coherent w) (hw : MenuWritten w w' old new) :
    Coherent w' ↔ ∀ (r : MenuRead) t table, (w.redis.get (r.key t)).isSome →
      tableById t w.db = .ok (some table) →
      shownRow (r.visible table w.db) MenuItemRow.line new =
        shownRow (r.visible table w.db) MenuItemRow.line old := by
  obtain ⟨k, db, restaurantId, hrow, hu, rfl⟩ := hw
  constructor
  · intro h' r t table hs ht
    obtain ⟨e, he⟩ := Option.isSome_iff_exists.1 hs
    have he' := h' r t e ((get_invalidated hu _ r t).trans he)
    exact (hrow.fresh_iff ht r).1 (he'.symm.trans (h r t e he))
  · intro hsame r t e he
    rw [get_invalidated hu] at he
    refine (h r t e he).trans (Eq.symm ?_)
    by_cases ht : ∃ table, tableById t w.db = .ok (some table)
    · obtain ⟨table, ht⟩ := ht
      exact (hrow.fresh_iff ht r).2 (hsame r t table (by rw [he]; rfl) ht)
    · exact hrow.fresh_none (fun table he => ht ⟨table, he⟩) r

/-- One operation keeps a right cache right exactly if it is not seen. -/
theorem Coherent.step_iff (h : Coherent w) (op : MenuOp) : Coherent (op.step w) ↔ op.Unseen w := by
  cases op with
  | read r env plan t => exact iff_of_true (h.read r env plan t) trivial
  | expire key => exact iff_of_true (h.expire key) trivial
  | mutate userId m =>
    rcases m.run_cases userId w with ⟨hnone, hw⟩ | ⟨old, new, hsome, hw⟩
    · refine iff_of_true ?_ ?_
      · rw [MenuOp.step, hw]
        exact h
      · intro old new he
        rw [hnone] at he
        cases he
    · rw [MenuOp.step, h.written_iff hw]
      constructor
      · intro hsame old' new' he
        rw [hsome] at he
        cases he
        exact hsame
      · intro hunseen
        exact hunseen old new hsome

/-- From an empty menu cache, every read of a run is current, at any point of it, exactly if no
mutation of the run writes a row that a cached listing shows differently before and after. -/
theorem menuReads_current_iff (w : World)
    (hw : ∀ (r : MenuRead) t, w.redis.get (r.key t) = none) (ops : List MenuOp) :
    Guarded MenuOp.step MenuOp.Unseen w ops ↔
      ∀ ops', ops' <+: ops → ReadsCurrent (runs MenuOp.step w ops') := by
  refine guarded_iff (I := Coherent) ?_ (fun w op h hok => (h.step_iff op).2 hok)
    (fun w h => readsCurrent_iff.2 h) fun w op h hbad hcur => ?_
  · intro r t e he
    rw [hw] at he
    cases he
  · exact hbad ((h.step_iff op).1 (readsCurrent_iff.1 hcur))

def sampleRead : MenuOp := .read .menu sampleEnv .stored (sampleId 2).text

/-- The manager takes the dish off the menu. -/
def sampleToggle : MenuOp := .mutate (sampleId 5).text (.toggle (sampleId 4).text)

theorem menuReads_current_sample :
    ReadsCurrent (runs MenuOp.step sampleWorld [sampleToggle, sampleRead]) := by
  refine (menuReads_current_iff sampleWorld (fun _ _ => rfl) [sampleToggle, sampleRead]).1 ?_ _
    List.prefix_rfl
  exact ⟨fun _ _ _ _ _ _ hs _ => absurd hs (fun h => by cases h), trivial, trivial⟩

/-- A dish that was taken off the menu is still listed at a table that has read it before. -/
theorem menuReads_stale :
    ¬ReadsCurrent (runs MenuOp.step sampleWorld [sampleRead, sampleToggle]) := by
  intro h
  have hlist := h .menu sampleEnv .stored sampleEnv .stored (sampleId 2).text
  revert hlist
  decide +kernel

end DineFlow
