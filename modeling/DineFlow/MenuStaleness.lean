import DineFlow.MenuCache

namespace DineFlow
open Atomic Relational
set_option autoImplicit true

def MenuItem.json (i : MenuItem) : MenuItem :=
  { i with createdAt := i.createdAt.json, updatedAt := i.updatedAt.json }

def MenuCategory.json (c : MenuCategory) : MenuCategory :=
  { c with items := c.items.map MenuItem.json }

/-- What one of the two reads returns. -/
inductive MenuAnswer where
  | menu (m : Menu)
  | items (is : List MenuItem)
  deriving DecidableEq, Repr

/-- The answer with its dates in the form that JSON gives them. -/
def MenuAnswer.json : MenuAnswer → MenuAnswer
  | .menu m => .menu { m with categories := m.categories.map MenuCategory.json }
  | .items is => .items (is.map MenuItem.json)

namespace MenuRead

def answer (env : Env) (plan : RowOrder) (t : String) : MenuRead → Api MenuAnswer
  | .menu => do
    let m ← getMenuByTableId env plan t
    return .menu m
  | .items => do
    let is ← findByTable env plan t
    return .items is

/-- The value that a read keeps for a table, as the rows give it. -/
def loaded (plan : RowOrder) (t : String) (db : Db) (r : MenuRead) : Except ApiError Cached :=
  match tableById t db with
  | .error e => .error (.db e)
  | .ok none => .error (.notFound "Table not found")
  | .ok (some table) => .ok <|
    match r with
    | .menu => .menu (menuAt plan t table db)
    | .items => .items ((availableRows plan table.restaurantId db).map MenuItemRow.like)

/-- The answer that a kept value gives. -/
def answerOf : MenuRead → Cached → Except ApiError MenuAnswer
  | .menu, c => c.asMenu.map fun m => .menu (formatMenu m)
  | .items, c => c.asItems.map fun rows => .items (rows.map menuItemFromDb)

theorem run_answer_hit (r : MenuRead) (env : Env) (plan : RowOrder)
    (h : w.redis.get (r.key t) = some e) :
    (r.answer env plan t).run noFault w = (r.answerOf e.value, w) := by
  have hread : (w.redis.get (r.key t)).map Entry.value = some e.value := by rw [h]; rfl
  cases r with
  | menu =>
    rw [answer, getMenuByTableId, Prog.bind_eq, Prog.bind_eq, Prog.bind_assoc,
      run_getCachedObject_bind]
    change (Prog.bind (getMenuByTableId.withCached env plan t
      ((w.redis.get (key .menu t)).map Entry.value)) _).run noFault w = _
    rw [hread, getMenuByTableId.withCached]
    cases e.value <;> rfl
  | items =>
    rw [answer, findByTable, Prog.bind_eq, Prog.bind_eq, Prog.bind_assoc,
      run_getCachedObject_bind]
    change (Prog.bind (findByTable.withCached env plan t
      ((w.redis.get (key .items t)).map Entry.value)) _).run noFault w = _
    rw [hread, findByTable.withCached]
    cases e.value <;> rfl

theorem run_answer_miss (r : MenuRead) (env : Env) (plan : RowOrder)
    (h : w.redis.get (r.key t) = none) :
    (r.answer env plan t).run noFault w =
      match r.loaded plan t w.db with
      | .error e => (.error e, w)
      | .ok c => (r.answerOf c,
          { w with redis := w.redis.set (r.key t) ⟨c.json, some (expiry env.now 300)⟩ }) := by
  have hread : (w.redis.get (r.key t)).map Entry.value = none := by rw [h]; rfl
  cases r with
  | menu =>
    rw [answer, getMenuByTableId, Prog.bind_eq, Prog.bind_eq, Prog.bind_assoc,
      run_getCachedObject_bind]
    change (Prog.bind (getMenuByTableId.withCached env plan t
      ((w.redis.get (key .menu t)).map Entry.value)) _).run noFault w = _
    rw [hread, getMenuByTableId.withCached, Prog.bind_eq, Prog.bind_assoc, loaded]
    cases ht : tableById t w.db with
    | error e => rw [Prog.run_bind_error (loadMenu_refused plan ht)]
    | ok table =>
      cases table with
      | none => rw [Prog.run_bind_error (loadMenu_missing plan ht)]
      | some table =>
        rw [Prog.run_bind_ok (run_loadMenu plan ht)]
        rfl
  | items =>
    rw [answer, findByTable, Prog.bind_eq, Prog.bind_eq, Prog.bind_assoc,
      run_getCachedObject_bind]
    change (Prog.bind (findByTable.withCached env plan t
      ((w.redis.get (key .items t)).map Entry.value)) _).run noFault w = _
    rw [hread, findByTable.withCached, Prog.bind_eq, Prog.bind_assoc, loaded]
    cases ht : tableById t w.db with
    | error e => rw [Prog.run_bind_error (loadItems_refused plan ht)]
    | ok table =>
      cases table with
      | none => rw [Prog.run_bind_error (loadItems_missing plan ht)]
      | some table =>
        rw [Prog.run_bind_ok (run_loadItems plan ht)]
        rfl

/-- Whatever form the dates of a kept value have, the answers are the same up to it. -/
theorem answerOf_json (r : MenuRead) (c : Cached) :
    (r.answerOf c.json).map MenuAnswer.json = (r.answerOf c).map MenuAnswer.json := by
  have hitem (row : MenuItemRowLike) :
      (menuItemFromDb row.json).json = (menuItemFromDb row).json := by
    cases hc : row.createdAt <;> cases hu : row.updatedAt <;>
      simp [menuItemFromDb, MenuItem.json, MenuItemRowLike.json, Stamp.json, hc, hu]
  have hitems (rows : List MenuItemRowLike) :
      ((rows.map MenuItemRowLike.json).map menuItemFromDb).map MenuItem.json =
        (rows.map menuItemFromDb).map MenuItem.json := by
    simp only [List.map_map, Function.comp_def, hitem]
  cases r with
  | menu =>
    cases c with
    | menu m =>
      refine congrArg (fun cs => Except.ok (MenuAnswer.menu ⟨m.tableId, m.restaurantId, cs⟩)) ?_
      simp only [formatMenu, List.map_map]
      refine List.map_congr_left fun c _ => ?_
      dsimp only [Function.comp_apply, CategoryWithItems.json, MenuCategory.json]
      rw [hitems]
    | cart => rfl
    | items => rfl
  | items =>
    cases c with
    | items rows => exact congrArg (fun is => Except.ok (MenuAnswer.items is)) (hitems rows)
    | cart => rfl
    | menu => rfl

end MenuRead

/-- The services at one moment of their clock. -/
structure MenuMoment where
  world : World
  now : Nat

inductive MenuEvent where
  | mutate (userId : String) (m : MenuMutation)
  | read (r : MenuRead) (env : Env) (plan : RowOrder) (t : String)
  | pass (seconds : Nat)

def MenuEvent.step (s : MenuMoment) : MenuEvent → MenuMoment
  | .mutate userId m => { s with world := ((m.prog userId).run noFault s.world).2 }
  | .read r env plan t =>
    { s with world := ((r.answer { env with now := s.now } plan t).run noFault s.world).2 }
  | .pass seconds =>
    ⟨{ s.world with redis := s.world.redis.pass (s.now + seconds) }, s.now + seconds⟩

/-- An entry of a read that was made from the rows of a past moment. -/
def KeptFrom (past : MenuMoment) (r : MenuRead) (t : String) (e : Entry) : Prop :=
  ∃ plan c, r.loaded plan t past.world.db = .ok c ∧ e = ⟨c.json, some (expiry past.now 300)⟩

/-- Every entry of the menu cache was made at one of these moments and its time is not over. -/
def Accounted (history : MenuMoment → Prop) (s : MenuMoment) : Prop :=
  ∀ (r : MenuRead) t e, ':' ∉ t.toList → s.world.redis.get (r.key t) = some e →
    ∃ past, history past ∧ s.now < expiry past.now 300 ∧ KeptFrom past r t e

theorem MenuRead.loaded_no_colon {r : MenuRead} (h : r.loaded plan t db = .ok c) :
    ':' ∉ t.toList := by
  cases hp : Uuid.parse t with
  | some u => exact no_colon_of_parse hp
  | none =>
    rw [loaded, tableById, parseUuid, hp] at h
    cases h

theorem MenuRead.key_eq {r r' : MenuRead} (h : r.key t = r'.key t') (ht : ':' ∉ t.toList)
    (ht' : ':' ∉ t'.toList) : r = r' ∧ t = t' := by
  cases r with
  | menu =>
    cases r' with
    | menu => exact ⟨rfl, key_inj _ h⟩
    | items => exact absurd (menuKey_eq_itemsKey h) ht
  | items =>
    cases r' with
    | menu => exact absurd (menuKey_eq_itemsKey h.symm) ht'
    | items => exact ⟨rfl, key_inj _ h⟩

theorem Accounted.mutate (h : Accounted history s) (userId : String) (m : MenuMutation) :
    Accounted history (MenuEvent.step s (.mutate userId m)) := by
  have hget (r : MenuRead) (t : String) :
      ((m.prog userId).run noFault s.world).2.redis.get (r.key t) =
        s.world.redis.get (r.key t) := by
    rcases m.run_cases userId s.world with ⟨_, hw⟩ | ⟨old, new, _, k, db, restaurantId, _, hu, hw⟩
    · rw [hw]
    · rw [hw, get_invalidated hu]
  intro r t e ht he
  exact h r t e ht ((hget r t).symm.trans he)

theorem Accounted.read (h : Accounted history s) (hs : history s) (r : MenuRead) (env : Env)
    (plan : RowOrder) (t : String) :
    Accounted history (MenuEvent.step s (.read r env plan t)) := by
  rw [MenuEvent.step]
  cases hget : s.world.redis.get (r.key t) with
  | some e =>
    rw [r.run_answer_hit _ _ hget]
    exact h
  | none =>
    rw [r.run_answer_miss _ _ hget]
    cases hload : r.loaded plan t s.world.db with
    | error e => exact h
    | ok c =>
      intro r' t' e' ht' he'
      change (s.world.redis.set (r.key t) _).get (r'.key t') = some e' at he'
      by_cases hkey : r'.key t' = r.key t
      · obtain ⟨rfl, rfl⟩ := MenuRead.key_eq hkey ht' (MenuRead.loaded_no_colon hload)
        rw [Redis.get_set_same] at he'
        exact ⟨s, hs, Nat.lt_add_of_pos_right (by decide), plan, c, hload,
          (Option.some.inj he').symm⟩
      · rw [Redis.get_set_other _ _ hkey] at he'
        exact h r' t' e' ht' he'

theorem Accounted.pass (h : Accounted history s) (seconds : Nat) :
    Accounted history (MenuEvent.step s (.pass seconds)) := by
  intro r t e ht he
  change (s.world.redis.pass (s.now + seconds)).get (r.key t) = some e at he
  rw [Redis.get_pass] at he
  obtain ⟨hget, hlive⟩ := Option.filter_eq_some_iff.1 he
  obtain ⟨past, hpast, _, plan, c, hload, rfl⟩ := h r t e ht hget
  exact ⟨past, hpast, of_decide_eq_true hlive, plan, c, hload, rfl⟩

theorem Accounted.step (h : Accounted history s) (hs : history s) (op : MenuEvent) :
    Accounted history (op.step s) := by
  cases op with
  | mutate userId m => exact h.mutate userId m
  | read r env plan t => exact h.read hs r env plan t
  | pass seconds => exact h.pass seconds

/-- The moments that a run has gone through. -/
def PastOf (s₀ : MenuMoment) (ops : List MenuEvent) (s : MenuMoment) : Prop :=
  ∃ ops', ops' <+: ops ∧ s = runs MenuEvent.step s₀ ops'

theorem runs_accounted (h : ∀ (r : MenuRead) t, s₀.world.redis.get (r.key t) = none)
    (ops : List MenuEvent) : Accounted (PastOf s₀ ops) (runs MenuEvent.step s₀ ops) := by
  induction ops using List.reverseRecOn with
  | nil =>
    intro r t e _ he
    rw [runs_nil, h] at he
    cases he
  | append_singleton ops op ih =>
    have hgrow : Accounted (PastOf s₀ (ops ++ [op])) (runs MenuEvent.step s₀ ops) := by
      intro r t e ht he
      obtain ⟨past, ⟨ops', hpre, rfl⟩, hrest⟩ := ih r t e ht he
      exact ⟨_, ⟨ops', hpre.trans (List.prefix_append _ _), rfl⟩, hrest⟩
    rw [runs_append]
    exact hgrow.step ⟨ops, List.prefix_append _ _, rfl⟩ op

/-- The answer of a read with an empty cache. -/
def MenuRead.uncached (r : MenuRead) (env : Env) (plan : RowOrder) (t : String) (w : World) :
    Except ApiError MenuAnswer :=
  ((r.answer env plan t).run noFault { w with redis := Redis.empty }).1

theorem MenuRead.uncached_eq (r : MenuRead) (env : Env) (plan : RowOrder) (t : String) (w : World) :
    r.uncached env plan t w = (r.loaded plan t w.db).bind r.answerOf := by
  rw [uncached, r.run_answer_miss env plan (Redis.get_empty _)]
  cases r.loaded plan t w.db <;> rfl

/-- Every read of a run answers as it would have without the cache at a moment of the run that
is less than 300 seconds ago, up to the form of the dates. -/
theorem reads_boundedly_stale (s₀ : MenuMoment)
    (h : ∀ (r : MenuRead) t, s₀.world.redis.get (r.key t) = none) (ops : List MenuEvent)
    (r : MenuRead) (env : Env) (plan : RowOrder) (t : String) (ht : (Uuid.parse t).isSome) :
    ∃ past, PastOf s₀ ops past ∧ (runs MenuEvent.step s₀ ops).now ≤ expiry past.now 300 ∧
      ∃ env' plan',
        (((r.answer { env with now := (runs MenuEvent.step s₀ ops).now } plan t).run noFault
          (runs MenuEvent.step s₀ ops).world).1).map MenuAnswer.json =
        (r.uncached env' plan' t past.world).map MenuAnswer.json := by
  have hall := runs_accounted h ops
  have hnow : PastOf s₀ ops (runs MenuEvent.step s₀ ops) := ⟨ops, List.prefix_rfl, rfl⟩
  generalize runs MenuEvent.step s₀ ops = s at hall hnow
  obtain ⟨u, hu⟩ := Option.isSome_iff_exists.1 ht
  cases hget : s.world.redis.get (r.key t) with
  | some e =>
    obtain ⟨past, hpast, hlt, plan', c, hload, rfl⟩ := hall r t e (no_colon_of_parse hu) hget
    refine ⟨past, hpast, hlt.le, env, plan', ?_⟩
    rw [r.run_answer_hit _ _ hget, r.uncached_eq, hload]
    exact r.answerOf_json c
  | none =>
    refine ⟨s, hnow, Nat.le_add_right _ _, env, plan, ?_⟩
    rw [r.run_answer_miss _ _ hget, r.uncached_eq]
    cases r.loaded plan t s.world.db <;> rfl

theorem reads_boundedly_stale_sample :
    ∃ past, PastOf ⟨sampleWorld, 0⟩ [.read .menu sampleEnv .stored (sampleId 2).text,
        .mutate (sampleId 5).text (.toggle (sampleId 4).text), .pass 200] past ∧
      200 ≤ expiry past.now 300 ∧ ∃ env' plan',
        (((MenuRead.menu.answer { sampleEnv with now := 200 } .stored (sampleId 2).text).run noFault
          (runs MenuEvent.step ⟨sampleWorld, 0⟩ [.read .menu sampleEnv .stored (sampleId 2).text,
            .mutate (sampleId 5).text (.toggle (sampleId 4).text), .pass 200]).world).1).map
              MenuAnswer.json =
        (MenuRead.menu.uncached env' plan' (sampleId 2).text past.world).map MenuAnswer.json :=
  reads_boundedly_stale ⟨sampleWorld, 0⟩ (fun _ _ => rfl) _ .menu sampleEnv .stored
    (sampleId 2).text (by decide +kernel)

end DineFlow
