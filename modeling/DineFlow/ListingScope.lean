import DineFlow.Pagination

namespace DineFlow
open Atomic Relational
set_option autoImplicit true

/-- The answer counts exactly these rows and shows the page of them that is asked for. -/
def Lists (view : ρ → β) (limit offset : Int) (rows : List ρ)
    (answer : Except ApiError (Page β)) : Prop :=
  ∃ sorted, sorted.Perm rows ∧ answer = listed view limit offset sorted

theorem page_subset {rows rows' : List ρ} (h : page limit offset rows = .ok rows') :
    rows' ⊆ rows := by
  rw [page] at h
  split at h
  · cases h
  · split at h
    · cases h
      exact List.drop_subset _ _
    · cases h
      exact List.Subset.trans (List.take_subset _ _) (List.drop_subset _ _)

theorem listed_ok (h : listed view limit offset sorted = .ok p) :
    p.totalCount = sorted.length ∧ p.items ⊆ sorted.map view := by
  rw [listed] at h
  split at h
  · cases h
  · rename_i rows hrows
    cases h
    exact ⟨rfl, List.map_subset view (page_subset hrows)⟩

theorem Lists.count (h : Lists view limit offset rows (.ok p)) : p.totalCount = rows.length := by
  obtain ⟨sorted, hperm, hp⟩ := h
  rw [(listed_ok hp.symm).1, hperm.length_eq]

theorem Lists.mem (h : Lists view limit offset rows (.ok p)) (hi : i ∈ p.items) :
    ∃ r ∈ rows, view r = i := by
  obtain ⟨sorted, hperm, hp⟩ := h
  obtain ⟨r, hr, hi⟩ := List.mem_map.1 ((listed_ok hp.symm).2 hi)
  exact ⟨r, hperm.mem_iff.1 hr, hi⟩

theorem target_bind_ok {args : MenuItemsArgs} {g : Option String → Api β}
    (h : ((args.target.bind g).run f w).1 = .ok v) :
    ∃ restaurant, args.targetIn w.db = .ok restaurant ∧ ((g restaurant).run f w).1 = .ok v := by
  rw [MenuItemsArgs.target] at h
  rw [MenuItemsArgs.targetIn]
  cases ht : given args.tableId with
  | none =>
    rw [ht] at h
    exact ⟨_, rfl, h⟩
  | some t =>
    cases hr : given args.restaurantId with
    | some r =>
      rw [ht, hr] at h
      exact ⟨_, rfl, h⟩
    | none =>
      rw [ht, hr] at h
      dsimp only at h
      rw [Prog.bind_eq, Prog.bind_assoc] at h
      obtain ⟨_, table, htable, hg⟩ := run_select_bind_ok_iff.1 h
      dsimp only
      rw [htable]
      exact ⟨_, rfl, hg⟩

theorem menuPage_ok (h : ((getPaginatedMenuItems pf plan args).run f w).1 = .ok p) :
    ∃ rows, args.matching pf w.db = .ok rows ∧
      Lists (fun r => menuItemFromDb r.like) args.limit args.offset rows (.ok p) := by
  obtain ⟨restaurant, htarget, h⟩ := target_bind_ok h
  obtain ⟨_, total, htotal, h⟩ := run_select_bind_ok_iff.1 h
  obtain ⟨_, shown, hshown, h⟩ := run_select_bind_ok_iff.1 h
  obtain ⟨rows, hrows, hpage⟩ := bind_ok hshown
  rw [hrows] at htotal
  cases htotal
  cases h
  refine ⟨rows, ?_, _, orderBy_perm plan (fun r => r.categoryId.value) rows, ?_⟩
  · rw [MenuItemsArgs.matching, htarget]
    exact hrows
  · rw [listed, hpage, (orderBy_perm plan _ rows).length_eq]

section Scope

variable (pf : Platform)

/-- The dish passes the filters other than that for the restaurant. -/
def MenuItemsArgs.passes (args : MenuItemsArgs) (r : MenuItemRow) : Bool :=
  (parseOptUuid (given args.categoryId)).toOption.any fun c => args.selects pf none c r

/-- The table that a text names. -/
def tableNamed (t : String) (db : Db) : Option TableRow := (tableById t db).toOption.join

/-- The dishes of the restaurant of the table that pass the other filters. -/
def MenuItemsArgs.ofTable (args : MenuItemsArgs) (t : String) (db : Db) : List MenuItemRow :=
  db.menuItems.filter fun r =>
    ((tableNamed t db).any fun table => r.restaurantId = table.restaurantId) && args.passes pf r

/-- The page is one of the dishes of the table's restaurant that pass the other filters, and of
none if there is no such table. -/
structure Page.OfTable (args : MenuItemsArgs) (t : String) (db : Db) (p : Page MenuItem) :
    Prop where
  scope : ∀ i ∈ p.items, ∃ table, tableNamed t db = some table ∧ i.restaurantId = table.restaurantId
  lists : Lists (fun r => menuItemFromDb r.like) args.limit args.offset (args.ofTable pf t db)
    (.ok p)

variable {pf}

theorem rows_passes {args : MenuItemsArgs} (h : args.rows pf restaurant db = .ok rows) :
    ∃ u, parseOptUuid restaurant = .ok u ∧
      rows = db.menuItems.filter fun r =>
        (u.all fun u => r.restaurantId = u) && args.passes pf r := by
  rw [MenuItemsArgs.rows] at h
  split at h
  · rename_i u c _ hu hc _
    cases h
    refine ⟨u, hu, List.filter_congr fun r _ => ?_⟩
    rw [MenuItemsArgs.passes, hc]
    simp only [MenuItemsArgs.selects, Except.toOption, Option.any_some, Option.all_none,
      Bool.true_and, Bool.and_assoc]
  all_goals cases h

theorem given_of_ne {s : String} (hs : s ≠ "") : given (some s) = some s := by
  rw [given, Option.filter_some, if_pos (decide_eq_true hs)]

theorem tableNamed_empty (db : Db) : tableNamed "" db = none := rfl

theorem matching_table {args : MenuItemsArgs} (ht : args.tableId = some t)
    (hr : given args.restaurantId = none) (h : args.matching pf db = .ok rows) :
    (∃ table, tableNamed t db = some table ∧ rows = args.ofTable pf t db) ∨
      tableNamed t db = none ∧ rows = db.menuItems.filter (args.passes pf) := by
  obtain ⟨restaurant, htarget, hrows⟩ := bind_ok h
  obtain ⟨u, hu, rfl⟩ := rows_passes hrows
  rw [MenuItemsArgs.targetIn, hr, ht] at htarget
  by_cases he : t = ""
  · subst he
    cases htarget
    cases hu
    exact .inr ⟨tableNamed_empty db, rfl⟩
  · rw [given_of_ne he] at htarget
    obtain ⟨table, htable, hmap⟩ := map_ok htarget
    have hnamed : tableNamed t db = table := by
      rw [tableNamed, htable]
      rfl
    cases table with
    | none =>
      cases hmap
      cases hu
      exact .inr ⟨hnamed, rfl⟩
    | some table =>
      cases hmap
      obtain ⟨restaurant, hparse, rfl⟩ := map_ok hu
      cases (parseUuid_text table.restaurantId).symm.trans hparse
      refine .inl ⟨table, hnamed, ?_⟩
      rw [MenuItemsArgs.ofTable, hnamed]
      rfl

/-- A listing for a table stays within its restaurant exactly if the table exists, or no dish at all
passes the other filters. -/
theorem table_listing_iff (pf : Platform) (f : Site → Bool) (plan : RowOrder) (args : MenuItemsArgs)
    (w : World) (t : String) (p : Page MenuItem) (ht : args.tableId = some t)
    (hr : given args.restaurantId = none)
    (h : ((getPaginatedMenuItems pf plan args).run f w).1 = .ok p) :
    p.OfTable pf args t w.db ↔
      (tableNamed t w.db).isSome ∨ ∀ r ∈ w.db.menuItems, args.passes pf r = false := by
  obtain ⟨rows, hrows, hlists⟩ := menuPage_ok h
  rcases matching_table ht hr hrows with ⟨table, hnamed, rfl⟩ | ⟨hnamed, rfl⟩
  · refine ⟨fun _ => .inl (by rw [hnamed]; rfl), fun _ => ⟨fun i hi => ?_, hlists⟩⟩
    obtain ⟨r, hmem, rfl⟩ := hlists.mem hi
    have hscope := (Bool.and_eq_true_iff.1 (List.mem_filter.1 hmem).2).1
    rw [hnamed] at hscope
    exact ⟨table, hnamed, of_decide_eq_true hscope⟩
  · have hnone : args.ofTable pf t w.db = [] := by
      rw [MenuItemsArgs.ofTable, hnamed]
      exact List.filter_eq_nil_iff.2 fun r _ => Bool.false_ne_true
    have hempty : (∀ r ∈ w.db.menuItems, args.passes pf r = false) ↔
        w.db.menuItems.filter (args.passes pf) = [] := by
      rw [List.filter_eq_nil_iff]
      simp only [Bool.not_eq_true]
    rw [hnamed, hempty]
    constructor
    · intro hp
      have hcount := hp.lists.count
      rw [hnone, hlists.count] at hcount
      exact .inr (List.eq_nil_of_length_eq_zero hcount)
    · rintro (hsome | hnil)
      · cases hsome
      · rw [hnil] at hlists
        refine ⟨fun i hi => ?_, hnone ▸ hlists⟩
        obtain ⟨r, hmem, _⟩ := hlists.mem hi
        cases hmem

end Scope

/-- The first page of the dishes for a table. -/
def forTable (t : String) : MenuItemsArgs := ⟨none, none, none, none, some t, 10, 0⟩

theorem unknown_table_lists_all :
    ∃ p, ((getPaginatedMenuItems samplePlatform RowOrder.stored (forTable (sampleId 9).text)).run
        noFault sampleWorld).1 = .ok p ∧
      ¬p.OfTable samplePlatform (forTable (sampleId 9).text) (sampleId 9).text sampleWorld.db := by
  refine ⟨_, rfl, fun h => ?_⟩
  have hcount := h.lists.count
  revert hcount
  decide +kernel

theorem table_listing_sample :
    ∃ p, ((getPaginatedMenuItems samplePlatform RowOrder.stored (forTable (sampleId 2).text)).run
        noFault sampleWorld).1 = .ok p ∧
      p.OfTable samplePlatform (forTable (sampleId 2).text) (sampleId 2).text sampleWorld.db := by
  refine ⟨_, rfl, ?_⟩
  refine (table_listing_iff samplePlatform noFault RowOrder.stored (forTable (sampleId 2).text)
    sampleWorld (sampleId 2).text _ rfl rfl rfl).2 (.inl ?_)
  decide +kernel

end DineFlow
