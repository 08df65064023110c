import DineFlow.Pages
import DineFlow.Paging

namespace DineFlow
open Atomic Relational
set_option autoImplicit true

theorem orderBy_isOrdering [LinearOrder κ] (plan : RowOrder) (key : ρ → κ) (rows : List ρ) :
    IsOrdering key rows (orderBy plan key rows) :=
  ⟨orderBy_perm plan key rows, orderBy_sorted plan key rows⟩

theorem filterMap_places {rows s : List ρ}
    (h : List.Forall₂ (fun x (i : Nat) => rows[i]? = some x) s p) :
    p.filterMap (fun i => rows[i]?) = s := by
  induction h with
  | nil => rfl
  | cons hx _ ih => rw [List.filterMap_cons_some hx, ih]

theorem exists_arrange {rows s : List ρ} (h : s.Perm rows) :
    ∃ plan : RowOrder, plan.arrange rows = s := by
  have hplaces : List.Forall₂ (fun x (i : Nat) => rows[i]? = some x) rows
      (List.range rows.length) := by
    rw [List.forall₂_iff_get]
    refine ⟨List.length_range.symm, fun i hi hi' => ?_⟩
    simp
  obtain ⟨p, hs, hp⟩ := List.perm_comp_forall₂ h hplaces
  refine ⟨⟨fun n => if n = rows.length then p else List.range n, fun n => ?_⟩, ?_⟩
  · split
    · rename_i hn
      exact hn ▸ hp
    · exact .refl _
  · rw [RowOrder.arrange]
    dsimp only
    rw [if_pos rfl]
    exact filterMap_places hs

theorem exists_plan [LinearOrder κ] {key : ρ → κ} (h : IsOrdering key rows s) :
    ∃ plan, orderBy plan key rows = s := by
  obtain ⟨plan, hplan⟩ := exists_arrange h.perm
  refine ⟨plan, ?_⟩
  rw [orderBy, hplan]
  exact h.sorted.insertionSort_eq

/-- The pages at the offsets up to the total count hold every row that matches exactly once, in
whatever order each query delivers the rows that tie. Rows that no query can be made for are
asked for in vain. -/
def Paged (query : RowOrder → Int → Int → Except ApiError (Page β)) (L : Nat) :
    Except DbError (List β) → Prop
  | .error e => ∀ (plan : RowOrder) (k : Nat), query plan L (k * L) = .error (.db e)
  | .ok rows => ∀ plans : Nat → RowOrder, ∃ pages : Nat → Page β,
      (∀ k : Nat, query (plans k) L (k * L) = .ok (pages k)) ∧
      ((List.range ((pages 0).totalCount / L + 1)).flatMap fun k => (pages k).items).Perm rows

theorem page_eq_chunk {L : Nat} (hL : 0 < L) (k : Nat) (rows : List ρ) :
    page L (k * L) rows = .ok (chunk L k rows) := by
  have hle : ¬((L : Int) < 0 ∨ (k * L : Int) < 0) := by
    rw [← Int.natCast_mul]
    omega
  rw [page, if_neg hle, if_neg (by omega), chunk, ← Int.natCast_mul, Int.toNat_natCast,
    Int.toNat_natCast]

/-- The answer of a listing of these rows, in the order they are delivered in. -/
def listed (view : ρ → β) (limit offset : Int) (sorted : List ρ) : Except ApiError (Page β) :=
  match page limit offset sorted with
  | .error e => .error (.db e)
  | .ok rows => .ok ⟨rows.map view, sorted.length⟩

/-- The answer of a listing, where the rows may be refused. -/
def listing [LinearOrder κ] (key : ρ → κ) (view : ρ → β) (rows : Except DbError (List ρ))
    (plan : RowOrder) (limit offset : Int) : Except ApiError (Page β) :=
  match rows with
  | .error e => .error (.db e)
  | .ok rows => listed view limit offset (orderBy plan key rows)

section Listing

variable [LinearOrder κ] {key : ρ → κ} {view : ρ → β}

theorem listing_page {L : Nat} (hL : 0 < L) (plan : RowOrder) (k : Nat) (rows : List ρ) :
    listing key view (.ok rows) plan L (k * L) =
      .ok ⟨(chunk L k (orderBy plan key rows)).map view, rows.length⟩ := by
  rw [listing, listed, page_eq_chunk hL, (orderBy_perm plan key rows).length_eq]

theorem listing_paged_iff (hL : 0 < L) (hn : (rows.map view).Nodup) :
    Paged (listing key view (.ok rows)) L (.ok (rows.map view)) ↔ Unsplit key L rows := by
  rw [← pages_perm_iff hL view hn]
  constructor
  · intro h s hs
    choose plans hplans using fun k => exists_plan (hs k)
    obtain ⟨pages, hpages, hperm⟩ := h plans
    have hpage (k : Nat) : pages k = ⟨(chunk L k (s k)).map view, rows.length⟩ := by
      have he := hpages k
      rw [listing_page hL, hplans] at he
      exact (Except.ok.inj he).symm
    simp only [hpage] at hperm
    exact hperm
  · intro h plans
    exact ⟨_, fun k => listing_page hL (plans k) k rows,
      h _ fun k => orderBy_isOrdering (plans k) key rows⟩

/-- The pages of a listing are complete exactly if no rows that tie are split; of rows that are
refused there is nothing to split. -/
theorem paged_iff {rows : Except DbError (List ρ)} (hL : 0 < L)
    (hn : ∀ rs, rows = .ok rs → (rs.map view).Nodup) :
    Paged (listing key view rows) L (rows.map (List.map view)) ↔
      ∀ rs, rows = .ok rs → Unsplit key L rs := by
  cases rows with
  | error e => exact ⟨fun _ rs h => (by cases h), fun _ plan k => rfl⟩
  | ok rs =>
    refine (listing_paged_iff hL (hn rs rfl)).trans ⟨fun h rs' he => ?_, fun h => h rs rfl⟩
    exact Except.ok.inj he ▸ h

end Listing

/-- The restaurant to list, as the database has it. -/
def MenuItemsArgs.targetIn (args : MenuItemsArgs) (db : Db) : Except DbError (Option String) :=
  match given args.tableId, given args.restaurantId with
  | some t, none => (tableById t db).map fun table => table.map fun t => t.restaurantId.text
  | _, r => .ok r

/-- The rows that match the filters. -/
def MenuItemsArgs.matching (pf : Platform) (args : MenuItemsArgs) (db : Db) :
    Except DbError (List MenuItemRow) :=
  (args.targetIn db).bind fun restaurant => args.rows pf restaurant db

def MenuItemsArgs.page (args : MenuItemsArgs) (limit offset : Int) : MenuItemsArgs :=
  { args with limit := limit, offset := offset }

def UsersArgs.page (args : UsersArgs) (limit offset : Int) : UsersArgs :=
  { args with limit := limit, offset := offset }

theorem run_select_ok {read : Db → Except DbError α} {w : World} (h : read w.db = .ok a)
    (site : Site)
    (g : α → Api β) : ((select site read).bind g).run noFault w = (g a).run noFault w := by
  rw [run_select_bind, h]
  rfl

theorem run_select_error {read : Db → Except DbError α} {w : World} (h : read w.db = .error e)
    (site : Site) (g : α → Api β) :
    ((select site read).bind g).run noFault w = (.error (.db e), w) := by
  rw [run_select_bind, h]
  rfl

theorem run_target_bind (args : MenuItemsArgs) (g : Option String → Api β) (w : World) :
    ((args.target).bind g).run noFault w =
      match args.targetIn w.db with
      | .ok restaurant => (g restaurant).run noFault w
      | .error e => (.error (.db e), w) := by
  rw [MenuItemsArgs.target, MenuItemsArgs.targetIn]
  cases given args.tableId with
  | none => rfl
  | some t =>
    cases given args.restaurantId with
    | some r => rfl
    | none =>
      dsimp only
      rw [Prog.bind_eq, Prog.bind_assoc]
      cases htable : tableById t w.db with
      | error e => exact run_select_error htable _ _
      | ok table => exact run_select_ok htable _ _

theorem run_menuPage (pf : Platform) (plan : RowOrder) (args : MenuItemsArgs) (w : World) :
    ((getPaginatedMenuItems pf plan args).run noFault w).1 =
      listing (fun r => r.categoryId.value) (fun r => menuItemFromDb r.like)
        (args.matching pf w.db) plan args.limit args.offset := by
  rw [getPaginatedMenuItems, Prog.bind_eq, run_target_bind, MenuItemsArgs.matching]
  cases args.targetIn w.db with
  | error e => rfl
  | ok restaurant =>
    dsimp only [Except.bind]
    rw [Prog.bind_eq]
    cases hrows : args.rows pf restaurant w.db with
    | error e =>
      rw [run_select_error (by rw [hrows]; rfl)]
      rfl
    | ok rows =>
      rw [run_select_ok (by rw [hrows]; rfl), Prog.bind_eq]
      rw [listing, listed, (orderBy_perm plan _ rows).length_eq]
      cases hpage : DineFlow.page args.limit args.offset
          (orderBy plan (fun r => r.categoryId.value) rows) with
      | error e => rw [run_select_error (by rw [hrows]; exact hpage)]
      | ok rows' =>
        rw [run_select_ok (by rw [hrows]; exact hpage)]
        rfl

theorem run_usersPage (pf : Platform) (plan : RowOrder) (args : UsersArgs) (w : World) :
    ((getPaginatedUsers pf plan args).run noFault w).1 =
      listing UserRow.registered (fun u => u) (args.rows pf w.db) plan args.limit args.offset := by
  rw [getPaginatedUsers, Prog.bind_eq]
  cases hrows : args.rows pf w.db with
  | error e =>
    rw [run_select_error (by rw [hrows]; rfl)]
    rfl
  | ok rows =>
    rw [run_select_ok (by rw [hrows]; rfl), Prog.bind_eq]
    rw [listing, listed, (orderBy_perm plan _ rows).length_eq]
    cases hpage : DineFlow.page args.limit args.offset (orderBy plan UserRow.registered rows) with
    | error e => rw [run_select_error (by rw [hrows]; exact hpage)]
    | ok rows' =>
      rw [run_select_ok (by rw [hrows]; exact hpage)]
      dsimp only
      rw [List.map_id']
      rfl

/-- The query for one page of the dishes, and the one for a page of the users. -/
def menuItemsQuery (pf : Platform) (args : MenuItemsArgs) (w : World) (plan : RowOrder)
    (limit offset : Int) : Except ApiError (Page MenuItem) :=
  ((getPaginatedMenuItems pf plan (args.page limit offset)).run noFault w).1

def usersQuery (pf : Platform) (args : UsersArgs) (w : World) (plan : RowOrder)
    (limit offset : Int) : Except ApiError (Page UserRow) :=
  ((getPaginatedUsers pf plan (args.page limit offset)).run noFault w).1

theorem nodup_of_ids {rows : List ρ} (id : β → Uuid) {view : ρ → β}
    (h : UniqueKey (fun r => id (view r)) rows) : (rows.map view).Nodup := by
  apply List.Nodup.of_map id
  rw [List.map_map]
  exact h

theorem matching_subset {args : MenuItemsArgs} (h : args.matching pf db = .ok rows) :
    ∃ p, rows = db.menuItems.filter p := by
  obtain ⟨restaurant, _, hrows⟩ := bind_ok h
  rw [MenuItemsArgs.rows] at hrows
  split at hrows
  · exact ⟨_, (Except.ok.inj hrows).symm⟩
  all_goals cases hrows

theorem menuItems_paged_iff (pf : Platform) (args : MenuItemsArgs) (w : World) (hL : 0 < L) :
    Paged (menuItemsQuery pf args w) L
        ((args.matching pf w.db).map (List.map fun r => menuItemFromDb r.like)) ↔
      ∀ rows, args.matching pf w.db = .ok rows →
        Unsplit (fun r => r.categoryId.value) L rows := by
  have hquery : menuItemsQuery pf args w = listing (fun r => r.categoryId.value)
      (fun r => menuItemFromDb r.like) (args.matching pf w.db) := by
    funext plan limit offset
    exact run_menuPage pf plan (args.page limit offset) w
  rw [hquery]
  refine paged_iff hL fun rows hrows => nodup_of_ids MenuItem.id ?_
  obtain ⟨p, hp⟩ := matching_subset hrows
  exact hp ▸ w.db.valid.menuItemIds.filter p

theorem users_paged_iff (pf : Platform) (args : UsersArgs) (w : World) (hL : 0 < L) :
    Paged (usersQuery pf args w) L (args.rows pf w.db) ↔
      ∀ rows, args.rows pf w.db = .ok rows → Unsplit UserRow.registered L rows := by
  have hquery : usersQuery pf args w =
      listing UserRow.registered (fun u => u) (args.rows pf w.db) := by
    funext plan limit offset
    exact run_usersPage pf plan (args.page limit offset) w
  have hview : (args.rows pf w.db).map (List.map fun u => u) = args.rows pf w.db := by
    cases args.rows pf w.db <;> simp [Except.map]
  have hnodup (rows : List UserRow) (h : args.rows pf w.db = .ok rows) :
      (rows.map fun u => u).Nodup := by
    obtain ⟨_, _, rfl⟩ := map_ok h
    exact nodup_of_ids UserRow.id (w.db.valid.userIds.filter _)
  have hpaged : Paged (listing UserRow.registered _ _) L _ ↔ _ := paged_iff hL hnodup
  rwa [hview, ← hquery] at hpaged

/-- The pages of a listing are complete and free of duplicates exactly if no rows that share the
column it is ordered by fall on different pages. -/
theorem pages_complete_iff (pf : Platform) (w : World) (L : Nat) (hL : 1 ≤ L) :
    (∀ args : MenuItemsArgs,
      Paged (menuItemsQuery pf args w) L
          ((args.matching pf w.db).map (List.map fun r => menuItemFromDb r.like)) ↔
        ∀ rows, args.matching pf w.db = .ok rows →
          Unsplit (fun r => r.categoryId.value) L rows) ∧
    ∀ args : UsersArgs,
      Paged (usersQuery pf args w) L (args.rows pf w.db) ↔
        ∀ rows, args.rows pf w.db = .ok rows → Unsplit UserRow.registered L rows :=
  ⟨fun args => menuItems_paged_iff pf args w hL, fun args => users_paged_iff pf args w hL⟩

/-- Two dishes of one category. -/
def twoDishTables : Tables :=
  { sampleTables with
    menuItems := [⟨sampleId 4, sampleId 1, sampleId 3, "Injera", none, none, none, 1, none, true,
        none, 0, 0⟩,
      ⟨sampleId 6, sampleId 1, sampleId 3, "Shiro", none, none, none, 1, none, true, none, 0, 0⟩] }

theorem twoDishTables_valid : twoDishTables.Valid := by
  constructor <;> simp [twoDishTables, sampleTables, UniqueKey, Refs, FitsNumeric]
  decide

def twoDishWorld : World := ⟨⟨twoDishTables, twoDishTables_valid⟩, .empty, .empty⟩

/-- The dishes of the category, as the home page lists them. -/
def ofCategory : MenuItemsArgs := ⟨none, some (sampleId 3).text, none, none, none, 0, 0⟩

theorem dishes_not_paged :
    ¬Paged (menuItemsQuery samplePlatform ofCategory twoDishWorld) 1
      ((ofCategory.matching samplePlatform twoDishWorld.db).map
        (List.map fun r => menuItemFromDb r.like)) := by
  intro h
  have hrows : ofCategory.matching samplePlatform twoDishWorld.db =
      .ok twoDishTables.menuItems := by
    decide +kernel
  have hunsplit := (menuItems_paged_iff samplePlatform ofCategory twoDishWorld Nat.one_pos).1 h _
    hrows
  exact absurd hunsplit (by decide +kernel)

theorem pages_complete_iff_sample :
    Paged (menuItemsQuery samplePlatform ofCategory twoDishWorld) 2
      ((ofCategory.matching samplePlatform twoDishWorld.db).map
        (List.map fun r => menuItemFromDb r.like)) := by
  have hrows : ofCategory.matching samplePlatform twoDishWorld.db =
      .ok twoDishTables.menuItems := by
    decide +kernel
  refine ((pages_complete_iff samplePlatform twoDishWorld 2 (by decide)).1 ofCategory).2
    fun rows h => ?_
  cases hrows.symm.trans h
  decide +kernel

end DineFlow
