import DineFlow.Listing
import DineFlow.MenuMutations

namespace DineFlow
open Atomic Relational
set_option autoImplicit true

/-- What a customer sees of a menu item. -/
structure MenuLine where
  id : Uuid
  name : String
  price : Int
  isAvailable : Bool
  deriving DecidableEq, Repr

def MenuItem.line (i : MenuItem) : MenuLine := ⟨i.id, i.name, i.price, i.isAvailable⟩

def MenuItemRow.line (r : MenuItemRow) : MenuLine := ⟨r.id, r.name, r.price, r.isAvailable⟩

def Menu.lines (m : Menu) : List MenuLine :=
  m.categories.flatMap fun c => c.items.map MenuItem.line

/-- The two reads of a table's menu: by category and as one list. -/
inductive MenuRead where
  | menu
  | items
  deriving DecidableEq, Repr

namespace MenuRead

def key : MenuRead → String → String
  | .menu => menuKey
  | .items => itemsKey

def prog (env : Env) (plan : RowOrder) (t : String) : MenuRead → Api (List MenuLine)
  | .menu => do
    let m ← getMenuByTableId env plan t
    return m.lines
  | .items => do
    let is ← findByTable env plan t
    return is.map MenuItem.line

/-- What a read lists, in any order, or `none` if it fails. -/
def listing (env : Env) (plan : RowOrder) (t : String) (r : MenuRead) (w : World) :
    Option (Multiset MenuLine) :=
  match ((r.prog env plan t).run noFault w).1 with
  | .ok lines => some lines
  | .error _ => none

/-- The rows a read shows at a table: by category those of the restaurant's categories, as one
list those of the restaurant. -/
def visible (table : TableRow) (db : Db) : MenuRead → MenuItemRow → Bool
  | .menu, row => hasKey MenuCategoryRow.id
      (db.menuCategories.filter fun c => c.restaurantId = table.restaurantId) row.categoryId &&
    row.isAvailable
  | .items, row => row.restaurantId = table.restaurantId && row.isAvailable

/-- The listing that the current rows give. -/
def fresh (t : String) (db : Db) (r : MenuRead) : Option (Multiset MenuLine) :=
  match tableById t db with
  | .ok (some table) => some (shown (r.visible table db) MenuItemRow.line db.menuItems)
  | _ => none

/-- The listing that a cached value gives. -/
def cached : MenuRead → Cached → Option (Multiset MenuLine)
  | .menu, .menu m => some (formatMenu m).lines
  | .items, .items rows => some (rows.map fun r => (menuItemFromDb r).line : List MenuLine)
  | _, _ => none

end MenuRead

theorem formatMenu_lines (m : CachedMenu) : (formatMenu m).lines =
    m.categories.flatMap fun c => c.items.map fun r => (menuItemFromDb r).line := by
  simp only [formatMenu, Menu.lines, List.flatMap_map, List.map_map, Function.comp_def]

theorem MenuRead.cached_json (r : MenuRead) (c : Cached) : r.cached c.json = r.cached c := by
  have hrows (rows : List MenuItemRowLike) : (rows.map MenuItemRowLike.json).map
      (fun r => (menuItemFromDb r).line) = rows.map fun r => (menuItemFromDb r).line := by
    rw [List.map_map]
    rfl
  cases r with
  | menu =>
    cases c with
    | menu m =>
      simp only [cached, Cached.json, formatMenu_lines, List.flatMap_map, CategoryWithItems.json,
        hrows]
    | cart => rfl
    | items => rfl
  | items =>
    cases c with
    | items rows => simp only [cached, Cached.json, hrows]
    | cart => rfl
    | menu => rfl

/-- The items of a restaurant's categories are the rows of the table they belong to. -/
theorem categoryItems_perm (plan : RowOrder) (restaurant : Uuid) (db : Db) :
    ((categoryRows plan restaurant db).flatMap fun c => categoryItems plan c.id db).Perm
      (db.menuItems.filter fun r => hasKey MenuCategoryRow.id
        (db.menuCategories.filter fun c => c.restaurantId = restaurant) r.categoryId &&
          r.isAvailable) := by
  refine ((orderBy_perm plan _ _).flatMap_right _).trans ?_
  refine (List.Perm.flatMap_left _ fun c _ => plan.arrange_perm _).trans ?_
  exact (db.valid.categoryIds.filter _).flatMap_perm MenuItemRow.categoryId _ db.menuItems

/-- The menu of a table, as the rows give it. -/
def menuAt (plan : RowOrder) (t : String) (table : TableRow) (db : Db) : CachedMenu :=
  ⟨(categoryRows plan table.restaurantId db).map fun c => c.withItems (categoryItems plan c.id db),
    table.restaurantId, t⟩

theorem run_loadMenu (plan : RowOrder) (ht : tableById t w.db = .ok (some table)) :
    (loadMenu plan t).run noFault w = (.ok (menuAt plan t table w.db), w) := by
  let load (c : MenuCategoryRow) : Api CategoryWithItems :=
    (select .menuCategoryItems fun db => .ok (categoryItems plan c.id db)).bind fun rows =>
      .ret (c.withItems rows)
  have hload (c : MenuCategoryRow) :
      (load c).run noFault w = (.ok (c.withItems (categoryItems plan c.id w.db)), w) := by
    rw [run_select_bind]
    rfl
  have hall : ∀ c ∈ categoryRows plan table.restaurantId w.db, ∃ y,
      (load c).run noFault w = (.ok y, w) ∧ y = c.withItems (categoryItems plan c.id w.db) :=
    fun c _ => ⟨_, hload c, rfl⟩
  obtain ⟨cs, hcs, hmap⟩ := Prog.run_mapAll hall
  rw [List.map_id'] at hmap
  have hrun : (loadMenu plan t).run noFault w =
      ((Prog.mapAll load (categoryRows plan table.restaurantId w.db)).bind fun cs =>
        .ret ⟨cs, table.restaurantId, t⟩).run noFault w := by
    rw [loadMenu, Prog.bind_eq, run_select_bind, ht]
    rfl
  rw [hrun, Prog.run_bind_ok hcs, hmap]
  rfl

theorem menuAt_fresh (plan : RowOrder) (ht : tableById t db = .ok (some table)) :
    MenuRead.menu.cached (.menu (menuAt plan t table db)) = MenuRead.menu.fresh t db := by
  rw [MenuRead.cached, formatMenu_lines, MenuRead.fresh, ht, menuAt, List.flatMap_map]
  refine congrArg some (Multiset.coe_eq_coe.2 ?_)
  have hperm := (categoryItems_perm plan table.restaurantId db).map MenuItemRow.line
  rw [List.map_flatMap] at hperm
  refine List.Perm.trans (.of_eq ?_) hperm
  simp only [MenuCategoryRow.withItems, List.map_map]
  rfl

theorem run_loadItems (plan : RowOrder) (ht : tableById t w.db = .ok (some table)) :
    (loadItems plan t).run noFault w =
      (.ok ((availableRows plan table.restaurantId w.db).map MenuItemRow.like), w) := by
  rw [loadItems, Prog.bind_eq, run_select_bind, ht]
  rfl

theorem availableRows_fresh (plan : RowOrder) (ht : tableById t db = .ok (some table)) :
    MenuRead.items.cached
        (.items ((availableRows plan table.restaurantId db).map MenuItemRow.like)) =
      MenuRead.items.fresh t db := by
  rw [MenuRead.cached, MenuRead.fresh, ht, List.map_map]
  exact congrArg some (Multiset.coe_eq_coe.2 ((plan.arrange_perm _).map MenuItemRow.line))

/-- A load gives what the current rows list, and fails only where they list nothing. -/
def MenuRead.Loads (r : MenuRead) (t : String) (w : World) (load : Api α) (c : α → Cached) :
    Prop :=
  (∃ a, load.run noFault w = (.ok a, w) ∧ (r.fresh t w.db).isSome ∧
    r.cached (c a) = r.fresh t w.db) ∨
  ∃ e, load.run noFault w = (.error e, w) ∧ r.fresh t w.db = none

theorem loadMenu_refused (plan : RowOrder) {w : World} (ht : tableById t w.db = .error e) :
    (loadMenu plan t).run noFault w = (.error (.db e), w) := by
  rw [loadMenu, Prog.bind_eq, run_select_bind, ht]
  rfl

theorem loadMenu_missing (plan : RowOrder) {w : World} (ht : tableById t w.db = .ok none) :
    (loadMenu plan t).run noFault w = (.error (.notFound "Table not found"), w) := by
  rw [loadMenu, Prog.bind_eq, run_select_bind, ht]
  rfl

theorem loadItems_refused (plan : RowOrder) {w : World} (ht : tableById t w.db = .error e) :
    (loadItems plan t).run noFault w = (.error (.db e), w) := by
  rw [loadItems, Prog.bind_eq, run_select_bind, ht]
  rfl

theorem loadItems_missing (plan : RowOrder) {w : World} (ht : tableById t w.db = .ok none) :
    (loadItems plan t).run noFault w = (.error (.notFound "Table not found"), w) := by
  rw [loadItems, Prog.bind_eq, run_select_bind, ht]
  rfl

theorem loadMenu_loads (plan : RowOrder) (t : String) (w : World) :
    MenuRead.menu.Loads t w (loadMenu plan t) .menu := by
  cases ht : tableById t w.db with
  | error e => exact .inr ⟨_, loadMenu_refused plan ht, by rw [MenuRead.fresh, ht]⟩
  | ok table =>
    cases table with
    | none => exact .inr ⟨_, loadMenu_missing plan ht, by rw [MenuRead.fresh, ht]⟩
    | some table =>
      exact .inl ⟨_, run_loadMenu plan ht, by rw [MenuRead.fresh, ht]; rfl, menuAt_fresh plan ht⟩

theorem loadItems_loads (plan : RowOrder) (t : String) (w : World) :
    MenuRead.items.Loads t w (loadItems plan t) .items := by
  cases ht : tableById t w.db with
  | error e => exact .inr ⟨_, loadItems_refused plan ht, by rw [MenuRead.fresh, ht]⟩
  | ok table =>
    cases table with
    | none => exact .inr ⟨_, loadItems_missing plan ht, by rw [MenuRead.fresh, ht]⟩
    | some table =>
      exact .inl ⟨_, run_loadItems plan ht, by rw [MenuRead.fresh, ht]; rfl,
        availableRows_fresh plan ht⟩

namespace MenuRead

theorem run_menu (env : Env) (plan : RowOrder) (t : String) (w : World) :
    (prog env plan t .menu).run noFault w =
      ((getMenuByTableId.withCached env plan t ((w.redis.get (key .menu t)).map Entry.value)).bind
        fun m => .ret m.lines).run noFault w := by
  rw [prog, getMenuByTableId, Prog.bind_eq, Prog.bind_eq, Prog.bind_assoc,
    run_getCachedObject_bind]
  rfl

theorem run_items (env : Env) (plan : RowOrder) (t : String) (w : World) :
    (prog env plan t .items).run noFault w =
      ((findByTable.withCached env plan t ((w.redis.get (key .items t)).map Entry.value)).bind
        fun is => .ret (is.map MenuItem.line)).run noFault w := by
  rw [prog, findByTable, Prog.bind_eq, Prog.bind_eq, Prog.bind_assoc, run_getCachedObject_bind]
  rfl

theorem run_hit (r : MenuRead) (env : Env) (plan : RowOrder)
    (h : w.redis.get (r.key t) = some e) :
    r.listing env plan t w = r.cached e.value ∧ ((r.prog env plan t).run noFault w).2 = w := by
  cases r with
  | menu =>
    rw [listing, run_menu, h, Option.map_some]
    cases e.value <;> exact ⟨rfl, rfl⟩
  | items =>
    rw [listing, run_items, h, Option.map_some]
    cases e.value with
    | items rows => exact ⟨congrArg some (Multiset.coe_eq_coe.2 (.of_eq List.map_map)), rfl⟩
    | cart => exact ⟨rfl, rfl⟩
    | menu => exact ⟨rfl, rfl⟩

theorem run_miss (r : MenuRead) (env : Env) (plan : RowOrder)
    (h : w.redis.get (r.key t) = none) :
    r.listing env plan t w = r.fresh t w.db ∧
      (((r.prog env plan t).run noFault w).2 = w ∨
        ∃ e, (r.fresh t w.db).isSome ∧ r.cached e.value = r.fresh t w.db ∧
          ((r.prog env plan t).run noFault w).2 = { w with redis := w.redis.set (r.key t) e }) := by
  cases r with
  | menu =>
    rw [listing, run_menu, h, Option.map_none, getMenuByTableId.withCached, Prog.bind_eq,
      Prog.bind_assoc]
    rcases loadMenu_loads plan t w with ⟨m, hm, hs, hc⟩ | ⟨e, he, hn⟩
    · rw [Prog.run_bind_ok hm]
      exact ⟨hc, .inr ⟨⟨(Cached.menu m).json, some (expiry env.now 300)⟩, hs,
        (cached_json _ _).trans hc, rfl⟩⟩
    · rw [Prog.run_bind_error he, hn]
      exact ⟨rfl, .inl rfl⟩
  | items =>
    rw [listing, run_items, h, Option.map_none, findByTable.withCached, Prog.bind_eq,
      Prog.bind_assoc]
    rcases loadItems_loads plan t w with ⟨rows, hrows, hs, hc⟩ | ⟨e, he, hn⟩
    · rw [Prog.run_bind_ok hrows]
      refine ⟨.trans ?_ hc, .inr ⟨⟨(Cached.items rows).json, some (expiry env.now 300)⟩, hs,
        (cached_json _ _).trans hc, rfl⟩⟩
      exact congrArg some (Multiset.coe_eq_coe.2 (.of_eq List.map_map))
    · rw [Prog.run_bind_error he, hn]
      exact ⟨rfl, .inl rfl⟩

end MenuRead

end DineFlow
