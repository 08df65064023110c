import DineFlow.SeedScript

namespace DineFlow.Seed
open Atomic Relational
set_option autoImplicit true

/-- The tables without the menu and the orders of a restaurant, and without any order line. -/
def withoutMenu (rid : Uuid) (t : Tables) : Tables :=
  { t with
    orderItems := []
    orders := t.orders.filter fun o => !decide (o.restaurantId = rid)
    menuItems := t.menuItems.filter fun r => !decide (r.restaurantId = rid) }

/-- What is left when the rows that stand in the way of the new menu are deleted. -/
def cleared (rid : Uuid) (t : Tables) : Tables :=
  let t := { t with cartItems := [], favorites := [] }
  if t.menuItems.filter (fun r => r.restaurantId = rid) = [] then t else withoutMenu rid t

section Clear

variable (rid : Uuid) {db : Db}

theorem run_deleteMenu (hcart : db.cartItems = []) (hfavorites : db.favorites = []) :
    ∃ db', (deleteMenu rid).run noFault db = (.ok (), db') ∧
      db'.toTables = withoutMenu rid db.toTables := by
  rw [deleteMenu, Prog.bind_eq, run_change_total_bind, Prog.bind_eq]
  have ht₁ : (db.deleteOrderItems fun r => r.menuItemId = r.menuItemId).toTables =
      { db.toTables with orderItems := [] } := by
    simp [Db.deleteOrderItems]
  generalize db.deleteOrderItems (fun r => r.menuItemId = r.menuItemId) = db₁ at ht₁ ⊢
  have hlines : refersTo OrderItemRow.orderId db₁.orderItems OrderRow.id db₁.orders
      (fun o => o.restaurantId = rid) = false := by
    rw [ht₁]
    exact refersTo_nil _ _ _ _
  obtain ⟨db₂, horders, ht₂⟩ := Db.deleteOrders_ok hlines
  have huse : db₂.itemsInUse (fun r => r.restaurantId = rid) = false := by
    rw [Tables.itemsInUse, ht₂, ht₁]
    dsimp only
    rw [hcart, refersTo_nil, refersTo_nil]
    rfl
  obtain ⟨db₃, hitems, ht₃⟩ := Db.deleteMenuItems_ok huse
  rw [run_change_bind_ok horders]
  refine ⟨db₃, run_change_ok hitems, ?_⟩
  rw [ht₃, Tables.withoutItems, ht₂, ht₁, withoutMenu, hfavorites]
  rfl

theorem run_clearItems (db : Db) :
    ∃ db', (clearItems rid).run noFault db = (.ok (), db') ∧
      db'.toTables = cleared rid db.toTables := by
  rw [clearItems, Prog.bind_eq, run_change_total_bind, Prog.bind_eq, run_change_total_bind,
    Prog.bind_eq, run_read_bind]
  have ht : ((db.deleteCartItems fun r => r.menuItemId = r.menuItemId).deleteFavorites
      fun r => r.menuItemId = r.menuItemId).toTables =
      { db.toTables with cartItems := [], favorites := [] } := by
    simp [Db.deleteFavorites, Db.deleteCartItems]
  generalize (db.deleteCartItems fun r => r.menuItemId = r.menuItemId).deleteFavorites
    (fun r => r.menuItemId = r.menuItemId) = db₁ at ht ⊢
  rw [itemsOf, cleared, ← ht]
  split
  · exact ⟨db₁, rfl, rfl⟩
  · apply run_deleteMenu
    · rw [ht]
    · rw [ht]

theorem cleared_items : ∀ r ∈ (cleared rid t).menuItems, r.restaurantId ≠ rid := by
  intro r hr he
  rw [cleared] at hr
  dsimp only at hr
  split at hr
  case isTrue h =>
    exact List.filter_eq_nil_iff.1 h r hr (decide_eq_true he)
  case isFalse h =>
    have hkept := (List.mem_filter.1 hr).2
    simp [he] at hkept

theorem run_clearCategories_ok
    (hfree : ∀ r ∈ db.menuItems, ∀ c ∈ db.menuCategories, c.id = r.categoryId →
      c.restaurantId ≠ rid) :
    ∃ db', (clearCategories rid).run noFault db = (.ok (), db') ∧
      db'.toTables = { db.toTables with
        menuCategories := db.menuCategories.filter fun c => !decide (c.restaurantId = rid) } := by
  rw [clearCategories, Prog.bind_eq, run_read_bind]
  split
  case isTrue h =>
    refine ⟨db, rfl, ?_⟩
    have hkept : db.menuCategories.filter (fun c => !decide (c.restaurantId = rid)) =
        db.menuCategories := by
      rw [List.filter_eq_self]
      intro c hc
      simpa using List.filter_eq_nil_iff.1 h c hc
    rw [hkept]
  case isFalse h =>
    have hrefs : refersTo MenuItemRow.categoryId db.menuItems MenuCategoryRow.id db.menuCategories
        (fun c => c.restaurantId = rid) = false := by
      rw [refersTo, List.any_eq_false]
      intro c hc hused
      simp only [Bool.and_eq_true, decide_eq_true_eq] at hused
      obtain ⟨r, hr, he⟩ := hasKey_iff.1 hused.2
      exact hfree r hr c hc he.symm hused.1
    obtain ⟨db', hdelete, ht⟩ := Db.deleteCategories_ok hrefs
    exact ⟨db', run_change_ok hdelete, ht⟩

theorem run_clearCategories_shared (hr : r ∈ db.menuItems) (hc : c ∈ db.menuCategories)
    (he : c.id = r.categoryId) (hown : c.restaurantId = rid) :
    ∃ e, (clearCategories rid).run noFault db = (.error e, db) := by
  rw [clearCategories, Prog.bind_eq, run_read_bind]
  split
  case isTrue h =>
    exact absurd (decide_eq_true hown) (List.filter_eq_nil_iff.1 h c hc)
  case isFalse h =>
    have hrefs : refersTo MenuItemRow.categoryId db.menuItems MenuCategoryRow.id db.menuCategories
        (fun c => c.restaurantId = rid) = true := by
      rw [refersTo, List.any_eq_true]
      exact ⟨c, hc, Bool.and_eq_true_iff.2 ⟨decide_eq_true hown, hasKey_iff.2 ⟨r, hr, he.symm⟩⟩⟩
    have herror : db.deleteCategories (fun c => c.restaurantId = rid) =
        .error (.rejected "menu_categories") := dif_neg (by rw [hrefs]; decide)
    exact ⟨_, run_change_error herror⟩

end Clear

section Menu

variable (env : SeedEnv) (rid : Uuid) {db : Db}

theorem categoryRow_accepted {c : SeedCategory} (hc : c ∈ seedCategories)
    (hid : ∀ r ∈ db.menuCategories, r.id ≠ env.categoryId n)
    (hr : ∃ r ∈ db.restaurants, r.id = rid) :
    (categoryRow env rid n c).accepted db.toTables = true := by
  have hkey : hasKey RestaurantRow.id db.restaurants rid = true := hasKey_iff.2 hr
  obtain ⟨hname, hnameAm, horder, -⟩ := seedCategories_fit c hc
  simp [MenuCategoryRow.accepted, categoryRow, hasKey_of_fresh hid, hkey, hname, hnameAm, horder]

theorem run_insertCategories {cs : List SeedCategory} (hcs : ∀ c ∈ cs, c ∈ seedCategories)
    (hdraws : Draws MenuCategoryRow.id db.menuCategories env.categoryId n cs.length)
    (hr : ∃ r ∈ db.restaurants, r.id = rid) :
    ∃ items added db', (insertCategories env rid n cs).run noFault db = (.ok items, db') ∧
      db'.toTables = { db.toTables with menuCategories := db.menuCategories ++ added } ∧
      (∀ c ∈ added, c.restaurantId = rid) ∧ items.map Prod.snd = cs.flatMap SeedCategory.items ∧
      ∀ p ∈ items, ∃ c ∈ added, c.id = p.1 := by
  induction cs generalizing n db with
  | nil => exact ⟨[], [], db, rfl, by rw [List.append_nil], by simp, rfl, by simp⟩
  | cons c cs ih =>
    obtain ⟨hc, hcs⟩ := List.forall_mem_cons.1 hcs
    obtain ⟨db₁, hinsert, ht₁⟩ :=
      Db.insertCategory_ok (categoryRow_accepted env rid hc hdraws.fresh hr)
    have hdraws₁ :
        Draws MenuCategoryRow.id db₁.menuCategories env.categoryId (n + 1) cs.length := by
      rw [ht₁]
      exact hdraws.used rfl
    have hr₁ : ∃ r ∈ db₁.restaurants, r.id = rid := by
      rw [ht₁]
      exact hr
    obtain ⟨items, added, db', hrun, ht, hown, hitems, hlisted⟩ := ih hcs hdraws₁ hr₁
    refine ⟨c.items.map (fun i => (env.categoryId n, i)) ++ items,
      categoryRow env rid n c :: added, db', ?_, ?_, ?_, ?_, ?_⟩
    · rw [insertCategories, Prog.bind_eq, run_change_bind_ok hinsert, Prog.bind_eq,
        Prog.run_bind_ok hrun]
      rfl
    · rw [ht, ht₁, List.append_assoc, List.singleton_append]
    · exact List.forall_mem_cons.2 ⟨rfl, hown⟩
    · simp [hitems, Function.comp_def]
    · intro p hp
      rcases List.mem_append.1 hp with hp | hp
      · obtain ⟨i, -, rfl⟩ := List.mem_map.1 hp
        exact ⟨_, List.mem_cons_self, rfl⟩
      · obtain ⟨c', hc', he⟩ := hlisted p hp
        exact ⟨c', List.mem_cons_of_mem _ hc', he⟩

theorem mem_itemRows (h : r ∈ itemRows env rid n ps) : ∃ k, ∃ p ∈ ps, r = itemRow env rid k p := by
  induction ps generalizing n with
  | nil => cases h
  | cons p ps ih =>
    rcases List.mem_cons.1 h with rfl | h
    · exact ⟨n, p, List.mem_cons_self, rfl⟩
    · obtain ⟨k, q, hq, he⟩ := ih h
      exact ⟨k, q, List.mem_cons_of_mem p hq, he⟩

theorem itemRows_ids (ps : List (Uuid × SeedItem)) :
    (itemRows env rid n ps).map MenuItemRow.id = (List.range' n ps.length).map env.itemId := by
  induction ps generalizing n with
  | nil => rfl
  | cons p ps ih => exact congrArg (env.itemId n :: ·) ih

theorem itemRow_fits {i : SeedItem} (hi : ∃ c ∈ seedCategories, i ∈ c.items)
    (hc : ∃ c ∈ db.menuCategories, c.id = k) (hr : ∃ r ∈ db.restaurants, r.id = rid) :
    (itemRow env rid n (k, i)).wellFormed db.toTables = true := by
  obtain ⟨c, hcs, hmem⟩ := hi
  obtain ⟨hname, hprice, hprep⟩ := (seedCategories_fit c hcs).2.2.2 i hmem
  have hcategory : hasKey MenuCategoryRow.id db.menuCategories k = true := hasKey_iff.2 hc
  have hrestaurant : hasKey RestaurantRow.id db.restaurants rid = true := hasKey_iff.2 hr
  simp [MenuItemRow.wellFormed, itemRow, hcategory, hrestaurant, hprice, hprep]

theorem itemRow_stored {i : SeedItem} (hi : ∃ c ∈ seedCategories, i ∈ c.items) :
    (itemRow env rid n (k, i)).fits = true ∧
      (itemRow env rid n (k, i)).stored = itemRow env rid n (k, i) := by
  obtain ⟨c, hcs, hmem⟩ := hi
  obtain ⟨hname, _, _, hdescription, himage⟩ := (seedCategories_fit c hcs).2.2.2 i hmem
  constructor
  · simp [MenuItemRow.fits, itemRow, hname.fits, hdescription, himage]
  · simp [MenuItemRow.stored, itemRow, hname.cut]

/-- Rows that fit, with ids that are new and distinct. -/
structure ItemsFit (db : Db) (rows : List MenuItemRow) : Prop where
  ids : UniqueKey MenuItemRow.id (db.menuItems ++ rows)
  wellFormed : ∀ r ∈ rows, r.wellFormed db.toTables = true
  texts : ∀ r ∈ rows, r.fits = true ∧ r.stored = r

theorem ItemsFit.insertMenuItem (h : ItemsFit db (r :: rows)) :
    ∃ db', db.insertMenuItem r = .ok db' ∧
      db'.toTables = { db.toTables with menuItems := db.menuItems ++ [r] } ∧ ItemsFit db' rows := by
  obtain ⟨hr, hrows⟩ := List.forall_mem_cons.1 h.wellFormed
  obtain ⟨⟨hfits, hstored⟩, htexts⟩ := List.forall_mem_cons.1 h.texts
  obtain ⟨db', hinsert, ht⟩ : ∃ db', db.insertMenuItem r = .ok db' ∧
      db'.toTables = { db.toTables with menuItems := db.menuItems ++ [r.stored] } :=
    Db.checked_ok ⟨hasKey_of_fresh h.ids.fresh_of_append, hfits, hr⟩
  rw [hstored] at ht
  refine ⟨db', hinsert, ht, ?_, ?_, htexts⟩
  · rw [ht, List.append_assoc, List.singleton_append]
    exact h.ids
  · rw [ht]
    exact hrows

theorem insertItems_ok {rows : List MenuItemRow} (h : ItemsFit db rows) :
    ∃ db', insertAll Db.insertMenuItem rows db = .ok db' ∧
      db'.toTables = { db.toTables with menuItems := db.menuItems ++ rows } := by
  apply insertAll_ok (A := fun t rows => { t with menuItems := t.menuItems ++ rows })
    (I := ItemsFit)
  · intro t
    rw [List.append_nil]
  · intro t r rows
    rw [List.append_assoc, List.singleton_append]
  · exact fun db r rows h => h.insertMenuItem
  · exact h

/-- The new menu is added, and it is all of the restaurant. -/
theorem run_insertMenu
    (hcategories : Draws MenuCategoryRow.id db.menuCategories env.categoryId 0
      seedCategories.length)
    (hitems : Draws MenuItemRow.id db.menuItems env.itemId 0
      (seedCategories.flatMap SeedCategory.items).length)
    (hr : ∃ r ∈ db.restaurants, r.id = rid) :
    ∃ categories items db', (insertMenu env rid).run noFault db = (.ok (), db') ∧
      db'.toTables = { db.toTables with
        menuCategories := db.menuCategories ++ categories
        menuItems := db.menuItems ++ items } ∧
      (∀ c ∈ categories, c.restaurantId = rid) ∧ ∀ r ∈ items, r.restaurantId = rid := by
  obtain ⟨ps, categories, db₁, hrun, ht₁, hown, hps, hlisted⟩ :=
    run_insertCategories env rid (fun _ hc => hc) hcategories hr
  have hr₁ : ∃ r ∈ db₁.restaurants, r.id = rid := by
    rw [ht₁]
    exact hr
  have hids : UniqueKey MenuItemRow.id (db₁.menuItems ++ itemRows env rid 0 ps) := by
    rw [UniqueKey, List.map_append, itemRows_ids, ht₁, ← List.length_map Prod.snd, hps]
    exact hitems
  have hdish (p : Uuid × SeedItem) (hp : p ∈ ps) : ∃ c ∈ seedCategories, p.2 ∈ c.items := by
    apply List.mem_flatMap.1
    rw [← hps]
    exact List.mem_map_of_mem hp
  have hfit : ∀ r ∈ itemRows env rid 0 ps, r.wellFormed db₁.toTables = true := by
    intro r hmem
    obtain ⟨n, p, hp, rfl⟩ := mem_itemRows env rid hmem
    obtain ⟨c, hc, he⟩ := hlisted p hp
    refine itemRow_fits env rid (hdish p hp) ⟨c, ?_, he⟩ hr₁
    rw [ht₁]
    exact List.mem_append_right _ hc
  have htexts : ∀ r ∈ itemRows env rid 0 ps, r.fits = true ∧ r.stored = r := by
    intro r hmem
    obtain ⟨n, p, hp, rfl⟩ := mem_itemRows env rid hmem
    exact itemRow_stored env rid (hdish p hp)
  obtain ⟨db', hinsert, ht⟩ := insertItems_ok ⟨hids, hfit, htexts⟩
  refine ⟨categories, itemRows env rid 0 ps, db', ?_, ?_, hown, ?_⟩
  · rw [insertMenu, Prog.bind_eq, Prog.run_bind_ok hrun]
    exact run_change_ok hinsert
  · rw [ht, ht₁]
  · intro r hmem
    obtain ⟨n, p, -, rfl⟩ := mem_itemRows env rid hmem
    rfl

end Menu

end DineFlow.Seed
