import DineFlow.Reseed

namespace DineFlow.Seed
open Atomic Relational
set_option autoImplicit true

/-- The rows that belong to another restaurant. -/
def ofOthers (owner : ρ → Uuid) (rid : Uuid) (rows : List ρ) : List ρ :=
  rows.filter fun r => !decide (owner r = rid)

def othersFavorites (rid : Uuid) (t : Tables) : List FavoriteRow :=
  t.favorites.filter fun f =>
    t.menuItems.any fun r => decide (r.id = f.menuItemId) && !decide (r.restaurantId = rid)

def linesOf (o : OrderRow) (t : Tables) : List OrderItemRow :=
  t.orderItems.filter fun l => l.orderId = o.id

/-- Orders keep their lines, and what belongs to other restaurants is as it was. -/
structure Undamaged (rid : Uuid) (t t' : Tables) : Prop where
  lines : ∀ o ∈ t'.orders, linesOf o t' = linesOf o t
  items : ofOthers MenuItemRow.restaurantId rid t'.menuItems =
    ofOthers MenuItemRow.restaurantId rid t.menuItems
  categories : ofOthers MenuCategoryRow.restaurantId rid t'.menuCategories =
    ofOthers MenuCategoryRow.restaurantId rid t.menuCategories
  favorites : othersFavorites rid t' = othersFavorites rid t
  orders : ofOthers OrderRow.restaurantId rid t'.orders =
    ofOthers OrderRow.restaurantId rid t.orders

theorem Undamaged.refl (rid : Uuid) (t : Tables) : Undamaged rid t t :=
  ⟨fun _ _ => rfl, rfl, rfl, rfl, rfl⟩

/-- The script changes nothing or it completes, and other data is not damaged. -/
def SeedSafe (env : SeedEnv) (db : Db) : Prop :=
  (((main env).run noFault db).2 = db ∨ ((main env).run noFault db).1 = .ok ()) ∧
    Undamaged (demoId db) db.toTables ((main env).run noFault db).2.toTables

theorem seedSafe_of_error (h : (main env).run noFault db = (.error e, db')) :
    SeedSafe env db ↔ db' = db := by
  rw [SeedSafe, h]
  apply Iff.intro
  · intro hsafe
    exact hsafe.1.resolve_right (by simp)
  · intro he
    subst he
    exact ⟨.inl rfl, Undamaged.refl _ _⟩

theorem seedSafe_of_ok (h : (main env).run noFault db = (.ok (), db')) :
    SeedSafe env db ↔ Undamaged (demoId db) db.toTables db'.toTables := by
  rw [SeedSafe, h]
  exact and_iff_right (.inr rfl)

/-- A dish of another restaurant is filed under a category of the demo restaurant. -/
def CategoriesShared (db : Db) : Prop :=
  ∃ r ∈ db.menuItems, r.restaurantId ≠ demoId db ∧
    ∃ c ∈ db.menuCategories, c.id = r.categoryId ∧ c.restaurantId = demoId db

instance decidableRestaurantTaken (db : Db) : Decidable (RestaurantTaken db) :=
  inferInstanceAs (Decidable (_ ∧ _))

instance decidableTablesTaken (db : Db) : Decidable (TablesTaken db) :=
  inferInstanceAs (Decidable (_ ∧ _))

instance decidableCategoriesShared (db : Db) : Decidable (CategoriesShared db) :=
  inferInstanceAs (Decidable (∃ r ∈ db.menuItems, _))

/-- The script has nothing to add before the menu, and nothing to delete for it. -/
structure Settled (db : Db) : Prop where
  users : UsersPresent db
  table : ∃ t ∈ db.tables, t.id = demoTableId
  carts : db.cartItems = []
  favorites : db.favorites = []
  items : ∀ r ∈ db.menuItems, r.restaurantId ≠ demoId db

/-- What is deleted without regard to the restaurant is all of the demo restaurant. -/
structure OnlyDemo (db : Db) : Prop where
  favorites : ∀ f ∈ db.favorites, ∀ r ∈ db.menuItems, r.id = f.menuItemId →
    r.restaurantId = demoId db
  lines : (∃ r ∈ db.menuItems, r.restaurantId = demoId db) → ∀ l ∈ db.orderItems,
    ∀ o ∈ db.orders, l.orderId = o.id → o.restaurantId = demoId db

/-- Where the script stops, it has done nothing; where it does not, it deletes only demo data. -/
def Harmless (db : Db) : Prop :=
  if RestaurantTaken db then UsersPresent db
  else if TablesTaken db then UsersPresent db ∧ (bySlug db).isSome
  else if CategoriesShared db then Settled db
  else OnlyDemo db

section Growth

/-- The rows that are added before the menu. -/
structure Added where
  users : List UserRow
  restaurants : List RestaurantRow
  tables : List TableRow

def grown (t : Tables) (a : Added) : Tables :=
  { t with
    users := t.users ++ a.users
    restaurants := t.restaurants ++ a.restaurants
    tables := t.tables ++ a.tables }

theorem grown_eq_self_iff :
    grown t a = t ↔ a.users = [] ∧ a.restaurants = [] ∧ a.tables = [] := by
  cases t
  simp [grown]

theorem cleared_grown_eq_self_iff :
    cleared rid (grown t a) = t ↔ grown t a = t ∧ t.cartItems = [] ∧ t.favorites = [] ∧
      ∀ r ∈ t.menuItems, r.restaurantId ≠ rid := by
  apply Iff.intro
  · intro h
    have hitems : ∀ r ∈ t.menuItems, r.restaurantId ≠ rid := by
      rw [← h]
      exact cleared_items rid
    have hnone : (grown t a).menuItems.filter (fun r => r.restaurantId = rid) = [] := by
      rw [List.filter_eq_nil_iff]
      exact fun r hr => by simpa using hitems r hr
    rw [cleared, if_pos hnone] at h
    have hcarts := congrArg Tables.cartItems h
    have hfavorites := congrArg Tables.favorites h
    refine ⟨?_, hcarts.symm, hfavorites.symm, hitems⟩
    cases t
    cases hcarts
    cases hfavorites
    exact h
  · intro h
    obtain ⟨hgrown, hcarts, hfavorites, hitems⟩ := h
    have hnone : t.menuItems.filter (fun r => r.restaurantId = rid) = [] := by
      rw [List.filter_eq_nil_iff]
      exact fun r hr => by simpa using hitems r hr
    rw [hgrown, cleared, if_pos hnone, ← hcarts, ← hfavorites]

theorem cleared_menuItems (rid : Uuid) (t : Tables) :
    (cleared rid t).menuItems = ofOthers MenuItemRow.restaurantId rid t.menuItems := by
  rw [cleared]
  split
  case isTrue h =>
    refine (List.filter_eq_self.2 fun r hr => ?_).symm
    simpa using List.filter_eq_nil_iff.1 h r hr
  case isFalse h => rfl

theorem cleared_menuCategories (rid : Uuid) (t : Tables) :
    (cleared rid t).menuCategories = t.menuCategories := by
  rw [cleared]
  split <;> rfl

theorem cleared_restaurants (rid : Uuid) (t : Tables) :
    (cleared rid t).restaurants = t.restaurants := by
  rw [cleared]
  split <;> rfl

/-- The tables after a run that completes. -/
def reseeded (rid : Uuid) (t : Tables) (a : Added) (categories : List MenuCategoryRow)
    (items : List MenuItemRow) : Tables :=
  { cleared rid (grown t a) with
    menuCategories := ofOthers MenuCategoryRow.restaurantId rid t.menuCategories ++ categories
    menuItems := ofOthers MenuItemRow.restaurantId rid t.menuItems ++ items }

theorem ofOthers_append_own {owner : ρ → Uuid} (h : ∀ r ∈ added, owner r = rid) (rows : List ρ) :
    ofOthers owner rid (ofOthers owner rid rows ++ added) = ofOthers owner rid rows := by
  have hnone : added.filter (fun r => !decide (owner r = rid)) = [] := by
    rw [List.filter_eq_nil_iff]
    intro r hr
    simp [h r hr]
  simp [ofOthers, List.filter_append, hnone]

theorem othersFavorites_eq_nil_iff :
    othersFavorites rid t = [] ↔ ∀ f ∈ t.favorites, ∀ r ∈ t.menuItems, r.id = f.menuItemId →
      r.restaurantId = rid := by
  simp [othersFavorites, List.filter_eq_nil_iff]

theorem reseeded_favorites (rid : Uuid) (t : Tables) (a : Added)
    (categories : List MenuCategoryRow) (items : List MenuItemRow) :
    othersFavorites rid (reseeded rid t a categories items) = [] := by
  have hnone : (reseeded rid t a categories items).favorites = [] := by
    rw [reseeded, cleared]
    split <;> rfl
  rw [othersFavorites, hnone]
  rfl

theorem reseeded_lines_iff :
    (∀ o ∈ (reseeded rid t a categories items).orders,
      linesOf o (reseeded rid t a categories items) = linesOf o t) ↔
    ((∃ r ∈ t.menuItems, r.restaurantId = rid) → ∀ l ∈ t.orderItems, ∀ o ∈ t.orders,
      l.orderId = o.id → o.restaurantId = rid) := by
  by_cases h : ∃ r ∈ t.menuItems, r.restaurantId = rid
  case pos =>
    have hsome : (grown t a).menuItems.filter (fun r => r.restaurantId = rid) ≠ [] := by
      obtain ⟨r, hr, he⟩ := h
      exact List.ne_nil_of_mem (List.mem_filter.2 ⟨hr, decide_eq_true he⟩)
    rw [reseeded, cleared, if_neg hsome, imp_iff_right h]
    simp only [linesOf, withoutMenu, grown, List.filter_nil, List.mem_filter, Bool.not_eq_true',
      decide_eq_false_iff_not, @eq_comm _ [], List.filter_eq_nil_iff, decide_eq_true_eq, and_imp]
    grind
  case neg =>
    have hnone : (grown t a).menuItems.filter (fun r => r.restaurantId = rid) = [] := by
      rw [List.filter_eq_nil_iff]
      exact fun r hr he => h ⟨r, hr, of_decide_eq_true he⟩
    rw [reseeded, cleared, if_pos hnone]
    exact iff_of_true (fun _ _ => rfl) fun hex => absurd hex h

theorem reseeded_orders (rid : Uuid) (t : Tables) (a : Added)
    (categories : List MenuCategoryRow) (items : List MenuItemRow) :
    ofOthers OrderRow.restaurantId rid (reseeded rid t a categories items).orders =
      ofOthers OrderRow.restaurantId rid t.orders := by
  rw [reseeded, cleared]
  split
  · rfl
  · simp [ofOthers, withoutMenu, grown]

/-- Of all that is deleted, only favorites and order lines can be of others. -/
theorem reseeded_undamaged_iff (hcategories : ∀ c ∈ categories, c.restaurantId = rid)
    (hitems : ∀ r ∈ items, r.restaurantId = rid) :
    Undamaged rid t (reseeded rid t a categories items) ↔
      (∀ f ∈ t.favorites, ∀ r ∈ t.menuItems, r.id = f.menuItemId → r.restaurantId = rid) ∧
      ((∃ r ∈ t.menuItems, r.restaurantId = rid) → ∀ l ∈ t.orderItems, ∀ o ∈ t.orders,
        l.orderId = o.id → o.restaurantId = rid) := by
  rw [← othersFavorites_eq_nil_iff]
  apply Iff.intro
  · intro h
    refine ⟨?_, reseeded_lines_iff.1 h.lines⟩
    rw [← h.favorites, reseeded_favorites]
  · intro h
    obtain ⟨hfavorites, hlines⟩ := h
    exact {
      lines := reseeded_lines_iff.2 hlines
      items := ofOthers_append_own hitems t.menuItems
      categories := ofOthers_append_own hcategories t.menuCategories
      favorites := by rw [reseeded_favorites, hfavorites]
      orders := reseeded_orders rid t a categories items }

end Growth

section Runs

variable {env : SeedEnv} {db : Db}

theorem bySlug_congr {db' : Db} (h : db'.restaurants = db.restaurants) :
    bySlug db' = bySlug db := by
  rw [bySlug, h, bySlug]

theorem demoId_congr {db' : Db} (h : db'.restaurants = db.restaurants) :
    demoId db' = demoId db := by
  rw [demoId, bySlug_congr h, demoId]

theorem restaurantTaken_congr {db' : Db} (h : db'.restaurants = db.restaurants) :
    RestaurantTaken db' ↔ RestaurantTaken db := by
  rw [RestaurantTaken, bySlug_congr h, h, RestaurantTaken]

theorem tablesTaken_congr {db' : Db} (h : db'.tables = db.tables) :
    TablesTaken db' ↔ TablesTaken db := by
  rw [TablesTaken, h, TablesTaken]

theorem main_unset (h : given env.databaseUrl = none) :
    (main env).run noFault db = (.error .exit, db) := by
  rw [main, h]
  rfl

theorem run_main_users (hurl : given env.databaseUrl ≠ none) (hfresh : env.Fresh db) :
    ∃ users db', db'.toTables = { db.toTables with users := db.users ++ users } ∧
      (users = [] ↔ UsersPresent db) ∧
      (main env).run noFault db = ((ensureRestaurant env).bind fun rid => do
        ensureTables env rid
        clearItems rid
        clearCategories rid
        insertMenu env rid).run noFault db' := by
  obtain ⟨url, hurl⟩ := Option.ne_none_iff_exists'.1 hurl
  obtain ⟨users, db', hrun, ht, husers⟩ := run_users env (fun _ hu => hu) hfresh.users
  refine ⟨users, db', ht, husers, ?_⟩
  rw [main, hurl]
  exact Prog.run_bind_ok hrun

theorem main_restaurantTaken (hurl : given env.databaseUrl ≠ none) (hfresh : env.Fresh db)
    (h : RestaurantTaken db) :
    ∃ e users db', (main env).run noFault db = (.error e, db') ∧
      db'.toTables = grown db.toTables ⟨users, [], []⟩ ∧ (users = [] ↔ UsersPresent db) := by
  obtain ⟨users, db₁, ht, husers, hmain⟩ := run_main_users hurl hfresh
  have htaken : RestaurantTaken db₁ := (restaurantTaken_congr (by rw [ht])).2 h
  obtain ⟨e, hrun⟩ := run_ensureRestaurant_taken env htaken
  refine ⟨e, users, db₁, hmain.trans (Prog.run_bind_error hrun), ?_, husers⟩
  rw [ht, grown, List.append_nil, List.append_nil]

theorem run_main_restaurant (hurl : given env.databaseUrl ≠ none) (hfresh : env.Fresh db)
    (h : ¬RestaurantTaken db) :
    ∃ users restaurants db', db'.toTables = grown db.toTables ⟨users, restaurants, []⟩ ∧
      (users = [] ↔ UsersPresent db) ∧ (restaurants = [] ↔ (bySlug db).isSome) ∧
      (restaurants ≠ [] → ∀ r ∈ db.restaurants, r.id ≠ demoId db) ∧
      (∃ r ∈ db'.restaurants, r.id = demoId db) ∧
      (main env).run noFault db = ((ensureTables env (demoId db)).bind fun _ => do
        clearItems (demoId db)
        clearCategories (demoId db)
        insertMenu env (demoId db)).run noFault db' := by
  obtain ⟨users, db₁, ht₁, husers, hmain⟩ := run_main_users hurl hfresh
  have hsame : db₁.restaurants = db.restaurants := by rw [ht₁]
  obtain ⟨restaurants, db₂, hrun, ht₂, hex, hnil, hnew⟩ :=
    run_ensureRestaurant env (mt (restaurantTaken_congr hsame).1 h)
  rw [demoId_congr hsame] at hrun hex hnew
  rw [bySlug_congr hsame] at hnil
  rw [hsame] at hnew
  refine ⟨users, restaurants, db₂, ?_, husers, hnil, hnew, hex, ?_⟩
  · rw [ht₂, ht₁, grown, List.append_nil]
  · exact hmain.trans (Prog.run_bind_ok hrun)

theorem main_tablesTaken (hurl : given env.databaseUrl ≠ none) (hfresh : env.Fresh db)
    (hr : ¬RestaurantTaken db) (h : TablesTaken db) :
    ∃ e users restaurants db', (main env).run noFault db = (.error e, db') ∧
      db'.toTables = grown db.toTables ⟨users, restaurants, []⟩ ∧
      (users = [] ↔ UsersPresent db) ∧ (restaurants = [] ↔ (bySlug db).isSome) := by
  obtain ⟨users, restaurants, db₁, ht, husers, hnil, -, -, hmain⟩ :=
    run_main_restaurant hurl hfresh hr
  have htables : db₁.tables = db.tables := by rw [ht, grown, List.append_nil]
  obtain ⟨e, hrun⟩ : ∃ e, (ensureTables env (demoId db)).run noFault db₁ = (.error e, db₁) :=
    run_ensureTables_taken env ((tablesTaken_congr htables).2 h)
  exact ⟨e, users, restaurants, db₁, hmain.trans (Prog.run_bind_error hrun), ht, husers, hnil⟩

/-- What is added before the menu is what was missing. -/
structure Added.Missing (a : Added) (db : Db) : Prop where
  users : a.users = [] ↔ UsersPresent db
  restaurants : a.restaurants ≠ [] → ∀ r ∈ db.restaurants, r.id ≠ demoId db
  tables : a.tables = [] ↔ ∃ t ∈ db.tables, t.id = demoTableId

/-- When the script comes to the categories, the rows in the way of the menu are deleted. -/
theorem run_main_cleared (hurl : given env.databaseUrl ≠ none) (hfresh : env.Fresh db)
    (hr : ¬RestaurantTaken db) (ht : ¬TablesTaken db) :
    ∃ a db', a.Missing db ∧ db'.toTables = cleared (demoId db) (grown db.toTables a) ∧
      (∃ r ∈ db'.restaurants, r.id = demoId db) ∧
      (main env).run noFault db = ((clearCategories (demoId db)).bind fun _ =>
        insertMenu env (demoId db)).run noFault db' := by
  obtain ⟨users, restaurants, db₁, ht₁, husers, -, hnew, hex, hmain⟩ :=
    run_main_restaurant hurl hfresh hr
  have hsame : db₁.tables = db.tables := by rw [ht₁, grown, List.append_nil]
  obtain ⟨tables, db₂, hrun₂, ht₂, htables⟩ :=
    run_ensureTables env (mt (tablesTaken_congr hsame).1 ht) hex
  obtain ⟨db₃, hrun₃, ht₃⟩ := run_clearItems (demoId db) db₂
  rw [hsame] at htables
  refine ⟨⟨users, restaurants, tables⟩, db₃, ⟨husers, hnew, htables⟩, ?_, ?_, ?_⟩
  · rw [ht₃, ht₂, hsame, ht₁]
    rfl
  · rw [ht₃, cleared_restaurants, ht₂]
    exact hex
  · exact hmain.trans ((Prog.run_bind_ok hrun₂).trans (Prog.run_bind_ok hrun₃))

theorem main_categoriesShared (hurl : given env.databaseUrl ≠ none) (hfresh : env.Fresh db)
    (hr : ¬RestaurantTaken db) (ht : ¬TablesTaken db) (h : CategoriesShared db) :
    ∃ e a db', (main env).run noFault db = (.error e, db') ∧ a.Missing db ∧
      db'.toTables = cleared (demoId db) (grown db.toTables a) := by
  obtain ⟨a, db₁, hmissing, ht₁, -, hmain⟩ := run_main_cleared hurl hfresh hr ht
  obtain ⟨r, hmem, hother, c, hc, he, hown⟩ := h
  have hkept : r ∈ db₁.menuItems := by
    rw [ht₁, cleared_menuItems]
    exact List.mem_filter.2 ⟨hmem, by simpa using hother⟩
  have hcategory : c ∈ db₁.menuCategories := by
    rw [ht₁, cleared_menuCategories]
    exact hc
  obtain ⟨e, hrun⟩ := run_clearCategories_shared (demoId db) hkept hcategory he hown
  exact ⟨e, a, db₁, hmain.trans (Prog.run_bind_error hrun), hmissing, ht₁⟩

theorem main_completes (hurl : given env.databaseUrl ≠ none) (hfresh : env.Fresh db)
    (hr : ¬RestaurantTaken db) (ht : ¬TablesTaken db) (h : ¬CategoriesShared db) :
    ∃ a categories items db', (main env).run noFault db = (.ok (), db') ∧
      db'.toTables = reseeded (demoId db) db.toTables a categories items ∧
      (∀ c ∈ categories, c.restaurantId = demoId db) ∧
      ∀ r ∈ items, r.restaurantId = demoId db := by
  obtain ⟨a, db₁, -, ht₁, hex, hmain⟩ := run_main_cleared hurl hfresh hr ht
  have hitems : db₁.menuItems = ofOthers MenuItemRow.restaurantId (demoId db) db.menuItems := by
    rw [ht₁, cleared_menuItems]
    rfl
  have hcategories : db₁.menuCategories = db.menuCategories := by
    rw [ht₁, cleared_menuCategories]
    rfl
  have hfree : ∀ r ∈ db₁.menuItems, ∀ c ∈ db₁.menuCategories, c.id = r.categoryId →
      c.restaurantId ≠ demoId db := by
    rw [hitems, hcategories]
    intro r hmem c hc he hown
    obtain ⟨hmem, hother⟩ := List.mem_filter.1 hmem
    exact h ⟨r, hmem, by simpa using hother, c, hc, he, hown⟩
  obtain ⟨db₂, hrun₂, ht₂⟩ := run_clearCategories_ok (demoId db) hfree
  have hdraws : Draws MenuCategoryRow.id db₂.menuCategories env.categoryId 0
      seedCategories.length := by
    rw [ht₂, hcategories]
    exact hfresh.categories.filter _
  have hdishes : Draws MenuItemRow.id db₂.menuItems env.itemId 0
      (seedCategories.flatMap SeedCategory.items).length := by
    rw [ht₂, hitems]
    exact hfresh.items.filter _
  have hex₂ : ∃ r ∈ db₂.restaurants, r.id = demoId db := by
    rw [ht₂]
    exact hex
  obtain ⟨categories, items, db', hrun, ht', hown, hown'⟩ :=
    run_insertMenu env (demoId db) hdraws hdishes hex₂
  refine ⟨a, categories, items, db', ?_, ?_, hown, hown'⟩
  · exact hmain.trans ((Prog.run_bind_ok hrun₂).trans hrun)
  · rw [ht', ht₂, hcategories, hitems, ht₁]
    rfl

end Runs

section Safety

variable {env : SeedEnv} {db : Db}

theorem db_eq_iff {db db' : Db} : db' = db ↔ db'.toTables = db.toTables :=
  ⟨congrArg Db.toTables, Db.eq_of_toTables⟩

theorem safe_restaurantTaken_iff (hurl : given env.databaseUrl ≠ none) (hfresh : env.Fresh db)
    (h : RestaurantTaken db) : SeedSafe env db ↔ UsersPresent db := by
  obtain ⟨e, users, db', hrun, ht, husers⟩ := main_restaurantTaken hurl hfresh h
  rw [seedSafe_of_error hrun, db_eq_iff, ht, grown_eq_self_iff, ← husers]
  exact and_iff_left ⟨rfl, rfl⟩

theorem safe_tablesTaken_iff (hurl : given env.databaseUrl ≠ none) (hfresh : env.Fresh db)
    (hr : ¬RestaurantTaken db) (h : TablesTaken db) :
    SeedSafe env db ↔ UsersPresent db ∧ (bySlug db).isSome := by
  obtain ⟨e, users, restaurants, db', hrun, ht, husers, hnil⟩ :=
    main_tablesTaken hurl hfresh hr h
  rw [seedSafe_of_error hrun, db_eq_iff, ht, grown_eq_self_iff, ← husers, ← hnil]
  exact and_congr_right' (and_iff_left rfl)

theorem safe_categoriesShared_iff (hurl : given env.databaseUrl ≠ none) (hfresh : env.Fresh db)
    (hr : ¬RestaurantTaken db) (ht : ¬TablesTaken db) (h : CategoriesShared db) :
    SeedSafe env db ↔ Settled db := by
  obtain ⟨e, a, db', hrun, hmissing, ht'⟩ := main_categoriesShared hurl hfresh hr ht h
  have hrestaurants : a.restaurants = [] := by
    -- a category of the demo restaurant refers to a restaurant that is already there
    obtain ⟨r, -, -, c, hc, -, hown⟩ := h
    obtain ⟨x, hx, he⟩ := db.valid.categoryRestaurant c hc _ rfl
    by_contra hne
    exact hmissing.restaurants hne x hx (he.trans hown)
  rw [seedSafe_of_error hrun, db_eq_iff, ht', cleared_grown_eq_self_iff, grown_eq_self_iff,
    hmissing.users, hmissing.tables]
  apply Iff.intro
  · intro hall
    obtain ⟨⟨husers, -, htable⟩, hcarts, hfavorites, hitems⟩ := hall
    exact ⟨husers, htable, hcarts, hfavorites, hitems⟩
  · intro hs
    exact ⟨⟨hs.users, hrestaurants, hs.table⟩, hs.carts, hs.favorites, hs.items⟩

theorem safe_completes_iff (hurl : given env.databaseUrl ≠ none) (hfresh : env.Fresh db)
    (hr : ¬RestaurantTaken db) (ht : ¬TablesTaken db) (h : ¬CategoriesShared db) :
    SeedSafe env db ↔ OnlyDemo db := by
  obtain ⟨a, categories, items, db', hrun, ht', hown, hown'⟩ :=
    main_completes hurl hfresh hr ht h
  rw [seedSafe_of_ok hrun, ht', reseeded_undamaged_iff hown hown']
  exact ⟨fun hs => ⟨hs.1, hs.2⟩, fun hs => ⟨hs.favorites, hs.lines⟩⟩

/-- The seed script is safe exactly where it stops before it changes anything, and where what it
deletes is of the demo restaurant. -/
theorem reseed_safe_iff (env : SeedEnv) (db : Db) (hfresh : env.Fresh db) :
    SeedSafe env db ↔ given env.databaseUrl = none ∨ Harmless db := by
  by_cases hurl : given env.databaseUrl = none
  case pos =>
    exact iff_of_true ((seedSafe_of_error (main_unset hurl)).2 rfl) (.inl hurl)
  case neg =>
    rw [or_iff_right hurl, Harmless]
    split
    case isTrue hr => exact safe_restaurantTaken_iff hurl hfresh hr
    case isFalse hr =>
      split
      case isTrue ht => exact safe_tablesTaken_iff hurl hfresh hr ht
      case isFalse ht =>
        split
        case isTrue hs => exact safe_categoriesShared_iff hurl hfresh hr ht hs
        case isFalse hs => exact safe_completes_iff hurl hfresh hr ht hs

end Safety

/-- Ids that differ in their last digits. -/
def drawnId (n : Nat) : Uuid :=
  let z : Quad := ⟨0, 0, 0, 0⟩
  ⟨⟨2, 0, 0, 0⟩, z, z, z, z, z, z, ⟨0, 0, Fin.ofNat 16 (n / 16), Fin.ofNat 16 n⟩⟩

def sampleSeed : SeedEnv where
  databaseUrl := some "postgres://localhost/dineflow"
  passwordHash := ""
  now := 0
  userId := drawnId
  categoryId := drawnId
  itemId := drawnId
  hashFits := by decide

theorem drawnId_inj (hi : i < 256) (hj : j < 256) (h : drawnId i = drawnId j) : i = j := by
  have hdigits := congrArg (fun u : Uuid => (u.q7.c.val, u.q7.d.val)) h
  simp only [drawnId, Fin.val_ofNat, Prod.mk.injEq] at hdigits
  omega

theorem drawnId_draws {key : ρ → Uuid} (hkeys : UniqueKey key rows)
    (hfresh : ∀ r ∈ rows, (key r).q0.a ≠ 2) (hn : n ≤ 256) : Draws key rows drawnId 0 n := by
  rw [Draws, List.nodup_append]
  refine ⟨hkeys, (List.nodup_range' 1 Nat.one_pos).map_on ?_, ?_⟩
  · intro i hi j hj
    rw [List.mem_range'_1] at hi hj
    apply drawnId_inj <;> omega
  · intro k hk k' hk' he
    obtain ⟨r, hr, rfl⟩ := List.mem_map.1 hk
    obtain ⟨i, -, rfl⟩ := List.mem_map.1 hk'
    apply hfresh r hr
    rw [he, drawnId]

theorem sampleSeed_fresh {db : Db} (husers : ∀ r ∈ db.users, r.id.q0.a ≠ 2)
    (hcategories : ∀ r ∈ db.menuCategories, r.id.q0.a ≠ 2)
    (hitems : ∀ r ∈ db.menuItems, r.id.q0.a ≠ 2) : sampleSeed.Fresh db where
  users := drawnId_draws db.valid.userIds husers (by decide +kernel)
  categories := drawnId_draws db.valid.categoryIds hcategories (by decide)
  items := drawnId_draws db.valid.menuItemIds hitems (by decide +kernel)

theorem reseed_safe_sample : sampleSeed.Fresh sampleDb ∧ SeedSafe sampleSeed sampleDb := by
  have hharmless : Harmless sampleDb := by
    rw [Harmless, if_neg (by decide), if_neg (by decide), if_neg (by decide)]
    exact ⟨by decide, by decide⟩
  have hfresh : sampleSeed.Fresh sampleDb :=
    sampleSeed_fresh (by decide) (by decide) (by decide)
  exact ⟨hfresh, (reseed_safe_iff sampleSeed sampleDb hfresh).2 (.inr hharmless)⟩

/-- The demo restaurant with a dish, and an order of a dish of another restaurant. -/
def strayTables : Tables :=
  { sampleTables with
    restaurants := sampleTables.restaurants ++
      [⟨restaurantId, "Demo", "dineflow-demo", none, none, none, none, none⟩]
    menuCategories := sampleTables.menuCategories ++
      [⟨sampleId 6, restaurantId, "Lunch", none, none, none, 0, 0, 0⟩]
    menuItems := sampleTables.menuItems ++
      [⟨sampleId 7, restaurantId, sampleId 6, "Ramen", none, none, none, 1, none, true, none, 0, 0⟩]
    orders := [⟨sampleId 8, sampleId 1, none, none, none, "pending", 1, none, 0, 0⟩]
    orderItems := [⟨sampleId 9, sampleId 8, sampleId 4, 1, 1, none, 0, 0⟩] }

theorem strayTables_valid : strayTables.Valid := by
  constructor <;> simp [strayTables, sampleTables, UniqueKey, Refs, FitsNumeric] <;> decide

def strayDb : Db := ⟨strayTables, strayTables_valid⟩

theorem reseed_loses_lines : sampleSeed.Fresh strayDb ∧ ¬SeedSafe sampleSeed strayDb := by
  have hfresh : sampleSeed.Fresh strayDb :=
    sampleSeed_fresh (by decide) (by decide) (by decide)
  have hnot : ¬OnlyDemo strayDb := fun h => absurd h.lines (by decide)
  refine ⟨hfresh, ?_⟩
  rw [safe_completes_iff (by decide) hfresh (by decide) (by decide) (by decide)]
  exact hnot

end DineFlow.Seed
