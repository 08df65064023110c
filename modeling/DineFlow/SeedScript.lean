import DineFlow.OrderService
import DineFlow.SeedData
import DineFlow.SeedStatements

namespace DineFlow.Seed
open Atomic Relational
set_option autoImplicit true

inductive SeedSite where
  | userSelect
  | userInsert
  | restaurantSelect
  | restaurantInsert
  | tableSelect
  | tableInsert
  | cartDelete
  | favoriteDelete
  | itemSelect
  | lineDelete
  | orderDelete
  | itemDelete
  | categorySelect
  | categoryDelete
  | categoryInsert
  | itemInsert
  deriving DecidableEq, Repr

/-- How the script ends early: a statement that is refused, or `process.exit(1)`. -/
inductive SeedError where
  | db (e : DbError)
  | exit
  deriving DecidableEq, Repr

/-- What the script gets from outside: its variable, the hash of the demo password, the time and
the ids that the database draws for the rows of each table. -/
structure SeedEnv where
  databaseUrl : Option String
  passwordHash : String
  now : Nat
  userId : Nat → Uuid
  categoryId : Nat → Uuid
  itemId : Nat → Uuid
  hashFits : IsVarchar 256 passwordHash

/-- Its statements are not in a transaction. -/
abbrev Script (α : Type) : Type := Prog SeedSite Db SeedError α

def read (site : SeedSite) (f : Db → α) : Script α :=
  .query site (fun db => .ok (f db)) (.error (.db .connection))

def change (site : SeedSite) (act : Db → Except DbError Db) : Script Unit :=
  .exec site (fun db => (act db).mapError SeedError.db |>.map fun db => ((), db))
    (.error (.db .connection))

def userRow (env : SeedEnv) (n : Nat) (u : SeedUser) : UserRow :=
  ⟨env.userId n, u.name, u.email, env.passwordHash, none, u.role, some env.now, some env.now⟩

def ensureUser (env : SeedEnv) (n : Nat) (u : SeedUser) : Script Unit := do
  let existing ← read .userSelect fun db => lookup UserRow.email u.email db.users
  match existing with
  | some _ => .ret ()
  | none => change .userInsert fun db => db.insertUser (userRow env n u)

def demoRestaurant (env : SeedEnv) : RestaurantRow :=
  { id := restaurantId
    name := "DineFlow Demo Restaurant"
    slug := "dineflow-demo"
    description := some "Seeded venue for local development and Docker."
    address := some "123 Market Street"
    phone := some "555-0100"
    createdAt := some env.now
    updatedAt := some env.now }

def bySlug (db : Db) : Option RestaurantRow :=
  lookup RestaurantRow.slug "dineflow-demo" db.restaurants

def ensureRestaurant (env : SeedEnv) : Script Uuid := do
  let existing ← read .restaurantSelect bySlug
  match existing with
  | none => change .restaurantInsert fun db => db.insertRestaurant (demoRestaurant env)
  | some _ => .ret ()
  let restaurant ← read .restaurantSelect bySlug
  match restaurant with
  | none => .throw .exit
  | some r => .ret r.id

def demoTable (env : SeedEnv) (rid id : Uuid) (number : Int) (qrUuid : Uuid) : TableRow :=
  ⟨id, rid, number, qrUuid, none, "available", env.now, env.now⟩

def demoTables (env : SeedEnv) (rid : Uuid) : List TableRow :=
  [ demoTable env rid demoTableId 1 (fixedId 1 1),
    demoTable env rid table2Id 2 (fixedId 1 2),
    demoTable env rid table3Id 3 (fixedId 1 3) ]

def ensureTables (env : SeedEnv) (rid : Uuid) : Script Unit := do
  let row ← read .tableSelect fun db => lookup TableRow.id demoTableId db.tables
  match row with
  | none => change .tableInsert (insertAll Db.insertTable (demoTables env rid))
  | some _ => .ret ()

def itemsOf (rid : Uuid) (db : Db) : List MenuItemRow :=
  db.menuItems.filter fun r => r.restaurantId = rid

def categoriesOf (rid : Uuid) (db : Db) : List MenuCategoryRow :=
  db.menuCategories.filter fun c => c.restaurantId = rid

/-- The rows that a comparison of a column with itself picks are all rows. -/
def deleteMenu (rid : Uuid) : Script Unit := do
  change .lineDelete fun db => .ok (db.deleteOrderItems fun r => r.menuItemId = r.menuItemId)
  change .orderDelete fun db => db.deleteOrders fun o => o.restaurantId = rid
  change .itemDelete fun db => db.deleteMenuItems fun r => r.restaurantId = rid

def clearItems (rid : Uuid) : Script Unit := do
  change .cartDelete fun db => .ok (db.deleteCartItems fun r => r.menuItemId = r.menuItemId)
  change .favoriteDelete fun db => .ok (db.deleteFavorites fun r => r.menuItemId = r.menuItemId)
  let existing ← read .itemSelect (itemsOf rid)
  if existing = [] then .ret () else deleteMenu rid

def clearCategories (rid : Uuid) : Script Unit := do
  let existing ← read .categorySelect (categoriesOf rid)
  if existing = [] then .ret ()
  else change .categoryDelete fun db => db.deleteCategories fun c => c.restaurantId = rid

def categoryRow (env : SeedEnv) (rid : Uuid) (n : Nat) (c : SeedCategory) : MenuCategoryRow :=
  ⟨env.categoryId n, rid, c.name, some c.nameAm, some c.description, some c.descriptionAm,
    c.displayOrder, env.now, env.now⟩

/-- The categories one by one; an insert gives its row back, so that none of them is missing. -/
def insertCategories (env : SeedEnv) (rid : Uuid) :
    Nat → List SeedCategory → Script (List (Uuid × SeedItem))
  | _, [] => .ret []
  | n, c :: cs => do
    change .categoryInsert fun db => db.insertCategory (categoryRow env rid n c)
    let rest ← insertCategories env rid (n + 1) cs
    return c.items.map (fun i => (env.categoryId n, i)) ++ rest

def itemRow (env : SeedEnv) (rid : Uuid) (n : Nat) (p : Uuid × SeedItem) : MenuItemRow :=
  { id := env.itemId n
    restaurantId := rid
    categoryId := p.1
    name := p.2.name
    nameAm := none
    description := some p.2.description
    descriptionAm := none
    price := p.2.price
    imageUrl := some p.2.imageUrl
    isAvailable := true
    prepTime := some p.2.prepTime
    createdAt := env.now
    updatedAt := env.now }

def itemRows (env : SeedEnv) (rid : Uuid) : Nat → List (Uuid × SeedItem) → List MenuItemRow
  | _, [] => []
  | n, p :: ps => itemRow env rid n p :: itemRows env rid (n + 1) ps

def insertMenu (env : SeedEnv) (rid : Uuid) : Script Unit := do
  let items ← insertCategories env rid 0 seedCategories
  change .itemInsert (insertAll Db.insertMenuItem (itemRows env rid 0 items))

def main (env : SeedEnv) : Script Unit := do
  match given env.databaseUrl with
  | none => .throw .exit
  | some _ => do
    Prog.each (ensureUser env) 0 seedUsers
    let rid ← ensureRestaurant env
    ensureTables env rid
    clearItems rid
    clearCategories rid
    insertMenu env rid

def noFault : SeedSite → Bool := fun _ => false

theorem run_read_bind (f : Db → α) (g : α → Script β) (db : Db) :
    ((read site f).bind g).run noFault db = (g (f db)).run noFault db := by
  rw [Prog.run_bind, read, Prog.run_query]
  rfl

theorem run_change_ok (h : act db = .ok db') :
    (change site act).run noFault db = (.ok (), db') := by
  rw [change, Prog.run_exec, h]
  rfl

theorem run_change_error (h : act db = .error e) :
    (change site act).run noFault db = (.error (.db e), db) := by
  rw [change, Prog.run_exec, h]
  rfl

theorem run_change_bind_ok (h : act db = .ok db') (g : Unit → Script β) :
    ((change site act).bind g).run noFault db = (g ()).run noFault db' :=
  Prog.run_bind_ok (run_change_ok h)

theorem run_change_total_bind (f : Db → Db) (g : Unit → Script β) (db : Db) :
    ((change site fun db => .ok (f db)).bind g).run noFault db = (g ()).run noFault (f db) := by
  rw [Prog.run_bind, change, Prog.run_exec]
  rfl

/-- The ids that are drawn in a run are new and distinct. -/
structure SeedEnv.Fresh (env : SeedEnv) (db : Db) : Prop where
  users : Draws UserRow.id db.users env.userId 0 seedUsers.length
  categories : Draws MenuCategoryRow.id db.menuCategories env.categoryId 0 seedCategories.length
  items : Draws MenuItemRow.id db.menuItems env.itemId 0
    (seedCategories.flatMap SeedCategory.items).length

/-- Every user of the script is there. -/
def UsersPresent (db : Db) : Prop := ∀ u ∈ seedUsers, ∃ r ∈ db.users, r.email = u.email

/-- The id of the demo restaurant is used by a restaurant with another slug. -/
def RestaurantTaken (db : Db) : Prop :=
  bySlug db = none ∧ ∃ r ∈ db.restaurants, r.id = restaurantId

/-- The demo restaurant, or the one that the script is going to add. -/
def demoId (db : Db) : Uuid :=
  match bySlug db with
  | some r => r.id
  | none => restaurantId

section Users

variable (env : SeedEnv) {db : Db}

theorem userRow_stored {u : SeedUser} (hu : u ∈ seedUsers) (n : Nat) :
    (userRow env n u).stored = userRow env n u := by
  obtain ⟨hname, hlong⟩ := seedUsers_fit u hu
  simp only [UserRow.stored, userRow, hname.cut, hlong.cut, env.hashFits.cut]

theorem userRow_accepted {u : SeedUser} (hu : u ∈ seedUsers)
    (hid : ∀ r ∈ db.users, r.id ≠ env.userId n)
    (hemail : lookup UserRow.email u.email db.users = none) :
    (userRow env n u).accepted db.toTables = true := by
  have hnew : ∀ r ∈ db.users, r.email ≠ u.email := by
    intro r hr
    simpa using List.find?_eq_none.1 hemail r hr
  obtain ⟨hname, hlong⟩ := seedUsers_fit u hu
  rw [UserRow.accepted, userRow_stored env hu]
  simp [UserRow.fits, userRow, hasKey_of_fresh hid, hasKey_of_fresh hnew, hname.fits, hlong.fits,
    env.hashFits.fits]

theorem run_users {us : List SeedUser} (hu : ∀ u ∈ us, u ∈ seedUsers)
    (hdraws : Draws UserRow.id db.users env.userId n us.length) :
    ∃ added db', (Prog.each (ensureUser env) n us).run noFault db = (.ok (), db') ∧
      db'.toTables = { db.toTables with users := db.users ++ added } ∧
      (added = [] ↔ ∀ u ∈ us, ∃ r ∈ db.users, r.email = u.email) := by
  induction us generalizing n db with
  | nil => exact ⟨[], db, rfl, by rw [List.append_nil], by simp⟩
  | cons u us ih =>
    obtain ⟨hu, hus⟩ := List.forall_mem_cons.1 hu
    rw [Prog.each, Prog.run_bind, ensureUser, Prog.bind_eq, run_read_bind]
    cases hl : lookup UserRow.email u.email db.users with
    | some r =>
      obtain ⟨added, db', hrun, ht, hadded⟩ := ih hus hdraws.skip
      refine ⟨added, db', hrun, ht, ?_⟩
      rw [hadded, List.forall_mem_cons]
      exact (and_iff_right ⟨r, lookup_mem hl⟩).symm
    | none =>
      have haccepted := userRow_accepted env hu hdraws.fresh hl
      obtain ⟨db₁, hinsert, ht₁⟩ : ∃ db₁, db.insertUser (userRow env n u) = .ok db₁ ∧
          db₁.toTables = { db.toTables with users := db.users ++ [(userRow env n u).stored] } :=
        Db.checked_ok haccepted
      rw [userRow_stored env hu] at ht₁
      have hdraws₁ : Draws UserRow.id db₁.users env.userId (n + 1) us.length := by
        rw [ht₁]
        exact hdraws.used rfl
      obtain ⟨added, db', hrun, ht, -⟩ := ih hus hdraws₁
      dsimp only
      rw [run_change_ok hinsert]
      refine ⟨userRow env n u :: added, db', hrun, ?_, ?_⟩
      · rw [ht, ht₁]
        simp
      · refine iff_of_false (List.cons_ne_nil _ _) fun hall => ?_
        obtain ⟨r, hr, he⟩ := hall u List.mem_cons_self
        have hne := List.find?_eq_none.1 hl r hr
        exact hne (decide_eq_true he)

end Users

section Restaurant

variable (env : SeedEnv) {db : Db}

theorem demoRestaurant_accepted (hslug : bySlug db = none)
    (hid : ¬∃ r ∈ db.restaurants, r.id = restaurantId) :
    (demoRestaurant env).accepted db.toTables = true := by
  have hnew : ∀ r ∈ db.restaurants, r.slug ≠ "dineflow-demo" := by
    intro r hr
    simpa using List.find?_eq_none.1 hslug r hr
  have hfree : ∀ r ∈ db.restaurants, r.id ≠ restaurantId := fun r hr he => hid ⟨r, hr, he⟩
  have hname : IsVarchar 255 "DineFlow Demo Restaurant" := by decide
  have hslug : IsVarchar 255 "dineflow-demo" := by decide
  have hphone : IsVarchar 20 "555-0100" := by decide
  simp [RestaurantRow.accepted, demoRestaurant, hasKey_of_fresh hfree, hasKey_of_fresh hnew, hname,
    hslug, hphone]

theorem run_ensureRestaurant_found (h : bySlug db = some r) :
    (ensureRestaurant env).run noFault db = (.ok r.id, db) := by
  rw [ensureRestaurant, Prog.bind_eq, run_read_bind, h]
  change ((read .restaurantSelect bySlug).bind _).run noFault db = _
  rw [run_read_bind, h]
  rfl

theorem run_ensureRestaurant_taken (h : RestaurantTaken db) :
    ∃ e, (ensureRestaurant env).run noFault db = (.error e, db) := by
  have hkey : hasKey RestaurantRow.id db.restaurants (demoRestaurant env).id = true :=
    hasKey_iff.2 h.2
  have herror : db.insertRestaurant (demoRestaurant env) = .error (.rejected "restaurants") :=
    dif_neg (by simp [RestaurantRow.accepted, hkey])
  rw [ensureRestaurant, Prog.bind_eq, run_read_bind, h.1]
  exact ⟨_, Prog.run_bind_error (run_change_error herror)⟩

theorem run_ensureRestaurant_added (hslug : bySlug db = none)
    (hid : ¬∃ r ∈ db.restaurants, r.id = restaurantId) :
    ∃ db', (ensureRestaurant env).run noFault db = (.ok restaurantId, db') ∧
      db'.toTables =
        { db.toTables with restaurants := db.restaurants ++ [demoRestaurant env] } := by
  obtain ⟨db', hinsert, ht⟩ := Db.insertRestaurant_ok (demoRestaurant_accepted env hslug hid)
  have hfound : bySlug db' = some (demoRestaurant env) := by
    rw [bySlug, lookup] at hslug ⊢
    rw [ht, List.find?_append, hslug]
    rfl
  refine ⟨db', ?_, ht⟩
  rw [ensureRestaurant, Prog.bind_eq, run_read_bind, hslug, Prog.bind_eq]
  dsimp only
  rw [Prog.bind_eq, run_change_bind_ok hinsert, run_read_bind, hfound]
  rfl

theorem run_ensureRestaurant (h : ¬RestaurantTaken db) :
    ∃ added db', (ensureRestaurant env).run noFault db = (.ok (demoId db), db') ∧
      db'.toTables = { db.toTables with restaurants := db.restaurants ++ added } ∧
      (∃ r ∈ db'.restaurants, r.id = demoId db) ∧ (added = [] ↔ (bySlug db).isSome) ∧
      (added ≠ [] → ∀ r ∈ db.restaurants, r.id ≠ demoId db) := by
  cases hslug : bySlug db with
  | some r =>
    have hid : demoId db = r.id := by rw [demoId, hslug]
    refine ⟨[], db, ?_, by rw [List.append_nil], ?_, by simp, fun h => absurd rfl h⟩
    · rw [run_ensureRestaurant_found env hslug, hid]
    · exact ⟨r, (lookup_mem hslug).1, hid.symm⟩
  | none =>
    have hid : demoId db = restaurantId := by rw [demoId, hslug]
    have hfree : ¬∃ r ∈ db.restaurants, r.id = restaurantId := fun ht => h ⟨hslug, ht⟩
    obtain ⟨db', hrun, ht⟩ := run_ensureRestaurant_added env hslug hfree
    refine ⟨[demoRestaurant env], db', ?_, ht, ?_, by simp, fun _ r hr he => ?_⟩
    · rw [hrun, hid]
    · rw [ht, hid]
      exact ⟨demoRestaurant env, List.mem_append_right _ List.mem_cons_self, rfl⟩
    · exact hfree ⟨r, hr, he.trans hid⟩

end Restaurant

section Tables

variable (env : SeedEnv) {db : Db}

/-- The demo table is missing and one of the three rows for it has a key that is used. -/
def TablesTaken (db : Db) : Prop :=
  (∀ t ∈ db.tables, t.id ≠ demoTableId) ∧ ∃ t ∈ db.tables,
    t.id ∈ [table2Id, table3Id] ∨ t.qrUuid ∈ [fixedId 1 1, fixedId 1 2, fixedId 1 3]

/-- Rows that fit, with keys that are new and distinct. -/
structure TablesFit (db : Db) (rows : List TableRow) : Prop where
  ids : UniqueKey TableRow.id (db.tables ++ rows)
  qrUuids : UniqueKey TableRow.qrUuid (db.tables ++ rows)
  wellFormed : ∀ r ∈ rows, r.wellFormed db.toTables = true

theorem TablesFit.insertTable (h : TablesFit db (r :: rows)) :
    ∃ db', db.insertTable r = .ok db' ∧
      db'.toTables = { db.toTables with tables := db.tables ++ [r] } ∧ TablesFit db' rows := by
  obtain ⟨hr, hrows⟩ := List.forall_mem_cons.1 h.wellFormed
  have haccepted : r.accepted db.toTables = true := by
    rw [TableRow.accepted, hasKey_of_fresh h.ids.fresh_of_append,
      hasKey_of_fresh h.qrUuids.fresh_of_append]
    exact hr
  obtain ⟨db', hinsert, ht⟩ := Db.insertTable_ok haccepted
  have htables : db'.tables ++ rows = db.tables ++ r :: rows := by
    rw [ht, List.append_assoc, List.singleton_append]
  refine ⟨db', hinsert, ht, ?_, ?_, ?_⟩
  · rw [htables]
    exact h.ids
  · rw [htables]
    exact h.qrUuids
  · rw [ht]
    exact hrows

theorem insertTables_ok {rows : List TableRow} (h : TablesFit db rows) :
    ∃ db', insertAll Db.insertTable rows db = .ok db' ∧
      db'.toTables = { db.toTables with tables := db.tables ++ rows } := by
  apply insertAll_ok (A := fun t rows => { t with tables := t.tables ++ rows }) (I := TablesFit)
  · intro t
    rw [List.append_nil]
  · intro t r rows
    rw [List.append_assoc, List.singleton_append]
  · exact fun db r rows h => h.insertTable
  · exact h

theorem insertTables_taken {rows : List TableRow}
    (h : ∃ r ∈ rows, ∃ t ∈ db.tables, t.id = r.id ∨ t.qrUuid = r.qrUuid) :
    ∃ e, insertAll Db.insertTable rows db = .error e := by
  induction rows generalizing db with
  | nil =>
    obtain ⟨r, hr, -⟩ := h
    cases hr
  | cons r rows ih =>
    cases hinsert : db.insertTable r with
    | error e => exact ⟨e, insertAll_cons_error hinsert rows⟩
    | ok db₁ =>
      obtain ⟨haccepted, ht⟩ := Db.checked_ok_iff.1 hinsert
      simp only [TableRow.accepted, Bool.and_eq_true, Bool.not_eq_true'] at haccepted
      rw [insertAll_cons_ok hinsert]
      apply ih
      obtain ⟨x, hx, t, hmem, hclash⟩ := h
      rcases List.mem_cons.1 hx with rfl | hx
      · rcases hclash with hid | hqr
        · exact absurd hid (fresh_of_hasKey haccepted.1.1 t hmem)
        · exact absurd hqr (fresh_of_hasKey haccepted.1.2 t hmem)
      · refine ⟨x, hx, t, ?_, hclash⟩
        rw [ht]
        exact List.mem_append_left _ hmem

theorem demoTables_fit (hr : ∃ r ∈ db.restaurants, r.id = rid) :
    ∀ r ∈ demoTables env rid, r.wellFormed db.toTables = true := by
  have hkey : hasKey RestaurantRow.id db.restaurants rid = true := hasKey_iff.2 hr
  have hstatus : IsVarchar 50 "available" := by decide
  have hnumbers : FitsInt4 1 ∧ FitsInt4 2 ∧ FitsInt4 3 := by decide
  simp [demoTables, demoTable, TableRow.wellFormed, refOk, hkey, hstatus, hnumbers]

theorem run_ensureTables_taken (h : TablesTaken db) :
    ∃ e, (ensureTables env rid).run noFault db = (.error e, db) := by
  have hmissing : lookup TableRow.id demoTableId db.tables = none :=
    List.find?_eq_none.2 fun t ht => by simpa using h.1 t ht
  have hclash : ∃ r ∈ demoTables env rid, ∃ t ∈ db.tables, t.id = r.id ∨ t.qrUuid = r.qrUuid := by
    obtain ⟨t, ht, hused⟩ := h.2
    simp only [List.mem_cons, List.not_mem_nil, or_false] at hused
    simp only [demoTables, demoTable, List.mem_cons, List.not_mem_nil, or_false, exists_eq_or_imp,
      exists_eq_left]
    grind
  obtain ⟨e, herror⟩ := insertTables_taken hclash
  rw [ensureTables, Prog.bind_eq, run_read_bind, hmissing]
  exact ⟨_, run_change_error herror⟩

theorem run_ensureTables (h : ¬TablesTaken db) (hr : ∃ r ∈ db.restaurants, r.id = rid) :
    ∃ added db', (ensureTables env rid).run noFault db = (.ok (), db') ∧
      db'.toTables = { db.toTables with tables := db.tables ++ added } ∧
      (added = [] ↔ ∃ t ∈ db.tables, t.id = demoTableId) := by
  rw [ensureTables, Prog.bind_eq, run_read_bind]
  cases hl : lookup TableRow.id demoTableId db.tables with
  | some t =>
    refine ⟨[], db, rfl, by rw [List.append_nil], ?_⟩
    exact iff_of_true rfl ⟨t, lookup_mem hl⟩
  | none =>
    have hmissing : ∀ t ∈ db.tables, t.id ≠ demoTableId := by
      intro t ht
      simpa using List.find?_eq_none.1 hl t ht
    have hfree : ∀ t ∈ db.tables, t.id ∉ [table2Id, table3Id] ∧
        t.qrUuid ∉ [fixedId 1 1, fixedId 1 2, fixedId 1 3] := by
      intro t ht
      exact ⟨fun hid => h ⟨hmissing, t, ht, .inl hid⟩, fun hqr => h ⟨hmissing, t, ht, .inr hqr⟩⟩
    have hids : UniqueKey TableRow.id (db.tables ++ demoTables env rid) := by
      refine db.valid.tableIds.append (by decide : [demoTableId, table2Id, table3Id].Nodup) ?_
      simp only [demoTables, demoTable]
      grind
    have hqrs : UniqueKey TableRow.qrUuid (db.tables ++ demoTables env rid) := by
      refine db.valid.qrUuids.append
        (by decide : [fixedId 1 1, fixedId 1 2, fixedId 1 3].Nodup) ?_
      simp only [demoTables, demoTable]
      grind
    obtain ⟨db', hinsert, ht⟩ := insertTables_ok ⟨hids, hqrs, demoTables_fit env hr⟩
    refine ⟨demoTables env rid, db', run_change_ok hinsert, ht, ?_⟩
    refine iff_of_false (List.cons_ne_nil _ _) fun hex => ?_
    obtain ⟨t, hmem, he⟩ := hex
    exact hmissing t hmem he

end Tables

end DineFlow.Seed
