import DineFlow.MenuStaleness

namespace DineFlow
open Atomic Relational
set_option autoImplicit true

def Menu.items (m : Menu) : List MenuItem := m.categories.flatMap MenuCategory.items

/-- The items that an answer lists, over all categories and in any order. -/
def MenuAnswer.listed : MenuAnswer → Multiset MenuItem
  | .menu m => m.items
  | .items is => is

/-- With an empty cache both reads of every table list the same items. -/
def ViewsAgree (w : World) : Prop :=
  ∀ env plan env' plan' t, (MenuRead.menu.uncached env plan t w).map MenuAnswer.listed =
    (MenuRead.items.uncached env' plan' t w).map MenuAnswer.listed

/-- Every item is in a category of its own restaurant. -/
def CategoriesFit (db : Db) : Prop :=
  ∀ r ∈ db.menuItems, ∀ c ∈ db.menuCategories, c.id = r.categoryId →
    c.restaurantId = r.restaurantId

instance CategoriesFit.decidable (db : Db) : Decidable (CategoriesFit db) :=
  inferInstanceAs (Decidable (∀ _ ∈ _, ∀ _ ∈ _, _ → _))

theorem CategoriesFit.visible (h : CategoriesFit db) (table : TableRow) (hr : r ∈ db.menuItems) :
    MenuRead.menu.visible table db r = MenuRead.items.visible table db r := by
  rw [MenuRead.visible, MenuRead.visible]
  congr 1
  rw [Bool.eq_iff_iff, hasKey_iff, decide_eq_true_eq]
  constructor
  · rintro ⟨c, hc, hid⟩
    obtain ⟨hc, hrestaurant⟩ := List.mem_filter.1 hc
    exact (h r hr c hc hid).symm.trans (of_decide_eq_true hrestaurant)
  · intro hrestaurant
    obtain ⟨c, hc, hid⟩ := db.valid.itemCategory r hr r.categoryId rfl
    refine ⟨c, List.mem_filter.2 ⟨hc, decide_eq_true ?_⟩, hid⟩
    exact (h r hr c hc hid).trans hrestaurant

theorem formatMenu_items (m : CachedMenu) :
    (formatMenu m).items = m.categories.flatMap fun c => c.items.map menuItemFromDb := by
  simp only [formatMenu, Menu.items, List.flatMap_map]

theorem menuAt_items (plan : RowOrder) (t : String) (table : TableRow) (db : Db) :
    (formatMenu (menuAt plan t table db)).items.Perm
      ((db.menuItems.filter (MenuRead.menu.visible table db)).map
        fun r => menuItemFromDb r.like) := by
  have hperm := (categoryItems_perm plan table.restaurantId db).map fun r => menuItemFromDb r.like
  rw [List.map_flatMap] at hperm
  rw [formatMenu_items, menuAt, List.flatMap_map]
  refine List.Perm.trans (.of_eq ?_) hperm
  simp only [MenuCategoryRow.withItems, List.map_map]
  rfl

theorem availableRows_items (plan : RowOrder) (table : TableRow) (db : Db) :
    (((availableRows plan table.restaurantId db).map MenuItemRow.like).map menuItemFromDb).Perm
      ((db.menuItems.filter (MenuRead.items.visible table db)).map
        fun r => menuItemFromDb r.like) := by
  rw [List.map_map]
  exact (plan.arrange_perm _).map _

theorem CategoriesFit.agree (h : CategoriesFit w.db) : ViewsAgree w := by
  intro env plan env' plan' t
  rw [MenuRead.uncached_eq, MenuRead.uncached_eq, MenuRead.loaded, MenuRead.loaded]
  cases tableById t w.db with
  | error e => rfl
  | ok table =>
    cases table with
    | none => rfl
    | some table =>
      refine congrArg Except.ok (Multiset.coe_eq_coe.2 ?_)
      refine (menuAt_items plan t table w.db).trans ?_
      rw [List.filter_congr fun r hr => h.visible table hr]
      exact (availableRows_items plan' table w.db).symm

/-- A category that the mutation names is one of the restaurant of the item. -/
def MenuMutation.NamesOwnCategory (db : Db) : MenuMutation → Prop
  | .create _ input => ∀ c ∈ db.menuCategories, input.categoryId.bind Uuid.parse = some c.id →
      Uuid.parse input.restaurantId = some c.restaurantId
  | .update input => ∀ r ∈ db.menuItems, Uuid.parse input.id = some r.id →
      ∀ c ∈ db.menuCategories, input.categoryId.join.bind Uuid.parse = some c.id →
        c.restaurantId = r.restaurantId
  | _ => True

instance MenuMutation.NamesOwnCategory.decidable (db : Db) :
    (m : MenuMutation) → Decidable (m.NamesOwnCategory db)
  | .create _ _ => inferInstanceAs (Decidable (∀ _ ∈ _, _ → _))
  | .update _ => inferInstanceAs (Decidable (∀ _ ∈ _, _ → ∀ _ ∈ _, _ → _))
  | .delete _ => inferInstanceAs (Decidable True)
  | .toggle _ => inferInstanceAs (Decidable True)

theorem parseOptUuid_some (h : parseOptUuid o = .ok (some c)) : o.bind Uuid.parse = some c := by
  cases o with
  | none => cases h
  | some s =>
    obtain ⟨u, hu, he⟩ := map_ok h
    cases he
    exact parseUuid_ok_iff.1 hu

theorem UpdateMenuItemInput.patch_category (h : UpdateMenuItemInput.patch input = .ok p)
    (hc : p.categoryId = some c) : input.categoryId.join.bind Uuid.parse = some c := by
  obtain ⟨name, _, h⟩ := bind_ok h
  obtain ⟨price, _, h⟩ := bind_ok h
  obtain ⟨category, hcategory, h⟩ := bind_ok h
  obtain ⟨parsed, hparsed, h⟩ := bind_ok h
  obtain ⟨isAvailable, _, h⟩ := bind_ok h
  cases h
  cases (hc : parsed = some c)
  have hgiven : input.categoryId.join = category := by
    unfold notNull at hcategory
    split at hcategory
    · rename_i hnone
      rw [hnone]
      exact Except.ok.inj hcategory
    · cases hcategory
    · rename_i hsome
      rw [hsome]
      exact Except.ok.inj hcategory
  rw [hgiven]
  exact parseOptUuid_some hparsed

theorem CategoriesFit.insert (h : CategoriesFit db)
    (hown : (MenuMutation.create env input).NamesOwnCategory db)
    (hi : insertMenuItem env input db = .ok r) : CategoriesFit r.2 := by
  obtain ⟨_, ht, category, restaurant, hc, hr, hrow⟩ := insertMenuItem_row hi
  intro row hmem c hcm hid
  rw [ht] at hmem hcm
  rcases List.mem_append.1 hmem with hmem | hmem
  · exact h row hmem c hcm hid
  · rw [List.mem_singleton.1 hmem, hrow] at hid ⊢
    have hparse : Uuid.parse input.restaurantId = some c.restaurantId :=
      hown c hcm (hid ▸ parseOptUuid_some hc)
    exact Option.some.inj (hparse.symm.trans (parseUuid_ok_iff.1 hr))

theorem CategoriesFit.patch (h : CategoriesFit db)
    (hown : ∀ r ∈ db.menuItems, Uuid.parse itemId = some r.id → ∀ c ∈ db.menuCategories,
      p.categoryId = some c.id → c.restaurantId = r.restaurantId)
    (hi : patchMenuItem itemId p db = .ok r) : CategoriesFit r.2 := by
  obtain ⟨u, hu, ht⟩ := patchMenuItem_row hi
  intro row hmem c hcm hid
  rw [ht] at hmem hcm
  rcases mem_updateWhere hmem with hmem | ⟨old, hold, rfl, rfl⟩
  · exact h row hmem c hcm hid
  · cases hp : p.categoryId with
    | none =>
      rw [MenuItemPatch.apply, hp] at hid
      exact h old hold c hcm hid
    | some k =>
      rw [MenuItemPatch.apply, hp] at hid
      refine hown old hold (parseUuid_ok_iff.1 hu) c hcm ?_
      rw [hp]
      exact congrArg some hid.symm

theorem CategoriesFit.delete (h : CategoriesFit db) (hi : deleteItem itemId db = .ok r) :
    CategoriesFit r.2 := by
  obtain ⟨u, _, ht⟩ := deleteItem_rows hi
  intro row hmem c hcm
  rw [ht] at hmem hcm
  exact h row (List.mem_of_mem_filter hmem) c hcm

/-- One of the four mutations, called by a user; any of its statements may fail. -/
structure MenuCall where
  faults : Site → Bool
  userId : String
  mutation : MenuMutation

def MenuCall.step (w : World) (c : MenuCall) : World :=
  ((c.mutation.prog c.userId).run c.faults w).2

theorem MenuMutation.keeps_fit (m : MenuMutation) (userId : String) (f : Site → Bool)
    (hw : CategoriesFit w.db) (hown : m.NamesOwnCategory w.db) :
    CategoriesFit ((m.prog userId).run f w).2.db := by
  let I (w : World) : Prop := CategoriesFit w.db ∧ m.NamesOwnCategory w.db
  have hwithin : (m.prog userId).Within fun w w' => I w → I w' := by
    have hrefl (w : World) (h : I w) : I w := h
    have hdrop (w : World) (keys : List String) (_ : ∀ k ∈ keys, IsMenuKey k) (h : I w) :
        I { w with redis := w.redis.delKeys keys } := h
    cases m with
    | create env input =>
      refine (createMenuItem_within_of hrefl hdrop userId fun w r hi h => ?_).bind fun _ => trivial
      refine ⟨h.1.insert h.2 hi, fun c hc => h.2 c ?_⟩
      rwa [(insertMenuItem_row hi).2.1] at hc
    | update input =>
      refine (updateMenuItem_within_of hrefl hdrop userId fun w r hi h => ?_).bind fun _ => trivial
      obtain ⟨p, hp, hi⟩ := writePatch_ok hi
      refine ⟨h.1.patch (fun row hrow hid c hc hcat =>
        h.2 row hrow hid c hc (UpdateMenuItemInput.patch_category hp hcat)) hi, ?_⟩
      obtain ⟨u, _, ht⟩ := patchMenuItem_row hi
      intro row hrow hid c hc hcat
      rw [ht] at hrow hc
      rcases mem_updateWhere hrow with hrow | ⟨old, hold, _, rfl⟩
      · exact h.2 row hrow hid c hc hcat
      · exact h.2 old hold hid c hc hcat
    | delete itemId =>
      refine (deleteMenuItem_within_of hrefl hdrop userId fun w r hi h => ?_).bind fun _ => trivial
      exact ⟨h.1.delete hi, trivial⟩
    | toggle itemId =>
      refine (toggleAvailability_within_of hrefl hdrop userId fun w b r hi h => ?_).bind
        fun _ => trivial
      exact ⟨h.1.patch (fun _ _ _ _ _ hcat => by cases hcat) hi, trivial⟩
  exact (hwithin.invariant (I := I) (fun _ _ h => h) f ⟨hw, hown⟩).1

/-- The two reads of a menu agree all along a run in which every category that a mutation names is
one of the restaurant of the item. -/
theorem menuViews_agree (w : World) (hw : CategoriesFit w.db) (calls : List MenuCall)
    (hown : Guarded MenuCall.step (fun w c => c.mutation.NamesOwnCategory w.db) w calls) :
    ∀ done, done <+: calls → ViewsAgree (runs MenuCall.step w done) := by
  intro done hdone
  have hfit : CategoriesFit (runs MenuCall.step w done).db :=
    (hown.of_prefix hdone).runs (I := fun w : World => CategoriesFit w.db) hw
      fun w c h hc => c.mutation.keeps_fit c.userId c.faults h hc
  exact hfit.agree

/-- A second restaurant, with a category and no table. -/
def twoHouseTables : Tables :=
  { sampleTables with
    restaurants := sampleTables.restaurants ++
      [⟨sampleId 6, "Grill House", "grill-house", none, none, none, none, none⟩]
    menuCategories := [⟨sampleId 3, sampleId 1, "Mains", none, none, none, 0, 0, 0⟩,
      ⟨sampleId 7, sampleId 6, "Grill", none, none, none, 0, 0, 0⟩] }

theorem twoHouseTables_valid : twoHouseTables.Valid := by
  constructor <;> simp [twoHouseTables, sampleTables, UniqueKey, Refs, FitsNumeric] <;> decide

def twoHouses : World := ⟨⟨twoHouseTables, twoHouseTables_valid⟩, .empty, .empty⟩

/-- The manager renames the dish and puts it into the category that it is in. -/
def renameDish : MenuCall :=
  ⟨noFault, (sampleId 5).text, .update ⟨(sampleId 4).text, some (some "Firfir"), none, none, none,
    none, some (some (sampleId 3).text), none⟩⟩

def createDish : MenuCall :=
  ⟨noFault, (sampleId 5).text, .create sampleEnv ⟨"Shiro", none, none, none, 2, none, none,
    some (sampleId 3).text, (sampleId 1).text⟩⟩

def listedNames (a : MenuAnswer) : Multiset String := a.listed.map MenuItem.name

theorem menuViews_agree_sample :
    (MenuRead.menu.uncached sampleEnv .stored (sampleId 2).text
      (runs MenuCall.step twoHouses [renameDish, createDish])).map listedNames =
        .ok {"Firfir", "Shiro"} ∧
    ViewsAgree (runs MenuCall.step twoHouses [renameDish, createDish]) :=
  ⟨by decide +kernel, menuViews_agree twoHouses (by decide +kernel) [renameDish, createDish]
    ⟨by decide +kernel, by decide +kernel, trivial⟩ _ List.prefix_rfl⟩

/-- The manager moves the dish into the category of the other restaurant. -/
def moveDish : MenuCall :=
  ⟨noFault, (sampleId 5).text, .update ⟨(sampleId 4).text, none, none, none, none, none,
    some (some (sampleId 7).text), none⟩⟩

theorem menuViews_differ :
    CategoriesFit twoHouses.db ∧ ¬ViewsAgree (runs MenuCall.step twoHouses [moveDish]) := by
  refine ⟨by decide +kernel, fun h => ?_⟩
  have hviews := h sampleEnv .stored sampleEnv .stored (sampleId 2).text
  revert hviews
  decide +kernel

end DineFlow
