import DineFlow.MenuService
import DineFlow.OrderLines

namespace DineFlow
open Atomic Relational
set_option autoImplicit true

/-- The four operations that change the menu. -/
inductive MenuMutation where
  | create (env : Env) (input : CreateMenuItemInput)
  | update (input : UpdateMenuItemInput)
  | delete (itemId : String)
  | toggle (itemId : String)

def MenuMutation.prog (userId : String) : MenuMutation → Api Unit
  | .create env input => do
    let _ ← createMenuItem env input userId
    return ()
  | .update input => do
    let _ ← updateMenuItem input userId
    return ()
  | .delete itemId => do
    let _ ← deleteMenuItem itemId userId
    return ()
  | .toggle itemId => do
    let _ ← toggleAvailability itemId userId
    return ()

/-- What a menu mutation can do to the menu rows: one row more, one changed or one less. -/
inductive MenuChange (db : Db) : Db → Prop
  | insert (row : MenuItemRow) (fresh : ∀ r ∈ db.menuItems, r.id ≠ row.id)
      (h : db'.toTables = { db.toTables with menuItems := db.menuItems ++ [row] }) :
      MenuChange db db'
  | patch (k : Uuid) (p : MenuItemPatch)
      (h : db'.toTables = { db.toTables with
        menuItems := updateWhere MenuItemRow.id k p.apply db.menuItems }) : MenuChange db db'
  | delete (k : Uuid)
      (h : db'.toTables = { db.toTables with
        menuItems := db.menuItems.filter fun r => !decide (r.id = k)
        favorites := db.favorites.filter fun r => !decide (r.menuItemId = k) }) : MenuChange db db'

theorem insertMenuItem_row (h : insertMenuItem env input db = .ok r) :
    (∀ x ∈ db.menuItems, x.id ≠ r.1.id) ∧
      r.2.toTables = { db.toTables with menuItems := db.menuItems ++ [r.1] } ∧
      ∃ category restaurant, parseOptUuid input.categoryId = .ok (some category) ∧
        parseUuid input.restaurantId = .ok restaurant ∧
        r.1 = (newMenuItem env input category restaurant).stored := by
  rw [insertMenuItem] at h
  split at h
  · rename_i c u hc hu
    obtain ⟨db₁, hi, rfl⟩ := map_ok h
    obtain ⟨⟨hid, _⟩, ht⟩ := Db.insertMenuItem_ok_iff.1 hi
    exact ⟨fresh_of_hasKey hid, ht, c, u, hc, hu, rfl⟩
  all_goals cases h

theorem insertMenuItem_change (h : insertMenuItem env input db = .ok r) : MenuChange db r.2 :=
  .insert r.1 (insertMenuItem_row h).1 (insertMenuItem_row h).2.1

theorem patchMenuItem_row (h : patchMenuItem itemId p db = .ok r) :
    ∃ u, parseUuid itemId = .ok u ∧ r.2.toTables = { db.toTables with
      menuItems := updateWhere MenuItemRow.id u p.apply db.menuItems } := by
  rw [patchMenuItem] at h
  split at h
  · cases h
  · rename_i u hu
    obtain ⟨db₁, hi, rfl⟩ := map_ok h
    exact ⟨u, hu, (Db.updateMenuItem_ok_iff.1 hi).2⟩

theorem patchMenuItem_change (h : patchMenuItem itemId p db = .ok r) : MenuChange db r.2 := by
  obtain ⟨u, _, ht⟩ := patchMenuItem_row h
  exact .patch u p ht

theorem writePatch_ok (h : writePatch itemId patch db = .ok r) :
    ∃ p, patch = .ok p ∧ patchMenuItem itemId p db = .ok r := by
  unfold writePatch at h
  split at h
  · cases h
  · rename_i p
    split at h
    · cases h
    · exact ⟨p, rfl, h⟩

theorem writePatch_change (h : writePatch itemId patch db = .ok r) : MenuChange db r.2 := by
  obtain ⟨p, _, hp⟩ := writePatch_ok h
  exact patchMenuItem_change hp

theorem deleteItem_rows (h : deleteItem itemId db = .ok r) :
    ∃ u, parseUuid itemId = .ok u ∧ r.2.toTables = { db.toTables with
      menuItems := db.menuItems.filter fun r => !decide (r.id = u)
      favorites := db.favorites.filter fun r => !decide (r.menuItemId = u) } := by
  rw [deleteItem] at h
  split at h
  · cases h
  · rename_i u hu
    obtain ⟨db₁, hi, rfl⟩ := map_ok h
    exact ⟨u, hu, (Db.deleteMenuItem_ok_iff.1 hi).2⟩

theorem deleteItem_change (h : deleteItem itemId db = .ok r) : MenuChange db r.2 := by
  obtain ⟨u, _, ht⟩ := deleteItem_rows h
  exact .delete u ht

/-- A step of a menu mutation: the menu changes, or keys of the cache are dropped. -/
inductive MenuStep (w : World) : World → Prop
  | refl : MenuStep w w
  | change (h : MenuChange w.db db) : MenuStep w { w with db := db }
  | drop (keys : List String) : MenuStep w { w with redis := w.redis.delKeys keys }

theorem MenuStep.tables (h : MenuStep w w') : ∃ items favorites,
    w'.db.toTables = { w.db.toTables with menuItems := items, favorites := favorites } := by
  cases h with
  | refl => exact ⟨_, _, rfl⟩
  | drop keys => exact ⟨_, _, rfl⟩
  | change h =>
    cases h with
    | insert row _ h => exact ⟨_, _, h⟩
    | patch k p h => exact ⟨_, _, h⟩
    | delete k h => exact ⟨_, _, h⟩

theorem verifyRole_keeps (allowed : UserRole → Bool) (message userId : String) :
    (verifyRole allowed message userId).Keeps id := by
  refine (keeps_select _ _).bind fun user => ?_
  cases user with
  | none => trivial
  | some u =>
    dsimp only
    split <;> trivial

theorem verifyManagerPermission_keeps (userId : String) :
    (verifyManagerPermission userId).Keeps id :=
  verifyRole_keeps _ _ _

theorem verifyKitchenOrManagerPermission_keeps (userId : String) :
    (verifyKitchenOrManagerPermission userId).Keeps id :=
  verifyRole_keeps _ _ _

/-- The keys of cached menus. -/
def IsMenuKey (k : String) : Prop := ∃ t, k = "menu:" ++ t

theorem isMenuKey_menuKey (tableId : String) : IsMenuKey (menuKey tableId) :=
  ⟨"table:" ++ tableId, by rw [← String.append_assoc]; rfl⟩

theorem isMenuKey_itemsKey (tableId : String) : IsMenuKey (itemsKey tableId) :=
  ⟨"table:" ++ tableId ++ ":items", by rw [← String.append_assoc, ← String.append_assoc]; rfl⟩

theorem isMenuKey_of_match (h : globMatch (menuPattern r).toList k.toList = true) :
    IsMenuKey k := by
  rw [menuPattern, String.toList_append, String.toList_append, List.append_assoc] at h
  have hplain : ∀ p ∈ "menu:".toList, p ∉ ['*', '?', '\\'] := by simp
  obtain ⟨cs, hcs, _⟩ := globMatch_append hplain h
  refine ⟨String.ofList cs, String.toList_inj.1 ?_⟩
  rw [hcs, String.toList_append]
  exact congrArg _ String.toList_ofList.symm

section Mutations

variable {R : World → World → Prop} (hr : ∀ w, R w w)
variable (hdrop : ∀ w keys, (∀ k ∈ keys, IsMenuKey k) →
  R w { w with redis := w.redis.delKeys keys })
include hr

theorem existingItem_within (itemId : String) : (existingItem itemId).Within R :=
  (within_select hr _ _).bind fun _ => within_orElse _ _

include hdrop

theorem invalidateMenuCache_within (restaurantId : String) :
    (invalidateMenuCache restaurantId).Within R := by
  refine (Prog.within_query hr _ _ _).bind_returns (Q := fun keys => ∀ k ∈ keys, IsMenuKey k)
    (Prog.returns_query _ ?_ fun _ hz => by cases hz) fun keys hkeys => ?_
  · intro w keys h k hk
    cases h
    exact isMenuKey_of_match (List.mem_filter.1 hk).2
  rw [delMenuKeys]
  split
  · trivial
  · refine Prog.within_exec hr _ _ fun w r h => ?_
    cases h
    exact hdrop w keys hkeys

theorem createMenuItem_within_of (userId : String)
    (h : ∀ w r, insertMenuItem env input w.db = .ok r → R w { w with db := r.2 }) :
    (createMenuItem env input userId).Within R := by
  refine ((verifyManagerPermission_keeps _).within hr).bind fun _ => ?_
  refine (within_dbWrite hr h).bind fun _ => ?_
  exact (invalidateMenuCache_within hr hdrop _).bind fun _ => trivial

theorem updateMenuItem_within_of (userId : String)
    (h : ∀ w r, writePatch (UpdateMenuItemInput.id input) input.patch w.db = .ok r →
      R w { w with db := r.2 }) :
    (updateMenuItem input userId).Within R := by
  refine (existingItem_within hr _).bind fun _ => ?_
  refine ((verifyManagerPermission_keeps _).within hr).bind fun _ => ?_
  refine (within_dbWrite hr h).bind fun _ => ?_
  refine (invalidateMenuCache_within hr hdrop _).bind fun _ => ?_
  exact (within_orElse _ _).bind fun _ => trivial

theorem deleteMenuItem_within_of (userId : String)
    (h : ∀ w r, deleteItem itemId w.db = .ok r → R w { w with db := r.2 }) :
    (deleteMenuItem itemId userId).Within R := by
  refine (existingItem_within hr _).bind fun _ => ?_
  refine ((verifyManagerPermission_keeps _).within hr).bind fun _ => ?_
  refine (within_dbWrite hr h).bind fun _ => ?_
  exact (invalidateMenuCache_within hr hdrop _).bind fun _ => trivial

theorem toggleAvailability_within_of (userId : String)
    (h : ∀ w b r, patchMenuItem itemId { isAvailable := some b } w.db = .ok r →
      R w { w with db := r.2 }) :
    (toggleAvailability itemId userId).Within R := by
  refine (existingItem_within hr _).bind fun _ => ?_
  refine ((verifyKitchenOrManagerPermission_keeps _).within hr).bind fun _ => ?_
  refine (within_dbWrite hr fun w r => h w _ r).bind fun _ => ?_
  refine (invalidateMenuCache_within hr hdrop _).bind fun _ => ?_
  exact (within_orElse _ _).bind fun _ => trivial

end Mutations

theorem createMenuItem_within (env : Env) (input : CreateMenuItemInput) (userId : String) :
    (createMenuItem env input userId).Within MenuStep :=
  createMenuItem_within_of (fun _ => .refl) (fun _ keys _ => .drop keys) userId fun _ _ h =>
    .change (insertMenuItem_change h)

theorem updateMenuItem_within (input : UpdateMenuItemInput) (userId : String) :
    (updateMenuItem input userId).Within MenuStep :=
  updateMenuItem_within_of (fun _ => .refl) (fun _ keys _ => .drop keys) userId fun _ _ h =>
    .change (writePatch_change h)

theorem deleteMenuItem_within (itemId userId : String) :
    (deleteMenuItem itemId userId).Within MenuStep :=
  deleteMenuItem_within_of (fun _ => .refl) (fun _ keys _ => .drop keys) userId fun _ _ h =>
    .change (deleteItem_change h)

theorem toggleAvailability_within (itemId userId : String) :
    (toggleAvailability itemId userId).Within MenuStep :=
  toggleAvailability_within_of (fun _ => .refl) (fun _ keys _ => .drop keys) userId fun _ _ _ h =>
    .change (patchMenuItem_change h)

theorem MenuMutation.within (m : MenuMutation) (userId : String) :
    (m.prog userId).Within MenuStep := by
  cases m with
  | create env input => exact (createMenuItem_within env input userId).bind fun _ => trivial
  | update input => exact (updateMenuItem_within input userId).bind fun _ => trivial
  | delete itemId => exact (deleteMenuItem_within itemId userId).bind fun _ => trivial
  | toggle itemId => exact (toggleAvailability_within itemId userId).bind fun _ => trivial

end DineFlow
