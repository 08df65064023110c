import DineFlow.MenuListing

namespace DineFlow
open Atomic Relational
set_option autoImplicit true

/-- Whether the service lets the user write the menu. -/
def permitted (allowed : UserRole → Bool) (userId : String) (db : Db) : Bool :=
  match userById userId db with
  | .ok (some u) => allowed u.role
  | _ => false

/-- The row of an item that is there, before and after it is written. -/
def writtenItem (itemId : String) (allowed : UserRole → Bool) (userId : String)
    (act : MenuItemRow → Db → Except DbError (β × Db)) (new : β → Option MenuItemRow) (db : Db) :
    Option (Option MenuItemRow × Option MenuItemRow) :=
  match itemById itemId db with
  | .ok (some row) =>
    if permitted allowed userId db then
      match act row db with
      | .ok r => some (some row, new r.1)
      | .error _ => none
    else none
  | _ => none

/-- The row that a mutation writes, before and after; `none` if it is refused. -/
def MenuMutation.written (userId : String) (db : Db) :
    MenuMutation → Option (Option MenuItemRow × Option MenuItemRow)
  | .create env input =>
    if permitted (fun r => r = .manager) userId db then
      match insertMenuItem env input db with
      | .ok r => some (none, some r.1)
      | .error _ => none
    else none
  | .update input => writtenItem input.id (fun r => r = .manager) userId
      (fun _ => writePatch input.id input.patch) id db
  | .delete itemId => writtenItem itemId (fun r => r = .manager) userId
      (fun _ => deleteItem itemId) (fun _ => none) db
  | .toggle itemId => writtenItem itemId (fun r => r = .manager || r = .kitchen) userId
      (fun row => patchMenuItem itemId { isAvailable := some !row.isAvailable }) id db

theorem run_verifyRole_bind (allowed : UserRole → Bool) (message userId : String)
    (g : Unit → Api α) (w : World) :
    ((verifyRole allowed message userId).bind g).run noFault w =
        (g ()).run noFault w ∧ permitted allowed userId w.db = true ∨
      (∃ e, ((verifyRole allowed message userId).bind g).run noFault w = (.error e, w)) ∧
        permitted allowed userId w.db = false := by
  rw [verifyRole, Prog.bind_eq, Prog.bind_assoc, run_select_bind, permitted]
  cases userById userId w.db with
  | error e => exact .inr ⟨⟨_, rfl⟩, rfl⟩
  | ok user =>
    cases user with
    | none => exact .inr ⟨⟨_, rfl⟩, rfl⟩
    | some u =>
      dsimp only
      cases allowed u.role with
      | true => exact .inl ⟨rfl, rfl⟩
      | false => exact .inr ⟨⟨_, rfl⟩, rfl⟩

theorem Redis.delKeys_nil (r : Redis) : r.delKeys [] = r := by
  simp [Redis.delKeys]

/-- The world after the keys of a restaurant were dropped. -/
def World.invalidated (w : World) (restaurantId : String) : World :=
  { w with redis := w.redis.delKeys (w.redis.keys (menuPattern restaurantId)) }

theorem run_invalidateMenuCache_bind (restaurantId : String) (g : Unit → Api α) (w : World) :
    ((invalidateMenuCache restaurantId).bind g).run noFault w =
      (g ()).run noFault (w.invalidated restaurantId) := by
  change ((delMenuKeys (w.redis.keys (menuPattern restaurantId))).bind g).run noFault w = _
  rw [delMenuKeys]
  split
  · rename_i hk
    rw [World.invalidated, hk, Redis.delKeys_nil]
    rfl
  · rw [Prog.run_bind, Prog.run_exec]
    rfl

theorem run_existingItem_bind (itemId : String) (g : MenuItemRow → Api α) (w : World) :
    (∃ row, itemById itemId w.db = .ok (some row) ∧
      ((existingItem itemId).bind g).run noFault w = (g row).run noFault w) ∨
    (∀ row, itemById itemId w.db ≠ .ok (some row)) ∧
      ∃ e, ((existingItem itemId).bind g).run noFault w = (.error e, w) := by
  rw [existingItem, Prog.bind_eq, Prog.bind_assoc, run_select_bind]
  cases itemById itemId w.db with
  | error e => exact .inr ⟨fun _ h => (by cases h), _, rfl⟩
  | ok row =>
    cases row with
    | none => exact .inr ⟨fun _ h => (by cases h), _, rfl⟩
    | some row => exact .inl ⟨row, rfl, rfl⟩

/-- The common course of the mutations of an item that exists. -/
def writeItem (itemId : String) (allowed : UserRole → Bool) (message userId : String)
    (act : MenuItemRow → Db → Except DbError (β × Db)) (g : β → Api α) : Api α := do
  let row ← existingItem itemId
  verifyRole allowed message userId
  let b ← dbWrite .menuWrite (act row)
  invalidateMenuCache row.restaurantId.text
  g b

/-- One menu row is written, and nothing else that the menu is read from. -/
structure RowChange (k : Uuid) (db db' : Db) (old new : Option MenuItemRow) : Prop where
  tables : db'.tables = db.tables
  categories : db'.menuCategories = db.menuCategories
  others : others MenuItemRow.id k db'.menuItems = others MenuItemRow.id k db.menuItems
  before : lookup MenuItemRow.id k db.menuItems = old
  after : lookup MenuItemRow.id k db'.menuItems = new

theorem insertMenuItem_rowChange (h : insertMenuItem env input db = .ok r) :
    (Uuid.parse input.restaurantId).isSome ∧ RowChange r.1.id db r.2 none (some r.1) := by
  rw [insertMenuItem] at h
  split at h
  · rename_i c u _ hu
    obtain ⟨db', hi, rfl⟩ := map_ok h
    obtain ⟨⟨hid, _⟩, ht⟩ := Db.insertMenuItem_ok_iff.1 hi
    have hfresh := fresh_of_hasKey hid
    constructor
    · rw [parseUuid] at hu
      cases hp : Uuid.parse input.restaurantId with
      | some => rfl
      | none =>
        rw [hp] at hu
        cases hu
    · constructor
      · rw [ht]
      · rw [ht]
      · rw [ht]
        exact others_snoc _ _
      · exact List.find?_eq_none.2 fun x hx he => hfresh x hx (of_decide_eq_true he)
      · rw [ht]
        exact lookup_snoc hfresh
  all_goals cases h

theorem itemById_ok (h : itemById itemId db = .ok (some row)) :
    ∃ u, parseUuid itemId = .ok u ∧ lookup MenuItemRow.id u db.menuItems = some row :=
  map_ok h

theorem patchMenuItem_rowChange (h : patchMenuItem itemId p db = .ok r)
    (hrow : itemById itemId db = .ok (some row)) :
    ∃ k, RowChange k db r.2 (some row) r.1 := by
  obtain ⟨u, hu, hl⟩ := itemById_ok hrow
  rw [patchMenuItem, hu] at h
  obtain ⟨db', hi, rfl⟩ := map_ok h
  have ht := (Db.updateMenuItem_ok_iff.1 hi).2
  refine ⟨u, by rw [ht], by rw [ht], ?_, hl, rfl⟩
  rw [ht]
  exact others_updateWhere (by exact fun _ => rfl) _ _

theorem writePatch_rowChange (h : writePatch itemId patch db = .ok r)
    (hrow : itemById itemId db = .ok (some row)) :
    ∃ k, RowChange k db r.2 (some row) r.1 := by
  unfold writePatch at h
  split at h
  · cases h
  · split at h
    · cases h
    · exact patchMenuItem_rowChange h hrow

theorem deleteItem_rowChange (h : deleteItem itemId db = .ok r)
    (hrow : itemById itemId db = .ok (some row)) :
    ∃ k, RowChange k db r.2 (some row) none := by
  obtain ⟨u, hu, hl⟩ := itemById_ok hrow
  rw [deleteItem, hu] at h
  obtain ⟨db', hi, rfl⟩ := map_ok h
  have ht := (Db.deleteMenuItem_ok_iff.1 hi).2
  refine ⟨u, by rw [ht], by rw [ht], ?_, hl, ?_⟩
  · rw [ht]
    exact others_others _ _
  · rw [ht]
    exact lookup_others _ _

/-- A mutation goes through: it writes one row and drops the keys that match its pattern. -/
def MenuWritten (w w' : World) (old new : Option MenuItemRow) : Prop :=
  ∃ k db restaurantId, RowChange k w.db db old new ∧ (Uuid.parse restaurantId).isSome ∧
    w' = World.invalidated { w with db := db } restaurantId

theorem run_writeItem (allowed : UserRole → Bool) (message userId : String)
    {act : MenuItemRow → Db → Except DbError (β × Db)} {n : β → Option MenuItemRow}
    {g : β → Api α} (hg : ∀ b w, ((g b).run noFault w).2 = w)
    (hact : ∀ row r, itemById itemId w.db = .ok (some row) → act row w.db = .ok r →
      ∃ k, RowChange k w.db r.2 (some row) (n r.1)) :
    writtenItem itemId allowed userId act n w.db = none ∧
        ((writeItem itemId allowed message userId act g).run noFault w).2 = w ∨
      ∃ old new, writtenItem itemId allowed userId act n w.db = some (old, new) ∧
        MenuWritten w ((writeItem itemId allowed message userId act g).run noFault w).2 old
          new := by
  rw [writeItem, Prog.bind_eq, writtenItem]
  rcases run_existingItem_bind itemId _ w with ⟨row, hrow, hrun⟩ | ⟨hno, e, hrun⟩
  · rw [hrow, hrun, Prog.bind_eq]
    dsimp only
    rcases run_verifyRole_bind allowed message userId _ w with ⟨hrun, hp⟩ | ⟨⟨e, hrun⟩, hp⟩
    · rw [hrun, hp, if_pos rfl, Prog.bind_eq, run_dbWrite_bind, noFault,
        if_neg (fun h => by cases h)]
      cases hr : act row w.db with
      | error e => exact .inl ⟨rfl, rfl⟩
      | ok r =>
        dsimp only
        rw [Prog.bind_eq, run_invalidateMenuCache_bind, hg]
        obtain ⟨k, hk⟩ := hact row r hrow hr
        refine .inr ⟨_, _, rfl, k, r.2, row.restaurantId.text, hk, ?_, rfl⟩
        rw [Uuid.parse_text]
        rfl
    · rw [hrun, hp]
      exact .inl ⟨rfl, rfl⟩
  · rw [hrun]
    split
    · rename_i row hrow
      exact absurd hrow (hno row)
    · exact .inl ⟨rfl, rfl⟩

theorem run_createMenuItem (env : Env) (input : CreateMenuItemInput) (userId : String) (w : World) :
    (MenuMutation.create env input).written userId w.db = none ∧
        ((createMenuItem env input userId).run noFault w).2 = w ∨
      ∃ old new, (MenuMutation.create env input).written userId w.db = some (old, new) ∧
        MenuWritten w ((createMenuItem env input userId).run noFault w).2 old new := by
  rw [createMenuItem, Prog.bind_eq, verifyManagerPermission, MenuMutation.written]
  rcases run_verifyRole_bind _ _ userId _ w with ⟨hrun, hp⟩ | ⟨⟨e, hrun⟩, hp⟩
  · rw [hrun, hp, if_pos rfl, Prog.bind_eq, run_dbWrite_bind, noFault, if_neg (fun h => by cases h)]
    cases hr : insertMenuItem env input w.db with
    | error e => exact .inl ⟨rfl, rfl⟩
    | ok r =>
      dsimp only
      rw [Prog.bind_eq, run_invalidateMenuCache_bind]
      obtain ⟨hu, hk⟩ := insertMenuItem_rowChange hr
      exact .inr ⟨_, _, rfl, r.1.id, r.2, input.restaurantId, hk, hu, rfl⟩
  · rw [hrun, hp]
    exact .inl ⟨rfl, rfl⟩

/-- The answer to the client changes nothing. -/
def answerRow (row : Option MenuItemRow) : Api MenuItem :=
  (orElse row .typeError).bind fun r => .ret (menuItemFromDb r.like)

theorem run_answerRow (row : Option MenuItemRow) (w : World) :
    ((answerRow row).run noFault w).2 = w := by
  cases row <;> rfl

theorem updateMenuItem_eq (input : UpdateMenuItemInput) (userId : String) :
    updateMenuItem input userId = writeItem input.id (fun r => r = .manager)
      "Only managers can modify menu items" userId (fun _ => writePatch input.id input.patch)
      answerRow := rfl

theorem deleteMenuItem_eq (itemId userId : String) :
    deleteMenuItem itemId userId = writeItem itemId (fun r => r = .manager)
      "Only managers can modify menu items" userId (fun _ => deleteItem itemId)
      fun _ => .ret true := rfl

theorem toggleAvailability_eq (itemId userId : String) :
    toggleAvailability itemId userId = writeItem itemId (fun r => r = .manager || r = .kitchen)
      "Only managers and kitchen staff can toggle menu item availability" userId
      (fun row => patchMenuItem itemId { isAvailable := some !row.isAvailable }) answerRow := rfl

/-- What a mutation does: it is refused and changes nothing, or it writes its row. -/
theorem MenuMutation.run_cases (m : MenuMutation) (userId : String) (w : World) :
    m.written userId w.db = none ∧ ((m.prog userId).run noFault w).2 = w ∨
      ∃ old new, m.written userId w.db = some (old, new) ∧
        MenuWritten w ((m.prog userId).run noFault w).2 old new := by
  cases m with
  | create env input =>
    simp only [prog, Prog.bind_eq, Prog.pure_eq, Prog.run_bind_ret]
    exact run_createMenuItem env input userId w
  | update input =>
    simp only [prog, Prog.bind_eq, Prog.pure_eq, Prog.run_bind_ret, updateMenuItem_eq, written]
    exact run_writeItem _ _ userId run_answerRow fun row r hrow hr => writePatch_rowChange hr hrow
  | delete itemId =>
    simp only [prog, Prog.bind_eq, Prog.pure_eq, Prog.run_bind_ret, deleteMenuItem_eq, written]
    exact run_writeItem _ _ userId (fun _ _ => rfl)
      fun row r hrow hr => deleteItem_rowChange hr hrow
  | toggle itemId =>
    simp only [prog, Prog.bind_eq, Prog.pure_eq, Prog.run_bind_ret, toggleAvailability_eq, written]
    exact run_writeItem _ _ userId run_answerRow
      fun row r hrow hr => patchMenuItem_rowChange hr hrow

end DineFlow
