import DineFlow.CartEdits
import DineFlow.MenuStaleness

namespace DineFlow
open Atomic Relational CartPhase
set_option autoImplicit true

/-- A read that finds what a read before it has cached returns the same value, with the same kinds
of dates. -/
def MenuRead.HitAgrees (r : MenuRead) (t : String) (w : World) : Prop :=
  ∀ env plan env' plan' a, ((r.answer env plan t).run noFault w).1 = .ok a →
    ((r.answer env' plan' t).run noFault ((r.answer env plan t).run noFault w).2).1 = .ok a

/-- The table's menu is empty. -/
def MenuRead.ListsNothing (r : MenuRead) (t : String) (db : Db) : Prop :=
  ∀ table, tableById t db = .ok (some table) →
    ∀ row ∈ db.menuItems, r.visible table db row = false

theorem menuItemFromDb_json_ne (row : MenuItemRow) :
    menuItemFromDb row.like.json ≠ menuItemFromDb row.like := by
  intro h
  cases congrArg MenuItem.createdAt h

/-- A row from the database does not survive the round trip through the cache. -/
theorem map_json_eq_iff (rows : List MenuItemRow) :
    ((rows.map MenuItemRow.like).map MenuItemRowLike.json).map menuItemFromDb =
        (rows.map MenuItemRow.like).map menuItemFromDb ↔ rows = [] := by
  rw [List.map_map, List.map_map, List.map_map, List.map_inj_left]
  constructor
  · intro h
    cases rows with
    | nil => rfl
    | cons row rows => exact absurd (h row List.mem_cons_self) (menuItemFromDb_json_ne row)
  · rintro rfl row hrow
    cases hrow

theorem formatMenu_json_iff (m : CachedMenu) :
    formatMenu { m with categories := m.categories.map CategoryWithItems.json } = formatMenu m ↔
      ∀ c ∈ m.categories, (c.items.map MenuItemRowLike.json).map menuItemFromDb =
        c.items.map menuItemFromDb := by
  simp only [formatMenu, Menu.mk.injEq, List.map_map, List.map_inj_left, Function.comp_apply,
    MenuCategory.mk.injEq, CategoryWithItems.json, true_and]

theorem menuAt_json_iff (plan : RowOrder) (t : String) (table : TableRow) (db : Db) :
    formatMenu { menuAt plan t table db with
        categories := (menuAt plan t table db).categories.map CategoryWithItems.json } =
        formatMenu (menuAt plan t table db) ↔
      ∀ c ∈ categoryRows plan table.restaurantId db, categoryItems plan c.id db = [] := by
  rw [formatMenu_json_iff, menuAt, List.forall_mem_map]
  exact forall₂_congr fun c _ => map_json_eq_iff _

theorem categoryItems_nil_iff (plan : RowOrder) (table : TableRow) (db : Db) :
    (∀ c ∈ categoryRows plan table.restaurantId db, categoryItems plan c.id db = []) ↔
      db.menuItems.filter (MenuRead.menu.visible table db) = [] := by
  have hperm := categoryItems_perm plan table.restaurantId db
  rw [← List.flatMap_eq_nil_iff]
  exact ⟨fun h => (h ▸ hperm).nil_eq.symm, fun h => (h ▸ hperm).eq_nil⟩

theorem availableRows_nil_iff (plan : RowOrder) (table : TableRow) (db : Db) :
    availableRows plan table.restaurantId db = [] ↔
      db.menuItems.filter (MenuRead.items.visible table db) = [] := by
  have hperm : (availableRows plan table.restaurantId db).Perm
    (db.menuItems.filter (MenuRead.items.visible table db)) := plan.arrange_perm _
  exact ⟨fun h => (h ▸ hperm).nil_eq.symm, fun h => (h ▸ hperm).eq_nil⟩

theorem filter_eq_nil_iff_visible {r : MenuRead} :
    db.menuItems.filter (r.visible table db) = [] ↔
      ∀ row ∈ db.menuItems, r.visible table db row = false := by
  simp only [List.filter_eq_nil_iff, Bool.not_eq_true]

theorem MenuRead.listsNothing_iff (ht : tableById t db = .ok (some table)) (r : MenuRead) :
    r.ListsNothing t db ↔ db.menuItems.filter (r.visible table db) = [] := by
  rw [filter_eq_nil_iff_visible]
  constructor
  · intro h
    exact h table ht
  · intro h table' ht'
    cases ht.symm.trans ht'
    exact h

theorem MenuRead.answerOf_json_iff (r : MenuRead) (plan : RowOrder)
    (ht : tableById t db = .ok (some table)) (hc : r.loaded plan t db = .ok c) :
    r.answerOf c.json = r.answerOf c ↔ r.ListsNothing t db := by
  rw [loaded, ht] at hc
  rw [r.listsNothing_iff ht]
  cases r with
  | menu =>
    cases hc
    rw [← categoryItems_nil_iff plan, ← menuAt_json_iff plan t]
    constructor
    · intro h
      exact MenuAnswer.menu.inj (Except.ok.inj h)
    · intro h
      exact congrArg (fun m => Except.ok (MenuAnswer.menu m)) h
  | items =>
    cases hc
    rw [← availableRows_nil_iff plan, ← map_json_eq_iff]
    constructor
    · intro h
      exact MenuAnswer.items.inj (Except.ok.inj h)
    · intro h
      exact congrArg (fun is => Except.ok (MenuAnswer.items is)) h

theorem MenuRead.run_answer_again (r : MenuRead) (h : w.redis.get (r.key t) = none)
    (hc : r.loaded plan t w.db = .ok c) (env env' : Env) (plan' : RowOrder) :
    ((r.answer env plan t).run noFault w).1 = r.answerOf c ∧
      ((r.answer env' plan' t).run noFault ((r.answer env plan t).run noFault w).2).1 =
        r.answerOf c.json := by
  rw [r.run_answer_miss env plan h, hc]
  dsimp only
  rw [r.run_answer_hit env' plan' (Redis.get_set_same _ _ _)]
  exact ⟨rfl, rfl⟩

theorem MenuRead.answerOf_loaded (r : MenuRead) (hc : r.loaded plan t db = .ok c) :
    ∃ a, r.answerOf c = .ok a := by
  rw [loaded] at hc
  split at hc
  · cases hc
  · cases hc
  · cases r <;> cases hc <;> exact ⟨_, rfl⟩

theorem MenuRead.hitAgrees_iff (r : MenuRead) (h : w.redis.get (r.key t) = none) :
    r.HitAgrees t w ↔ r.ListsNothing t w.db := by
  cases ht : tableById t w.db with
  | error e =>
    refine ⟨fun _ table ht' => ?_, fun _ env plan env' plan' a ha => ?_⟩
    · cases ht.symm.trans ht'
    · rw [r.run_answer_miss env plan h, loaded, ht] at ha
      cases ha
  | ok table =>
    cases table with
    | none =>
      refine ⟨fun _ table ht' => ?_, fun _ env plan env' plan' a ha => ?_⟩
      · cases ht.symm.trans ht'
      · rw [r.run_answer_miss env plan h, loaded, ht] at ha
        cases ha
    | some table =>
      have hloaded (plan : RowOrder) : ∃ c, r.loaded plan t w.db = .ok c := by
        rw [loaded, ht]
        exact ⟨_, rfl⟩
      constructor
      · intro hagrees
        obtain ⟨c, hc⟩ := hloaded .stored
        obtain ⟨a, ha⟩ := r.answerOf_loaded hc
        obtain ⟨hmiss, hhit⟩ := r.run_answer_again h hc sampleEnv sampleEnv .stored
        have hsame := hagrees sampleEnv .stored sampleEnv .stored a (hmiss.trans ha)
        exact (r.answerOf_json_iff .stored ht hc).1 (hhit.symm.trans (hsame.trans ha.symm))
      · intro hnothing env plan env' plan' a ha
        obtain ⟨c, hc⟩ := hloaded plan
        obtain ⟨hmiss, hhit⟩ := r.run_answer_again h hc env env' plan'
        rw [hhit, (r.answerOf_json_iff plan ht hc).2 hnothing, ← hmiss]
        exact ha

def Cart.dates (c : Cart) : List Stamp :=
  c.createdAt :: c.updatedAt :: c.items.map CartItem.addedAt

/-- `getCart` returns the dates that the `addToCart` before it has returned. -/
def DatesKept (s : Session) (env : Env) (input : AddToCartInput) (w : World) : Prop :=
  ∀ cart, ((addToCart env input s.userId s.guestId).run noFault w).1 = .ok cart →
    ∀ env', ∃ cart', ((getCart env' s.userId s.guestId).run noFault
      ((addToCart env input s.userId s.guestId).run noFault w).2).1 = .ok cart' ∧
        cart'.dates = cart.dates

theorem addedCart_updatedAt (h : (CartEdit.add env input).outcome db seen = .ok cart) :
    cart.updatedAt = .date env.now := by
  rw [CartEdit.outcome] at h
  split at h
  · obtain ⟨c, hc, hp⟩ := bind_ok h
    obtain ⟨c₀, _, rfl⟩ := map_ok hc
    rw [← (priceCart_ok_iff.1 hp).2]
    rfl
  · cases h
  · cases h

/-- The time of the last change is a date when a cart is stored and a string when it is read. -/
theorem not_datesKept (s : Session) {w : World}
    (h : ((addToCart env input s.userId s.guestId).run noFault w).1 = .ok cart) :
    ¬DatesKept s env input w := by
  intro hkept
  obtain ⟨cart', hget, hdates⟩ := hkept cart h env
  rw [run_addToCart] at h hget
  have hupdated : cart'.updatedAt = cart.updatedAt := (List.cons.inj (List.cons.inj hdates).2).1
  generalize hstored : (CartEdit.add env input).outcome w.db (seenCart s w) = r at h hget
  cases r with
  | error e => cases h
  | ok stored =>
    cases h
    have hdate := addedCart_updatedAt hstored
    rw [run_getCart, storeResult, seenCart_set] at hget
    have hcart' := (priceCart_ok_iff.1 hget).2
    have hiso : cart'.updatedAt = .iso env.now := by
      rw [← hcart']
      exact congrArg Stamp.json hdate
    cases hiso.symm.trans (hupdated.trans hdate)

/-- What comes out of the cache is what went into it exactly for a menu without items, and for no
cart. -/
theorem cachedReads_agree_iff (w : World) :
    (∀ (r : MenuRead) t, w.redis.get (r.key t) = none →
      (r.HitAgrees t w ↔ r.ListsNothing t w.db)) ∧
    ∀ (s : Session) env input cart,
      ((addToCart env input s.userId s.guestId).run noFault w).1 = .ok cart →
        ¬DatesKept s env input w :=
  ⟨fun r _ h => r.hitAgrees_iff h, fun s _ _ _ h => not_datesKept s h⟩

def sampleTable : TableRow := ⟨sampleId 2, sampleId 1, 1, sampleId 2, none, "available", 0, 0⟩

/-- The dates of the dish are strings when its menu is read again. -/
theorem menuDates_lost : ¬MenuRead.menu.HitAgrees (sampleId 2).text sampleWorld := by
  intro h
  have hnothing := (MenuRead.menu.hitAgrees_iff (w := sampleWorld) rfl).1 h sampleTable
    (by decide +kernel)
  revert hnothing
  decide +kernel

/-- The restaurant after its dish was taken off the menu. -/
def soldOut : World := MenuOp.step sampleWorld sampleToggle

theorem cachedReads_agree_sample : MenuRead.items.HitAgrees (sampleId 2).text soldOut := by
  refine ((cachedReads_agree_iff soldOut).1 .items (sampleId 2).text (by decide +kernel)).2 ?_
  intro table ht
  have htable : tableById (sampleId 2).text soldOut.db = .ok (some sampleTable) := by
    decide +kernel
  cases htable.symm.trans ht
  decide +kernel

end DineFlow
