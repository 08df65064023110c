import DineFlow.OrderService

namespace DineFlow
open Atomic Relational
set_option autoImplicit true

theorem parseUuids_text (us : List Uuid) : parseUuids (us.map Uuid.text) = .ok us := by
  induction us with
  | nil => rfl
  | cons u us ih => simp only [List.map_cons, parseUuids, parseUuid_text, ih]

theorem inArray_text {us : List Uuid} (h : us ≠ []) : inArray (us.map Uuid.text) = .ok us := by
  rw [inArray, if_neg (by simpa using h), parseUuids_text]

theorem run_orElse_bind_ok_iff {o : Option α} {g : α → Api β} :
    (((orElse o e).bind g).run f w).1 = .ok v ↔ ∃ a, o = some a ∧ ((g a).run f w).1 = .ok v := by
  cases o <;> simp [orElse]

theorem within_orElse (o : Option α) (e : ApiError) : (orElse o e).Within R := by
  cases o <;> trivial

def detailUp (f : Site → Bool) : Prop :=
  f .detailOrder = false ∧ f .detailTable = false ∧ f .detailLines = false ∧ f .detailMenu = false

theorem detailUp_noFault : detailUp noFault := ⟨rfl, rfl, rfl, rfl⟩

/-- The menu rows an order's lines refer to. -/
def menuOf (lines : List OrderItemRow) (db : Db) : List MenuItemRow :=
  db.menuItems.filter fun r => r.id ∈ lines.map OrderItemRow.menuItemId

theorem menuItemsIn_lines {lines : List OrderItemRow} (h : lines ≠ []) (db : Db) :
    menuItemsIn (lines.map fun l => l.menuItemId.text) db = .ok (menuOf lines db) := by
  have ht : (lines.map fun l => l.menuItemId.text) =
      (lines.map OrderItemRow.menuItemId).map Uuid.text := by
    rw [List.map_map]
    rfl
  rw [menuItemsIn, ht, inArray_text (by simpa using h)]
  rfl

/-- Reading an order back succeeds exactly when it exists, has a table and has a line. -/
theorem getOrderWithDetails_ok_iff :
    ((getOrderWithDetails k).run f w).1 = .ok v ↔
      detailUp f ∧ ∃ order table, orderById k w.db = .ok (some order) ∧
        tableOfOrder order w.db = some table ∧ linesOf order.id w.db ≠ [] ∧
        v = orderView order table (linesOf order.id w.db)
          (menuOf (linesOf order.id w.db) w.db) := by
  simp only [getOrderWithDetails, Prog.bind_eq, Prog.pure_eq, run_select_bind_ok_iff,
    run_orElse_bind_ok_iff, Prog.run_ret, Except.ok.injEq]
  constructor
  · rintro ⟨ho, o, hk, order, rfl, ht, t, rfl, table, htable, hl, lines, rfl, hm, rows, hr, rfl⟩
    have hne : linesOf order.id w.db ≠ [] := by
      intro he
      rw [he] at hr
      cases hr
    rw [menuItemsIn_lines hne] at hr
    cases hr
    exact ⟨⟨ho, ht, hl, hm⟩, order, table, hk, htable, hne, rfl⟩
  · rintro ⟨⟨ho, ht, hl, hm⟩, order, table, hk, htable, hne, rfl⟩
    exact ⟨ho, _, hk, order, rfl, ht, _, rfl, table, htable, hl, _, rfl, hm, _,
      menuItemsIn_lines hne w.db, rfl⟩

theorem getOrderWithDetails_keeps (k : String) : (getOrderWithDetails k).Keeps id := by
  refine (keeps_select _ _).bind fun order => ?_
  refine (within_orElse _ _).bind fun order => ?_
  refine (keeps_select _ _).bind fun table => ?_
  refine (within_orElse _ _).bind fun table => ?_
  refine (keeps_select _ _).bind fun lines => ?_
  exact (keeps_select _ _).bind fun rows => trivial

theorem getOrderWithDetails_world (k : String) (f : Site → Bool) (w : World) :
    ((getOrderWithDetails k).run f w).2 = w :=
  (getOrderWithDetails_keeps k).run f w

theorem rowOf_mem (h : rowOf rows k = some r) : r ∈ rows ∧ r.id.text = k :=
  ⟨List.mem_of_find?_eq_some h, by simpa using List.find?_some h⟩

/-- Every line is priced from a menu row of the database. -/
def Priced (db : Db) (data : List OrderItemData) : Prop :=
  ∀ d ∈ data, ∃ r ∈ db.menuItems, d.menuItemId = r.id.text ∧ d.price = r.price

theorem orderItemsData_priced {db : Db} (hs : ∀ r ∈ rows, r ∈ db.menuItems)
    (items : List EffectiveItem) : Priced db (orderItemsData rows items) := by
  intro d hd
  obtain ⟨i, _, he⟩ := List.mem_filterMap.1 hd
  obtain ⟨r, hr, rfl⟩ := Option.map_eq_some_iff.1 he
  obtain ⟨hm, hk⟩ := rowOf_mem hr
  exact ⟨r, hs r hm, hk.symm, rfl⟩

def lineIds (env : Env) (n : Nat) (data : List OrderItemData) : List Uuid :=
  (List.range' (n + 1) data.length).map env.uuid

/-- The quantity and the notes of a line are values of their columns. -/
def OrderItemData.Fits (d : OrderItemData) : Prop :=
  FitsInt4 d.quantity ∧ ∀ s ∈ d.notes, Storable s

/-- What it takes for every order line to be inserted. -/
structure LinesAccepted (f : Site → Bool) (env : Env) (n : Nat) (data : List OrderItemData)
    (lines : List OrderItemRow) : Prop where
  up : ∀ i ∈ List.range' n data.length, f (.lineInsert i) = false
  fits : ∀ d ∈ data, d.Fits
  distinct : (lineIds env n data).Nodup
  fresh : ∀ u ∈ lineIds env n data, ∀ r ∈ lines, r.id ≠ u

def OrderItemRow.data (r : OrderItemRow) : OrderItemData :=
  ⟨r.menuItemId.text, r.quantity, r.price, r.notes⟩

theorem OrderItemRow.accepted_iff {db : Db} {r : OrderItemRow}
    (ho : ∃ o ∈ db.orders, o.id = r.orderId)
    (hm : m ∈ db.menuItems) (hi : r.menuItemId = m.id) (hp : r.price = m.price) :
    r.accepted db.toTables = true ↔ (∀ x ∈ db.orderItems, x.id ≠ r.id) ∧ r.data.Fits := by
  simp only [OrderItemRow.accepted, Bool.and_eq_true, Bool.not_eq_true', decide_eq_true_eq,
    all_storable_iff]
  constructor
  · intro h
    exact ⟨fresh_of_hasKey h.1.1.1.1.1, h.1.1.2, h.2⟩
  · intro h
    exact ⟨⟨⟨⟨⟨hasKey_of_fresh h.1, hasKey_iff.2 ho⟩, hasKey_iff.2 ⟨m, hm, hi.symm⟩⟩, h.2.1⟩,
      hp ▸ db.valid.itemPrices m hm⟩, h.2.2⟩

theorem insertLine_ok_iff {db : Db} (ho : ∃ o ∈ db.orders, o.id = order)
    (hm : m ∈ db.menuItems) (hi : d.menuItemId = m.id.text) (hp : d.price = m.price) :
    insertLine env order n d db = .ok ((), db') ↔
      (∀ x ∈ db.orderItems, x.id ≠ env.uuid (n + 1)) ∧ d.Fits ∧
      db'.toTables = { db.toTables with
        orderItems := db.orderItems ++ [newLine env order n m.id d] } := by
  have hmap (x : Except DbError Db) :
      (x.map fun db => ((), db)) = .ok ((), db') ↔ x = .ok db' := by
    cases x <;> simp [Except.map]
  rw [insertLine, hi, parseUuid_text]
  dsimp only
  rw [hmap, Db.insertOrderItem_ok_iff,
    OrderItemRow.accepted_iff (r := newLine env order n m.id d) ho hm rfl hp, and_assoc]
  exact Iff.rfl

theorem insertLine_cases {db : Db} (ho : ∃ o ∈ db.orders, o.id = order)
    (hm : m ∈ db.menuItems) (hi : d.menuItemId = m.id.text) (hp : d.price = m.price) :
    (((∀ x ∈ db.orderItems, x.id ≠ env.uuid (n + 1)) ∧ d.Fits) ∧
      ∃ db', insertLine env order n d db = .ok ((), db') ∧
        db'.toTables = { db.toTables with
          orderItems := db.orderItems ++ [newLine env order n m.id d] }) ∨
    (¬((∀ x ∈ db.orderItems, x.id ≠ env.uuid (n + 1)) ∧ d.Fits) ∧
      ∃ e, insertLine env order n d db = .error e) := by
  by_cases hc : (∀ x ∈ db.orderItems, x.id ≠ env.uuid (n + 1)) ∧ d.Fits
  · left
    have ha := (OrderItemRow.accepted_iff (r := newLine env order n m.id d) ho hm rfl hp).2 hc
    refine ⟨hc, ⟨_, db.valid.insertOrderItem ha⟩, ?_, rfl⟩
    exact (insertLine_ok_iff ho hm hi hp).2 ⟨hc.1, hc.2, rfl⟩
  · right
    refine ⟨hc, ?_⟩
    cases he : insertLine env order n d db with
    | error e => exact ⟨e, rfl⟩
    | ok r =>
      obtain ⟨hf, hq, _⟩ := (insertLine_ok_iff ho hm hi hp).1 he
      exact absurd ⟨hf, hq⟩ hc

theorem lineIds_cons (env : Env) (n : Nat) (d : OrderItemData) (ds : List OrderItemData) :
    lineIds env n (d :: ds) = env.uuid (n + 1) :: lineIds env (n + 1) ds := by
  rw [lineIds, List.length_cons, List.range'_succ]
  rfl

theorem nodup_first_lineId (env : Env) (n : Nat) (data : List OrderItemData) :
    (lineIds env n (data.take 1)).Nodup := by
  cases data <;> simp [lineIds]

theorem linesAccepted_nil (f : Site → Bool) (env : Env) (n : Nat) (lines : List OrderItemRow) :
    LinesAccepted f env n [] lines := by
  constructor <;> simp [lineIds]

theorem linesAccepted_cons (row : OrderItemRow) (hr : row.id = env.uuid (n + 1)) :
    LinesAccepted f env n (d :: ds) lines ↔
      f (.lineInsert n) = false ∧ ((∀ r ∈ lines, r.id ≠ env.uuid (n + 1)) ∧ d.Fits) ∧
      LinesAccepted f env (n + 1) ds (lines ++ [row]) := by
  constructor
  · intro h
    have hu := h.up
    have hd := h.distinct
    have hf := h.fresh
    rw [List.length_cons, List.range'_succ] at hu
    rw [lineIds_cons] at hd hf
    refine ⟨hu n List.mem_cons_self, ⟨hf _ List.mem_cons_self, h.fits d List.mem_cons_self⟩,
      fun i hi => hu i (List.mem_cons_of_mem _ hi),
        fun x hx => h.fits x (List.mem_cons_of_mem _ hx),
      hd.of_cons, ?_⟩
    intro u hu' r hr'
    rcases List.mem_append.1 hr' with hr' | hr'
    · exact hf u (List.mem_cons_of_mem _ hu') r hr'
    · rw [List.mem_singleton.1 hr', hr]
      rintro rfl
      exact (List.nodup_cons.1 hd).1 hu'
  · rintro ⟨hu, ⟨hf, hq⟩, h⟩
    have hnew : ∀ u ∈ lineIds env (n + 1) ds, u ≠ env.uuid (n + 1) := by
      intro u hu' he
      exact h.fresh u hu' row (by simp) (hr.trans he.symm)
    constructor
    · rw [List.length_cons, List.range'_succ]
      exact List.forall_mem_cons.2 ⟨hu, h.up⟩
    · exact List.forall_mem_cons.2 ⟨hq, h.fits⟩
    · rw [lineIds_cons]
      exact List.nodup_cons.2 ⟨fun hm => hnew _ hm rfl, h.distinct⟩
    · rw [lineIds_cons]
      exact List.forall_mem_cons.2
        ⟨hf, fun u hu' r hr' => h.fresh u hu' r (List.mem_append_left _ hr')⟩

theorem LinesAccepted.first (h : LinesAccepted f env n data lines) :
    LinesAccepted f env n (data.take 1) lines := by
  cases data with
  | nil => exact h
  | cons d ds =>
    have hr : (newLine env (env.uuid 0) n (env.uuid 0) d).id = env.uuid (n + 1) := rfl
    obtain ⟨hu, hq, _⟩ := (linesAccepted_cons _ hr).1 h
    exact (linesAccepted_cons _ hr).2 ⟨hu, hq, linesAccepted_nil _ _ _ _⟩

theorem insertLines_cons (env : Env) (order : Uuid) (n : Nat) (d : OrderItemData)
    (ds : List OrderItemData) :
    insertLines env order n (d :: ds) =
      (dbWrite (.lineInsert n) (insertLine env order n d)).bind fun _ =>
        insertLines env order (n + 1) ds := rfl

/-- The loop over the order lines inserts all of them, or throws after some; it gets past the
first one exactly when that one is accepted. -/
theorem run_insertLines (hp : Priced w.db data) (ho : ∃ o ∈ w.db.orders, o.id = order) :
    ∃ rows db', db'.toTables = { w.db.toTables with orderItems := w.db.orderItems ++ rows } ∧
      (∀ r ∈ rows, r.orderId = order) ∧
      ((LinesAccepted f env n data w.db.orderItems ∧ rows.map OrderItemRow.data = data ∧
          (insertLines env order n data).run f w = (.ok (), { w with db := db' })) ∨
        (¬LinesAccepted f env n data w.db.orderItems ∧
          (rows ≠ [] ↔ LinesAccepted f env n (data.take 1) w.db.orderItems) ∧
          ∃ e, (insertLines env order n data).run f w = (.error e, { w with db := db' }))) := by
  induction data generalizing n w with
  | nil => exact ⟨[], w.db, by simp, by simp, .inl ⟨linesAccepted_nil f env n _, rfl, rfl⟩⟩
  | cons d ds ih =>
    obtain ⟨m, hm, hi, hpr⟩ := hp d List.mem_cons_self
    have hacc (ds : List OrderItemData) : LinesAccepted f env n (d :: ds) w.db.orderItems ↔ _ :=
      linesAccepted_cons (newLine env order n m.id d) rfl
    rw [insertLines_cons, run_dbWrite_bind, List.take_succ_cons, List.take_zero, hacc, hacc]
    cases hf : f (.lineInsert n) with
    | true =>
      exact ⟨[], w.db, by simp, by simp,
        .inr ⟨fun h => (by cases h.1), iff_of_false (fun h => h rfl) fun h => (by cases h.1), _,
          rfl⟩⟩
    | false =>
      rcases insertLine_cases ho hm hi hpr with ⟨hc, db₁, he, ht⟩ | ⟨hc, e, he⟩
      · rw [he]
        have hp' : Priced db₁ ds := by
          intro x hx
          rw [ht]
          exact hp x (List.mem_cons_of_mem _ hx)
        have ho' : ∃ o ∈ db₁.orders, o.id = order := by
          rw [ht]
          exact ho
        obtain ⟨rows, db₂, ht₂, hid, hr⟩ := ih (w := { w with db := db₁ }) (n := n + 1) hp' ho'
        refine ⟨newLine env order n m.id d :: rows, db₂, ?_, List.forall_mem_cons.2 ⟨rfl, hid⟩, ?_⟩
        · rw [ht₂, ht, List.append_assoc]
          rfl
        · rw [ht] at hr
          rcases hr with ⟨ha, hd, hr⟩ | ⟨ha, _, e, hr⟩
          · refine .inl ⟨⟨rfl, hc, ha⟩, ?_, hr⟩
            rw [List.map_cons, hd, OrderItemRow.data, newLine, ← hi]
          · refine .inr ⟨fun h => ha h.2.2, iff_of_true (List.cons_ne_nil _ _) ?_, e, hr⟩
            exact ⟨rfl, hc, linesAccepted_nil _ _ _ _⟩
      · rw [he]
        exact ⟨[], w.db, by simp, by simp,
          .inr ⟨fun h => hc h.2.1, iff_of_false (fun h => h rfl) fun h => hc h.2.1, _, rfl⟩⟩

theorem insertOrder_row (h : insertOrder env input table userId guestId amounts db = .ok r) :
    ∃ u, parseOptUuid (given userId) = .ok u ∧
      db.insertOrder (newOrder env input table u guestId amounts) = .ok r.2 ∧
      r.1 = (newOrder env input table u guestId amounts).stored := by
  rw [insertOrder] at h
  split at h
  · cases h
  · rename_i u hu
    obtain ⟨db', hi, rfl⟩ := map_ok h
    exact ⟨u, hu, hi, rfl⟩

theorem insertOrder_tables (h : insertOrder env input table userId guestId amounts db = .ok r) :
    r.2.toTables = { db.toTables with orders := db.orders ++ [r.1] } := by
  obtain ⟨u, _, hi, hrow⟩ := insertOrder_row h
  rw [hrow]
  exact (Db.insertOrder_ok_iff.1 hi).2

end DineFlow
