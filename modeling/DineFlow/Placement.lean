import DineFlow.OrderLines

namespace DineFlow
open Atomic Relational
set_option autoImplicit true

/-- The cart a placement sees: a session without a cart and an unreachable Redis look alike. -/
def readCart (f : Site → Bool) (key : Option String) (w : World) : Option Cached :=
  key.bind fun k => if f .cartGet then none else (w.redis.get k).map Entry.value

def orderedItems (f : Site → Bool) (input : PlaceOrderInput) (userId guestId : Option String)
    (w : World) : List EffectiveItem :=
  effectiveItems (readCart f (cartKey userId guestId) w) input

def orderedData (f : Site → Bool) (input : PlaceOrderInput) (userId guestId : Option String)
    (w : World) (rows : List MenuItemRow) : List OrderItemData :=
  orderItemsData rows (orderedItems f input userId guestId w)

/-- Every check before the first write passes and the `orders` table takes the row. -/
structure Inserts (f : Site → Bool) (env : Env) (input : PlaceOrderInput)
    (userId guestId : Option String) (w : World) (table : TableRow) (rows : List MenuItemRow)
    (order : OrderRow) (db : Db) : Prop where
  ordered : orderedItems f input userId guestId w ≠ []
  tableUp : f .placeTable = false
  tableRow : tableById input.tableId w.db = .ok (some table)
  menuUp : f .placeMenu = false
  menuRows : availableItemsIn
    ((orderedItems f input userId guestId w).map EffectiveItem.menuItemId) w.db = .ok rows
  available : unavailableItems rows (orderedItems f input userId guestId w) = []
  orderUp : f .orderInsert = false
  inserted : insertOrder env input table userId guestId
    (OrderItemData.amounts (orderedData f input userId guestId w rows)) w.db = .ok (order, db)

theorem placeOrder_readCart (env : Env) (input : PlaceOrderInput) (userId guestId : Option String)
    (f : Site → Bool) (w : World) :
    (placeOrder env input userId guestId).run f w =
      (placeOrder.withCart env input userId guestId
        (readCart f (cartKey userId guestId) w)).run f w := by
  rw [placeOrder]
  cases cartKey userId guestId with
  | none => rfl
  | some key => exact run_getCachedObject_bind key _

theorem placeOrder.run_withMenu (items : List EffectiveItem) (table : TableRow)
    (rows : List MenuItemRow) :
    (placeOrder.withMenu env input userId guestId items table rows).run f w =
      if unavailableItems rows items ≠ [] then
        (.error (.badRequest ("Menu items not available: " ++
          String.intercalate ", " (unavailableItems rows items))), w)
      else if f .orderInsert then (.error (.db .connection), w)
      else match insertOrder env input table userId guestId
          (OrderItemData.amounts (orderItemsData rows items)) w.db with
        | .ok r => (placeOrder.lines env (cartKey userId guestId) r.1 rows
            (orderItemsData rows items)).run f { w with db := r.2 }
        | .error e => (.error (.db e), w) := by
  rw [placeOrder.withMenu]
  split
  · rfl
  · rw [Prog.bind_eq, run_dbWrite_bind]
    cases insertOrder env input table userId guestId
      (OrderItemData.amounts (orderItemsData rows items)) w.db <;> rfl

theorem placeOrder.run_withTable (items : List EffectiveItem) (table : Option TableRow) :
    (placeOrder.withTable env input userId guestId items table).run f w =
      match table with
      | none => (.error (.notFound "Table not found"), w)
      | some table =>
        if f .placeMenu then (.error (.db .connection), w)
        else match availableItemsIn (items.map EffectiveItem.menuItemId) w.db with
          | .ok rows => (placeOrder.withMenu env input userId guestId items table rows).run f w
          | .error e => (.error (.db e), w) := by
  cases table with
  | none => rfl
  | some table =>
    simp only [placeOrder.withTable, orElse, Prog.bind_eq, Prog.ret_bind, run_select_bind]
    cases availableItemsIn (items.map EffectiveItem.menuItemId) w.db <;> rfl

theorem placeOrder.run_withCart (cached : Option Cached) :
    (placeOrder.withCart env input userId guestId cached).run f w =
      if effectiveItems cached input = [] then
        (.error (.badRequest "Cart is empty — add items before placing an order"), w)
      else if f .placeTable then (.error (.db .connection), w)
      else match tableById input.tableId w.db with
        | .ok table => (placeOrder.withTable env input userId guestId
            (effectiveItems cached input) table).run f w
        | .error e => (.error (.db e), w) := by
  rw [placeOrder.withCart]
  split
  · rfl
  · rw [Prog.bind_eq, run_select_bind]
    cases tableById input.tableId w.db <;> rfl

theorem Inserts.run (h : Inserts f env input userId guestId w table rows order db) :
    (placeOrder env input userId guestId).run f w =
      (placeOrder.lines env (cartKey userId guestId) order rows
        (orderedData f input userId guestId w rows)).run f { w with db := db } := by
  have hi : effectiveItems (readCart f (cartKey userId guestId) w) input ≠ [] := h.ordered
  have hr := h.menuRows
  have ha := h.available
  have ho := h.inserted
  rw [orderedData, orderedItems] at ho ⊢
  rw [orderedItems] at hr ha
  simp only [placeOrder_readCart, placeOrder.run_withCart, hi, h.tableUp, h.tableRow,
    placeOrder.run_withTable, h.menuUp, hr, placeOrder.run_withMenu, ha, h.orderUp, ho,
    ↓reduceIte, ne_eq, not_true_eq_false, Bool.false_eq_true]

theorem placeOrder_refused (h : ¬∃ table rows order db,
      Inserts f env input userId guestId w table rows order db) :
    ∃ e, (placeOrder env input userId guestId).run f w = (.error e, w) := by
  rw [placeOrder_readCart, placeOrder.run_withCart]
  split
  · exact ⟨_, rfl⟩
  rename_i hi
  split
  · exact ⟨_, rfl⟩
  rename_i ht
  split
  case h_2 => exact ⟨_, rfl⟩
  rename_i table htable
  rw [placeOrder.run_withTable]
  split
  · exact ⟨_, rfl⟩
  rename_i table
  split
  · exact ⟨_, rfl⟩
  rename_i hm
  split
  case h_2 => exact ⟨_, rfl⟩
  rename_i rows hrows
  rw [placeOrder.run_withMenu]
  split
  · exact ⟨_, rfl⟩
  rename_i ha
  split
  · exact ⟨_, rfl⟩
  rename_i ho
  split
  · rename_i r hr
    exact absurd ⟨table, rows, r.1, r.2, hi, by simpa using ht, htable, by simpa using hm, hrows,
      not_not.1 ha, by simpa using ho, hr⟩ h
  · exact ⟨_, rfl⟩

theorem insertOrder_ok
    (h : insertOrder env input table userId guestId amounts db = .ok (order, db')) :
    (∃ u, order = (newOrder env input table u guestId amounts).stored) ∧
      db'.toTables = { db.toTables with orders := db.orders ++ [order] } := by
  obtain ⟨u, _, _, hrow⟩ := insertOrder_row h
  exact ⟨⟨u, hrow⟩, insertOrder_tables h⟩

theorem linesOf_fresh {db : Db} (h : ∀ o ∈ db.orders, o.id ≠ u) : linesOf u db = [] := by
  rw [linesOf, List.filter_eq_nil_iff]
  intro l hl he
  obtain ⟨o, ho, hid⟩ := db.valid.lineOrder l hl _ rfl
  exact h o ho (hid.trans (by simpa using he))

theorem insertOrder_fresh
    (h : insertOrder env input table userId guestId amounts db = .ok (order, db')) :
    ∀ o ∈ db.orders, o.id ≠ order.id := by
  obtain ⟨u, _, hi, rfl⟩ := insertOrder_row h
  exact (OrderRow.accepted_refs (Db.insertOrder_ok_iff.1 hi).1).1

theorem availableItemsIn_mem (h : availableItemsIn ids db = .ok rows) :
    ∀ r ∈ rows, r ∈ db.menuItems ∧ r.isAvailable = true := by
  obtain ⟨us, _, rfl⟩ := map_ok h
  intro r hr
  obtain ⟨hm, hc⟩ := List.mem_filter.1 hr
  exact ⟨hm, (Bool.and_eq_true_iff.1 hc).2⟩

def OrderItemData.item (d : OrderItemData) : EffectiveItem := ⟨d.menuItemId, d.quantity, d.notes⟩

theorem orderItemsData_items (h : unavailableItems rows items = []) :
    (orderItemsData rows items).map OrderItemData.item = items := by
  induction items with
  | nil => rfl
  | cons i is ih =>
    rw [unavailableItems, List.map_cons, List.filter_cons] at h
    split at h
    · cases h
    · rename_i hs
      cases hr : rowOf rows i.menuItemId with
      | none =>
        rw [hr] at hs
        exact absurd rfl hs
      | some r =>
        rw [orderItemsData, List.filterMap_cons, hr]
        exact congrArg (i :: ·) (ih h)

/-- What the last stage of a placement changes: the cart goes and staff are told. -/
def settled (f : Site → Bool) (key : Option String) (e : OrderPlacedEvent) (w : World) : World :=
  { w with
    redis := match key with
      | some k => if f .cartDel then w.redis else w.redis.del k
      | none => w.redis
    gateway := if f .emitPlaced then w.gateway else emitOrderPlaced e w.gateway }

@[simp] theorem settled_db (f : Site → Bool) (key : Option String) (e : OrderPlacedEvent)
    (w : World) : (settled f key e w).db = w.db := rfl

theorem run_notify_bind (emit : Gateway → Gateway) (g : Unit → Api β) (w : World) :
    ((notify site emit (.ok ())).bind g).run f w =
      (g ()).run f (if f site then w else { w with gateway := emit w.gateway }) := by
  rw [Prog.run_bind, notify, Prog.run_exec]
  cases f site <;> rfl

theorem placeOrder.run_finish (key : Option String) (order : OrderRow) (rows : List MenuItemRow)
    (data : List OrderItemData) (w : World) :
    (placeOrder.finish env key order rows data).run f w =
      (getOrderWithDetails order.id.text).run f
        (settled f key (placedEvent order rows data
          (env.arithmetic.total (OrderItemData.amounts data))) w) := by
  rw [placeOrder.finish]
  cases key with
  | none =>
    simp only [clearSession, Prog.bind_eq, Prog.ret_bind, run_notify_bind]
    cases hf : f .emitPlaced <;> simp [settled, hf]
  | some key =>
    simp only [clearSession, Prog.bind_eq, run_delCached_bind, run_notify_bind]
    cases hf : f .emitPlaced <;> cases hc : f .cartDel <;> simp [settled, hf, hc]

theorem getOrderWithDetails_present (ho : order ∈ w.db.orders) (ht : order.tableId = some t.id)
    (hm : t ∈ w.db.tables) (hl : l ∈ w.db.orderItems) (hlo : l.orderId = order.id)
    (hf : detailUp f) :
    (getOrderWithDetails order.id.text).run f w =
      (.ok (orderView order t (linesOf order.id w.db) (menuOf (linesOf order.id w.db) w.db)),
        w) := by
  refine Prod.ext (getOrderWithDetails_ok_iff.2 ⟨hf, order, t, ?_, ?_, ?_, rfl⟩)
    (getOrderWithDetails_world _ f w)
  · rw [orderById, parseUuid_text]
    exact congrArg _ (w.db.valid.orderIds.lookup ho)
  · rw [tableOfOrder, ht]
    exact w.db.valid.tableIds.lookup hm
  · exact List.ne_nil_of_mem (List.mem_filter.2 ⟨hl, by simpa using hlo⟩)

theorem tableById_mem (h : tableById tableId db = .ok (some t)) : t ∈ db.tables := by
  obtain ⟨u, _, hl⟩ := map_ok h
  exact (lookup_mem hl).1

section

variable (h : Inserts f env input userId guestId w table rows order db)
include h

theorem Inserts.toTables : db.toTables = { w.db.toTables with orders := w.db.orders ++ [order] } :=
  (insertOrder_ok h.inserted).2

theorem Inserts.mem : order ∈ db.orders := by
  rw [h.toTables]
  exact List.mem_append_right _ List.mem_cons_self

theorem Inserts.priced :
    Priced db (orderedData f input userId guestId w rows) := by
  refine orderItemsData_priced (fun r hr => ?_) _
  rw [h.toTables]
  exact (availableItemsIn_mem h.menuRows r hr).1

theorem Inserts.data_ne_nil : orderedData f input userId guestId w rows ≠ [] := by
  intro he
  have hi := orderItemsData_items h.available
  rw [← orderedData, he] at hi
  exact h.ordered hi.symm

/-- Once the order row is in, the run either gets through all lines to the read back, or
throws with the order row and the lines so far left behind. -/
theorem Inserts.run_lines :
    ∃ lines db', db'.toTables = { w.db.toTables with
        orders := w.db.orders ++ [order], orderItems := w.db.orderItems ++ lines } ∧
      (∀ r ∈ lines, r.orderId = order.id) ∧
      ((LinesAccepted f env 0 (orderedData f input userId guestId w rows) w.db.orderItems ∧
          lines.map OrderItemRow.data = orderedData f input userId guestId w rows ∧
          (placeOrder env input userId guestId).run f w =
            (getOrderWithDetails order.id.text).run f (settled f (cartKey userId guestId)
              (placedEvent order rows (orderedData f input userId guestId w rows)
                (env.arithmetic.total (OrderItemData.amounts
                  (orderedData f input userId guestId w rows)))) { w with db := db' })) ∨
        (¬LinesAccepted f env 0 (orderedData f input userId guestId w rows) w.db.orderItems ∧
          (lines ≠ [] ↔ LinesAccepted f env 0
            ((orderedData f input userId guestId w rows).take 1) w.db.orderItems) ∧
          ∃ e, (placeOrder env input userId guestId).run f w =
            (.error e, { w with db := db' }))) := by
  have hlines : db.orderItems = w.db.orderItems := by rw [h.toTables]
  rw [h.run, placeOrder.lines, Prog.bind_eq, ← hlines]
  obtain ⟨lines, db', ht, hid, hr⟩ :=
    run_insertLines (w := { w with db := db }) (f := f) (n := 0) h.priced ⟨order, h.mem, rfl⟩
  refine ⟨lines, db', ?_, hid, ?_⟩
  · rw [ht, h.toTables]
  · rcases hr with ⟨ha, hd, hr⟩ | ⟨ha, hne, e, hr⟩
    · refine .inl ⟨ha, hd, ?_⟩
      rw [Prog.run_bind_ok hr, placeOrder.run_finish]
    · exact .inr ⟨ha, hne, e, Prog.run_bind_error hr⟩

theorem Inserts.placed
    (ha : LinesAccepted f env 0 (orderedData f input userId guestId w rows) w.db.orderItems)
    (hf : detailUp f) :
    ∃ lines db' v, db'.toTables = { w.db.toTables with
        orders := w.db.orders ++ [order], orderItems := w.db.orderItems ++ lines } ∧
      lines.map OrderItemRow.data = orderedData f input userId guestId w rows ∧
      (∀ r ∈ lines, r.orderId = order.id) ∧
      (placeOrder env input userId guestId).run f w =
        (.ok v, settled f (cartKey userId guestId)
          (placedEvent order rows (orderedData f input userId guestId w rows)
            (env.arithmetic.total (OrderItemData.amounts
              (orderedData f input userId guestId w rows)))) { w with db := db' }) := by
  obtain ⟨lines, db', ht, hid, ⟨_, hd, hr⟩ | ⟨hn, _⟩⟩ := h.run_lines
  · obtain ⟨l, hl⟩ : ∃ l, l ∈ lines := by
      refine List.exists_mem_of_ne_nil lines fun he => h.data_ne_nil ?_
      rw [← hd, he]
      rfl
    have ho : order ∈ db'.orders := by
      rw [ht]
      exact List.mem_append_right _ List.mem_cons_self
    have htable : order.tableId = some table.id := by
      obtain ⟨u, rfl⟩ := (insertOrder_ok h.inserted).1
      rfl
    have hm : table ∈ db'.tables := by
      rw [ht]
      exact tableById_mem h.tableRow
    have hl' : l ∈ db'.orderItems := by
      rw [ht]
      exact List.mem_append_right _ hl
    exact ⟨lines, db', _, ht, hd, hid,
      hr.trans (getOrderWithDetails_present ho htable hm hl' (hid l hl) hf)⟩
  · exact absurd ha hn

theorem Inserts.fails_iff :
    (∃ e, ((placeOrder env input userId guestId).run f w).1 = .error e) ↔
      ¬(LinesAccepted f env 0 (orderedData f input userId guestId w rows) w.db.orderItems ∧
        detailUp f) := by
  by_cases hc : LinesAccepted f env 0 (orderedData f input userId guestId w rows)
      w.db.orderItems ∧ detailUp f
  · obtain ⟨lines, db', v, _, _, _, hr⟩ := h.placed hc.1 hc.2
    simp [hr, hc]
  · refine iff_of_true ?_ hc
    obtain ⟨lines, db', _, _, ⟨ha, _, hr⟩ | ⟨_, _, e, hr⟩⟩ := h.run_lines
    · rw [hr]
      cases hv : ((getOrderWithDetails order.id.text).run f _).1 with
      | error e => exact ⟨e, rfl⟩
      | ok v => exact absurd ⟨ha, (getOrderWithDetails_ok_iff.1 hv).1⟩ hc
    · exact ⟨e, by rw [hr]⟩

theorem Inserts.leaves :
    ∃ lines, ((placeOrder env input userId guestId).run f w).2.db.toTables = { w.db.toTables with
        orders := w.db.orders ++ [order], orderItems := w.db.orderItems ++ lines } ∧
      (∀ r ∈ lines, r.orderId = order.id) ∧
      (lines ≠ [] ↔ LinesAccepted f env 0
        ((orderedData f input userId guestId w rows).take 1) w.db.orderItems) := by
  obtain ⟨lines, db', ht, hid, ⟨ha, hd, hr⟩ | ⟨_, hne, e, hr⟩⟩ := h.run_lines
  · refine ⟨lines, ?_, hid, iff_of_true (fun he => ?_) ha.first⟩
    · rw [hr, getOrderWithDetails_world, settled_db, ht]
    · rw [he] at hd
      exact h.data_ne_nil hd.symm
  · refine ⟨lines, ?_, hid, hne⟩
    rw [hr, ht]

end

theorem placeOrder_ok (h : ((placeOrder env input userId guestId).run f w).1 = .ok v) :
    ∃ table rows order db lines, Inserts f env input userId guestId w table rows order db ∧
      ((placeOrder env input userId guestId).run f w).2.db.toTables = { w.db.toTables with
        orders := w.db.orders ++ [order], orderItems := w.db.orderItems ++ lines } ∧
      lines.map OrderItemRow.data = orderedData f input userId guestId w rows ∧
      linesOf order.id ((placeOrder env input userId guestId).run f w).2.db = lines ∧
      ((getOrderWithDetails order.id.text).run f
        ((placeOrder env input userId guestId).run f w).2).1 = .ok v := by
  by_cases hi : ∃ table rows order db, Inserts f env input userId guestId w table rows order db
  · obtain ⟨table, rows, order, db, hi⟩ := hi
    obtain ⟨lines, db', ht, hid, ⟨_, hd, hr⟩ | ⟨_, _, e, hr⟩⟩ := hi.run_lines
    · have hnew : linesOf order.id db' = lines := by
        have hold : linesOf order.id w.db = [] := linesOf_fresh (insertOrder_fresh hi.inserted)
        rw [linesOf, ht, List.filter_append, ← linesOf, hold, List.nil_append]
        exact List.filter_eq_self.2 fun l hl => by simpa using hid l hl
      refine ⟨table, rows, order, db, lines, hi, ?_, hd, ?_, ?_⟩
      · rw [hr, getOrderWithDetails_world, settled_db, ht]
      · rw [hr, getOrderWithDetails_world, settled_db, hnew]
      · rw [hr, getOrderWithDetails_world]
        rwa [hr] at h
    · rw [hr] at h
      cases h
  · obtain ⟨e, hr⟩ := placeOrder_refused hi
    rw [hr] at h
    cases h

theorem getOrderWithDetails_id (h : ((getOrderWithDetails (Uuid.text k)).run f w).1 = .ok v) :
    v.id = k := by
  obtain ⟨_, order, table, horder, _, _, rfl⟩ := getOrderWithDetails_ok_iff.1 h
  rw [orderById, parseUuid_text] at horder
  exact (lookup_mem (Except.ok.inj horder)).2

/-- What a placement returns is read from the rows it has inserted. -/
theorem placeOrder_view (h : ((placeOrder env input userId guestId).run f w).1 = .ok v) :
    ∃ table rows order db lines, Inserts f env input userId guestId w table rows order db ∧
      lines.map OrderItemRow.data = orderedData f input userId guestId w rows ∧
      linesOf order.id ((placeOrder env input userId guestId).run f w).2.db = lines ∧
      v = orderView order table lines
        (menuOf lines ((placeOrder env input userId guestId).run f w).2.db) := by
  obtain ⟨table, rows, order, db, lines, hi, ht, hd, hlines, hv⟩ := placeOrder_ok h
  refine ⟨table, rows, order, db, lines, hi, hd, hlines, ?_⟩
  obtain ⟨_, row, seat, hrow, hseat, _, rfl⟩ := getOrderWithDetails_ok_iff.1 hv
  rw [orderById, parseUuid_text] at hrow
  obtain ⟨hmem, hid⟩ := lookup_mem (Except.ok.inj hrow)
  have horder : order ∈ ((placeOrder env input userId guestId).run f w).2.db.orders := by
    rw [ht]
    exact List.mem_append_right _ List.mem_cons_self
  have hsame : row = order := (Db.valid _).orderIds.eq_of_mem hmem horder hid
  have htable : order.tableId = some table.id := by
    obtain ⟨u, rfl⟩ := (insertOrder_ok hi.inserted).1
    rfl
  have hsat : seat = table := by
    rw [hsame, tableOfOrder, htable, ht] at hseat
    obtain ⟨hseat, hk⟩ := lookup_mem hseat
    exact w.db.valid.tableIds.eq_of_mem hseat (tableById_mem hi.tableRow) hk
  rw [hsame, hsat, hlines]

theorem placeOrder_lines
    (h : ((placeOrder env input userId guestId).run f w).1 = .ok v) :
    (linesOf v.id ((placeOrder env input userId guestId).run f w).2.db).map
        (fun l => (l.menuItemId.text, l.quantity)) =
      (orderedItems f input userId guestId w).map fun i => (i.menuItemId, i.quantity) := by
  obtain ⟨table, rows, order, db, lines, hi, _, hd, hlines, hv⟩ := placeOrder_ok h
  have hitems := orderItemsData_items hi.available
  rw [← orderedData, ← hd, List.map_map] at hitems
  rw [getOrderWithDetails_id hv, hlines, ← hitems, List.map_map]
  rfl

/-- What a failed placement has to leave alone: both order tables and the session's cart. -/
def Untouched (key : Option String) (w w' : World) : Prop :=
  w'.db.orders = w.db.orders ∧ w'.db.orderItems = w.db.orderItems ∧
    ∀ k, key = some k → w'.redis.get k = w.redis.get k

theorem placeOrder_atomic_iff (f : Site → Bool) (env : Env) (input : PlaceOrderInput)
    (userId guestId : Option String) (w : World) :
    ((∃ e, ((placeOrder env input userId guestId).run f w).1 = .error e) →
      Untouched (cartKey userId guestId) w ((placeOrder env input userId guestId).run f w).2) ↔
    ∀ table rows order db, Inserts f env input userId guestId w table rows order db →
      LinesAccepted f env 0 (orderedData f input userId guestId w rows) w.db.orderItems ∧
        detailUp f := by
  constructor
  · intro h table rows order db hi
    by_contra hn
    have hu := h (hi.fails_iff.2 hn)
    obtain ⟨lines, ht, _⟩ := hi.leaves
    have ho := hu.1.symm.trans (congrArg Tables.orders ht)
    simp at ho
  · intro h he
    by_cases hi : ∃ table rows order db, Inserts f env input userId guestId w table rows order db
    · obtain ⟨table, rows, order, db, hi⟩ := hi
      exact absurd (h table rows order db hi) (hi.fails_iff.1 he)
    · obtain ⟨e, hr⟩ := placeOrder_refused hi
      rw [hr]
      exact ⟨rfl, rfl, fun _ _ => rfl⟩

def sampleGuest : Option String := some "g"

/-- Two additions of the sample dish whose sum no longer fits an `integer` column. -/
def overfullWorld : World :=
  let add (n : Int) (w : World) : World :=
    ((addToCart sampleEnv ⟨(sampleId 4).text, n, none⟩ none sampleGuest).run noFault w).2
  add 1 (add 2147483647 sampleWorld)

def sampleOrder : PlaceOrderInput := ⟨(sampleId 2).text, none, none⟩

/-- One of the sample dish, named in the request itself. -/
def sampleBasket : PlaceOrderInput :=
  ⟨(sampleId 2).text, some [⟨(sampleId 4).text, 1, none⟩], none⟩

theorem placeOrder_not_atomic :
    ((placeOrder sampleEnv sampleOrder none sampleGuest).run noFault overfullWorld).1 =
        .error (.db (.rejected "order_items")) ∧
      ¬Untouched (cartKey none sampleGuest) overfullWorld
        ((placeOrder sampleEnv sampleOrder none sampleGuest).run noFault overfullWorld).2 := by
  refine ⟨by decide +kernel, fun h => ?_⟩
  have hl := congrArg List.length h.1
  revert hl
  decide +kernel

end DineFlow
