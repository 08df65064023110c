import DineFlow.CartKeys
import DineFlow.Frames
import DineFlow.MenuMutations
import DineFlow.Placement
import DineFlow.Runs

namespace DineFlow
open Atomic Relational
set_option autoImplicit true

/-- The operations that fill and change the order book. -/
inductive BookStep where
  | addToCart (env : Env) (input : AddToCartInput) (userId guestId : Option String)
  | placeOrder (env : Env) (input : PlaceOrderInput) (userId guestId : Option String)
  | updateOrderStatus (orderId : String) (status : OrderStatus) (userId : String)
  | menu (m : MenuMutation) (userId : String)

/-- A call and the places where a statement of it fails. -/
structure BookCall where
  step : BookStep
  fault : Site → Bool

def bookStep (w : World) (c : BookCall) : World :=
  match c.step with
  | .addToCart env input userId guestId => ((addToCart env input userId guestId).run c.fault w).2
  | .placeOrder env input userId guestId => ((placeOrder env input userId guestId).run c.fault w).2
  | .updateOrderStatus orderId status userId =>
    ((updateOrderStatus orderId status userId).run c.fault w).2
  | .menu m userId => ((m.prog userId).run c.fault w).2

/-- The kitchen listing works for every restaurant: it returns each of its open orders once, by
time of creation. -/
def Listed (w : World) : Prop :=
  ∀ (plan : RowOrder) (r : Uuid), ∃ orders,
    ((getKitchenOrders plan (some r.text)).run noFault w).1 = .ok orders ∧
    (orders.map Order.id).Perm
      ((w.db.orders.filter fun o => o.restaurantId = r && o.isActive).map OrderRow.id) ∧
    (orders.map Order.id).Nodup ∧ orders.Pairwise fun a b => a.createdAt ≤ b.createdAt

/-- A placement that gets its order row in gets its first line in as well. -/
def FirstLineGoes (w : World) (c : BookCall) : Prop :=
  match c.step with
  | .placeOrder env input userId guestId =>
    ∀ table rows order db, Inserts c.fault env input userId guestId w table rows order db →
      LinesAccepted c.fault env 0 ((orderedData c.fault input userId guestId w rows).take 1)
        w.db.orderItems
  | _ => True

/-- Every order has its table and at least one line. -/
def Readable (w : World) : Prop :=
  ∀ o ∈ w.db.orders, (∃ t ∈ w.db.tables, o.tableId = some t.id) ∧
    ∃ l ∈ w.db.orderItems, l.orderId = o.id

theorem kitchenRows_text (plan : RowOrder) (r : Uuid) (db : Db) :
    kitchenRows plan (some r.text) db = .ok (orderBy plan (fun o => o.createdAt)
      (db.orders.filter fun o => o.restaurantId = r && o.isActive)) := by
  rw [kitchenRows, given_text, parseOptUuid, parseUuid_text]
  simp [Except.map]

theorem getKitchenOrders_run (plan : RowOrder) (r : Uuid) (w : World) :
    (getKitchenOrders plan (some r.text)).run noFault w =
      (Prog.mapAll (fun o => getOrderWithDetails o.id.text) (orderBy plan (fun o => o.createdAt)
        (w.db.orders.filter fun o => o.restaurantId = r && o.isActive))).run noFault w := by
  rw [getKitchenOrders, Prog.bind_eq, run_select_bind, kitchenRows_text]
  rfl

theorem Readable.details (h : Readable w) (ho : o ∈ w.db.orders) :
    ∃ v, (getOrderWithDetails o.id.text).run noFault w = (.ok v, w) ∧
      (v.id, v.createdAt) = (o.id, o.createdAt) := by
  obtain ⟨⟨t, ht, htable⟩, l, hl, hlo⟩ := h o ho
  exact ⟨_, getOrderWithDetails_present ho htable ht hl hlo detailUp_noFault, rfl⟩

theorem Readable.listed (h : Readable w) : Listed w := by
  intro plan r
  have hperm := orderBy_perm plan (fun o : OrderRow => o.createdAt)
    (w.db.orders.filter fun o => o.restaurantId = r && o.isActive)
  have hsorted := orderBy_sorted plan (fun o : OrderRow => o.createdAt)
    (w.db.orders.filter fun o => o.restaurantId = r && o.isActive)
  rw [getKitchenOrders_run]
  generalize orderBy plan (fun o : OrderRow => o.createdAt)
    (w.db.orders.filter fun o => o.restaurantId = r && o.isActive) = rows at hperm hsorted
  obtain ⟨orders, hrun, hkey⟩ := Prog.run_mapAll fun o ho =>
    h.details (List.mem_of_mem_filter (hperm.mem_iff.1 ho))
  have hids : orders.map Order.id = rows.map OrderRow.id := by
    have hfst := congrArg (List.map Prod.fst) hkey
    rwa [List.map_map, List.map_map] at hfst
  have hids' := hperm.map OrderRow.id
  refine ⟨orders, congrArg Prod.fst hrun, ?_, ?_, ?_⟩
  · rw [hids]
    exact hids'
  · rw [hids, hids'.nodup_iff]
    exact w.db.valid.orderIds.filter _
  · have hpair : (orders.map fun v => (v.id, v.createdAt)).Pairwise fun a b => a.2 ≤ b.2 := by
      rw [hkey, List.pairwise_map]
      exact hsorted
    rw [List.pairwise_map] at hpair
    exact hpair

theorem Readable.of_rows (h : Readable w) (ht : w'.db.tables = w.db.tables)
    (hl : w'.db.orderItems = w.db.orderItems)
    (ho : ∀ o' ∈ w'.db.orders, ∃ o ∈ w.db.orders, o'.id = o.id ∧ o'.tableId = o.tableId) :
    Readable w' := by
  intro o' ho'
  obtain ⟨o, hm, hid, htable⟩ := ho o' ho'
  rw [ht, hl, hid, htable]
  exact h o hm

theorem Readable.menu (hs : MenuStep w w') (h : Readable w) : Readable w' := by
  have hsame : ∀ o ∈ w.db.orders, ∃ o' ∈ w.db.orders, o.id = o'.id ∧ o.tableId = o'.tableId :=
    fun o ho => ⟨o, ho, rfl, rfl⟩
  cases hs with
  | refl => exact h
  | drop keys => exact h
  | change hc =>
    cases hc with
    | insert row _ ht => exact h.of_rows (by rw [ht]) (by rw [ht]) (by rw [ht]; exact hsame)
    | patch k p ht => exact h.of_rows (by rw [ht]) (by rw [ht]) (by rw [ht]; exact hsame)
    | delete k ht => exact h.of_rows (by rw [ht]) (by rw [ht]) (by rw [ht]; exact hsame)

theorem Readable.status (hs : StatusStep w w') (h : Readable w) : Readable w' := by
  cases hs with
  | refl => exact h
  | emit e => exact h
  | update k s =>
    refine h.of_rows rfl rfl fun o' ho' => ?_
    rcases mem_updateWhere ho' with ho' | ⟨o, ho, _, rfl⟩
    · exact ⟨o', ho', rfl, rfl⟩
    · exact ⟨o, ho, rfl, rfl⟩

theorem Inserts.readable (hi : Inserts f env input userId guestId w table rows order db)
    (hl : LinesAccepted f env 0 ((orderedData f input userId guestId w rows).take 1)
      w.db.orderItems) (h : Readable w) :
    Readable ((placeOrder env input userId guestId).run f w).2 := by
  obtain ⟨lines, ht, hid, hne⟩ := hi.leaves
  intro o ho
  rw [ht] at ho ⊢
  rcases List.mem_append.1 ho with ho | ho
  · obtain ⟨htable, l, hm, hlo⟩ := h o ho
    exact ⟨htable, l, List.mem_append_left _ hm, hlo⟩
  · rw [List.mem_singleton.1 ho]
    obtain ⟨l, hm⟩ := List.exists_mem_of_ne_nil lines (hne.2 hl)
    obtain ⟨u, hnew⟩ := (insertOrder_ok hi.inserted).1
    exact ⟨⟨table, tableById_mem hi.tableRow, by rw [hnew]; rfl⟩, l,
      List.mem_append_right _ hm, hid l hm⟩

theorem bookStep_readable (h : Readable w) (hc : FirstLineGoes w c) : Readable (bookStep w c) := by
  obtain ⟨step, f⟩ := c
  cases step with
  | addToCart env input userId guestId =>
    have hk := (addToCart_keeps_db env input userId guestId).run f w
    exact h.of_rows (by rw [bookStep, hk]) (by rw [bookStep, hk])
      (by rw [bookStep, hk]; exact fun o ho => ⟨o, ho, rfl, rfl⟩)
  | placeOrder env input userId guestId =>
    by_cases hi : ∃ table rows order db, Inserts f env input userId guestId w table rows order db
    · obtain ⟨table, rows, order, db, hi⟩ := hi
      exact hi.readable (hc table rows order db hi) h
    · obtain ⟨e, hr⟩ := placeOrder_refused hi
      have hw : bookStep w ⟨.placeOrder env input userId guestId, f⟩ = w := congrArg Prod.snd hr
      rw [hw]
      exact h
  | updateOrderStatus orderId status userId =>
    exact (updateOrderStatus_within orderId status userId).invariant
      (fun _ _ hs => Readable.status hs) f h
  | menu m userId => exact (m.within userId).invariant (fun _ _ hs => Readable.menu hs) f h

/-- An order without lines takes the listing of its restaurant down. -/
theorem Inserts.not_listed (hi : Inserts f env input userId guestId w table rows order db)
    (hl : ¬LinesAccepted f env 0 ((orderedData f input userId guestId w rows).take 1)
      w.db.orderItems) : ¬Listed ((placeOrder env input userId guestId).run f w).2 := by
  obtain ⟨lines, ht, _, hne⟩ := hi.leaves
  have hnil : lines = [] := by
    by_contra hn
    exact hl (hne.1 hn)
  generalize ((placeOrder env input userId guestId).run f w).2 = w' at ht
  have horders : w'.db.orders = w.db.orders ++ [order] := by rw [ht]
  have hlines : w'.db.orderItems = w.db.orderItems := by rw [ht, hnil, List.append_nil]
  have hm : order ∈ w'.db.orders := by
    rw [horders]
    exact List.mem_append_right _ List.mem_cons_self
  have hopen : order.isActive = true := by
    obtain ⟨u, hnew⟩ := (insertOrder_ok hi.inserted).1
    rw [hnew]
    rfl
  intro hlist
  obtain ⟨orders, hrun, _⟩ := hlist .stored order.restaurantId
  rw [getKitchenOrders_run] at hrun
  have hrow : order ∈ orderBy .stored (fun o => o.createdAt)
      (w'.db.orders.filter fun o => o.restaurantId = order.restaurantId && o.isActive) := by
    rw [(orderBy_perm _ _ _).mem_iff]
    exact List.mem_filter.2 ⟨hm, by simp [hopen]⟩
  have hread := Prog.run_mapAll_ok (fun o => getOrderWithDetails_keeps _) hrun
  obtain ⟨v, _, hv⟩ := List.mem_map.1 (hread ▸ List.mem_map_of_mem hrow)
  obtain ⟨_, o, t, ho, _, hne', _⟩ := getOrderWithDetails_ok_iff.1 hv.symm
  rw [orderById, parseUuid_text] at ho
  have hlook := w'.db.valid.orderIds.lookup hm
  have heq : o = order := Option.some.inj ((Except.ok.inj ho).symm.trans hlook)
  rw [heq] at hne'
  obtain ⟨l, hmem⟩ := List.exists_mem_of_ne_nil _ hne'
  obtain ⟨hl', hlo⟩ := List.mem_filter.1 hmem
  rw [hlines] at hl'
  -- a line of the new order would refer to an order that was there before
  obtain ⟨o', ho', hid⟩ := w.db.valid.lineOrder l hl' _ rfl
  have hnodup := w'.db.valid.orderIds
  rw [UniqueKey, horders, List.map_append] at hnodup
  refine (List.nodup_append.1 hnodup).2.2 o'.id (List.mem_map_of_mem ho') order.id (by simp) ?_
  rw [hid]
  simpa using hlo

theorem bookStep_not_listed (hc : ¬FirstLineGoes w c) : ¬Listed (bookStep w c) := by
  obtain ⟨step, f⟩ := c
  cases step with
  | placeOrder env input userId guestId =>
    simp only [FirstLineGoes, not_forall] at hc
    obtain ⟨table, rows, order, db, hi, hl⟩ := hc
    exact hi.not_listed hl
  | addToCart => exact absurd trivial hc
  | updateOrderStatus => exact absurd trivial hc
  | menu => exact absurd trivial hc

/-- From an empty order book, the listing works in every state of a run exactly when no
placement of the run loses its first line after its order row was inserted. -/
theorem kitchenListing_iff (w : World) (hw : w.db.orders = []) (cs : List BookCall) :
    (∀ bs, bs <+: cs → Listed (runs bookStep w bs)) ↔ Guarded bookStep FirstLineGoes w cs := by
  have hr : Readable w := by
    intro o ho
    rw [hw] at ho
    cases ho
  exact (guarded_iff hr (fun _ _ => bookStep_readable) (fun _ => Readable.listed)
    fun _ _ _ => bookStep_not_listed).symm

def sampleAdd (n : Int) : BookCall :=
  ⟨.addToCart sampleEnv ⟨(sampleId 4).text, n, none⟩ none sampleGuest, noFault⟩

def samplePlace : BookCall := ⟨.placeOrder sampleEnv sampleOrder none sampleGuest, noFault⟩

/-- The sum of two accepted additions is one more than the quantity column holds. -/
theorem kitchenListing_fails :
    sampleWorld.db.orders = [] ∧
      ¬Listed (runs bookStep sampleWorld [sampleAdd 2147483647, sampleAdd 1, samplePlace]) := by
  refine ⟨rfl, fun h => ?_⟩
  obtain ⟨orders, hr, _⟩ := h .stored (sampleId 1)
  have he : ((getKitchenOrders .stored (some (sampleId 1).text)).run noFault (runs bookStep
      sampleWorld [sampleAdd 2147483647, sampleAdd 1, samplePlace])).1 =
        .error (.db .emptyList) := by
    decide +kernel
  rw [he] at hr
  cases hr

theorem kitchenListing_sample :
    Listed (runs bookStep sampleWorld [sampleAdd 2, samplePlace]) := by
  refine (kitchenListing_iff sampleWorld rfl [sampleAdd 2, samplePlace]).2
    ⟨trivial, ?_, trivial⟩ _ (List.prefix_refl _)
  intro table rows order db hi
  have hq : ∀ i ∈ orderedItems noFault sampleOrder none sampleGuest
      (bookStep sampleWorld (sampleAdd 2)), FitsInt4 i.quantity ∧ ∀ s ∈ i.notes, Storable s := by
    decide +kernel
  have hempty : (bookStep sampleWorld (sampleAdd 2)).db.orderItems = [] := by
    decide +kernel
  refine ⟨fun _ _ => rfl, fun d hd => ?_, ?_, fun u _ r hr => ?_⟩
  · have hmem := List.mem_map_of_mem (f := OrderItemData.item) (List.mem_of_mem_take hd)
    rw [orderedData, orderItemsData_items hi.available] at hmem
    exact hq _ hmem
  · exact nodup_first_lineId _ _ _
  · rw [hempty] at hr
    cases hr

end DineFlow
