import DineFlow.CartRefinement
import DineFlow.OrderTotals

namespace DineFlow
open Atomic Relational Tally CartPhase
set_option autoImplicit true

/-- What a placement checks itself before it writes. -/
structure PassesChecks (s : Session) (input : PlaceOrderInput) (w : World) : Prop where
  ordered : orderedItems noFault input s.userId s.guestId w ≠ []
  tableRow : ∃ table, tableById input.tableId w.db = .ok (some table)
  available : ∃ rows, availableItemsIn ((orderedItems noFault input s.userId s.guestId w).map
      EffectiveItem.menuItemId) w.db = .ok rows ∧
    unavailableItems rows (orderedItems noFault input s.userId s.guestId w) = []

/-- What a placement inserts fits its columns, and the database takes all of it. -/
def InsertsInRange (s : Session) (env : Env) (input : PlaceOrderInput) (w : World) : Prop :=
  (∀ rows, availableItemsIn ((orderedItems noFault input s.userId s.guestId w).map
      EffectiveItem.menuItemId) w.db = .ok rows →
    (∀ d ∈ orderedData noFault input s.userId s.guestId w rows, FitsInt4 d.quantity) ∧
      FitsNumeric (env.arithmetic.cents
        (OrderItemData.amounts (orderedData noFault input s.userId s.guestId w rows)))) ∧
  ∃ v, ((placeOrder env input s.userId s.guestId).run noFault w).1 = .ok v

/-- How many of a dish were added in all. -/
def quantityAdded (added : List (String × AddToCartInput)) (dish : String) : Int :=
  ((added.filter fun a => a.1 = dish).map fun a => a.2.quantity).sum

/-- The last note on a dish that is not empty. -/
def noteAdded (added : List (String × AddToCartInput)) (dish : String) : Option String :=
  ((added.filter fun a => a.1 = dish).filterMap fun a => given a.2.notes).getLast?

/-- The dishes at their prices on the menu, in the order in which they were first added. -/
def chargesFor (db : Db) (added : List (String × AddToCartInput)) : List (Int × Int) :=
  (keys added).map fun dish => ((menuPrice db dish).getD 0, quantityAdded added dish)

/-- The quantities that were added of each dish, their price and the texts that go with them fit
their columns; so do the ids of the session, and the uuids that are drawn are new. -/
structure Insertable (s : Session) (env : Env) (input : PlaceOrderInput) (db : Db)
    (added : List (String × AddToCartInput)) : Prop where
  quantities : ∀ dish, FitsInt4 (quantityAdded added dish)
  notes : ∀ dish, ∀ note ∈ noteAdded added dish, Storable note
  total : FitsNumeric (env.arithmetic.cents (chargesFor db added))
  instructions : ∀ text ∈ input.specialInstructions, Storable text
  user : ∃ u, parseOptUuid (given s.userId) = .ok u ∧ refOk UserRow.id db.users u = true
  guest : ∀ g ∈ given s.guestId, FitsVarchar 256 g
  orderId : ∀ o ∈ db.orders, o.id ≠ env.uuid 0
  lineIds : ((List.range' 1 (keys added).length).map env.uuid).Nodup ∧
    ∀ u ∈ (List.range' 1 (keys added).length).map env.uuid, ∀ l ∈ db.orderItems, l.id ≠ u

section Lines

variable {es : List (Act String AddToCartInput)} {items : List CartItem}
variable (h : Represents CartItem.menuItemId CartItem.Sums es items)
include h

theorem represents_quantity (hi : i ∈ items) :
    i.quantity = quantityAdded (standing es) i.menuItemId := by
  rw [(h.holds i hi).1, tallied_eq_standing, List.map_map]
  rfl

theorem represents_note (hi : i ∈ items) :
    given i.notes = noteAdded (standing es) i.menuItemId := by
  rw [(h.holds i hi).2, tallied_eq_standing, List.filterMap_map]
  rfl

theorem represents_forall_iff {P : String → Prop}
    (hnone : ∀ dish, ((standing es).filter fun a => a.1 = dish) = [] → P dish) :
    (∀ i ∈ items, P i.menuItemId) ↔ ∀ dish, P dish := by
  refine ⟨fun hall dish => ?_, fun hall i _ => hall i.menuItemId⟩
  by_cases hdish : dish ∈ items.map CartItem.menuItemId
  · obtain ⟨i, hi, rfl⟩ := List.mem_map.1 hdish
    exact hall i hi
  · refine hnone dish (List.filter_eq_nil_iff.2 fun a ha hdish' => ?_)
    rw [h.used, window_ne_nil_iff] at hdish
    exact hdish (of_decide_eq_true hdish' ▸ List.mem_map_of_mem ha)

theorem represents_charges (db : Db) :
    items.map (fun i => ((menuPrice db i.menuItemId).getD 0, i.quantity)) =
      chargesFor db (standing es) := by
  rw [chargesFor, ← h.keys_eq, List.map_map]
  exact List.map_congr_left fun i hi => Prod.ext rfl (represents_quantity h hi)

end Lines

theorem insertOrder_accepted_iff {db : Db} (ht : table ∈ db.tables) :
    (∃ r, insertOrder env input table userId guestId amounts db = .ok r) ↔
      (∃ u, parseOptUuid (given userId) = .ok u ∧ refOk UserRow.id db.users u = true) ∧
        (∀ g ∈ given guestId, FitsVarchar 256 g) ∧
        (∀ text ∈ input.specialInstructions, Storable text) ∧
        (∀ o ∈ db.orders, o.id ≠ env.uuid 0) ∧ FitsNumeric (env.arithmetic.cents amounts) := by
  have hrestaurant : hasKey RestaurantRow.id db.restaurants table.restaurantId = true :=
    hasKey_iff.2 (db.valid.tableRestaurant table ht _ rfl)
  have htable : refOk TableRow.id db.tables (some table.id) = true :=
    hasKey_iff.2 ⟨table, ht, rfl⟩
  have hguest : (given guestId).all (fun g => decide (FitsVarchar 256 g)) = true ↔
      ∀ g ∈ given guestId, FitsVarchar 256 g := by
    cases given guestId <;> simp
  have haccepted (u : Option Uuid) :
      (newOrder env input table u guestId amounts).accepted db.toTables = true ↔
        refOk UserRow.id db.users u = true ∧ (∀ g ∈ given guestId, FitsVarchar 256 g) ∧
          (∀ text ∈ input.specialInstructions, Storable text) ∧
          (∀ o ∈ db.orders, o.id ≠ env.uuid 0) ∧
          FitsNumeric (env.arithmetic.cents amounts) := by
    simp only [OrderRow.accepted, OrderRow.fits, newOrder, hrestaurant, htable, Bool.and_eq_true,
      Bool.and_true, Bool.not_eq_true', hguest, all_storable_iff]
    exact ⟨fun h => ⟨h.1.1.2, h.1.2.1, h.1.2.2, fresh_of_hasKey h.1.1.1, of_decide_eq_true h.2⟩,
      fun h => ⟨⟨⟨hasKey_of_fresh h.2.2.2.1, h.1⟩, h.2.1, h.2.2.1⟩, decide_eq_true h.2.2.2.2⟩⟩
  constructor
  · rintro ⟨r, hr⟩
    obtain ⟨u, hu, hi, _⟩ := insertOrder_row hr
    have hok := (haccepted u).1 (Db.insertOrder_ok_iff.1 hi).1
    exact ⟨⟨u, hu, hok.1⟩, hok.2⟩
  · rintro ⟨⟨u, hu, huser⟩, hrest⟩
    have hok := (haccepted u).2 ⟨huser, hrest⟩
    obtain ⟨db', hi⟩ : ∃ db', db.insertOrder (newOrder env input table u guestId amounts) =
        .ok db' := ⟨⟨_, db.valid.insertOrder hok⟩, Db.insertOrder_ok_iff.2 ⟨hok, rfl⟩⟩
    refine ⟨((newOrder env input table u guestId amounts).stored, db'), ?_⟩
    rw [insertOrder, hu]
    dsimp only
    rw [hi]
    rfl

/-- Past its checks, a placement succeeds exactly if the database takes the order and its lines. -/
theorem PassesChecks.succeeds_iff (h : PassesChecks s input w)
    (ht : tableById input.tableId w.db = .ok (some table))
    (hrows : availableItemsIn ((orderedItems noFault input s.userId s.guestId w).map
      EffectiveItem.menuItemId) w.db = .ok rows) :
    (∃ v, ((placeOrder env input s.userId s.guestId).run noFault w).1 = .ok v) ↔
      (∃ r, insertOrder env input table s.userId s.guestId
        (OrderItemData.amounts (orderedData noFault input s.userId s.guestId w rows)) w.db =
          .ok r) ∧
      LinesAccepted noFault env 0 (orderedData noFault input s.userId s.guestId w rows)
        w.db.orderItems := by
  obtain ⟨rows', hrows', havailable⟩ := h.available
  cases hrows.symm.trans hrows'
  constructor
  · rintro ⟨v, hv⟩
    obtain ⟨table', rows', order, db, _, hi, _⟩ := placeOrder_ok hv
    cases hrows.symm.trans hi.menuRows
    cases ht.symm.trans hi.tableRow
    refine ⟨⟨_, hi.inserted⟩, ?_⟩
    by_contra hn
    obtain ⟨e, he⟩ := hi.fails_iff.2 fun hall => hn hall.1
    cases he.symm.trans hv
  · rintro ⟨⟨⟨order, db⟩, hr⟩, hlines⟩
    have hi : Inserts noFault env input s.userId s.guestId w table rows order db :=
      ⟨h.ordered, rfl, ht, rfl, hrows, havailable, rfl, hr⟩
    obtain ⟨_, _, v, _, _, _, hv⟩ := hi.placed hlines detailUp_noFault
    exact ⟨v, congrArg Prod.fst hv⟩

theorem linesAccepted_noFault_iff (env : Env) (data : List OrderItemData)
    (lines : List OrderItemRow) :
    LinesAccepted noFault env 0 data lines ↔
      (∀ d ∈ data, d.Fits) ∧
        ((List.range' 1 data.length).map env.uuid).Nodup ∧
        ∀ u ∈ (List.range' 1 data.length).map env.uuid, ∀ l ∈ lines, l.id ≠ u :=
  ⟨fun h => ⟨h.fits, h.distinct, h.fresh⟩, fun h => ⟨fun _ _ => rfl, h.1, h.2.1, h.2.2⟩⟩

theorem CartRefines.stored (h : CartRefines seen es) (hadded : standing es ≠ []) :
    ∃ cart, seen = some (.cart cart) ∧ cart.items ≠ [] ∧
      Represents CartItem.menuItemId CartItem.Sums es cart.items := by
  obtain ⟨items, hlines, hrep⟩ := h
  have hne : items ≠ [] := by
    intro he
    obtain ⟨a, ha⟩ := List.exists_mem_of_ne_nil _ hadded
    have hkey : a.1 ∈ keys (standing es) := List.mem_eraseDups.2 (List.mem_map_of_mem ha)
    rw [← hrep.keys_eq, he] at hkey
    cases hkey
  cases seen with
  | none => exact absurd hlines hne
  | some v =>
    cases v with
    | cart cart =>
      obtain rfl : cart.items = items := hlines
      exact ⟨cart, rfl, hne, hrep⟩
    | menu m => exact hlines.elim
    | items rows => exact hlines.elim

/-- The lines that are made from a cart fit exactly if what was added of each dish does. -/
theorem data_fits_iff {data : List OrderItemData}
    (hrep : Represents CartItem.menuItemId CartItem.Sums es items)
    (hdata : data.map OrderItemData.item =
      items.map fun i => EffectiveItem.mk i.menuItemId i.quantity i.notes) :
    (∀ d ∈ data, d.Fits) ↔
      (∀ dish, FitsInt4 (quantityAdded (standing es) dish)) ∧
        ∀ dish, ∀ note ∈ noteAdded (standing es) dish, Storable note := by
  have hitems := congrArg
    (fun is : List EffectiveItem => ∀ i ∈ is, FitsInt4 i.quantity ∧ ∀ s ∈ i.notes, Storable s) hdata
  rw [List.forall_mem_map, List.forall_mem_map] at hitems
  refine (iff_of_eq hitems).trans ((forall₂_congr fun i hi => ?_).trans
    ((represents_forall_iff hrep fun dish hnone => ?_).trans forall_and))
  · rw [storable_given_iff, represents_note hrep hi, represents_quantity hrep hi]
  · rw [quantityAdded, noteAdded, hnone]
    exact ⟨⟨by decide, by decide⟩, fun note hnote => by cases hnote⟩

/-- An order for the cart that a session has filled goes through exactly if the quantities it has
added of each dish, the notes on it and the price of all fit their columns. -/
theorem order_in_range_iff (s : Session) (start : World) (hstart : seenCart s start = none)
    (cs : List (SessionCall s)) (w : World)
    (hw : seenCart s w = seenCart s (runs sessionStep (start, []) cs).1)
    (hadded : standing (runs sessionStep (start, []) cs).2 ≠ []) (env : Env)
    (input : PlaceOrderInput) (hpass : PassesChecks s input w) :
    InsertsInRange s env input w ↔
      Insertable s env input w.db (standing (runs sessionStep (start, []) cs).2) := by
  have hrefines := runs_refines s start hstart cs
  rw [← hw] at hrefines
  generalize (runs sessionStep (start, []) cs).2 = es at hrefines hadded
  obtain ⟨cart, hcart, hne, hrep⟩ := hrefines.stored hadded
  have hordered := orderedItems_cart (f := noFault) s rfl input hcart hne
  obtain ⟨table, htable⟩ := hpass.tableRow
  obtain ⟨rows, hrows, havailable⟩ := hpass.available
  have hdata : (orderedData noFault input s.userId s.guestId w rows).map OrderItemData.item =
      cart.items.map fun i => ⟨i.menuItemId, i.quantity, i.notes⟩ :=
    (orderItemsData_items havailable).trans hordered
  have hcharges : OrderItemData.amounts (orderedData noFault input s.userId s.guestId w rows) =
      chargesFor w.db (standing es) := by
    rw [orderedData, orderItemsData_amounts hrows havailable, hordered, List.map_map]
    exact represents_charges hrep w.db
  have hlength : (orderedData noFault input s.userId s.guestId w rows).length =
      (keys (standing es)).length := by
    have hlen := congrArg List.length hdata
    rw [List.length_map, List.length_map] at hlen
    rw [hlen, ← hrep.keys_eq, List.length_map]
  have hfits := data_fits_iff hrep hdata
  rw [InsertsInRange, hpass.succeeds_iff htable hrows,
    insertOrder_accepted_iff (tableById_mem htable), linesAccepted_noFault_iff, hlength, hcharges]
  constructor
  · rintro ⟨_, ⟨huser, hguest, htext, horder, htotal⟩, hlines, hids⟩
    obtain ⟨hquantities, hnotes⟩ := hfits.1 hlines
    exact ⟨hquantities, hnotes, htotal, htext, huser, hguest, horder, hids⟩
  · intro h
    have hlines := hfits.2 ⟨h.quantities, h.notes⟩
    refine ⟨fun rows' hrows' => ?_, ⟨h.user, h.guest, h.instructions, h.orderId, h.total⟩, hlines,
      h.lineIds⟩
    cases hrows.symm.trans hrows'
    exact ⟨fun d hd => (hlines d hd).1, hcharges ▸ h.total⟩

theorem addOnce_standing :
    standing (runs sessionStep (sampleWorld, []) [addOnce]).2 =
      [((sampleId 4).text, ⟨(sampleId 4).text, 1, none⟩)] := by
  have hevent : addOnce.event sampleWorld =
      some (.add (sampleId 4).text ⟨(sampleId 4).text, 1, none⟩) := by
    rw [SessionCall.event]
    exact if_pos rfl
  rw [runs_cons, runs_nil, sessionStep, hevent]
  rfl

/-- A server that adds up in doubles. -/
def doubleEnv : Env := { sampleEnv with arithmetic := .double }

theorem order_in_range_sample :
    InsertsInRange sampleSession doubleEnv sampleOrder
      (runs sessionStep (sampleWorld, []) [addOnce]).1 := by
  refine (order_in_range_iff sampleSession sampleWorld rfl [addOnce] _ rfl ?_ doubleEnv sampleOrder
    ⟨?_, ⟨_, rfl⟩, ⟨_, rfl, ?_⟩⟩).2 ?_
  · rw [addOnce_standing]
    exact List.cons_ne_nil _ _
  · exact List.cons_ne_nil _ _
  · rfl
  · rw [addOnce_standing]
    refine ⟨fun k => ?_, fun k => ?_, (by decide +kernel), fun _ h => (by cases h),
      ⟨none, rfl, rfl⟩, fun g hg => ?_, fun _ h => (by cases h), (by decide +kernel),
      fun _ _ _ h => (by cases h)⟩
    · by_cases hk : (sampleId 4).text = k
      · simp [quantityAdded, hk, FitsInt4]
      · simp [quantityAdded, hk, FitsInt4]
    · by_cases hk : (sampleId 4).text = k
      · simp [noteAdded, hk, given]
      · simp [noteAdded, hk]
    · cases hg
      decide +kernel

/-- Twice an amount that an `integer` column can hold is too much for it, whatever the placement
has checked. -/
theorem order_out_of_range :
    PassesChecks sampleSession sampleOrder overfullWorld ∧
      ¬InsertsInRange sampleSession sampleEnv sampleOrder overfullWorld := by
  refine ⟨⟨by decide +kernel, ⟨_, rfl⟩, ⟨_, rfl, by decide +kernel⟩⟩, ?_⟩
  rintro ⟨_, v, hv⟩
  have hrejected : ((placeOrder sampleEnv sampleOrder none sampleGuest).run noFault
      overfullWorld).1 = .error (.db (.rejected "order_items")) := by decide +kernel
  cases hrejected.symm.trans hv

end DineFlow
