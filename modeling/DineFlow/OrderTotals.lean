import DineFlow.CartEdits
import DineFlow.OrderSnapshot

namespace DineFlow
open Atomic Relational CartPhase
set_option autoImplicit true

/-- The dish is on the menu under this id, and available. -/
def Orderable (db : Db) (menuItemId : String) : Prop :=
  ∃ r ∈ db.menuItems, r.id.text = menuItemId ∧ r.isAvailable = true

theorem cartTotal_prices (db : Db) (items : List CartItem) :
    cartTotal db.menuItems items =
      (items.map fun i => (menuPrice db i.menuItemId).getD 0 * i.quantity).sum := by
  rw [cartTotal]
  refine congrArg List.sum (List.map_congr_left fun i _ => ?_)
  rw [menuPrice]
  cases rowOf db.menuItems i.menuItemId with
  | none => exact (zero_mul _).symm
  | some r => rfl

theorem orderItemsData_amounts {db : Db} (hrows : availableItemsIn ids db = .ok rows)
    (h : unavailableItems rows items = []) :
    OrderItemData.amounts (orderItemsData rows items) =
      items.map fun i => ((menuPrice db i.menuItemId).getD 0, i.quantity) := by
  have hprices := orderItemsData_prices (fun r hr => (availableItemsIn_mem hrows r hr).1) h
  have hamounts := congrArg (List.map fun p : EffectiveItem × Option Int =>
    (p.2.getD 0, p.1.quantity)) hprices
  simp only [List.map_map] at hamounts
  exact hamounts

theorem orderedItems_cart (s : Session) (hread : f .cartGet = false) (input : PlaceOrderInput)
    (hcart : seenCart s w = some (.cart cart)) (hne : cart.items ≠ []) :
    orderedItems f input s.userId s.guestId w =
      cart.items.map fun i => ⟨i.menuItemId, i.quantity, i.notes⟩ := by
  have hseen : readCart f (cartKey s.userId s.guestId) w = some (.cart cart) := by
    rw [readCart, s.keyed, Option.bind_some, hread]
    exact hcart
  rw [orderedItems, hseen, effectiveItems, if_neg]
  · rfl
  · simpa [cartLines] using hne

theorem placeOrder_total (h : ((placeOrder env input userId guestId).run f w).1 = .ok v) :
    ∃ rows, availableItemsIn
        ((orderedItems f input userId guestId w).map EffectiveItem.menuItemId) w.db = .ok rows ∧
      unavailableItems rows (orderedItems f input userId guestId w) = [] ∧
      v.totalAmount = env.arithmetic.cents
        (OrderItemData.amounts (orderedData f input userId guestId w rows)) := by
  obtain ⟨table, rows, order, db, lines, hi, _, _, rfl⟩ := placeOrder_view h
  refine ⟨rows, hi.menuRows, hi.available, ?_⟩
  obtain ⟨u, hnew⟩ := (insertOrder_ok hi.inserted).1
  rw [hnew]
  rfl

theorem unavailableItems_nil (h : unavailableItems rows items = []) (hi : i ∈ items) :
    ∃ r, rowOf rows i.menuItemId = some r := by
  have hsome : ¬(rowOf rows i.menuItemId).isNone = true :=
    List.filter_eq_nil_iff.1 h _ (List.mem_map_of_mem hi)
  exact Option.ne_none_iff_exists'.1 (by simpa using hsome)

/-- Just before an order is placed from a cart, the cart shows the total of the order, decimals
being exact; and while a dish of the cart is not on the menu or not available, no order is
placed. -/
theorem order_total_shown (s : Session) (f : Site → Bool) (hread : f .cartGet = false)
    (env env' : Env) (input : PlaceOrderInput) (w : World) (cart : Cart)
    (hcart : seenCart s w = some (.cart cart)) (hne : cart.items ≠ []) :
    (∀ order, ((placeOrder env' input s.userId s.guestId).run f w).1 = .ok order →
      ∃ shown, (getCart env s.userId s.guestId).run noFault w = (.ok shown, w) ∧
        (env'.arithmetic = .exact → order.totalAmount = shown.totalAmount)) ∧
    ((∃ i ∈ cart.items, ¬Orderable w.db i.menuItemId) →
      ∃ e, ((placeOrder env' input s.userId s.guestId).run f w).1 = .error e) := by
  have hitems := orderedItems_cart s hread input hcart hne
  constructor
  · intro order horder
    obtain ⟨rows, hrows, hall, htotal⟩ := placeOrder_total horder
    have hnamed : Named cart.items := by
      intro i hi
      obtain ⟨us, hus, _⟩ := map_ok hrows
      obtain ⟨u, _, hu⟩ : ∃ u ∈ us, Uuid.parse i.menuItemId = some u := by
        refine inArray_mem hus ?_
        rw [hitems, List.map_map]
        exact List.mem_map_of_mem hi
      rw [hu]
      rfl
    refine ⟨{ cart with totalAmount := cartTotal w.db.menuItems cart.items }, ?_, fun hexact => ?_⟩
    · rw [run_getCart, hcart]
      exact congrArg (·, w) (priceCart_ok_iff.2 ⟨hnamed, rfl⟩)
    · rw [htotal, hexact, orderedData, orderItemsData_amounts hrows hall, hitems, List.map_map,
        cartTotal_prices]
      exact congrArg List.sum (List.map_map ..)
  · rintro ⟨i, hi, hno⟩
    cases horder : ((placeOrder env' input s.userId s.guestId).run f w).1 with
    | error e => exact ⟨e, rfl⟩
    | ok order =>
      obtain ⟨rows, hrows, hall, _⟩ := placeOrder_total horder
      have hmem : (⟨i.menuItemId, i.quantity, i.notes⟩ : EffectiveItem) ∈
          orderedItems f input s.userId s.guestId w := by
        rw [hitems]
        exact List.mem_map_of_mem hi
      obtain ⟨r, hr⟩ := unavailableItems_nil hall hmem
      obtain ⟨hrmem, hid⟩ := rowOf_mem hr
      obtain ⟨hdb, havailable⟩ := availableItemsIn_mem hrows r hrmem
      exact absurd ⟨r, hdb, hid, havailable⟩ hno

/-- The sample guest's cart, with two of the dish in it. -/
def filledWorld : World :=
  ((addToCart sampleEnv ⟨(sampleId 4).text, 2, none⟩ none sampleGuest).run noFault sampleWorld).2

def filledCart : Cart :=
  ⟨[⟨(sampleId 4).text, "Injera", 2, 1, none, .iso 0⟩], .iso 0, .iso 0, 2⟩

theorem order_total_shown_sample :
    ∃ order shown, ((placeOrder sampleEnv sampleOrder none sampleGuest).run noFault
        filledWorld).1 = .ok order ∧
      (getCart sampleEnv none sampleGuest).run noFault filledWorld = (.ok shown, filledWorld) ∧
      order.totalAmount = shown.totalAmount := by
  obtain ⟨order, horder⟩ : ∃ order, ((placeOrder sampleEnv sampleOrder none sampleGuest).run
      noFault filledWorld).1 = .ok order := ⟨_, rfl⟩
  obtain ⟨shown, hshown, htotal⟩ := (order_total_shown sampleSession noFault rfl sampleEnv
    sampleEnv sampleOrder filledWorld filledCart (by decide +kernel) (List.cons_ne_nil _ _)).1
    order horder
  exact ⟨order, shown, horder, hshown, htotal rfl⟩

end DineFlow
