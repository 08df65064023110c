import DineFlow.CartThreads

namespace DineFlow
open Atomic Relational
set_option autoImplicit true

/-- The calls that rewrite a cart. -/
inductive CartEdit where
  | add (env : Env) (input : AddToCartInput)
  | remove (env : Env) (menuItemId : String)

def CartEdit.call : CartEdit → CartCall
  | .add env input => .add env input
  | .remove env menuItemId => .remove env menuItemId

def CartEdit.env : CartEdit → Env
  | .add env _ => env
  | .remove env _ => env

/-- A changed cart with its total, as the database prices it. -/
def priceCart (db : Db) (cart : Cart) : Except ApiError Cart :=
  if cart.items = [] then .ok { cart with totalAmount := 0 }
  else match menuItemsIn (cart.items.map CartItem.menuItemId) db with
    | .ok rows => .ok { cart with totalAmount := cartTotal rows cart.items }
    | .error e => .error (.db e)

def addedCart (env : Env) (input : AddToCartInput) (row : MenuItemRow) (seen : Option Cached) :
    Except ApiError Cart :=
  (addToCart.currentCart env.now seen).map (addToCart.update env input row)

def removedCart (env : Env) (menuItemId : String) (seen : Option Cached) : Except ApiError Cart :=
  (removeFromCart.currentCart seen).map (removeFromCart.update env menuItemId)

/-- The cart an edit stores, given the one it has read. -/
def CartEdit.outcome (db : Db) (seen : Option Cached) : CartEdit → Except ApiError Cart
  | .add env input =>
    match availableItem input.menuItemId db with
    | .ok (some row) => (addedCart env input row seen).bind (priceCart db)
    | .ok none => .error (.notFound "Menu item not found or not available")
    | .error e => .error (.db e)
  | .remove env menuItemId => (removedCart env menuItemId seen).bind (priceCart db)

/-- The cart that `getCart` shows of the one it has read. -/
def shownCart (now : Nat) (db : Db) : Option Cached → Except ApiError Cart
  | none => .ok (emptyCart now)
  | some c => c.asCart.bind (priceCart db)

open CartPhase

theorem run_discard (p : Api α) (f : Site → Bool) (w : World) :
    (discard p).run f w = ((p.run f w).1.map fun _ => (), (p.run f w).2) :=
  Prog.run_bind_ret p _ f w

/-- The cart that a call reads: a failed read looks like an absent cart. -/
def readBy (f : Site → Bool) (s : Session) (w : World) : Option Cached :=
  if f .cartGet then none else seenCart s w

/-- What storing a cart comes to: the new state, unless the write is lost, or the error that kept
it from happening. -/
def storeBy (f : Site → Bool) (s : Session) (env : Env) (w : World) :
    Except ApiError Cart → Except ApiError Cart × World
  | .ok cart => (.ok cart, if f .cartSet then w else
      { w with redis := w.redis.set s.key (cartEntry s env cart) })
  | .error e => (.error e, w)

def storeResult (s : Session) (env : Env) (w : World) :
    Except ApiError Cart → Except ApiError Cart × World
  | .ok cart => (.ok cart, { w with redis := w.redis.set s.key (cartEntry s env cart) })
  | .error e => (.error e, w)

theorem storeBy_noFault (s : Session) (env : Env) (w : World) (r : Except ApiError Cart) :
    storeBy noFault s env w r = storeResult s env w r := by
  cases r <;> rfl

section Runs

variable {f : Site → Bool} (s : Session) (env : Env)

theorem run_saveCart (cart : Cart) (w : World) :
    (saveCart env s.key s.guestId cart).run f w = storeBy f s env w (.ok cart) := by
  rw [saveCart, Prog.bind_eq, run_setCachedObject_bind]
  rfl

theorem run_storeCart (hprices : f .cartPrices = false) (r : Except ApiError Cart) (w : World) :
    (storeCart env s.key s.guestId r).run f w = storeBy f s env w (r.bind (priceCart w.db)) := by
  cases r with
  | error e => rfl
  | ok cart =>
    simp only [storeCart, Prog.ofExcept_ok, Prog.bind_eq, Prog.ret_bind, calculateCartTotalAmount,
      Except.bind, priceCart]
    split
    · exact run_saveCart s env _ w
    · rw [Prog.bind_assoc, run_select_bind, hprices]
      cases menuItemsIn (cart.items.map CartItem.menuItemId) w.db with
      | error e => rfl
      | ok rows => exact run_saveCart s env _ w

theorem run_addToCart_by (hitem : f .availableItem = false) (hprices : f .cartPrices = false)
    (input : AddToCartInput) (w : World) :
    (addToCart env input s.userId s.guestId).run f w =
      storeBy f s env w ((CartEdit.add env input).outcome w.db (readBy f s w)) := by
  simp only [addToCart, getCartKey, s.keyed, Prog.ofExcept_ok, Prog.bind_eq, Prog.ret_bind,
    run_select_bind, hitem, CartEdit.outcome]
  cases availableItem input.menuItemId w.db with
  | error er => rfl
  | ok row =>
    cases row with
    | none => rfl
    | some row =>
      simp only [addToCart.withItem, Prog.bind_eq, run_getCachedObject_bind, addToCart.withCart,
        run_storeCart s env hprices]
      rfl

theorem run_removeFromCart_by (hprices : f .cartPrices = false) (menuItemId : String) (w : World) :
    (removeFromCart env menuItemId s.userId s.guestId).run f w =
      storeBy f s env w ((CartEdit.remove env menuItemId).outcome w.db (readBy f s w)) := by
  simp only [removeFromCart, getCartKey, s.keyed, Prog.ofExcept_ok, Prog.bind_eq, Prog.ret_bind,
    run_getCachedObject_bind, removeFromCart.withCart, run_storeCart s env hprices]
  rfl

theorem run_addToCart (input : AddToCartInput) (w : World) :
    (addToCart env input s.userId s.guestId).run noFault w =
      storeResult s env w ((CartEdit.add env input).outcome w.db (seenCart s w)) := by
  rw [run_addToCart_by s env rfl rfl, storeBy_noFault]
  rfl

theorem run_removeFromCart (menuItemId : String) (w : World) :
    (removeFromCart env menuItemId s.userId s.guestId).run noFault w =
      storeResult s env w ((CartEdit.remove env menuItemId).outcome w.db (seenCart s w)) := by
  rw [run_removeFromCart_by s env rfl, storeBy_noFault]
  rfl

theorem run_getCart (w : World) :
    (getCart env s.userId s.guestId).run noFault w =
      (shownCart env.now w.db (seenCart s w), w) := by
  simp only [getCart, getCartKey, s.keyed, Prog.ofExcept_ok, Prog.bind_eq, Prog.ret_bind,
    run_getCachedObject_bind]
  change (match seenCart s w with | none => _ | some c => _ : Api Cart).run noFault w = _
  cases seenCart s w with
  | none => rfl
  | some c =>
    cases c with
    | cart cart =>
      simp only [Cached.asCart, Prog.ofExcept_ok, Prog.ret_bind, calculateCartTotalAmount,
        shownCart, Except.bind, priceCart]
      split
      · rfl
      · rw [Prog.bind_eq, Prog.bind_assoc, run_select_bind]
        cases menuItemsIn (cart.items.map CartItem.menuItemId) w.db <;> rfl
    | menu m => rfl
    | items rows => rfl

end Runs

theorem CartEdit.run_by (hitem : f .availableItem = false) (hprices : f .cartPrices = false)
    (s : Session) (e : CartEdit) (w : World) :
    (e.call.prog s).run f w =
      let r := storeBy f s e.env w (e.outcome w.db (readBy f s w))
      (r.1.map fun _ => (), r.2) := by
  cases e with
  | add env input =>
    rw [CartEdit.call, CartCall.prog, run_discard, run_addToCart_by s env hitem hprices,
      CartEdit.env]
  | remove env menuItemId =>
    rw [CartEdit.call, CartCall.prog, run_discard, run_removeFromCart_by s env hprices,
      CartEdit.env]

theorem CartEdit.run (s : Session) (e : CartEdit) (w : World) :
    (e.call.prog s).run noFault w =
      let r := storeResult s e.env w (e.outcome w.db (seenCart s w))
      (r.1.map fun _ => (), r.2) := by
  rw [CartEdit.run_by rfl rfl, storeBy_noFault]
  rfl

/-- What an edit without failures leaves of a cart. -/
def leftBy (seen : Option Cached) : Except ApiError Cart → Option Cached
  | .ok cart => some (.cart cart.json)
  | .error _ => seen

theorem seenCart_set (s : Session) (env : Env) (cart : Cart) (w : World) :
    seenCart s { w with redis := w.redis.set s.key (cartEntry s env cart) } =
      some (.cart cart.json) := by
  rw [seenCart, Redis.get_set_same]
  rfl

theorem seenCart_storeResult (s : Session) (env : Env) (w : World) (r : Except ApiError Cart) :
    seenCart s (storeResult s env w r).2 = leftBy (seenCart s w) r := by
  cases r with
  | error e => rfl
  | ok cart => exact seenCart_set s env cart w

/-- Every line names its dish by a text that the database reads as a uuid. -/
def Named (items : List CartItem) : Prop := ∀ i ∈ items, (Uuid.parse i.menuItemId).isSome = true

theorem parseUuids_isSome {ss : List String} (h : ∀ s ∈ ss, (Uuid.parse s).isSome = true) :
    ∃ us, parseUuids ss = .ok us := by
  induction ss with
  | nil => exact ⟨[], rfl⟩
  | cons s ss ih =>
    obtain ⟨hs, hss⟩ := List.forall_mem_cons.1 h
    obtain ⟨u, hu⟩ := Option.isSome_iff_exists.1 hs
    obtain ⟨us, hus⟩ := ih hss
    refine ⟨u :: us, ?_⟩
    rw [parseUuids, parseUuid, hu, hus]

theorem parseUuids_mem {ss : List String} (h : parseUuids ss = .ok us) (hs : s ∈ ss) :
    ∃ u ∈ us, Uuid.parse s = some u := by
  induction ss generalizing us with
  | nil => exact absurd hs List.not_mem_nil
  | cons s' ss ih =>
    rw [parseUuids] at h
    split at h
    · rename_i u us hu hus
      cases h
      rcases List.mem_cons.1 hs with rfl | hs
      · exact ⟨u, List.mem_cons_self, parseUuid_ok_iff.1 hu⟩
      · obtain ⟨v, hv, hp⟩ := ih hus hs
        exact ⟨v, List.mem_cons_of_mem _ hv, hp⟩
    · cases h
    · cases h

theorem inArray_mem (h : inArray ss = .ok us) (hs : s ∈ ss) : ∃ u ∈ us, Uuid.parse s = some u := by
  rw [inArray] at h
  split at h
  · cases h
  · exact parseUuids_mem h hs

theorem availableItem_named (h : availableItem k db = .ok (some row)) :
    (Uuid.parse k).isSome = true := by
  rw [availableItem, parseUuid] at h
  cases hu : Uuid.parse k with
  | none =>
    rw [hu] at h
    cases h
  | some u => rfl

theorem cartTotal_menu (h : menuItemsIn (items.map CartItem.menuItemId) db = .ok rows) :
    cartTotal rows items = cartTotal db.menuItems items := by
  obtain ⟨us, hus, rfl⟩ := map_ok h
  have hrow : ∀ i ∈ items, rowOf (db.menuItems.filter fun r => r.id ∈ us) i.menuItemId =
      rowOf db.menuItems i.menuItemId := by
    intro i hi
    obtain ⟨u, hu, hp⟩ := inArray_mem hus (List.mem_map_of_mem hi)
    rw [rowOf, rowOf, List.find?_filter]
    congr 1
    funext r
    by_cases hr : r.id.text = i.menuItemId
    · rw [← hr, Uuid.parse_text] at hp
      cases hp
      simp [hu]
    · simp [hr]
  rw [cartTotal, cartTotal]
  refine congrArg List.sum (List.map_congr_left fun i hi => ?_)
  rw [hrow i hi]

theorem priceCart_ok_iff :
    priceCart db cart = .ok cart' ↔
      Named cart.items ∧ { cart with totalAmount := cartTotal db.menuItems cart.items } =
        cart' := by
  rw [priceCart]
  split
  · rename_i hnil
    rw [hnil]
    exact ⟨fun h => ⟨fun i hi => absurd hi List.not_mem_nil, Except.ok.inj h⟩,
      fun h => congrArg Except.ok h.2⟩
  · rename_i hne
    constructor
    · intro h
      split at h
      · rename_i rows hrows
        refine ⟨fun i hi => ?_, cartTotal_menu hrows ▸ Except.ok.inj h⟩
        obtain ⟨us, hus, _⟩ := map_ok hrows
        obtain ⟨u, _, hu⟩ := inArray_mem hus (List.mem_map_of_mem hi)
        rw [hu]
        rfl
      · cases h
    · rintro ⟨hnamed, rfl⟩
      obtain ⟨us, hus⟩ := parseUuids_isSome (List.forall_mem_map.2 hnamed)
      have hrows : menuItemsIn (cart.items.map CartItem.menuItemId) db =
          .ok (db.menuItems.filter fun r => r.id ∈ us) := by
        rw [menuItemsIn, inArray, if_neg (by simpa using hne), hus]
        rfl
      rw [hrows]
      exact congrArg (fun t => Except.ok { cart with totalAmount := t }) (cartTotal_menu hrows)

/-- How many of an item the lines of a cart hold. -/
def lineQuantity (item : String) (items : List CartItem) : Int :=
  (items.map fun i => if i.menuItemId = item then i.quantity else 0).sum

def quantityOf (item : String) : Option Cached → Int
  | some (.cart c) => lineQuantity item c.items
  | _ => 0

theorem lineQuantity_cons (item : String) (i : CartItem) (is : List CartItem) :
    lineQuantity item (i :: is) =
      (if i.menuItemId = item then i.quantity else 0) + lineQuantity item is := by
  rw [lineQuantity, List.map_cons, List.sum_cons]
  rfl

theorem lineQuantity_json (item : String) (items : List CartItem) :
    lineQuantity item (items.map CartItem.json) = lineQuantity item items := by
  rw [lineQuantity, List.map_map]
  rfl

theorem lineQuantity_mergeItem (item : String) (now : Nat) (input : AddToCartInput)
    (row : MenuItemRow) (items : List CartItem) :
    lineQuantity item (mergeItem now input row items) =
      lineQuantity item items + if input.menuItemId = item then input.quantity else 0 := by
  induction items with
  | nil => simp [mergeItem, lineQuantity]
  | cons i is ih =>
    rw [mergeItem]
    split
    · rename_i h
      rw [lineQuantity_cons, lineQuantity_cons, ← h]
      dsimp only
      split <;> omega
    · rw [lineQuantity_cons, lineQuantity_cons, ih, add_assoc]

theorem lineQuantity_filter (h : k ≠ item) (items : List CartItem) :
    lineQuantity item (items.filter fun i => i.menuItemId ≠ k) = lineQuantity item items := by
  induction items with
  | nil => rfl
  | cons i is ih =>
    rw [List.filter_cons]
    split
    · rw [lineQuantity_cons, lineQuantity_cons, ih]
    · rename_i hk
      have hi : i.menuItemId = k := by simpa using hk
      rw [lineQuantity_cons, ih, hi, if_neg h, zero_add]

/-- What an edit adds of an item. -/
def CartEdit.added (item : String) : CartEdit → Int
  | .add _ input => if input.menuItemId = item then input.quantity else 0
  | .remove _ _ => 0

def CartEdit.removes (item : String) : CartEdit → Prop
  | .add _ _ => False
  | .remove _ menuItemId => menuItemId = item

theorem currentCart_quantity (h : addToCart.currentCart now seen = .ok cart) (item : String) :
    lineQuantity item cart.items = quantityOf item seen := by
  cases seen with
  | none =>
    cases h
    rfl
  | some c =>
    cases c <;> cases h
    rfl

theorem existing_quantity (h : removeFromCart.currentCart seen = .ok cart) (item : String) :
    lineQuantity item cart.items = quantityOf item seen := by
  cases seen with
  | none => cases h
  | some c =>
    cases c <;> cases h
    rfl

theorem priceCart_items (h : priceCart db cart = .ok cart') : cart'.items = cart.items := by
  rw [← (priceCart_ok_iff.1 h).2]

theorem CartEdit.outcome_quantity {e : CartEdit} (h : e.outcome db seen = .ok cart)
    (hr : ¬e.removes item) :
    lineQuantity item cart.items = quantityOf item seen + e.added item := by
  cases e with
  | add env input =>
    simp only [CartEdit.outcome] at h
    split at h
    · rename_i row _
      obtain ⟨c, hc, hp⟩ := bind_ok h
      obtain ⟨c₀, hc₀, rfl⟩ := map_ok hc
      rw [priceCart_items hp, ← currentCart_quantity hc₀]
      exact lineQuantity_mergeItem item env.now input row c₀.items
    · cases h
    · cases h
  | remove env menuItemId =>
    obtain ⟨c, hc, hp⟩ := bind_ok h
    obtain ⟨c₀, hc₀, rfl⟩ := map_ok hc
    rw [priceCart_items hp, ← existing_quantity hc₀, CartEdit.added, add_zero]
    exact lineQuantity_filter hr c₀.items

end DineFlow
