import DineFlow.OrderTotals
import DineFlow.ServiceRules

namespace DineFlow
open Atomic Relational CartPhase
set_option autoImplicit true

/-- The total of a cart is that of its own lines. -/
def Cart.Consistent (c : Cart) : Prop :=
  c.totalAmount = (c.items.map fun i => i.price * i.quantity).sum

instance Cart.Consistent.decidable (c : Cart) : Decidable c.Consistent :=
  inferInstanceAs (Decidable (_ = _))

/-- The operations on carts, each by a session, and the mutations of the menu. -/
inductive ShopOp where
  | add (s : Session) (env : Env) (input : AddToCartInput)
  | get (s : Session) (env : Env)
  | remove (s : Session) (env : Env) (menuItemId : String)
  | clear (s : Session)
  | menu (userId : String) (m : MenuMutation)

def ShopOp.step (w : World) : ShopOp → World
  | .add s env input => ((addToCart env input s.userId s.guestId).run noFault w).2
  | .get s env => ((getCart env s.userId s.guestId).run noFault w).2
  | .remove s env menuItemId =>
    ((removeFromCart env menuItemId s.userId s.guestId).run noFault w).2
  | .clear s => ((clearCart s.userId s.guestId).run noFault w).2
  | .menu userId m => ((m.prog userId).run noFault w).2

/-- The cart that an operation returns. -/
def ShopOp.returned (w : World) : ShopOp → Option Cart
  | .add s env input => ((addToCart env input s.userId s.guestId).run noFault w).1.toOption
  | .get s env => ((getCart env s.userId s.guestId).run noFault w).1.toOption
  | .remove s env menuItemId =>
    ((removeFromCart env menuItemId s.userId s.guestId).run noFault w).1.toOption
  | .clear _ | .menu _ _ => none

/-- The menu has a dish under this id at this price. -/
def OnMenu (db : Db) (menuItemId : String) (price : Int) : Prop :=
  ∃ r ∈ db.menuItems, r.id.text = menuItemId ∧ r.price = price

def Cart.Priced (db : Db) (c : Cart) : Prop := ∀ i ∈ c.items, OnMenu db i.menuItemId i.price

/-- Every line of a stored cart has the price of the menu. -/
def CartsPriced (w : World) : Prop :=
  ∀ key e cart, w.redis.get key = some e → e.value = .cart cart → cart.Priced w.db

theorem Cart.Priced.total {cart : Cart} (h : cart.Priced db) :
    cartTotal db.menuItems cart.items = (cart.items.map fun i => i.price * i.quantity).sum := by
  rw [cartTotal_prices]
  refine congrArg List.sum (List.map_congr_left fun i hi => ?_)
  obtain ⟨r, hr, hid, hprice⟩ := h i hi
  rw [menuPrice, rowOf_menu hr hid, Option.map_some, Option.getD_some, hprice]

theorem Cart.Priced.json {cart : Cart} (h : cart.Priced db) : cart.json.Priced db := by
  intro i hi
  obtain ⟨i', hi', rfl⟩ := List.mem_map.1 hi
  exact h i' hi'

theorem Cart.Priced.priceCart {cart : Cart} (h : cart.Priced db)
    (hp : DineFlow.priceCart db cart = .ok cart') : cart'.Priced db ∧ cart'.Consistent := by
  obtain ⟨_, rfl⟩ := priceCart_ok_iff.1 hp
  exact ⟨h, h.total⟩

/-- The id is the canonical text of the uuid that it stands for. -/
def CanonicalText (menuItemId : String) : Prop :=
  ∀ u, Uuid.parse menuItemId = some u → u.text = menuItemId

theorem availableItem_onMenu (h : availableItem k db = .ok (some row)) (hk : CanonicalText k) :
    OnMenu db k row.price := by
  obtain ⟨u, hu, hrow⟩ := map_ok h
  have hid : row.id = u := by
    have hfound := List.find?_some hrow
    simp only [Bool.and_eq_true, decide_eq_true_eq] at hfound
    exact hfound.1
  refine ⟨row, List.mem_of_find?_eq_some hrow, ?_, rfl⟩
  rw [hid]
  exact hk u (parseUuid_ok_iff.1 hu)

/-- The cart that a call has read, if there is one, has the prices of the menu. -/
def SeenPriced (db : Db) (seen : Option Cached) : Prop :=
  ∀ cart, seen = some (.cart cart) → cart.Priced db

theorem SeenPriced.add (h : SeenPriced db seen) (hk : CanonicalText input.menuItemId)
    (ho : (CartEdit.add env input).outcome db seen = .ok cart) :
    cart.Priced db ∧ cart.Consistent := by
  rw [CartEdit.outcome] at ho
  split at ho
  · rename_i row hrow
    obtain ⟨c, hc, hp⟩ := bind_ok ho
    obtain ⟨c₀, hc₀, rfl⟩ := map_ok hc
    have hpriced : c₀.Priced db := by
      cases seen with
      | none =>
        cases hc₀
        exact fun i hi => absurd hi List.not_mem_nil
      | some v =>
        cases v <;> cases hc₀
        exact h _ rfl
    refine Cart.Priced.priceCart (fun i hi => ?_) hp
    rcases mem_mergeItem hi with hi | ⟨hid, hprice, _⟩
    · exact hpriced i hi
    · rw [hid, hprice]
      exact availableItem_onMenu hrow hk
  · cases ho
  · cases ho

theorem SeenPriced.remove (h : SeenPriced db seen)
    (ho : (CartEdit.remove env menuItemId).outcome db seen = .ok cart) :
    cart.Priced db ∧ cart.Consistent := by
  obtain ⟨c, hc, hp⟩ := bind_ok ho
  obtain ⟨c₀, hc₀, rfl⟩ := map_ok hc
  have hpriced : c₀.Priced db := by
    cases seen with
    | none => cases hc₀
    | some v =>
      cases v <;> cases hc₀
      exact h _ rfl
  exact Cart.Priced.priceCart (fun i hi => hpriced i (List.mem_of_mem_filter hi)) hp

theorem SeenPriced.get (h : SeenPriced db seen) (hs : shownCart now db seen = .ok cart) :
    cart.Consistent := by
  cases seen with
  | none =>
    cases hs
    rfl
  | some v =>
    obtain ⟨c, hc, hp⟩ := bind_ok hs
    cases v <;> cases hc
    exact ((h _ rfl).priceCart hp).2

/-- The mutation leaves the dish of this id on the menu, at its price. -/
def MenuMutation.KeepsPrice (db : Db) (menuItemId : String) : MenuMutation → Prop
  | .update input => ∀ r ∈ db.menuItems, Uuid.parse input.id = some r.id →
      r.id.text = menuItemId → ∀ price, input.price = some (some price) → toCents price = r.price
  | .delete itemId => ∀ u, Uuid.parse itemId = some u → u.text ≠ menuItemId
  | .create _ _ | .toggle _ => True

/-- What a mutation leaves of the prices that it keeps, and of Redis. -/
structure PricesKept (m : MenuMutation) (w w' : World) : Prop where
  menu : ∀ k price, m.KeepsPrice w.db k → OnMenu w.db k price →
    m.KeepsPrice w'.db k ∧ OnMenu w'.db k price
  redis : ∀ key e, w'.redis.get key = some e → w.redis.get key = some e

theorem PricesKept.refl (m : MenuMutation) (w : World) : PricesKept m w w :=
  ⟨fun _ _ hk hon => ⟨hk, hon⟩, fun _ _ h => h⟩

theorem PricesKept.trans (h : PricesKept m w w') (h' : PricesKept m w' w'') :
    PricesKept m w w'' := by
  constructor
  · intro k price hk hon
    obtain ⟨hk', hon'⟩ := h.menu k price hk hon
    exact h'.menu k price hk' hon'
  · intro key e he
    exact h.redis key e (h'.redis key e he)

theorem PricesKept.drop (m : MenuMutation) (w : World) (keys : List String) :
    PricesKept m w { w with redis := w.redis.delKeys keys } := by
  refine ⟨fun _ _ hk hon => ⟨hk, hon⟩, fun key e he => ?_⟩
  rw [Redis.get_delKeys] at he
  split at he
  · cases he
  · exact he

theorem OnMenu.patch (h : OnMenu db k price) (hi : patchMenuItem itemId p db = .ok r)
    (hp : ∀ row ∈ db.menuItems, Uuid.parse itemId = some row.id → row.id.text = k →
      p.price.getD row.price = row.price) : OnMenu r.2 k price := by
  obtain ⟨u, hu, ht⟩ := patchMenuItem_row hi
  obtain ⟨row, hrow, hid, hprice⟩ := h
  have hmem : (if row.id = u then p.apply row else row) ∈ r.2.menuItems := by
    rw [ht]
    exact List.mem_map_of_mem hrow
  by_cases hk : row.id = u
  · rw [if_pos hk] at hmem
    refine ⟨_, hmem, hid, ?_⟩
    exact (hp row hrow (hk ▸ parseUuid_ok_iff.1 hu) hid).trans hprice
  · rw [if_neg hk] at hmem
    exact ⟨row, hmem, hid, hprice⟩

theorem PricesKept.create (hi : insertMenuItem env input w.db = .ok r) :
    PricesKept (.create env input) w { w with db := r.2 } := by
  refine ⟨fun k price _ hon => ⟨trivial, ?_⟩, fun _ _ h => h⟩
  obtain ⟨row, hrow, hid, hprice⟩ := hon
  refine ⟨row, ?_, hid, hprice⟩
  rw [(insertMenuItem_row hi).2.1]
  exact List.mem_append_left _ hrow

theorem PricesKept.update
    (hi : writePatch (UpdateMenuItemInput.id input) input.patch w.db = .ok r) :
    PricesKept (.update input) w { w with db := r.2 } := by
  obtain ⟨p, hp, hi⟩ := writePatch_ok hi
  have hprice := UpdateMenuItemInput.patch_price hp
  refine ⟨fun k price hk hon => ⟨?_, hon.patch hi fun row hrow hid hrk => ?_⟩, fun _ _ h => h⟩
  · obtain ⟨u, _, ht⟩ := patchMenuItem_row hi
    intro row hrow hid hrk cents hcents
    rw [ht] at hrow
    rcases mem_updateWhere hrow with hrow | ⟨old, hold, _, rfl⟩
    · exact hk row hrow hid hrk cents hcents
    · rcases hprice with hnone | ⟨cents', hgiven, hset⟩
      · rw [MenuItemPatch.apply, hnone]
        exact hk old hold hid hrk cents hcents
      · cases hgiven.symm.trans hcents
        rw [MenuItemPatch.apply, hset]
        rfl
  · rcases hprice with hnone | ⟨cents, hgiven, hset⟩
    · rw [hnone]
      rfl
    · rw [hset]
      exact hk row hrow hid hrk cents hgiven

theorem PricesKept.delete (hi : deleteItem itemId w.db = .ok r) :
    PricesKept (.delete itemId) w { w with db := r.2 } := by
  refine ⟨fun k price hk hon => ⟨hk, ?_⟩, fun _ _ h => h⟩
  obtain ⟨u, hu, ht⟩ := deleteItem_rows hi
  obtain ⟨row, hrow, hid, hprice⟩ := hon
  refine ⟨row, ?_, hid, hprice⟩
  rw [ht]
  refine List.mem_filter.2 ⟨hrow, ?_⟩
  have hne : row.id ≠ u := by
    rintro rfl
    exact hk row.id (parseUuid_ok_iff.1 hu) hid
  simpa using hne

theorem MenuMutation.pricesKept (m : MenuMutation) (userId : String) (w : World) :
    PricesKept m w ((m.prog userId).run noFault w).2 := by
  have hrefl := PricesKept.refl m
  have hdrop (w : World) (keys : List String) (_ : ∀ k ∈ keys, IsMenuKey k) :
      PricesKept m w { w with redis := w.redis.delKeys keys } := .drop m w keys
  have hwithin : (m.prog userId).Within (PricesKept m) := by
    cases m with
    | create env input =>
      exact (createMenuItem_within_of hrefl hdrop userId fun _ _ => .create).bind fun _ => trivial
    | update input =>
      exact (updateMenuItem_within_of hrefl hdrop userId fun _ _ => .update).bind fun _ => trivial
    | delete itemId =>
      exact (deleteMenuItem_within_of hrefl hdrop userId fun _ _ => .delete).bind fun _ => trivial
    | toggle itemId =>
      refine (toggleAvailability_within_of hrefl hdrop userId fun w b r hi => ?_).bind
        fun _ => trivial
      exact ⟨fun k price _ hon => ⟨trivial, hon.patch hi fun _ _ _ _ => rfl⟩, fun _ _ h => h⟩
  exact hwithin.run hrefl .trans noFault w

/-- An addition names its dish by the canonical text of its id, and a mutation leaves the dishes of
stored carts on the menu, at their prices. -/
def ShopOp.KeepsPrices (w : World) : ShopOp → Prop
  | .add _ _ input => CanonicalText input.menuItemId
  | .menu _ m => ∀ key e cart, w.redis.get key = some e → e.value = .cart cart →
      ∀ i ∈ cart.items, m.KeepsPrice w.db i.menuItemId
  | _ => True

theorem CartsPriced.seen (h : CartsPriced w) (s : Session) : SeenPriced w.db (seenCart s w) := by
  intro cart hseen
  obtain ⟨e, he, hv⟩ := Option.map_eq_some_iff.1 hseen
  exact h s.key e cart he hv

theorem CartsPriced.store (h : CartsPriced w) (s : Session) (env : Env)
    (hr : ∀ cart, r = .ok cart → cart.Priced w.db) : CartsPriced (storeResult s env w r).2 := by
  cases r with
  | error e => exact h
  | ok stored =>
    intro key e cart he hv
    by_cases hk : key = s.key
    · rw [hk] at he
      cases (Redis.get_set_same w.redis s.key _).symm.trans he
      cases hv
      exact (hr stored rfl).json
    · exact h key e cart ((Redis.get_set_other w.redis _ hk).symm.trans he) hv

theorem CartsPriced.step (h : CartsPriced w) {op : ShopOp} (hop : op.KeepsPrices w) :
    CartsPriced (op.step w) := by
  cases op with
  | add s env input =>
    rw [ShopOp.step, run_addToCart]
    exact h.store s env fun cart hc => ((h.seen s).add hop hc).1
  | get s env =>
    rw [ShopOp.step, run_getCart]
    exact h
  | remove s env menuItemId =>
    rw [ShopOp.step, run_removeFromCart]
    exact h.store s env fun cart hc => ((h.seen s).remove hc).1
  | clear s =>
    rw [ShopOp.step, clearCart, getCartKey, s.keyed]
    intro key e cart he hv
    by_cases hk : key = s.key
    · rw [hk] at he
      cases (Redis.get_del_same w.redis s.key).symm.trans he
    · exact h key e cart ((Redis.get_del_other w.redis hk).symm.trans he) hv
  | menu userId m =>
    have hkept := m.pricesKept userId w
    intro key e cart he hv i hi
    have he' := hkept.redis key e he
    exact (hkept.menu _ _ (hop key e cart he' hv i hi) (h key e cart he' hv i hi)).2

theorem CartsPriced.returned (h : CartsPriced w) {op : ShopOp} (hop : op.KeepsPrices w)
    (hc : op.returned w = some cart) : cart.Consistent := by
  have hok {x : Except ApiError Cart} (hx : x.toOption = some cart) : x = .ok cart := by
    cases x with
    | error e => cases hx
    | ok c => exact congrArg _ (Option.some.inj hx)
  have hstore (s : Session) (env : Env) {r : Except ApiError Cart} :
      (storeResult s env w r).1 = r := by cases r <;> rfl
  cases op with
  | add s env input =>
    rw [ShopOp.returned, run_addToCart, hstore] at hc
    exact ((h.seen s).add hop (hok hc)).2
  | get s env =>
    rw [ShopOp.returned, run_getCart] at hc
    exact (h.seen s).get (hok hc)
  | remove s env menuItemId =>
    rw [ShopOp.returned, run_removeFromCart, hstore] at hc
    exact ((h.seen s).remove (hok hc)).2
  | clear s => cases hc
  | menu userId m => cases hc

/-- Every cart that a run returns has the total of its own lines, if additions name dishes by the
canonical text and no mutation reprices or deletes a dish of a stored cart. -/
theorem carts_consistent (w : World) (hw : CartsPriced w) (ops : List ShopOp)
    (hops : Guarded ShopOp.step ShopOp.KeepsPrices w ops) (done : List ShopOp) (op : ShopOp)
    (hdone : done ++ [op] <+: ops) (cart : Cart)
    (hcart : op.returned (runs ShopOp.step w done) = some cart) : cart.Consistent := by
  obtain ⟨hbefore, hop, _⟩ := guarded_append.1 (hops.of_prefix hdone)
  have hpriced : CartsPriced (runs ShopOp.step w done) :=
    hbefore.runs hw fun _ _ h hok => h.step hok
  exact hpriced.returned hop hcart

theorem canonicalText_text (u : Uuid) : CanonicalText u.text := by
  intro v hv
  cases (Uuid.parse_text u).symm.trans hv
  rfl

/-- The sample guest puts two of the dish into the cart. -/
def addTwo : ShopOp := .add sampleSession sampleEnv ⟨(sampleId 4).text, 2, none⟩

theorem carts_consistent_sample :
    ∃ cart, addTwo.returned sampleWorld = some cart ∧ cart.Consistent := by
  obtain ⟨cart, hcart⟩ : ∃ cart, addTwo.returned sampleWorld = some cart := ⟨_, rfl⟩
  refine ⟨cart, hcart, carts_consistent sampleWorld (fun _ _ _ h => ?_) [addTwo]
    ⟨canonicalText_text _, trivial⟩ [] addTwo List.prefix_rfl cart hcart⟩
  cases h

/-- The dish is deleted from the menu while it is in the cart, where it keeps its price. -/
theorem cart_inconsistent :
    ∃ cart, (ShopOp.get sampleSession sampleEnv).returned (runs ShopOp.step sampleWorld
        [addTwo, .menu (sampleId 5).text (.delete (sampleId 4).text)]) = some cart ∧
      ¬cart.Consistent :=
  ⟨{ filledCart with totalAmount := 0 }, by decide +kernel, by decide +kernel⟩

end DineFlow
