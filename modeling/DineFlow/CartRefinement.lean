import DineFlow.CartEdits
import DineFlow.Frames
import DineFlow.Placement
import DineFlow.Tally

namespace DineFlow
open Atomic Relational Tally CartPhase
set_option autoImplicit true

/-- The operations of a session on its cart. -/
inductive SessionOp where
  | add (input : AddToCartInput)
  | remove (menuItemId : String)
  | clear
  | get
  | place (input : PlaceOrderInput)

def SessionOp.prog (userId guestId : Option String) (env : Env) : SessionOp → Api Unit
  | .add input => discard (addToCart env input userId guestId)
  | .remove menuItemId => discard (removeFromCart env menuItemId userId guestId)
  | .clear => clearCart userId guestId
  | .get => discard (getCart env userId guestId)
  | .place input => discard (placeOrder env input userId guestId)

/-- A call of a session. Statements of the database may fail in it, those of Redis do not; before
it, whatever else happens leaves the cart of the session alone. -/
structure SessionCall (s : Session) where
  op : SessionOp
  env : Env
  fault : Site → Bool
  healthy : ∀ site ∈ [Site.cartGet, .cartSet, .cartDel], fault site = false
  others : World → World
  leaves : ∀ w, seenCart s (others w) = seenCart s w

def SessionCall.run (c : SessionCall s) (w : World) : Except ApiError Unit × World :=
  (c.op.prog s.userId s.guestId c.env).run c.fault (c.others w)

/-- A placement gets its order and every line of it into the database. -/
def StoresOrder (f : Site → Bool) (env : Env) (input : PlaceOrderInput)
    (userId guestId : Option String) (w : World) : Prop :=
  ∃ table rows order db, Inserts f env input userId guestId w table rows order db ∧
    LinesAccepted f env 0 (orderedData f input userId guestId w rows) w.db.orderItems

def SessionCall.Stores (c : SessionCall s) (w : World) : Prop :=
  ∃ input, c.op = .place input ∧
    StoresOrder c.fault c.env input s.userId s.guestId (c.others w)

open Classical in
/-- What a call means for the session's cart: an addition or a removal if it succeeds, a fresh start
if the cart is cleared or has become an order. -/
noncomputable def SessionCall.event (c : SessionCall s) (w : World) :
    Option (Act String AddToCartInput) :=
  match c.op with
  | .add input => if (c.run w).1 = .ok () then some (.add input.menuItemId input) else none
  | .remove menuItemId => if (c.run w).1 = .ok () then some (.drop menuItemId) else none
  | .clear => some .clear
  | .get => none
  | .place _ => if c.Stores w then some .clear else none

noncomputable def sessionStep (st : World × List (Act String AddToCartInput))
    (c : SessionCall s) : World × List (Act String AddToCartInput) :=
  ((c.run st.1).2, st.2 ++ (c.event st.1).toList)

/-- The quantity is the sum of those added, the note the last one that is not empty. -/
def CartItem.Sums (as : List AddToCartInput) (i : CartItem) : Prop :=
  i.quantity = (as.map AddToCartInput.quantity).sum ∧
    given i.notes = (as.filterMap fun a => given a.notes).getLast?

/-- The cart that is stored, if any, has these lines. -/
def HasLines (items : List CartItem) : Option Cached → Prop
  | none => items = []
  | some (.cart c) => c.items = items
  | _ => False

theorem mergeItem_eq_merge (now : Nat) (input : AddToCartInput) (row : MenuItemRow)
    (items : List CartItem) :
    mergeItem now input row items = merge CartItem.menuItemId input.menuItemId
      ⟨input.menuItemId, row.name, input.quantity, row.price, input.notes, .date now⟩
      (fun i => { i with
        quantity := i.quantity + input.quantity
        notes := if (given input.notes).isSome then input.notes else i.notes
        price := row.price
        menuItemName := row.name }) items := by
  induction items with
  | nil => rfl
  | cons i is ih => rw [mergeItem, merge, ih]

theorem represents_mergeItem (h : Represents CartItem.menuItemId CartItem.Sums es items) (now : Nat)
    (input : AddToCartInput) (row : MenuItemRow) :
    Represents CartItem.menuItemId CartItem.Sums (es ++ [.add input.menuItemId input])
      (mergeItem now input row items) := by
  rw [mergeItem_eq_merge]
  let new : CartItem :=
    ⟨input.menuItemId, row.name, input.quantity, row.price, input.notes, .date now⟩
  change Represents _ _ (es ++ [.add new.menuItemId input]) (merge _ new.menuItemId new _ items)
  refine h.add ?_ (fun _ => rfl) ?_
  · constructor
    · simp [new]
    · cases hn : given input.notes <;> simp [hn]
  · rintro as i ⟨hq, hn⟩
    constructor
    · simp [hq]
    · cases hg : given input.notes <;> simp [hg, hn]

theorem represents_json (h : Represents CartItem.menuItemId CartItem.Sums es items) :
    Represents CartItem.menuItemId CartItem.Sums es (items.map CartItem.json) :=
  h.map CartItem.json (fun _ => rfl) fun _ _ hs => hs

section Outcomes

variable {f : Site → Bool}

/-- A call either throws and changes nothing, or stores a cart with these lines. -/
def StoresOrThrows (key : String) (w : World) (items : List CartItem → Prop)
    (r : Except ApiError Cart × World) : Prop :=
  (∃ e, r = (.error e, w)) ∨
    ∃ v ttl, items v.items ∧ r = (.ok v, { w with redis := w.redis.set key ⟨.cart v.json, ttl⟩ })

theorem storeCart_outcome (hset : f .cartSet = false) (env : Env) (key : String)
    (guestId : Option String) (cart : Except ApiError Cart) (w : World) :
    StoresOrThrows key w (fun items => ∃ c, cart = .ok c ∧ items = c.items)
      ((storeCart env key guestId cart).run f w) := by
  cases cart with
  | error e => exact .inl ⟨e, rfl⟩
  | ok cart =>
    have hsave (total : Int) : StoresOrThrows key w (fun items => ∃ c, Except.ok cart =
        (.ok c : Except ApiError Cart) ∧ items = c.items)
        ((saveCart env key guestId { cart with totalAmount := total }).run f w) := by
      rw [saveCart, Prog.bind_eq, run_setCachedObject_bind, hset]
      exact .inr ⟨{ cart with totalAmount := total }, _, ⟨cart, rfl, rfl⟩, rfl⟩
    rw [storeCart, Prog.bind_eq, Prog.ofExcept_ok, Prog.ret_bind, calculateCartTotalAmount]
    split
    · exact hsave 0
    · rw [Prog.bind_eq, Prog.bind_eq, Prog.bind_assoc, run_select_bind]
      split
      · exact .inl ⟨_, rfl⟩
      · cases menuItemsIn (cart.items.map CartItem.menuItemId) w.db with
        | error e => exact .inl ⟨_, rfl⟩
        | ok rows => exact hsave _

theorem addToCart_outcome (s : Session) (hget : f .cartGet = false) (hset : f .cartSet = false)
    (env : Env) (input : AddToCartInput) (w : World) :
    StoresOrThrows s.key w
      (fun items => ∃ row c, addToCart.currentCart env.now (seenCart s w) = .ok c ∧
        items = mergeItem env.now input row c.items)
      ((addToCart env input s.userId s.guestId).run f w) := by
  rw [addToCart, getCartKey, s.keyed, Prog.bind_eq, Prog.ofExcept_ok, Prog.ret_bind, Prog.bind_eq,
    run_select_bind]
  split
  · exact .inl ⟨_, rfl⟩
  · cases availableItem input.menuItemId w.db with
    | error e => exact .inl ⟨_, rfl⟩
    | ok row =>
      cases row with
      | none => exact .inl ⟨_, rfl⟩
      | some row =>
        dsimp only [addToCart.withItem]
        rw [Prog.bind_eq, run_getCachedObject_bind, hget]
        rcases storeCart_outcome hset env s.key s.guestId _ w with h | ⟨v, ttl, ⟨c, hc, hv⟩, h⟩
        · exact .inl h
        · obtain ⟨c', hc', rfl⟩ := map_ok hc
          exact .inr ⟨v, ttl, ⟨row, c', hc', hv⟩, h⟩

theorem removeFromCart_outcome (s : Session) (hget : f .cartGet = false)
    (hset : f .cartSet = false) (env : Env) (menuItemId : String) (w : World) :
    StoresOrThrows s.key w (fun items => ∃ c, removeFromCart.currentCart (seenCart s w) = .ok c ∧
        items = c.items.filter fun i => i.menuItemId ≠ menuItemId)
      ((removeFromCart env menuItemId s.userId s.guestId).run f w) := by
  rw [removeFromCart, getCartKey, s.keyed, Prog.bind_eq, Prog.ofExcept_ok, Prog.ret_bind,
    Prog.bind_eq, run_getCachedObject_bind, hget]
  rcases storeCart_outcome hset env s.key s.guestId _ w with h | ⟨v, ttl, ⟨c, hc, hv⟩, h⟩
  · exact .inl h
  · obtain ⟨c', hc', rfl⟩ := map_ok hc
    exact .inr ⟨v, ttl, ⟨c', hc', hv⟩, h⟩

theorem placeOrder_unstored (h : ¬StoresOrder f env input userId guestId w) :
    ∃ e w', (placeOrder env input userId guestId).run f w = (.error e, w') ∧
      w'.redis = w.redis := by
  by_cases hi : ∃ table rows order db, Inserts f env input userId guestId w table rows order db
  · obtain ⟨table, rows, order, db, hi⟩ := hi
    obtain ⟨lines, db', _, _, ⟨ha, _, _⟩ | ⟨_, _, e, hr⟩⟩ := hi.run_lines
    · exact absurd ⟨table, rows, order, db, hi, ha⟩ h
    · exact ⟨e, _, hr, rfl⟩
  · obtain ⟨e, he⟩ := placeOrder_refused hi
    exact ⟨e, w, he, rfl⟩

/-- A placement clears the cart when its order and its lines are stored, whether or not it can
read the order back, and else it throws with the cart as it was. -/
theorem placeOrder_outcome (s : Session) (hdel : f .cartDel = false) (env : Env)
    (input : PlaceOrderInput) (w : World) :
    (StoresOrder f env input s.userId s.guestId w ∧
        ((placeOrder env input s.userId s.guestId).run f w).2.redis = w.redis.del s.key) ∨
      (¬StoresOrder f env input s.userId s.guestId w ∧
        (∃ e, ((placeOrder env input s.userId s.guestId).run f w).1 = .error e) ∧
        ((placeOrder env input s.userId s.guestId).run f w).2.redis = w.redis) := by
  by_cases h : StoresOrder f env input s.userId s.guestId w
  · refine .inl ⟨h, ?_⟩
    obtain ⟨table, rows, order, db, hi, ha⟩ := h
    obtain ⟨lines, db', _, _, ⟨_, _, hr⟩ | ⟨hn, _⟩⟩ := hi.run_lines
    · rw [hr, getOrderWithDetails_world]
      simp [settled, s.keyed, hdel]
    · exact absurd ha hn
  · obtain ⟨e, w', hr, hw⟩ := placeOrder_unstored h
    rw [hr]
    exact .inr ⟨h, ⟨e, rfl⟩, hw⟩

end Outcomes

theorem HasLines.set (redis : Redis) (key : String) (v : Cart) (ttl : Option Nat) :
    HasLines (v.items.map CartItem.json)
      (((redis.set key ⟨.cart v.json, ttl⟩).get key).map Entry.value) := by
  rw [Redis.get_set_same]
  rfl

theorem HasLines.current (h : HasLines items seen) (hc : addToCart.currentCart now seen = .ok c) :
    c.items = items := by
  cases seen with
  | none =>
    cases hc
    exact h.symm
  | some v =>
    cases v with
    | cart c' =>
      cases hc
      exact h
    | menu => cases hc
    | items => cases hc

theorem HasLines.existing (h : HasLines items seen)
    (hc : removeFromCart.currentCart seen = .ok c) : c.items = items := by
  cases seen with
  | none => cases hc
  | some v =>
    cases v with
    | cart c' =>
      cases hc
      exact h
    | menu => cases hc
    | items => cases hc

/-- The stored cart is the table of what the session has added. -/
def CartRefines (seen : Option Cached) (es : List (Act String AddToCartInput)) : Prop :=
  ∃ items, HasLines items seen ∧ Represents CartItem.menuItemId CartItem.Sums es items

/-- What a call can do to the cart that it finds, when `ok` says that it came to something. -/
inductive CartMove (ok : Prop) (seen after : Option Cached) :
    Option (Act String AddToCartInput) → Prop
  | keep (h : after = seen) : CartMove ok seen after none
  | add (hok : ok) (input : AddToCartInput) (hc : addToCart.currentCart now seen = .ok c)
      (h : HasLines ((mergeItem now input row c.items).map CartItem.json) after) :
      CartMove ok seen after (some (.add input.menuItemId input))
  | drop (hok : ok) (k : String) (hc : removeFromCart.currentCart seen = .ok c)
      (h : HasLines ((c.items.filter fun i => i.menuItemId ≠ k).map CartItem.json) after) :
      CartMove ok seen after (some (.drop k))
  | clear (hok : ok) (h : after = none) : CartMove ok seen after (some .clear)

theorem CartMove.unchanged (h : CartMove ok seen after event) (hok : ¬ok) : after = seen := by
  cases h with
  | keep h => exact h
  | add h => exact absurd h hok
  | drop h => exact absurd h hok
  | clear h => exact absurd h hok

theorem CartMove.refines (h : CartMove ok seen after event) (hr : CartRefines seen es) :
    CartRefines after (es ++ event.toList) := by
  obtain ⟨items, hlines, hrep⟩ := hr
  cases h with
  | keep h =>
    rw [h, Option.toList_none, List.append_nil]
    exact ⟨items, hlines, hrep⟩
  | add _ input hc h =>
    rw [hlines.current hc] at h
    exact ⟨_, h, represents_json (represents_mergeItem hrep _ input _)⟩
  | drop _ k hc h =>
    rw [hlines.existing hc] at h
    exact ⟨_, h, represents_json (hrep.drop k)⟩
  | clear _ h => exact ⟨[], h ▸ rfl, .clear _ _ es⟩

section Calls

variable {s : Session} (c : SessionCall s) (w : World)

theorem SessionCall.move : CartMove ((c.run w).1 = .ok () ∨ c.Stores w) (seenCart s w)
    (seenCart s (c.run w).2) (c.event w) := by
  obtain ⟨op, env, f, healthy, others, leaves⟩ := c
  have hget := healthy .cartGet (by simp)
  have hset := healthy .cartSet (by simp)
  have hdel := healthy .cartDel (by simp)
  rw [← leaves w]
  cases op with
  | add input =>
    simp only [SessionCall.event, SessionCall.run, SessionOp.prog, run_discard]
    rcases addToCart_outcome s hget hset env input (others w) with
      ⟨e, he⟩ | ⟨v, ttl, ⟨row, c, hc, hv⟩, he⟩
    · rw [he, if_neg fun h => by cases h]
      exact .keep rfl
    · rw [he, if_pos]
      · exact .add (.inl rfl) input hc (hv ▸ HasLines.set _ _ v ttl)
      · rfl
  | remove k =>
    simp only [SessionCall.event, SessionCall.run, SessionOp.prog, run_discard]
    rcases removeFromCart_outcome s hget hset env k (others w) with
      ⟨e, he⟩ | ⟨v, ttl, ⟨c, hc, hv⟩, he⟩
    · rw [he, if_neg fun h => by cases h]
      exact .keep rfl
    · rw [he, if_pos]
      · exact .drop (.inl rfl) k hc (hv ▸ HasLines.set _ _ v ttl)
      · rfl
  | clear =>
    have hr : (clearCart s.userId s.guestId).run f (others w) =
        (.ok (), { others w with redis := (others w).redis.del s.key }) := by
      rw [clearCart, getCartKey, s.keyed, Prog.bind_eq, Prog.ofExcept_ok, Prog.ret_bind, delCached,
        Prog.run_exec, hdel]
      rfl
    rw [SessionCall.run, SessionOp.prog, hr]
    refine .clear (.inl rfl) ?_
    rw [seenCart, Redis.get_del_same]
    rfl
  | get =>
    refine .keep ?_
    have hkeep : (getCart env s.userId s.guestId).Keeps (seenCart s) :=
      getCart_keeps env s.userId s.guestId
    simp only [SessionCall.run, SessionOp.prog, run_discard]
    exact hkeep.run f (others w)
  | place input =>
    simp only [SessionCall.event, SessionCall.run, SessionOp.prog, run_discard]
    rcases placeOrder_outcome s hdel env input (others w) with ⟨hs, hr⟩ | ⟨hs, _, hr⟩
    · have hstores : SessionCall.Stores ⟨.place input, env, f, healthy, others, leaves⟩ w :=
        ⟨input, rfl, hs⟩
      rw [if_pos hstores]
      refine .clear (.inr hstores) ?_
      rw [seenCart, hr, Redis.get_del_same]
      rfl
    · rw [if_neg ?_]
      · refine .keep ?_
        rw [seenCart, hr]
        rfl
      · rintro ⟨input', he, hs'⟩
        cases he
        exact hs hs'

end Calls

theorem runs_refines (s : Session) (w : World) (hw : seenCart s w = none)
    (cs : List (SessionCall s)) :
    CartRefines (seenCart s (runs sessionStep (w, []) cs).1) (runs sessionStep (w, []) cs).2 := by
  apply runs_keep (I := fun st : World × List (Act String AddToCartInput) =>
    CartRefines (seenCart s st.1) st.2)
  · exact fun st c h => (c.move st.1).refines h
  · rw [hw]
    exact ⟨[], rfl, .nil _ _⟩

/-- Along every run of a session the stored cart is the table of what was added since the resets,
and a call that throws leaves it alone, unless it is a placement that has stored its order. -/
theorem cart_refines (s : Session) (w : World) (hw : seenCart s w = none)
    (cs : List (SessionCall s)) :
    CartRefines (seenCart s (runs sessionStep (w, []) cs).1) (runs sessionStep (w, []) cs).2 ∧
      ∀ c : SessionCall s, ¬c.Stores (runs sessionStep (w, []) cs).1 →
        ∀ e, (c.run (runs sessionStep (w, []) cs).1).1 = .error e →
          seenCart s (c.run (runs sessionStep (w, []) cs).1).2 =
            seenCart s (runs sessionStep (w, []) cs).1 := by
  constructor
  · exact runs_refines s w hw cs
  · intro c hno e he
    refine (c.move _).unchanged ?_
    rintro (hok | hs)
    · rw [he] at hok
      cases hok
    · exact hno hs

def addOnce : SessionCall sampleSession where
  op := .add ⟨(sampleId 4).text, 1, none⟩
  env := sampleEnv
  fault := noFault
  healthy := fun _ _ => rfl
  others := id
  leaves := fun _ => rfl

/-- A placement that cannot read its order back. -/
def placeUnread : SessionCall sampleSession where
  op := .place sampleOrder
  env := sampleEnv
  fault := fun site => site = .detailOrder
  healthy := by decide
  others := id
  leaves := fun _ => rfl

theorem cart_refines_sample : seenCart sampleSession sampleWorld = none ∧
    CartRefines (seenCart sampleSession (runs sessionStep (sampleWorld, []) [addOnce, addOnce]).1)
      (runs sessionStep (sampleWorld, []) [addOnce, addOnce]).2 :=
  ⟨rfl, (cart_refines sampleSession sampleWorld rfl [addOnce, addOnce]).1⟩

/-- The database goes down when the order is stored and the cart is cleared: the call throws, and
the cart is gone. -/
theorem placeOrder_throws_without_cart :
    (placeUnread.run (addOnce.run sampleWorld).2).1 = .error (.db .connection) ∧
      seenCart sampleSession (placeUnread.run (addOnce.run sampleWorld).2).2 ≠
        seenCart sampleSession (addOnce.run sampleWorld).2 := by
  refine ⟨rfl, ?_⟩
  decide +kernel

end DineFlow
