import DineFlow.CartRefinement

namespace DineFlow
open Atomic Relational CartPhase
set_option autoImplicit true

/-- The commands that a cart operation sends to Redis, each at most once. -/
inductive RedisCommand where
  | get
  | set
  | del
  deriving DecidableEq, Repr

def RedisCommand.site : RedisCommand → Site
  | .get => .cartGet
  | .set => .cartSet
  | .del => .cartDel

/-- The command raises, and nothing else does. -/
def RedisCommand.raises (cmd : RedisCommand) (site : Site) : Bool := site = cmd.site

section Safety

variable (s : Session) (c : CartCall) (cmd : RedisCommand) (w : World)

/-- A call in which a command raises. -/
def CartCall.runFaulty : Except ApiError Unit × World := (c.prog s).run cmd.raises w

/-- The call reports an error and leaves the cart alone, or it reports success and leaves the cart
as it would have done without the failure. -/
def CartCall.Safe : Prop :=
  (∃ e, (c.runFaulty s cmd w).1 = .error e ∧
      seenCart s (c.runFaulty s cmd w).2 = seenCart s w) ∨
    (c.runFaulty s cmd w).1 = .ok () ∧
      seenCart s (c.runFaulty s cmd w).2 = seenCart s ((c.prog s).run noFault w).2

variable {s c cmd w}

theorem CartCall.safe_iff_of_ok (h : (c.runFaulty s cmd w).1 = .ok ()) :
    c.Safe s cmd w ↔
      seenCart s (c.runFaulty s cmd w).2 = seenCart s ((c.prog s).run noFault w).2 := by
  refine ⟨?_, fun hleft => .inr ⟨h, hleft⟩⟩
  rintro (⟨e, he, _⟩ | ⟨_, hleft⟩)
  · cases he.symm.trans h
  · exact hleft

end Safety

section Edits

variable (s : Session) (e : CartEdit) (w : World)

theorem CartEdit.runFaulty (cmd : RedisCommand) :
    e.call.runFaulty s cmd w =
      (((storeBy cmd.raises s e.env w (e.outcome w.db (readBy cmd.raises s w))).1.map fun _ => ()),
        (storeBy cmd.raises s e.env w (e.outcome w.db (readBy cmd.raises s w))).2) := by
  cases cmd <;> exact CartEdit.run_by rfl rfl s e w

theorem CartEdit.left : seenCart s ((e.call.prog s).run noFault w).2 =
    leftBy (seenCart s w) (e.outcome w.db (seenCart s w)) := by
  rw [CartEdit.run]
  exact seenCart_storeResult s e.env w _

theorem CartEdit.safe_get_iff :
    e.call.Safe s .get w ↔ ∀ cart, e.outcome w.db none = .ok cart →
      some (.cart cart.json) = leftBy (seenCart s w) (e.outcome w.db (seenCart s w)) := by
  have hread : readBy RedisCommand.get.raises s w = none := rfl
  rw [CartCall.Safe, CartEdit.left, CartEdit.runFaulty, hread]
  cases e.outcome w.db none with
  | error err =>
    refine iff_of_true (.inl ⟨err, rfl, rfl⟩) fun cart h => ?_
    cases h
  | ok cart =>
    have hset := seenCart_set s e.env cart w
    constructor
    · rintro (⟨err, herr, _⟩ | ⟨_, h⟩) cart' hcart
      · cases herr
      · cases hcart
        exact hset.symm.trans h
    · intro h
      exact .inr ⟨rfl, hset.trans (h cart rfl)⟩

theorem CartEdit.safe_set_iff :
    e.call.Safe s .set w ↔ ∀ cart, e.outcome w.db (seenCart s w) = .ok cart →
      seenCart s w = some (.cart cart.json) := by
  have hread : readBy RedisCommand.set.raises s w = seenCart s w := rfl
  rw [CartCall.Safe, CartEdit.left, CartEdit.runFaulty, hread]
  cases e.outcome w.db (seenCart s w) with
  | error err =>
    refine iff_of_true (.inl ⟨err, rfl, rfl⟩) fun cart h => ?_
    cases h
  | ok cart =>
    constructor
    · rintro (⟨err, herr, _⟩ | ⟨_, h⟩) cart' hcart
      · cases herr
      · cases hcart
        exact h
    · intro h
      exact .inr ⟨rfl, h cart rfl⟩

theorem CartEdit.safe_del : e.call.Safe s .del w := by
  have hread : readBy RedisCommand.del.raises s w = seenCart s w := rfl
  rw [CartCall.Safe, CartEdit.left, CartEdit.runFaulty, hread]
  cases e.outcome w.db (seenCart s w) with
  | error err => exact .inl ⟨err, rfl, rfl⟩
  | ok cart => exact .inr ⟨rfl, seenCart_set s e.env cart w⟩

end Edits

section Additions

variable (db : Db) (env : Env) (input : AddToCartInput) (row : MenuItemRow)

theorem named_mergeItem_iff (hinput : (Uuid.parse input.menuItemId).isSome = true)
    (items : List CartItem) : Named (mergeItem env.now input row items) ↔ Named items := by
  induction items with
  | nil =>
    refine iff_of_true (fun i hi => ?_) fun i hi => absurd hi List.not_mem_nil
    rw [List.mem_singleton.1 hi]
    exact hinput
  | cons i is ih =>
    rw [mergeItem]
    simp only [Named] at ih
    split
    · simp only [Named, List.forall_mem_cons]
    · simp only [Named, List.forall_mem_cons, ih]

/-- The cart that an addition makes of this one. -/
def addedTo (c : Cart) : Cart :=
  { addToCart.update env input row c with
    totalAmount := cartTotal db.menuItems (mergeItem env.now input row c.items) }

variable {db env input row}

theorem addToCart_outcome_iff (hrow : availableItem input.menuItemId db = .ok (some row)) :
    (CartEdit.add env input).outcome db seen = .ok cart ↔
      ∃ c, addToCart.currentCart env.now seen = .ok c ∧ Named c.items ∧
        addedTo db env input row c = cart := by
  have hnamed := named_mergeItem_iff env input row (availableItem_named hrow)
  rw [CartEdit.outcome, hrow]
  constructor
  · intro h
    obtain ⟨c', hc', hp⟩ := bind_ok h
    obtain ⟨c, hc, rfl⟩ := map_ok hc'
    obtain ⟨hn, rfl⟩ := priceCart_ok_iff.1 hp
    exact ⟨c, hc, (hnamed c.items).1 hn, rfl⟩
  · rintro ⟨c, hc, hn, rfl⟩
    have hadded : addedCart env input row seen = .ok (addToCart.update env input row c) := by
      rw [addedCart, hc]
      rfl
    dsimp only
    rw [hadded]
    exact priceCart_ok_iff.2 ⟨(hnamed c.items).2 hn, rfl⟩

theorem addToCart_outcome_fresh (hrow : availableItem input.menuItemId db = .ok (some row)) :
    (CartEdit.add env input).outcome db none =
      .ok (addedTo db env input row (emptyCart env.now)) :=
  (addToCart_outcome_iff hrow).2 ⟨_, rfl, fun _ hi => absurd hi List.not_mem_nil, rfl⟩

theorem CartEdit.outcome_unlisted (h : ∀ row, availableItem input.menuItemId db ≠ .ok (some row)) :
    (CartEdit.add env input).outcome db seen ≠ .ok cart := by
  rw [CartEdit.outcome]
  cases hrow : availableItem input.menuItemId db with
  | error e => exact fun hc => by cases hc
  | ok o =>
    cases o with
    | none => exact fun hc => by cases hc
    | some row => exact absurd hrow (h row)

end Additions

theorem Cart.json_eq_iff {c c' : Cart} :
    c.json = c' ↔ c.items.map CartItem.json = c'.items ∧ c.createdAt.json = c'.createdAt ∧
      c.updatedAt.json = c'.updatedAt ∧ c.totalAmount = c'.totalAmount := by
  cases c'
  simp only [Cart.json, Cart.mk.injEq]

theorem cartTotal_json (rows : List MenuItemRow) (items : List CartItem) :
    cartTotal rows (items.map CartItem.json) = cartTotal rows items := by
  rw [cartTotal, cartTotal, List.map_map]
  rfl

/-- The stored cart makes no difference to an addition: there is none, or one of the same moment
with nothing in it but perhaps a line of this dish that counts for nothing. -/
def Forgettable (now : Nat) (input : AddToCartInput) : Option Cached → Prop
  | none => True
  | some (.cart c) => c.createdAt.json = .iso now ∧
      (c.items = [] ∨ ∃ i, c.items = [i] ∧ i.menuItemId = input.menuItemId ∧ i.quantity = 0 ∧
        (given input.notes = none → i.notes = input.notes) ∧ i.addedAt.json = .iso now)
  | _ => False

/-- The cart is as a write of this moment would leave it. -/
def UpToDate (db : Db) (now : Nat) (c : Cart) : Prop :=
  c.json = c ∧ c.updatedAt = .iso now ∧ c.totalAmount = cartTotal db.menuItems c.items

/-- The addition does not get to its write, or it would write the cart that is stored. -/
def AddsNothing (db : Db) (now : Nat) (input : AddToCartInput) (row : MenuItemRow) :
    Option Cached → Prop
  | none => False
  | some (.cart c) => Named c.items → UpToDate db now c ∧ input.quantity = 0 ∧
      ∃ i, c.items.find? (fun i => i.menuItemId = input.menuItemId) = some i ∧
        i.menuItemName = row.name ∧ i.price = row.price ∧
        (given input.notes ≠ none → i.notes = input.notes)
  | _ => True

/-- The removal does not get to its write, or it would write the cart that is stored. -/
def RemovesNothing (db : Db) (now : Nat) (menuItemId : String) : Option Cached → Prop
  | some (.cart c) => Named (c.items.filter fun i => i.menuItemId ≠ menuItemId) →
      UpToDate db now c ∧ ∀ i ∈ c.items, i.menuItemId ≠ menuItemId
  | _ => True

/-- The line that an addition makes of a line of the same dish. -/
def mergedLine (input : AddToCartInput) (row : MenuItemRow) (i : CartItem) : CartItem :=
  { i with
    quantity := i.quantity + input.quantity
    notes := if (given input.notes).isSome then input.notes else i.notes
    price := row.price
    menuItemName := row.name }

theorem mergeItem_same (h : i.menuItemId = input.menuItemId) :
    mergeItem now input row (i :: is) = mergedLine input row i :: is := by
  rw [mergeItem, if_pos h]
  rfl

theorem mergeItem_other (h : i.menuItemId ≠ input.menuItemId) :
    mergeItem now input row (i :: is) = i :: mergeItem now input row is := by
  rw [mergeItem, if_neg h]

theorem mergedLine_json_eq_iff {i i' : CartItem} :
    (mergedLine input row i).json = i' ↔
      i.menuItemId = i'.menuItemId ∧ row.name = i'.menuItemName ∧
        i.quantity + input.quantity = i'.quantity ∧ row.price = i'.price ∧
        (if (given input.notes).isSome then input.notes else i.notes) = i'.notes ∧
        i.addedAt.json = i'.addedAt := by
  cases i'
  simp only [CartItem.json, mergedLine, CartItem.mk.injEq]

theorem CartItem.json_eq_self_iff {i : CartItem} : i.json = i ↔ i.addedAt.json = i.addedAt := by
  cases i
  simp only [CartItem.json, CartItem.mk.injEq, true_and]

theorem mergeItem_single_iff (now : Nat) (input : AddToCartInput) (row : MenuItemRow)
    (items : List CartItem) :
    (mergeItem now input row items).map CartItem.json =
        (mergeItem now input row []).map CartItem.json ↔
      items = [] ∨ ∃ i, items = [i] ∧ i.menuItemId = input.menuItemId ∧ i.quantity = 0 ∧
        (given input.notes = none → i.notes = input.notes) ∧ i.addedAt.json = .iso now := by
  cases items with
  | nil => simp
  | cons i is =>
    by_cases hid : i.menuItemId = input.menuItemId
    · have hnotes : (if (given input.notes).isSome then input.notes else i.notes) = input.notes ↔
          (given input.notes = none → i.notes = input.notes) := by
        cases given input.notes <;> simp
      rw [mergeItem_same hid, mergeItem, List.map_cons, List.map_singleton, List.cons.injEq,
        mergedLine_json_eq_iff, List.map_eq_nil_iff]
      simp only [CartItem.json, Stamp.json, hid, hnotes, true_and]
      constructor
      · rintro ⟨⟨hq, hn, ha⟩, rfl⟩
        exact .inr ⟨i, rfl, hid, by omega, hn, ha⟩
      · rintro (h | ⟨i', h, _, hq, hn, ha⟩)
        · cases h
        · cases h
          exact ⟨⟨by omega, hn, ha⟩, rfl⟩
    · have hmore : mergeItem now input row is ≠ [] := by
        cases is with
        | nil => exact List.cons_ne_nil _ _
        | cons j js =>
          rw [mergeItem]
          split <;> exact List.cons_ne_nil _ _
      refine iff_of_false (fun h => ?_) ?_
      · rw [mergeItem_other hid, mergeItem, List.map_cons, List.map_singleton, List.cons.injEq,
          List.map_eq_nil_iff] at h
        exact hmore h.2
      · rintro (h | ⟨i', h, hid', _⟩)
        · cases h
        · cases h
          exact hid hid'

theorem mergeItem_fixed_iff (now : Nat) (input : AddToCartInput) (row : MenuItemRow)
    (items : List CartItem) :
    (mergeItem now input row items).map CartItem.json = items ↔
      items.map CartItem.json = items ∧ input.quantity = 0 ∧
        ∃ i, items.find? (fun i => i.menuItemId = input.menuItemId) = some i ∧
          i.menuItemName = row.name ∧ i.price = row.price ∧
          (given input.notes ≠ none → i.notes = input.notes) := by
  induction items with
  | nil => simp [mergeItem]
  | cons i is ih =>
    by_cases hid : i.menuItemId = input.menuItemId
    · have hnotes : (if (given input.notes).isSome then input.notes else i.notes) = i.notes ↔
          (given input.notes ≠ none → i.notes = input.notes) := by
        cases given input.notes <;> simp [eq_comm]
      rw [mergeItem_same hid, List.map_cons, List.map_cons, List.cons.injEq, List.cons.injEq,
        mergedLine_json_eq_iff, CartItem.json_eq_self_iff, hnotes,
        List.find?_cons_of_pos (by simpa using hid)]
      constructor
      · rintro ⟨⟨_, hname, hq, hprice, hn, ha⟩, his⟩
        exact ⟨⟨ha, his⟩, by omega, i, rfl, hname.symm, hprice.symm, hn⟩
      · rintro ⟨⟨ha, his⟩, hq, i', hi', hname, hprice, hn⟩
        cases hi'
        exact ⟨⟨rfl, hname.symm, by omega, hprice.symm, hn, ha⟩, his⟩
    · rw [mergeItem_other hid, List.map_cons, List.map_cons, List.cons.injEq, List.cons.injEq, ih,
        List.find?_cons_of_neg (by simpa using hid), and_assoc]

theorem filter_fixed_iff {items : List CartItem} :
    (items.filter fun i => i.menuItemId ≠ k).map CartItem.json = items ↔
      items.map CartItem.json = items ∧ ∀ i ∈ items, i.menuItemId ≠ k := by
  constructor
  · intro h
    have hlen := congrArg List.length h
    rw [List.length_map, List.length_filter_eq_length_iff] at hlen
    have hall : ∀ i ∈ items, i.menuItemId ≠ k := fun i hi => of_decide_eq_true (hlen i hi)
    rw [List.filter_eq_self.2 hlen] at h
    exact ⟨h, hall⟩
  · rintro ⟨h, hall⟩
    rw [List.filter_eq_self.2 fun i hi => decide_eq_true (hall i hi)]
    exact h

theorem leftBy_of_not_ok (h : ∀ cart, r ≠ .ok cart) : leftBy seen r = seen := by
  cases r with
  | error e => rfl
  | ok cart => exact absurd rfl (h cart)

section Conditions

variable {db : Db} {env : Env} {input : AddToCartInput} {row : MenuItemRow}

theorem addedTo_json_eq_iff {c : Cart} :
    (addedTo db env input row c).json = (addedTo db env input row (emptyCart env.now)).json ↔
      Forgettable env.now input (some (.cart c)) := by
  rw [Cart.json_eq_iff]
  constructor
  · rintro ⟨hitems, hcreated, _, _⟩
    exact ⟨hcreated, (mergeItem_single_iff env.now input row c.items).1 hitems⟩
  · rintro ⟨hcreated, hitems⟩
    have hitems := (mergeItem_single_iff env.now input row c.items).2 hitems
    refine ⟨hitems, hcreated, rfl, ?_⟩
    change cartTotal db.menuItems (mergeItem env.now input row c.items) =
      cartTotal db.menuItems (mergeItem env.now input row [])
    rw [← cartTotal_json, hitems, cartTotal_json]

theorem forgettable_iff (hrow : availableItem input.menuItemId db = .ok (some row))
    (seen : Option Cached) :
    some (.cart (addedTo db env input row (emptyCart env.now)).json) =
        leftBy seen ((CartEdit.add env input).outcome db seen) ↔
      Forgettable env.now input seen := by
  have hparse := availableItem_named hrow
  have hlost (h : ∀ c, addToCart.currentCart env.now seen = .ok c → ¬Named c.items) :
      leftBy seen ((CartEdit.add env input).outcome db seen) = seen := by
    refine leftBy_of_not_ok fun cart hout => ?_
    obtain ⟨c, hc, hn, _⟩ := (addToCart_outcome_iff hrow).1 hout
    exact h c hc hn
  cases seen with
  | none =>
    rw [addToCart_outcome_fresh hrow]
    exact iff_of_true rfl trivial
  | some v =>
    cases v with
    | cart c =>
      by_cases hn : Named c.items
      · rw [(addToCart_outcome_iff hrow).2 ⟨c, rfl, hn, rfl⟩, leftBy, Option.some.injEq,
          Cached.cart.injEq, eq_comm, addedTo_json_eq_iff]
      · have hleft := hlost fun c' hc' => by
          cases hc'
          exact hn
        rw [hleft]
        refine iff_of_false (fun h => hn fun i hi => ?_) ?_
        · cases h
          rw [List.mem_singleton.1 hi]
          exact hparse
        · rintro ⟨_, hnil | ⟨i, hi, hid, _⟩⟩
          · exact hn fun i hi => absurd (hnil ▸ hi) List.not_mem_nil
          · refine hn fun j hj => ?_
            rw [hi, List.mem_singleton] at hj
            rw [hj, hid]
            exact hparse
    | menu m =>
      rw [hlost fun c hc => by cases hc]
      exact iff_of_false (fun h => by cases h) id
    | items rows =>
      rw [hlost fun c hc => by cases hc]
      exact iff_of_false (fun h => by cases h) id

theorem rewritten_iff (db : Db) (now : Nat) (c : Cart) (items : List CartItem)
    (h : items.map CartItem.json = c.items ↔ c.items.map CartItem.json = c.items ∧ P) :
    c = Cart.json ⟨items, c.createdAt, .date now, cartTotal db.menuItems items⟩ ↔
      UpToDate db now c ∧ P := by
  have hsame (hitems : items.map CartItem.json = c.items) :
      cartTotal db.menuItems items = cartTotal db.menuItems c.items := by
    rw [← hitems, cartTotal_json]
  rw [eq_comm, Cart.json_eq_iff, UpToDate, Cart.json_eq_iff]
  constructor
  · rintro ⟨hitems, hcreated, hupdated, htotal⟩
    obtain ⟨hjson, hP⟩ := h.1 hitems
    refine ⟨⟨⟨hjson, hcreated, ?_, rfl⟩, hupdated.symm, ?_⟩, hP⟩
    · rw [← hupdated]
      rfl
    · exact htotal.symm.trans (hsame hitems)
  · rintro ⟨⟨⟨hjson, hcreated, _, _⟩, hupdated, htotal⟩, hP⟩
    have hitems := h.2 ⟨hjson, hP⟩
    exact ⟨hitems, hcreated, hupdated.symm, (hsame hitems).trans htotal.symm⟩

theorem addsNothing_iff (hrow : availableItem input.menuItemId db = .ok (some row))
    (seen : Option Cached) :
    (∀ cart, (CartEdit.add env input).outcome db seen = .ok cart → seen = some (.cart cart.json)) ↔
      AddsNothing db env.now input row seen := by
  have hfixed (c : Cart) := rewritten_iff db env.now c
    (mergeItem env.now input row c.items) (mergeItem_fixed_iff env.now input row c.items)
  cases seen with
  | none =>
    refine iff_of_false (fun h => ?_) id
    cases h _ (addToCart_outcome_fresh hrow)
  | some v =>
    cases v with
    | cart c =>
      constructor
      · intro h hn
        have heq := h _ ((addToCart_outcome_iff hrow).2 ⟨c, rfl, hn, rfl⟩)
        rw [Option.some.injEq, Cached.cart.injEq] at heq
        exact (hfixed c).1 heq
      · intro h cart hcart
        obtain ⟨c', hc', hn, rfl⟩ := (addToCart_outcome_iff hrow).1 hcart
        cases hc'
        exact congrArg (fun c => some (Cached.cart c)) ((hfixed c).2 (h hn))
    | menu m =>
      refine iff_of_true (fun cart h => ?_) trivial
      obtain ⟨c, hc, _⟩ := (addToCart_outcome_iff hrow).1 h
      cases hc
    | items rows =>
      refine iff_of_true (fun cart h => ?_) trivial
      obtain ⟨c, hc, _⟩ := (addToCart_outcome_iff hrow).1 h
      cases hc

/-- The cart that a removal makes of this one. -/
def removedFrom (db : Db) (env : Env) (menuItemId : String) (c : Cart) : Cart :=
  { removeFromCart.update env menuItemId c with
    totalAmount := cartTotal db.menuItems (c.items.filter fun i => i.menuItemId ≠ menuItemId) }

theorem removeFromCart_outcome_iff :
    (CartEdit.remove env menuItemId).outcome db seen = .ok cart ↔
      ∃ c, removeFromCart.currentCart seen = .ok c ∧
        Named (c.items.filter fun i => i.menuItemId ≠ menuItemId) ∧
        removedFrom db env menuItemId c = cart := by
  rw [CartEdit.outcome]
  constructor
  · intro h
    obtain ⟨c', hc', hp⟩ := bind_ok h
    obtain ⟨c, hc, rfl⟩ := map_ok hc'
    obtain ⟨hn, rfl⟩ := priceCart_ok_iff.1 hp
    exact ⟨c, hc, hn, rfl⟩
  · rintro ⟨c, hc, hn, rfl⟩
    rw [removedCart, hc]
    exact priceCart_ok_iff.2 ⟨hn, rfl⟩

theorem removesNothing_iff (seen : Option Cached) :
    (∀ cart, (CartEdit.remove env menuItemId).outcome db seen = .ok cart →
        seen = some (.cart cart.json)) ↔
      RemovesNothing db env.now menuItemId seen := by
  have hfixed (c : Cart) := rewritten_iff db env.now c
    (c.items.filter fun i => i.menuItemId ≠ menuItemId) filter_fixed_iff
  cases seen with
  | none =>
    refine iff_of_true (fun cart h => ?_) trivial
    obtain ⟨c, hc, _⟩ := removeFromCart_outcome_iff.1 h
    cases hc
  | some v =>
    cases v with
    | cart c =>
      constructor
      · intro h hn
        have heq := h _ (removeFromCart_outcome_iff.2 ⟨c, rfl, hn, rfl⟩)
        rw [Option.some.injEq, Cached.cart.injEq] at heq
        exact (hfixed c).1 heq
      · intro h cart hcart
        obtain ⟨c', hc', hn, rfl⟩ := removeFromCart_outcome_iff.1 hcart
        cases hc'
        exact congrArg (fun c => some (Cached.cart c)) ((hfixed c).2 (h hn))
    | menu m =>
      refine iff_of_true (fun cart h => ?_) trivial
      obtain ⟨c, hc, _⟩ := removeFromCart_outcome_iff.1 h
      cases hc
    | items rows =>
      refine iff_of_true (fun cart h => ?_) trivial
      obtain ⟨c, hc, _⟩ := removeFromCart_outcome_iff.1 h
      cases hc

end Conditions

/-- No statement of the database fails. -/
def RedisOnly (f : Site → Bool) : Prop :=
  ∀ site, f site = true → ∃ cmd, RedisCommand.site cmd = site

theorem RedisCommand.raises_redisOnly (cmd : RedisCommand) : RedisOnly cmd.raises :=
  fun _ h => ⟨cmd, (of_decide_eq_true h).symm⟩

theorem noFault_redisOnly : RedisOnly noFault := fun _ h => absurd h Bool.false_ne_true

theorem RedisOnly.up (h : RedisOnly f) (hsite : ∀ cmd, RedisCommand.site cmd ≠ site) :
    f site = false := by
  cases hf : f site with
  | false => rfl
  | true =>
    obtain ⟨cmd, hcmd⟩ := h site hf
    exact absurd hcmd (hsite cmd)

theorem RedisOnly.detailUp (h : RedisOnly f) : detailUp f := by
  refine ⟨h.up ?_, h.up ?_, h.up ?_, h.up ?_⟩
  all_goals
    intro cmd
    cases cmd <;> simp [RedisCommand.site]

section Placements

variable {f : Site → Bool} (s : Session) (env : Env) (input : PlaceOrderInput) (w : World)

/-- The database takes an order of these items with all its lines. -/
def TakesOrder (items : List EffectiveItem) : Prop :=
  items ≠ [] ∧ ∃ table rows order db, tableById input.tableId w.db = .ok (some table) ∧
    availableItemsIn (items.map EffectiveItem.menuItemId) w.db = .ok rows ∧
    unavailableItems rows items = [] ∧
    insertOrder env input table s.userId s.guestId
        (OrderItemData.amounts (orderItemsData rows items)) w.db =
      .ok (order, db) ∧
    LinesAccepted noFault env 0 (orderItemsData rows items) w.db.orderItems

theorem storesOrder_iff (hf : RedisOnly f) :
    StoresOrder f env input s.userId s.guestId w ↔
      TakesOrder s env input w (effectiveItems (readBy f s w) input) := by
  have hitems : orderedItems f input s.userId s.guestId w =
      effectiveItems (readBy f s w) input := by
    rw [orderedItems, readCart, s.keyed]
    rfl
  constructor
  · rintro ⟨table, rows, order, db, hi, ha⟩
    rw [orderedData, hitems] at ha
    have hordered := hi.ordered
    have hrows := hi.menuRows
    have havailable := hi.available
    have hinserted := hi.inserted
    rw [hitems] at hordered hrows havailable
    rw [orderedData, hitems] at hinserted
    exact ⟨hordered, table, rows, order, db, hi.tableRow, hrows, havailable, hinserted,
      fun _ _ => rfl, ha.fits, ha.distinct, ha.fresh⟩
  · rintro ⟨hordered, table, rows, order, db, htable, hrows, havailable, hinserted, ha⟩
    rw [← hitems] at hordered hrows havailable hinserted ha
    refine ⟨table, rows, order, db, ⟨hordered, hf.up ?_, htable, hf.up ?_, hrows, havailable,
      hf.up ?_, hinserted⟩, fun i _ => hf.up ?_, ha.fits, ha.distinct, ha.fresh⟩
    all_goals
      intro cmd
      cases cmd <;> simp [RedisCommand.site]

theorem place_outcome (hf : RedisOnly f) :
    TakesOrder s env input w (effectiveItems (readBy f s w) input) ∧
        (((CartCall.place env input).prog s).run f w).1 = .ok () ∧
        seenCart s (((CartCall.place env input).prog s).run f w).2 =
          (if f .cartDel then seenCart s w else none) ∨
      ¬TakesOrder s env input w (effectiveItems (readBy f s w) input) ∧
        (∃ e, (((CartCall.place env input).prog s).run f w).1 = .error e) ∧
        seenCart s (((CartCall.place env input).prog s).run f w).2 = seenCart s w := by
  rw [← storesOrder_iff s env input w hf, CartCall.prog, run_discard]
  by_cases h : StoresOrder f env input s.userId s.guestId w
  · refine .inl ⟨h, ?_⟩
    obtain ⟨table, rows, order, db, hi, ha⟩ := h
    obtain ⟨lines, db', v, _, _, _, hr⟩ := hi.placed ha hf.detailUp
    rw [hr, s.keyed]
    refine ⟨rfl, ?_⟩
    rw [seenCart, settled]
    cases f .cartDel with
    | true => rfl
    | false =>
      dsimp only
      rw [if_neg Bool.false_ne_true, Redis.get_del_same]
      rfl
  · obtain ⟨e, w', hr, hw⟩ := placeOrder_unstored h
    rw [hr]
    exact .inr ⟨h, ⟨e, rfl⟩, by rw [seenCart, hw, seenCart]⟩

theorem place_safe_get_iff :
    (CartCall.place env input).Safe s .get w ↔
      (TakesOrder s env input w (effectiveItems none input) →
        TakesOrder s env input w (effectiveItems (seenCart s w) input) ∨ seenCart s w = none) := by
  rcases place_outcome s env input w (RedisCommand.raises_redisOnly .get) with
    ⟨hinput, hok, hleft⟩ | ⟨hinput, ⟨e, he⟩, hleft⟩
  · rw [CartCall.safe_iff_of_ok hok]
    change seenCart s _ = none at hleft
    rw [CartCall.runFaulty, hleft]
    rcases place_outcome s env input w noFault_redisOnly with
      ⟨hstored, _, hplain⟩ | ⟨hstored, _, hplain⟩
    · rw [hplain]
      exact iff_of_true rfl fun _ => .inl hstored
    · rw [hplain]
      exact ⟨fun h _ => .inr h.symm, fun h => ((h hinput).resolve_left hstored).symm⟩
  · exact iff_of_true (.inl ⟨e, he, hleft⟩) fun h => absurd h hinput

theorem place_safe_set : (CartCall.place env input).Safe s .set w := by
  rcases place_outcome s env input w (RedisCommand.raises_redisOnly .set) with
    ⟨hstored, hok, hleft⟩ | ⟨_, ⟨e, he⟩, hleft⟩
  · rcases place_outcome s env input w noFault_redisOnly with ⟨_, _, hplain⟩ | ⟨hn, _⟩
    · exact .inr ⟨hok, hleft.trans hplain.symm⟩
    · exact absurd hstored hn
  · exact .inl ⟨e, he, hleft⟩

theorem place_safe_del_iff :
    (CartCall.place env input).Safe s .del w ↔
      (TakesOrder s env input w (effectiveItems (seenCart s w) input) → seenCart s w = none) := by
  rcases place_outcome s env input w (RedisCommand.raises_redisOnly .del) with
    ⟨hstored, hok, hleft⟩ | ⟨hstored, ⟨e, he⟩, hleft⟩
  · rw [CartCall.safe_iff_of_ok hok]
    change seenCart s _ = seenCart s w at hleft
    rw [CartCall.runFaulty, hleft]
    rcases place_outcome s env input w noFault_redisOnly with ⟨_, _, hplain⟩ | ⟨hn, _⟩
    · change seenCart s _ = none at hplain
      rw [hplain]
      exact ⟨fun h _ => h, fun h => h hstored⟩
    · exact absurd hstored hn
  · exact iff_of_true (.inl ⟨e, he, hleft⟩) fun h => absurd h hstored

end Placements

/-- Where a failure of the command does no harm. -/
def CartCall.Spared (s : Session) (w : World) : CartCall → RedisCommand → Prop
  | .add env input, .get => ∀ row, availableItem input.menuItemId w.db = .ok (some row) →
      Forgettable env.now input (seenCart s w)
  | .add env input, .set => ∀ row, availableItem input.menuItemId w.db = .ok (some row) →
      AddsNothing w.db env.now input row (seenCart s w)
  | .remove env menuItemId, .set => RemovesNothing w.db env.now menuItemId (seenCart s w)
  | .place env input, .get => TakesOrder s env input w (effectiveItems none input) →
      TakesOrder s env input w (effectiveItems (seenCart s w) input) ∨ seenCart s w = none
  | .place env input, .del =>
      TakesOrder s env input w (effectiveItems (seenCart s w) input) → seenCart s w = none
  | .add _ _, .del | .remove _ _, .get | .remove _ _, .del | .place _ _, .set => True

theorem add_safe_get_iff (s : Session) (env : Env) (input : AddToCartInput) (w : World) :
    (CartCall.add env input).Safe s .get w ↔
      ∀ row, availableItem input.menuItemId w.db = .ok (some row) →
        Forgettable env.now input (seenCart s w) := by
  have hsafe := (CartEdit.add env input).safe_get_iff s w
  rw [CartEdit.call] at hsafe
  rw [hsafe]
  constructor
  · intro h row hrow
    exact (forgettable_iff hrow _).1 (h _ (addToCart_outcome_fresh hrow))
  · intro h cart hcart
    by_cases hlisted : ∃ row, availableItem input.menuItemId w.db = .ok (some row)
    · obtain ⟨row, hrow⟩ := hlisted
      rw [addToCart_outcome_fresh hrow] at hcart
      cases hcart
      exact (forgettable_iff hrow _).2 (h row hrow)
    · exact absurd hcart (CartEdit.outcome_unlisted (not_exists.1 hlisted))

theorem add_safe_set_iff (s : Session) (env : Env) (input : AddToCartInput) (w : World) :
    (CartCall.add env input).Safe s .set w ↔
      ∀ row, availableItem input.menuItemId w.db = .ok (some row) →
        AddsNothing w.db env.now input row (seenCart s w) := by
  have hsafe := (CartEdit.add env input).safe_set_iff s w
  rw [CartEdit.call] at hsafe
  rw [hsafe]
  constructor
  · intro h row hrow
    exact (addsNothing_iff hrow _).1 h
  · intro h cart hcart
    by_cases hlisted : ∃ row, availableItem input.menuItemId w.db = .ok (some row)
    · obtain ⟨row, hrow⟩ := hlisted
      exact (addsNothing_iff hrow _).2 (h row hrow) cart hcart
    · exact absurd hcart (CartEdit.outcome_unlisted (not_exists.1 hlisted))

theorem remove_safe_get (s : Session) (env : Env) (menuItemId : String) (w : World) :
    (CartCall.remove env menuItemId).Safe s .get w := by
  refine ((CartEdit.remove env menuItemId).safe_get_iff s w).2 fun cart hcart => ?_
  obtain ⟨c, hc, _⟩ := removeFromCart_outcome_iff.1 hcart
  cases hc

/-- A single failing command of Redis inside a cart operation does no harm in exactly these
cases. -/
theorem redis_failure_safe_iff (s : Session) (c : CartCall) (cmd : RedisCommand) (w : World) :
    c.Safe s cmd w ↔ c.Spared s w cmd := by
  cases c with
  | add env input =>
    cases cmd with
    | get => exact add_safe_get_iff s env input w
    | set => exact add_safe_set_iff s env input w
    | del => exact iff_of_true ((CartEdit.add env input).safe_del s w) trivial
  | remove env menuItemId =>
    cases cmd with
    | get => exact iff_of_true (remove_safe_get s env menuItemId w) trivial
    | set =>
      exact ((CartEdit.remove env menuItemId).safe_set_iff s w).trans (removesNothing_iff _)
    | del => exact iff_of_true ((CartEdit.remove env menuItemId).safe_del s w) trivial
  | place env input =>
    cases cmd with
    | get => exact place_safe_get_iff s env input w
    | set => exact iff_of_true (place_safe_set s env input w) trivial
    | del => exact place_safe_del_iff s env input w

def sampleAddition : CartCall := .add sampleEnv ⟨(sampleId 4).text, 1, none⟩

/-- The guest has the sample dish in the cart. -/
def stockedWorld : World := ((sampleAddition.prog sampleSession).run noFault sampleWorld).2

/-- The read of the cart raises in a second addition, which then starts the cart anew. -/
theorem cart_overwritten : ¬sampleAddition.Safe sampleSession .get stockedWorld := by
  have hok : (sampleAddition.runFaulty sampleSession .get stockedWorld).1 = .ok () := by
    decide +kernel
  rw [CartCall.safe_iff_of_ok hok]
  decide +kernel

end DineFlow
