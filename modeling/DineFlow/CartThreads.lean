import DineFlow.OrderService
import DineFlow.Pool

namespace DineFlow
open Atomic Relational
set_option autoImplicit true

/-- A session that has a cart: the ids of its requests and the key they lead to. -/
structure Session where
  userId : Option String
  guestId : Option String
  key : String
  keyed : cartKey userId guestId = some key

/-- The calls of a session that work on its cart. -/
inductive CartCall where
  | add (env : Env) (input : AddToCartInput)
  | remove (env : Env) (menuItemId : String)
  | place (env : Env) (input : PlaceOrderInput)

def discard (p : Api α) : Api Unit := p.bind fun _ => .ret ()

def CartCall.prog (s : Session) : CartCall → Api Unit
  | .add env input => discard (addToCart env input s.userId s.guestId)
  | .remove env menuItemId => discard (removeFromCart env menuItemId s.userId s.guestId)
  | .place env input => discard (placeOrder env input s.userId s.guestId)

/-- Where a call stands between two of its statements, with what it has read so far. -/
inductive CartPhase where
  | call (c : CartCall)
  | found (env : Env) (input : AddToCartInput) (row : MenuItemRow)
  | pricing (env : Env) (seen : Option Cached) (cart : Cart)
  | storing (env : Env) (seen : Option Cached) (cart : Cart)
  | stored
  | seating (env : Env) (input : PlaceOrderInput) (seen : Option Cached)
  | checking (env : Env) (input : PlaceOrderInput) (seen : Option Cached) (table : TableRow)
  | inserting (env : Env) (input : PlaceOrderInput) (seen : Option Cached) (table : TableRow)
      (rows : List MenuItemRow)
  | lining (env : Env) (order : OrderRow) (rows : List MenuItemRow) (data : List OrderItemData)
      (n : Nat) (d : OrderItemData) (ds : List OrderItemData)
  | clearing (env : Env) (order : OrderRow) (rows : List MenuItemRow) (data : List OrderItemData)
  | rest (q : Api Unit)

namespace CartPhase

def failed (e : ApiError) : CartPhase := .rest (.throw e)

/-- The part of a placement after the cart is gone. -/
def afterClear (env : Env) (order : OrderRow) (rows : List MenuItemRow)
    (data : List OrderItemData) : Api Unit :=
  discard ((notify .emitPlaced (emitOrderPlaced (placedEvent order rows data
    (env.arithmetic.total (OrderItemData.amounts data)))) (.ok ())).bind fun _ =>
      getOrderWithDetails order.id.text)

def prog (s : Session) : CartPhase → Api Unit
  | .call c => c.prog s
  | .found env input row => discard (addToCart.withItem env input s.key s.guestId (some row))
  | .pricing env _ cart => discard
      ((select .cartPrices (menuItemsIn (cart.items.map CartItem.menuItemId))).bind fun rows =>
        saveCart env s.key s.guestId { cart with totalAmount := cartTotal rows cart.items })
  | .storing env _ cart => discard (saveCart env s.key s.guestId cart)
  | .stored => .ret ()
  | .seating env input seen => discard
      ((select .placeTable (tableById input.tableId)).bind
        (placeOrder.withTable env input s.userId s.guestId (effectiveItems seen input)))
  | .checking env input seen table => discard
      (placeOrder.withTable env input s.userId s.guestId (effectiveItems seen input) (some table))
  | .inserting env input seen table rows => discard
      ((dbWrite .orderInsert (insertOrder env input table s.userId s.guestId
        (OrderItemData.amounts (orderItemsData rows (effectiveItems seen input))))).bind
          fun order => placeOrder.lines env (some s.key) order rows
            (orderItemsData rows (effectiveItems seen input)))
  | .lining env order rows data n d ds => discard
      ((insertLines env order.id n (d :: ds)).bind fun _ =>
        placeOrder.finish env (some s.key) order rows data)
  | .clearing env order rows data => discard (placeOrder.finish env (some s.key) order rows data)
  | .rest q => q

/-- The stage after the cart was read and changed: an empty cart needs no prices. -/
def changed (env : Env) (seen : Option Cached) : Except ApiError Cart → CartPhase
  | .error e => failed e
  | .ok cart =>
    if cart.items = [] then .storing env seen { cart with totalAmount := 0 }
    else .pricing env seen cart

def afterItem (env : Env) (input : AddToCartInput) :
    Except DbError (Option MenuItemRow) → CartPhase
  | .ok (some row) => .found env input row
  | .ok none => failed (.notFound "Menu item not found or not available")
  | .error e => failed (.db e)

def afterPrices (env : Env) (seen : Option Cached) (cart : Cart) :
    Except DbError (List MenuItemRow) → CartPhase
  | .ok rows => .storing env seen { cart with totalAmount := cartTotal rows cart.items }
  | .error e => failed (.db e)

def afterTable (env : Env) (input : PlaceOrderInput) (seen : Option Cached) :
    Except DbError (Option TableRow) → CartPhase
  | .ok (some table) => .checking env input seen table
  | .ok none => failed (.notFound "Table not found")
  | .error e => failed (.db e)

def afterMenu (env : Env) (input : PlaceOrderInput) (seen : Option Cached) (table : TableRow) :
    Except DbError (List MenuItemRow) → CartPhase
  | .ok rows =>
    if unavailableItems rows (effectiveItems seen input) ≠ [] then
      failed (.badRequest ("Menu items not available: " ++
        String.intercalate ", " (unavailableItems rows (effectiveItems seen input))))
    else .inserting env input seen table rows
  | .error e => failed (.db e)

def liningFrom (env : Env) (order : OrderRow) (rows : List MenuItemRow)
    (data : List OrderItemData) (n : Nat) : List OrderItemData → CartPhase
  | [] => .clearing env order rows data
  | d :: ds => .lining env order rows data n d ds

/-- A database write of a phase: what follows, and the state it leaves. -/
def afterWrite (w : World) (next : α → CartPhase) : Except DbError (α × Db) → CartPhase × World
  | .ok r => (next r.1, { w with db := r.2 })
  | .error e => (failed (.db e), w)

def seenCart (s : Session) (w : World) : Option Cached := (w.redis.get s.key).map Entry.value

def cartEntry (s : Session) (env : Env) (cart : Cart) : Entry :=
  ⟨(Cached.cart cart).json, (cartTtl s.guestId).map (expiry env.now)⟩

def next (s : Session) : CartPhase → Option (Site × (World → CartPhase × World))
  | .call (.add env input) => some (.availableItem, fun w =>
      (afterItem env input (availableItem input.menuItemId w.db), w))
  | .call (.remove env menuItemId) => some (.cartGet, fun w =>
      (changed env (seenCart s w) ((removeFromCart.currentCart (seenCart s w)).map
        (removeFromCart.update env menuItemId)), w))
  | .call (.place env input) => some (.cartGet, fun w =>
      (if effectiveItems (seenCart s w) input = [] then
        failed (.badRequest "Cart is empty — add items before placing an order")
      else .seating env input (seenCart s w), w))
  | .found env input row => some (.cartGet, fun w =>
      (changed env (seenCart s w) ((addToCart.currentCart env.now (seenCart s w)).map
        (addToCart.update env input row)), w))
  | .pricing env seen cart => some (.cartPrices, fun w =>
      (afterPrices env seen cart (menuItemsIn (cart.items.map CartItem.menuItemId) w.db), w))
  | .storing env _ cart => some (.cartSet, fun w =>
      (.stored, { w with redis := w.redis.set s.key (cartEntry s env cart) }))
  | .stored => none
  | .seating env input seen => some (.placeTable, fun w =>
      (afterTable env input seen (tableById input.tableId w.db), w))
  | .checking env input seen table => some (.placeMenu, fun w =>
      (afterMenu env input seen table
        (availableItemsIn ((effectiveItems seen input).map EffectiveItem.menuItemId) w.db), w))
  | .inserting env input seen table rows => some (.orderInsert, fun w =>
      afterWrite w (fun order => liningFrom env order rows
          (orderItemsData rows (effectiveItems seen input)) 0
          (orderItemsData rows (effectiveItems seen input)))
        (insertOrder env input table s.userId s.guestId
          (OrderItemData.amounts (orderItemsData rows (effectiveItems seen input))) w.db))
  | .lining env order rows data n d ds => some (.lineInsert n, fun w =>
      afterWrite w (fun _ => liningFrom env order rows data (n + 1) ds)
        (insertLine env order.id n d w.db))
  | .clearing env order rows data => some (.cartDel, fun w =>
      (.rest (afterClear env order rows data), { w with redis := w.redis.del s.key }))
  | .rest q => q.next.map fun r => (r.1, fun w => (.rest (r.2 w).1, (r.2 w).2))

theorem next_select_bind (read : Db → Except DbError α) (g : α → Api β) :
    ((select site read).bind g).next = some (site, fun w =>
      (match read w.db with
        | .ok a => g a
        | .error e => .throw (.db e), w)) := by
  rw [select, Prog.query, Prog.stmt_bind, Prog.next]
  congr 2
  funext w
  cases read w.db <;> rfl

theorem next_dbWrite_bind (act : Db → Except DbError (α × Db)) (g : α → Api β) :
    ((dbWrite site act).bind g).next = some (site, fun w =>
      match act w.db with
      | .ok r => (g r.1, { w with db := r.2 })
      | .error e => (.throw (.db e), w)) := by
  rw [dbWrite, Prog.exec, Prog.stmt_bind, Prog.next]
  congr 2
  funext w
  cases act w.db <;> rfl

theorem next_getCachedObject_bind (key : String) (g : Option Cached → Api β) :
    ((getCachedObject site key).bind g).next = some (site, fun w =>
      (g ((w.redis.get key).map Entry.value), w)) := rfl

theorem prog_changed (s : Session) (env : Env) (seen : Option Cached) (r : Except ApiError Cart) :
    (changed env seen r).prog s = discard (storeCart env s.key s.guestId r) := by
  cases r with
  | error e => rfl
  | ok cart =>
    simp only [changed, storeCart, calculateCartTotalAmount, Prog.ofExcept_ok, Prog.bind_eq,
      Prog.ret_bind]
    split
    · rfl
    · simp only [prog, Prog.bind_assoc, Prog.pure_eq, Prog.ret_bind]

theorem prog_liningFrom (s : Session) (env : Env) (order : OrderRow) (rows : List MenuItemRow)
    (data : List OrderItemData) (n : Nat) (ds : List OrderItemData) :
    (liningFrom env order rows data n ds).prog s =
      discard ((insertLines env order.id n ds).bind fun _ =>
        placeOrder.finish env (some s.key) order rows data) := by
  cases ds <;> rfl

section Follows

variable (s : Session)

/-- The phase does what its program does next. -/
def Follows (φ : CartPhase) : Prop :=
  (prog s φ).next = (next s φ).map fun r => (r.1, fun w => (prog s (r.2 w).1, (r.2 w).2))

variable {s}

theorem follows_select {read : Db → Except DbError α} {g : α → Api Unit}
    (after : Except DbError α → CartPhase) (hp : prog s φ = (select site read).bind g)
    (hn : next s φ = some (site, fun w => (after (read w.db), w)))
    (hok : ∀ a, prog s (after (.ok a)) = g a)
    (herror : ∀ e, prog s (after (.error e)) = .throw (.db e)) : Follows s φ := by
  rw [Follows, hp, hn, next_select_bind, Option.map_some]
  congr 2
  funext w
  dsimp only
  cases read w.db with
  | error e => rw [herror]
  | ok a => rw [hok]

theorem follows_read {g : Option Cached → Api Unit} (after : Option Cached → CartPhase)
    (hp : prog s φ = (getCachedObject .cartGet s.key).bind g)
    (hn : next s φ = some (.cartGet, fun w => (after (seenCart s w), w)))
    (h : ∀ seen, prog s (after seen) = g seen) : Follows s φ := by
  rw [Follows, hp, hn, next_getCachedObject_bind, Option.map_some]
  congr 2
  funext w
  rw [h]
  rfl

theorem follows_write {act : Db → Except DbError (α × Db)} {g : α → Api Unit}
    (after : α → CartPhase) (hp : prog s φ = (dbWrite site act).bind g)
    (hn : next s φ = some (site, fun w => afterWrite w after (act w.db)))
    (h : ∀ a, prog s (after a) = g a) : Follows s φ := by
  rw [Follows, hp, hn, next_dbWrite_bind, Option.map_some]
  congr 2
  funext w
  dsimp only
  cases act w.db with
  | error e => rfl
  | ok r =>
    rw [afterWrite, h]

theorem follows_add (env : Env) (input : AddToCartInput) : Follows s (.call (.add env input)) := by
  have hp : prog s (.call (.add env input)) =
      (select .availableItem (availableItem input.menuItemId)).bind fun row =>
        discard (addToCart.withItem env input s.key s.guestId row) := by
    simp only [prog, CartCall.prog, discard, addToCart, getCartKey, s.keyed, Prog.ofExcept_ok,
      Prog.bind_eq, Prog.ret_bind, Prog.bind_assoc]
  refine follows_select (afterItem env input) hp rfl (fun row => ?_) fun _ => rfl
  cases row <;> rfl

theorem follows_remove (env : Env) (menuItemId : String) :
    Follows s (.call (.remove env menuItemId)) := by
  have hp : prog s (.call (.remove env menuItemId)) =
      (getCachedObject .cartGet s.key).bind fun seen =>
        discard (removeFromCart.withCart env menuItemId s.key s.guestId seen) := by
    simp only [prog, CartCall.prog, discard, removeFromCart, getCartKey, s.keyed,
      Prog.ofExcept_ok, Prog.bind_eq, Prog.ret_bind, Prog.bind_assoc]
  exact follows_read (fun seen => changed env seen ((removeFromCart.currentCart seen).map
    (removeFromCart.update env menuItemId))) hp rfl fun seen => prog_changed s env seen _

theorem follows_place (env : Env) (input : PlaceOrderInput) :
    Follows s (.call (.place env input)) := by
  have hp : prog s (.call (.place env input)) =
      (getCachedObject .cartGet s.key).bind fun seen =>
        discard (placeOrder.withCart env input s.userId s.guestId seen) := by
    simp only [prog, CartCall.prog, discard, placeOrder, s.keyed, Prog.bind_eq, Prog.bind_assoc]
  refine follows_read (fun seen => if effectiveItems seen input = [] then
      failed (.badRequest "Cart is empty — add items before placing an order")
    else .seating env input seen) hp rfl fun seen => ?_
  rw [placeOrder.withCart]
  split <;> rfl

theorem follows_found (env : Env) (input : AddToCartInput) (row : MenuItemRow) :
    Follows s (.found env input row) := by
  have hp : prog s (.found env input row) = (getCachedObject .cartGet s.key).bind fun seen =>
      discard (addToCart.withCart env input s.key s.guestId row seen) := by
    simp only [prog, discard, addToCart.withItem, Prog.bind_eq, Prog.bind_assoc]
  exact follows_read (fun seen => changed env seen ((addToCart.currentCart env.now seen).map
    (addToCart.update env input row))) hp rfl fun seen => prog_changed s env seen _

theorem follows_pricing (env : Env) (seen : Option Cached) (cart : Cart) :
    Follows s (.pricing env seen cart) :=
  follows_select (afterPrices env seen cart) (Prog.bind_assoc _ _ _) rfl (fun _ => rfl)
    fun _ => rfl

theorem follows_seating (env : Env) (input : PlaceOrderInput) (seen : Option Cached) :
    Follows s (.seating env input seen) := by
  refine follows_select (afterTable env input seen) (Prog.bind_assoc _ _ _) rfl (fun table => ?_)
    fun _ => rfl
  cases table <;> rfl

theorem follows_checking (env : Env) (input : PlaceOrderInput) (seen : Option Cached)
    (table : TableRow) : Follows s (.checking env input seen table) := by
  have hp : prog s (.checking env input seen table) =
      (select .placeMenu (availableItemsIn
        ((effectiveItems seen input).map EffectiveItem.menuItemId))).bind fun rows =>
          discard (placeOrder.withMenu env input s.userId s.guestId (effectiveItems seen input)
            table rows) := by
    rw [prog, discard, placeOrder.withTable, orElse, Prog.bind_eq, Prog.ret_bind, Prog.bind_eq,
      Prog.bind_assoc]
    rfl
  refine follows_select (afterMenu env input seen table) hp rfl (fun rows => ?_) fun _ => rfl
  rw [afterMenu, placeOrder.withMenu, s.keyed]
  split <;> rfl

theorem follows_inserting (env : Env) (input : PlaceOrderInput) (seen : Option Cached)
    (table : TableRow) (rows : List MenuItemRow) :
    Follows s (.inserting env input seen table rows) :=
  follows_write (fun order => liningFrom env order rows
    (orderItemsData rows (effectiveItems seen input)) 0
    (orderItemsData rows (effectiveItems seen input))) (Prog.bind_assoc _ _ _) rfl
    fun order => prog_liningFrom s env order rows _ 0 _

theorem follows_lining (env : Env) (order : OrderRow) (rows : List MenuItemRow)
    (data : List OrderItemData) (n : Nat) (d : OrderItemData) (ds : List OrderItemData) :
    Follows s (.lining env order rows data n d ds) := by
  have hp : prog s (.lining env order rows data n d ds) =
      (dbWrite (.lineInsert n) (insertLine env order.id n d)).bind fun _ =>
        prog s (liningFrom env order rows data (n + 1) ds) := by
    rw [prog_liningFrom]
    simp only [prog, discard, Prog.bind_assoc]
    exact Prog.bind_assoc _ _ _
  exact follows_write (fun _ => liningFrom env order rows data (n + 1) ds) hp rfl fun _ => rfl

end Follows

/-- The phases are a faithful account of the calls: each does what its program does next. -/
theorem simulates (s : Session) : Pool.Simulates (next s) Prog.next (prog s) := by
  intro φ
  cases φ with
  | call c =>
    cases c with
    | add env input => exact follows_add env input
    | remove env menuItemId => exact follows_remove env menuItemId
    | place env input => exact follows_place env input
  | found env input row => exact follows_found env input row
  | pricing env seen cart => exact follows_pricing env seen cart
  | storing env seen cart => rfl
  | stored => rfl
  | seating env input seen => exact follows_seating env input seen
  | checking env input seen table => exact follows_checking env input seen table
  | inserting env input seen table rows => exact follows_inserting env input seen table rows
  | lining env order rows data n d ds => exact follows_lining env order rows data n d ds
  | clearing order rows data => rfl
  | rest q => cases q <;> rfl

theorem of_prog_ret (s : Session) (h : prog s φ = .ret ()) : φ = .stored ∨ φ = .rest (.ret ()) := by
  have hn := simulates s φ
  rw [h] at hn
  cases φ with
  | call c => cases c <;> cases hn
  | stored => exact .inl rfl
  | rest q => exact .inr (congrArg rest h)
  | found => cases hn
  | pricing => cases hn
  | storing => cases hn
  | seating => cases hn
  | checking => cases hn
  | inserting => cases hn
  | lining => cases hn
  | clearing => cases hn

theorem stored_set_iff {ts : List CartPhase} (hφ : ts[i]? = some φ) (hne : φ ≠ .stored)
    (hne' : ψ ≠ .stored) (j : Nat) :
    (ts.set i ψ)[j]? = some .stored ↔ ts[j]? = some .stored := by
  by_cases hij : i = j
  · subst hij
    rw [hφ, List.getElem?_set_self (List.getElem?_eq_some_iff.1 hφ).1]
    exact iff_of_false (fun he => hne' (Option.some.inj he)) fun he => hne (Option.some.inj he)
  · rw [List.getElem?_set_ne hij]

end CartPhase

/-- Calls of one session as concurrent threads, none of them begun. -/
def startPool (s : Session) (cs : List CartCall) (w : World) : Pool (Api Unit) Site World :=
  ⟨w, cs.map (CartCall.prog s), []⟩

def phasePool (cs : List CartCall) (w : World) : Pool CartPhase Site World :=
  ⟨w, cs.map CartPhase.call, []⟩

theorem startPool_eq (s : Session) (cs : List CartCall) (w : World) :
    startPool s cs w = (phasePool cs w).map (CartPhase.prog s) := by
  rw [startPool, phasePool, Pool.map, List.map_map]
  rfl

def CartWrite (site : Site) : Prop := site = .cartSet ∨ site = .cartDel

instance : DecidablePred CartWrite := fun _ => instDecidableOr

/-- A thread that has read the cart still knows it, unless another one has stored since. -/
def SawCart (s : Session) (p : Pool CartPhase Site World) (i : Nat) (seen : Option Cached) :
    Prop :=
  (i, .cartGet) ∈ p.log ∧
    (Pool.Quiet p.log .cartGet CartWrite i → CartPhase.seenCart s p.state = seen)

theorem SawCart.other {p p' : Pool CartPhase Site World} (h : SawCart s p j seen) (hij : i ≠ j)
    (hlog : p'.log = p.log ++ [(i, site)])
    (hseen : ¬CartWrite site → CartPhase.seenCart s p'.state = CartPhase.seenCart s p.state) :
    SawCart s p' j seen := by
  rw [SawCart, hlog]
  refine ⟨List.mem_append_left _ h.1, fun hq => ?_⟩
  rw [hseen (hq.last h.1 hij)]
  exact h.2 hq.of_snoc

theorem SawCart.own {p p' : Pool CartPhase Site World} (h : SawCart s p i seen)
    (hlog : p'.log = p.log ++ [e])
    (hseen : CartPhase.seenCart s p'.state = CartPhase.seenCart s p.state) :
    SawCart s p' i seen := by
  rw [SawCart, hlog, hseen]
  exact ⟨List.mem_append_left _ h.1, fun hq => h.2 hq.of_snoc⟩

def sampleSession : Session := ⟨none, some "g", "guest:cart:g", rfl⟩

end DineFlow
