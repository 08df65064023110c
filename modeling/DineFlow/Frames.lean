import DineFlow.OrderLines

namespace DineFlow
open Atomic Relational
set_option autoImplicit true

theorem keeps_getCachedObject (site : Site) (key : String) :
    (getCachedObject site key).Keeps π :=
  Prog.keeps_query π site _ _

theorem calculateCartTotalAmount_keeps (cart : Cart) :
    (calculateCartTotalAmount cart).Keeps π := by
  rw [calculateCartTotalAmount]
  split
  · trivial
  · exact (keeps_select _ _).bind fun _ => trivial

section Carts

variable {R : World → World → Prop} (hr : ∀ w, R w w)
include hr

theorem setCachedObject_within (site : Site) (now : Nat) (v : Cached) (ttl : Option Nat)
    (h : ∀ w, R w { w with redis := w.redis.set key ⟨v.json, ttl.map (expiry now)⟩ }) :
    (setCachedObject site now key v ttl).Within R := by
  refine Prog.within_exec hr _ _ fun w r hw => ?_
  cases hw
  exact h w

theorem delCached_within (site : Site) (h : ∀ w, R w { w with redis := w.redis.del key }) :
    (delCached site key).Within R := by
  refine Prog.within_exec hr _ _ fun w r hw => ?_
  cases hw
  exact h w

theorem storeCart_within (env : Env) (guestId : Option String) (cart : Except ApiError Cart)
    (h : ∀ w v, R w { w with
      redis := w.redis.set key ⟨v, (cartTtl guestId).map (expiry env.now)⟩ }) :
    (storeCart env key guestId cart).Within R := by
  refine (Prog.within_ofExcept _ _).bind fun cart => ?_
  refine ((calculateCartTotalAmount_keeps cart).within hr).bind fun total => ?_
  exact (setCachedObject_within hr _ _ _ _ fun w => h w _).bind fun _ => trivial

theorem addToCart_within (env : Env) (input : AddToCartInput)
    (h : ∀ w key v, cartKey userId guestId = some key →
      R w { w with redis := w.redis.set key ⟨v, (cartTtl guestId).map (expiry env.now)⟩ }) :
    (addToCart env input userId guestId).Within R := by
  rw [addToCart, getCartKey]
  cases hkey : cartKey userId guestId with
  | none => trivial
  | some key =>
    refine (within_select hr _ _).bind fun row => ?_
    cases row with
    | none => trivial
    | some row =>
      refine (Prog.within_query hr _ _ _).bind fun cached => ?_
      exact storeCart_within hr _ _ _ fun w v => h w key v hkey

theorem removeFromCart_within (env : Env) (menuItemId : String)
    (h : ∀ w key v, cartKey userId guestId = some key →
      R w { w with redis := w.redis.set key ⟨v, (cartTtl guestId).map (expiry env.now)⟩ }) :
    (removeFromCart env menuItemId userId guestId).Within R := by
  rw [removeFromCart, getCartKey]
  cases hkey : cartKey userId guestId with
  | none => trivial
  | some key =>
    refine (Prog.within_query hr _ _ _).bind fun cached => ?_
    exact storeCart_within hr _ _ _ fun w v => h w key v hkey

theorem clearCart_within
    (h : ∀ w key, cartKey userId guestId = some key → R w { w with redis := w.redis.del key }) :
    (clearCart userId guestId).Within R := by
  rw [clearCart, getCartKey]
  cases hkey : cartKey userId guestId with
  | none => trivial
  | some key => exact delCached_within hr _ fun w => h w key hkey

end Carts

theorem addToCart_keeps_db (env : Env) (input : AddToCartInput) (userId guestId : Option String) :
    (addToCart env input userId guestId).Keeps World.db :=
  addToCart_within (R := fun w w' => w'.db = w.db) (fun _ => rfl) env input fun _ _ _ _ => rfl

theorem getCart_keeps (env : Env) (userId guestId : Option String) :
    (getCart env userId guestId).Keeps π := by
  refine (Prog.within_ofExcept _ _).bind fun key => ?_
  refine (keeps_getCachedObject _ _).bind fun cached => ?_
  cases cached with
  | none => trivial
  | some c =>
    refine (Prog.within_ofExcept _ _).bind fun cart => ?_
    exact (calculateCartTotalAmount_keeps cart).bind fun _ => trivial

theorem verifyStaffPermission_keeps (userId : String) : (verifyStaffPermission userId).Keeps π := by
  refine (keeps_select _ _).bind fun user => ?_
  cases user with
  | none => trivial
  | some u =>
    dsimp only
    split <;> trivial

/-- A step of a status update: an order gets a status, or an event is sent. -/
inductive StatusStep (w : World) : World → Prop
  | refl : StatusStep w w
  | update (k : Uuid) (s : OrderStatus) : StatusStep w { w with db := w.db.updateOrderStatus k s }
  | emit (e : OrderStatusEvent) :
      StatusStep w { w with gateway := emitOrderStatusChanged e w.gateway }

section Columns

variable {g : OrderRow → γ} (hg : ∀ s o, g (OrderRow.setStatus s o) = g o)
include hg

theorem StatusStep.stay (h : StatusStep w w') :
    ∀ o ∈ w.db.orders, ∃ o' ∈ w'.db.orders, g o' = g o := by
  intro o ho
  cases h with
  | refl => exact ⟨o, ho, rfl⟩
  | emit e => exact ⟨o, ho, rfl⟩
  | update k s => exact exists_mem_updateWhere (hg s) k ho

theorem StatusStep.source (h : StatusStep w w') :
    ∀ o' ∈ w'.db.orders, ∃ o ∈ w.db.orders, g o' = g o := by
  intro o' ho'
  cases h with
  | refl => exact ⟨o', ho', rfl⟩
  | emit e => exact ⟨o', ho', rfl⟩
  | update k s =>
    rcases mem_updateWhere ho' with ho' | ⟨o, ho, _, rfl⟩
    · exact ⟨o', ho', rfl⟩
    · exact ⟨o, ho, hg s o⟩

end Columns

theorem updateStatus_db (h : updateStatus orderId status db = .ok r) :
    ∃ k, r.2 = db.updateOrderStatus k status := by
  obtain ⟨k, _, rfl⟩ := map_ok h
  exact ⟨k, rfl⟩

theorem updateOrderStatus_within (orderId : String) (status : OrderStatus) (userId : String) :
    (updateOrderStatus orderId status userId).Within StatusStep := by
  have hr : ∀ w, StatusStep w w := fun _ => .refl
  refine ((verifyStaffPermission_keeps _).within hr).bind fun _ => ?_
  refine (within_select hr _ _).bind fun order => ?_
  refine (within_orElse _ _).bind fun _ => ?_
  refine Prog.Within.bind (within_dbWrite hr fun w r h => ?_) fun updated => ?_
  · obtain ⟨k, hk⟩ := updateStatus_db h
    rw [hk]
    exact .update k status
  refine (within_orElse _ _).bind fun updated => ?_
  refine Prog.Within.bind (Prog.within_exec hr _ _ fun w r h => ?_) fun _ => ?_
  · cases h
    exact .emit _
  · exact (getOrderWithDetails_keeps _).within hr

/-- A step of a placement: a row goes in, the cart is dropped, or an event is sent. -/
inductive PlaceStep (w : World) : World → Prop
  | refl : PlaceStep w w
  | order (o : OrderRow) (h : w.db.insertOrder o = .ok db) : PlaceStep w { w with db := db }
  | line (l : OrderItemRow) (h : w.db.insertOrderItem l = .ok db) : PlaceStep w { w with db := db }
  | clear (key : String) : PlaceStep w { w with redis := w.redis.del key }
  | emit (e : OrderPlacedEvent) : PlaceStep w { w with gateway := emitOrderPlaced e w.gateway }

theorem PlaceStep.tables (h : PlaceStep w w') : ∃ orders lines,
    w'.db.toTables = { w.db.toTables with orders := orders, orderItems := lines } := by
  cases h with
  | order o h => exact ⟨_, _, (Db.insertOrder_ok_iff.1 h).2⟩
  | line l h => exact ⟨_, _, (Db.insertOrderItem_ok_iff.1 h).2⟩
  | refl => exact ⟨_, _, rfl⟩
  | clear key => exact ⟨_, _, rfl⟩
  | emit e => exact ⟨_, _, rfl⟩

theorem insertLine_row (h : insertLine env order i d db = .ok r) :
    ∃ u, parseUuid d.menuItemId = .ok u ∧
      db.insertOrderItem (newLine env order i u d) = .ok r.2 := by
  rw [insertLine] at h
  split at h
  · cases h
  · rename_i u hu
    obtain ⟨db', hi, rfl⟩ := map_ok h
    exact ⟨u, hu, hi⟩

section Placement

variable {R : World → World → Prop} (hr : ∀ w, R w w)
include hr

theorem finish_within (hclear : ∀ w k, key = some k → R w { w with redis := w.redis.del k })
    (hemit : ∀ w e, R w { w with gateway := emitOrderPlaced e w.gateway }) (order : OrderRow)
    (rows : List MenuItemRow) (data : List OrderItemData) :
    (placeOrder.finish env key order rows data).Within R := by
  refine Prog.Within.bind ?_ fun _ => ?_
  · cases key with
    | none => trivial
    | some key => exact delCached_within hr _ fun w => hclear w key rfl
  refine Prog.Within.bind (Prog.within_exec hr _ _ fun w r h => ?_) fun _ => ?_
  · cases h
    exact hemit w _
  · exact (getOrderWithDetails_keeps _).within hr

/-- What a placement does is done by its inserts, its clearing of the cart and its event. -/
theorem placeOrder_within_of
    (horder : ∀ w table amounts r,
      insertOrder env input table userId guestId amounts w.db = .ok r → R w { w with db := r.2 })
    (hline : ∀ w order i d r, insertLine env order i d w.db = .ok r → R w { w with db := r.2 })
    (hclear : ∀ w key, cartKey userId guestId = some key →
      R w { w with redis := w.redis.del key })
    (hemit : ∀ w e, R w { w with gateway := emitOrderPlaced e w.gateway }) :
    (placeOrder env input userId guestId).Within R := by
  have hmenu (items : List EffectiveItem) (table : TableRow) (rows : List MenuItemRow) :
      (placeOrder.withMenu env input userId guestId items table rows).Within R := by
    rw [placeOrder.withMenu]
    split
    · trivial
    refine Prog.Within.bind (within_dbWrite hr fun w r h => horder w _ _ r h) fun order => ?_
    refine Prog.Within.bind (Prog.within_each (fun i d => ?_) _ _) fun _ =>
      finish_within hr hclear hemit _ _ _
    exact within_dbWrite hr fun w r h => hline w _ _ _ r h
  have hcart (cached : Option Cached) :
      (placeOrder.withCart env input userId guestId cached).Within R := by
    rw [placeOrder.withCart]
    split
    · trivial
    refine (within_select hr _ _).bind fun table => ?_
    refine (within_orElse _ _).bind fun table => ?_
    exact (within_select hr _ _).bind fun rows => hmenu _ _ _
  rw [placeOrder]
  split
  · exact hcart none
  · exact (Prog.within_query hr _ _ _).bind hcart

end Placement

theorem placeOrder_within (env : Env) (input : PlaceOrderInput) (userId guestId : Option String) :
    (placeOrder env input userId guestId).Within PlaceStep := by
  refine placeOrder_within_of (fun _ => .refl) ?_ ?_ (fun _ key _ => .clear key) (fun _ => .emit)
  · intro w table amounts r h
    obtain ⟨u, _, hi, _⟩ := insertOrder_row h
    exact .order _ hi
  · intro w order i d r h
    obtain ⟨u, _, hl⟩ := insertLine_row h
    exact .line _ hl

end DineFlow
