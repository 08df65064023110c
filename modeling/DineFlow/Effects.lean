import DineFlow.CartExpiry
import DineFlow.OpenOrders
import DineFlow.OrderPrivacy

namespace DineFlow
open Atomic Relational
set_option autoImplicit true

theorem Request.WritesFor.of_parse {r : Request} (hcaller : r.Passes pf caller)
    (hu : parseOptUuid (caller.bind Caller.id) = .ok u) : r.WritesFor pf u := by
  rintro k rfl
  cases caller with
  | none => cases hu
  | some c =>
    cases c with
    | guest => cases hu
    | user row =>
      have hp : parseOptUuid (some row.id.text) = .ok (some k) := hu
      rw [parseOptUuid, parseUuid_text] at hp
      rw [hcaller row rfl]
      exact Except.ok.inj hp

def Operation.DropsCart : Operation → Prop
  | .placeOrder _ | .clearCart => True
  | _ => False

def Operation.ReadsMenu : Operation → Prop
  | .menu _ | .menuItemsByTable _ => True
  | _ => False

/-- All that a statement of a request can do to the database, to Redis and to the sockets. -/
inductive Effect (pf : Platform) (r : Request) : Operation → World → World → Prop
  | none : Effect pf r op w w
  | account (h : w.db.insertUser (newUser pf r.env input) = .ok db) :
      Effect pf r (.register input) w { w with db := db }
  | profile (hk : r.subject pf = some k)
      (h : writeProfile r.env (some k.text) input w.db = .ok res) :
      Effect pf r (.updateProfile input) w { w with db := res.2 }
  | booking (hrestaurant : Uuid.parse input.restaurantId = some restaurant)
      (hu : r.WritesFor pf u)
      (h : w.db.insertBooking (newBooking r.env input restaurant u) = .ok db) :
      Effect pf r (.createBooking input) w { w with db := db }
  | bookingStatus (h : writeBookingStatus r.env bookingId status w.db = .ok res) :
      Effect pf r (.updateBookingStatus bookingId status) w { w with db := res.2 }
  | menu (h : op.MenuWrites r.env w.db db) : Effect pf r op w { w with db := db }
  | menuDrop (hop : op.EditsMenu) (hkeys : ∀ k ∈ keys, IsMenuKey k) :
      Effect pf r op w { w with redis := w.redis.delKeys keys }
  | status (h : updateStatus orderId status w.db = .ok res) :
      Effect pf r (.updateOrderStatus orderId status) w { w with db := res.2 }
  | statusNews (e : OrderStatusEvent) :
      Effect pf r (.updateOrderStatus orderId status) w
        { w with gateway := emitOrderStatusChanged e w.gateway }
  | order (hu : r.WritesFor pf u)
      (h : w.db.insertOrder (newOrder r.env input table u r.guestId total) = .ok db) :
      Effect pf r (.placeOrder input) w { w with db := db }
  | line (h : w.db.insertOrderItem (newLine r.env order n u d) = .ok db) :
      Effect pf r (.placeOrder input) w { w with db := db }
  | news (e : OrderPlacedEvent) :
      Effect pf r (.placeOrder input) w { w with gateway := emitOrderPlaced e w.gateway }
  | cart (hop : op.EditsCart) (hkey : r.CartKey pf key) (e : Entry) :
      Effect pf r op w { w with redis := w.redis.set key e }
  | cartDrop (hop : op.DropsCart) (hkey : r.CartKey pf key) :
      Effect pf r op w { w with redis := w.redis.del key }
  | fill (hop : op.ReadsMenu) (hkey : IsMenuKey key) (v : Cached) (hv : ∀ c, v ≠ .cart c)
      (expiresAt : Option Nat) :
      Effect pf r op w { w with redis := w.redis.set key ⟨v, expiresAt⟩ }

theorem Effect.of_readStep (h : ReadStep w w') : Effect pf r op w w' := by
  cases h
  exact .none

theorem Effect.of_fillStep (hop : Operation.ReadsMenu op) (h : FillStep w w') :
    Effect pf r op w w' := by
  cases h with
  | refl => exact .none
  | fill hkey v hv expiresAt => exact .fill hop hkey v hv expiresAt

section Resolvers

variable {pf : Platform} {r : Request} {caller : Option Caller}

theorem register_effect (input : RegisterInput) :
    (register pf r.env input).Within (Effect pf r (.register input)) := by
  refine (Prog.within_query (fun _ => .none) _ _ _).bind fun existing => ?_
  cases existing with
  | some u => trivial
  | none =>
    refine Prog.within_exec (fun _ => .none) _ _ fun w res hw => ?_
    obtain ⟨r', hr', rfl⟩ := map_ok hw
    obtain ⟨db, hdb, rfl⟩ := map_ok (mapError_ok hr')
    exact .account hdb

theorem updateOrderStatus_effect (orderId : String) (status : OrderStatus) (userId : String) :
    (updateOrderStatus orderId status userId).Within
      (Effect pf r (.updateOrderStatus orderId status)) := by
  refine ((verifyStaffPermission_keeps _).within fun _ => .none).bind fun _ => ?_
  refine (within_select (fun _ => .none) _ _).bind fun order => ?_
  refine (within_orElse _ _).bind fun _ => ?_
  refine (within_dbWrite (fun _ => .none) fun w res h => .status h).bind fun updated => ?_
  refine (within_orElse _ _).bind fun updated => ?_
  refine Prog.Within.bind (Prog.within_exec (fun _ => .none) _ _ fun w res h => ?_) fun _ => ?_
  · cases h
    exact .statusNews _
  · exact (getOrderWithDetails_keeps _).within fun _ => .none

variable (hcaller : r.Passes pf caller)
include hcaller

theorem updateProfile_effect (input : UpdateProfileInput) :
    (updateProfile r.env (caller.bind Caller.id) input).Within
      (Effect pf r (.updateProfile input)) := by
  refine Prog.Within.bind (within_dbWrite (fun _ => .none) fun w res h => ?_) fun _ =>
    within_orElse _ _
  cases caller with
  | none =>
    cases h
    exact .none
  | some c =>
    cases c with
    | guest =>
      cases h
      exact .none
    | user u => exact .profile (hcaller u rfl) h

theorem createBooking_effect (input : CreateBookingInput) :
    (createBooking r.env input (caller.bind Caller.id)).Within
      (Effect pf r (.createBooking input)) := by
  refine within_dbWrite (fun _ => .none) fun w res h => ?_
  rw [insertBooking] at h
  split at h
  · rename_i restaurant u hrestaurant hu
    obtain ⟨db, hdb, rfl⟩ := map_ok h
    exact .booking (parseUuid_ok_iff.1 hrestaurant) (.of_parse hcaller hu) hdb
  all_goals cases h

theorem placeOrder_effect (input : PlaceOrderInput) :
    (placeOrder r.env input (caller.bind Caller.id) r.guestId).Within
      (Effect pf r (.placeOrder input)) := by
  refine placeOrder_within_of (fun _ => .none) ?_ ?_
    (fun _ key hkey => .cartDrop trivial ⟨caller, hcaller, hkey⟩) fun _ e => .news e
  · intro w table amounts res h
    obtain ⟨u, hu, hinsert, _⟩ := insertOrder_row h
    refine .order (fun k hk => ?_) hinsert
    subst hk
    exact parseOptUuid_caller hcaller hu
  · intro w order n d res h
    obtain ⟨u, _, hl⟩ := insertLine_row h
    exact .line hl

/-- Every statement of a resolver has one of the effects. -/
theorem resolve_effect (op : Operation) :
    (op.resolve pf r caller).Within (Effect pf r op) := by
  have hnone : ∀ w, Effect pf r op w w := fun _ => .none
  have hstep := op.resolve_step pf r caller
  have hdrop (hop : op.EditsMenu) (w : World) (keys : List String)
      (hkeys : ∀ k ∈ keys, IsMenuKey k) :
      Effect pf r op w { w with redis := w.redis.delKeys keys } :=
    .menuDrop hop hkeys
  have hset (hop : op.EditsCart) (w : World) (key : String) (e : Entry)
      (hkey : cartKey (caller.bind Caller.id) r.guestId = some key) :
      Effect pf r op w { w with redis := w.redis.set key e } :=
    .cart hop ⟨caller, hcaller, hkey⟩ e
  cases op
  case register input => exact (register_effect input).bind fun _ => trivial
  case updateProfile input => exact (updateProfile_effect hcaller input).bind fun _ => trivial
  case createBooking input => exact (createBooking_effect hcaller input).bind fun _ => trivial
  case updateBookingStatus bookingId status =>
    refine Prog.Within.bind (Prog.Within.bind ?_ fun _ => within_orElse _ _) fun _ => trivial
    exact within_dbWrite hnone fun w res h => .bookingStatus h
  case createMenuItem input =>
    exact (createMenuItem_within_of hnone (hdrop trivial) _
      fun w res h => .menu ⟨res.1, h⟩).bind fun _ => trivial
  case updateMenuItem input =>
    exact (updateMenuItem_within_of hnone (hdrop trivial) _
      fun w res h => .menu ⟨res.1, h⟩).bind fun _ => trivial
  case deleteMenuItem itemId =>
    exact (deleteMenuItem_within_of hnone (hdrop trivial) _
      fun w res h => .menu ⟨res.1, h⟩).bind fun _ => trivial
  case toggleMenuItemAvailability itemId =>
    exact (toggleAvailability_within_of hnone (hdrop trivial) _
      fun w b res h => .menu ⟨b, res.1, h⟩).bind fun _ => trivial
  case updateOrderStatus orderId status =>
    exact (updateOrderStatus_effect orderId status _).bind fun _ => trivial
  case placeOrder input => exact (placeOrder_effect hcaller input).bind fun _ => trivial
  case addToCart input =>
    exact (addToCart_within hnone r.env input fun w key v hkey =>
      hset trivial w key _ hkey).bind fun _ => trivial
  case removeFromCart menuItemId =>
    exact (removeFromCart_within hnone r.env menuItemId fun w key v hkey =>
      hset trivial w key _ hkey).bind fun _ => trivial
  case clearCart =>
    exact (clearCart_within hnone fun w key hkey =>
      .cartDrop trivial ⟨caller, hcaller, hkey⟩).bind fun _ => trivial
  case menu tableId => exact hstep.mono fun _ _ h => .of_fillStep trivial h
  case menuItemsByTable tableId => exact hstep.mono fun _ _ h => .of_fillStep trivial h
  all_goals exact hstep.mono fun _ _ h => .of_readStep h

end Resolvers

theorem handle_effect (pf : Platform) (r : Request) (op : Operation) :
    (handle pf r op).Within (Effect pf r op) :=
  ((guards_keeps pf op.route r).within fun _ => .none).bind_returns
    (guards_subject pf r op.route) fun _ hcaller => resolve_effect hcaller op

theorem serveLive_within {R : World → World → Prop} {calls : List (Request × Operation)}
    {ops : List SocketOp} (hR : ∀ w, R w w)
    (h : ∀ c ∈ calls, ∀ w w', Effect pf c.1 c.2 w w' → R w w')
    (hsocket : ∀ op ∈ ops, ∀ w : World, R w { w with gateway := op.serve pf w.gateway })
    (w : World) : (serveLive pf calls ops w).EachWithin fun _ => R := by
  intro i t ht
  rcases getElem?_serveLive ht with ⟨c, hc, rfl⟩ | ⟨_, op, hop, rfl⟩
  · exact (handle_effect pf c.1 c.2).mono (h c (List.mem_of_getElem? hc))
  · refine Prog.Within.bind (Prog.within_exec hR _ _ fun w res h => ?_) fun _ => trivial
    cases h
    exact hsocket op hop w

/-- What every effect of every request and every socket keeps holds under every schedule. -/
theorem serveLive_invariant {I : World → Prop} {calls : List (Request × Operation)}
    {ops : List SocketOp} (h : ∀ c ∈ calls, ∀ w w', Effect pf c.1 c.2 w w' → I w → I w')
    (hsocket : ∀ op ∈ ops, ∀ w : World, I w → I { w with gateway := op.serve pf w.gateway })
    (hw : I w) (turns : List (Nat × Bool)) :
    I (runs Pool.turn (serveLive pf calls ops w) turns).state :=
  Pool.turns_invariant (serveLive_within (fun _ => id) h hsocket w) hw turns

end DineFlow
