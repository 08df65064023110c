import DineFlow.Ghosts
import DineFlow.OrderNotices
import DineFlow.OrderPrivacy
import DineFlow.StaffRows
import DineFlow.ApiSteps
import DineFlow.Placement

namespace DineFlow
open Atomic Relational
set_option autoImplicit true

/-- An order without its status, the one column that is changed later. -/
def OrderRow.contents (o : OrderRow) : OrderRow := { o with status := "" }

@[simp] theorem OrderRow.contents_setStatus (s : OrderStatus) (o : OrderRow) :
    (OrderRow.setStatus s o).contents = o.contents := rfl

theorem OrderRow.id_of_contents {o o' : OrderRow} (h : o'.contents = o.contents) :
    o'.id = o.id := by
  have hid : o'.contents.id = o.contents.id := by rw [h]
  exact hid

theorem OrderRow.total_of_contents {o o' : OrderRow} (h : o'.contents = o.contents) :
    o'.totalAmount = o.totalAmount := by
  have htotal : o'.contents.totalAmount = o.contents.totalAmount := by rw [h]
  exact htotal

/-- The announcements of new orders that have been sent, with the sockets they went to. -/
def Gateway.news (g : Gateway) : List (String × OrderPlacedEvent) :=
  g.sent.filterMap fun m =>
    match m.2 with
    | .orderNew e => some (m.1, e)
    | _ => none

/-- What happens on the socket connections themselves. -/
inductive SocketOp where
  | connect (now : Nat) (id : String) (plain : ':' ∉ id.toList) (h : Handshake)
  | disconnect (id : String)
  | tableRequest (id tableId requestType : String)
  | acknowledge (id : String)

def SocketOp.serve (pf : Platform) : SocketOp → Gateway → Gateway
  | .connect now id plain h => handleConnection pf now id plain h
  | .disconnect id => handleDisconnect id
  | .tableRequest id tableId requestType => handleTableRequest id tableId requestType
  | .acknowledge id => handleOrderAcknowledge id

/-- The handler of a socket event runs in one step. -/
def SocketOp.prog (pf : Platform) (op : SocketOp) : Api Response := do
  notify .emitStatus (op.serve pf) (.ok ())
  return .done

/-- Requests that are served at the same time, while sockets come and go. -/
def serveLive (pf : Platform) (calls : List (Request × Operation)) (ops : List SocketOp)
    (w : World) : Pool (Api Response) Site World :=
  ⟨w, (calls.map fun c => handle pf c.1 c.2) ++ ops.map (SocketOp.prog pf), []⟩

/-- A step that opens no order, adds no line and announces nothing. -/
structure Silent (w w' : World) : Prop where
  orders : w'.db.orders.map OrderRow.contents = w.db.orders.map OrderRow.contents
  lines : w'.db.orderItems = w.db.orderItems
  news : w'.gateway.news = w.gateway.news
  distinct : w.gateway.Distinct → w'.gateway.Distinct

theorem Silent.refl (w : World) : Silent w w := ⟨rfl, rfl, rfl, id⟩

theorem Silent.of_gateway {w w' : World} (horders : w'.db.orders = w.db.orders)
    (hlines : w'.db.orderItems = w.db.orderItems) (hg : w'.gateway = w.gateway) :
    Silent w w' := by
  constructor
  · rw [horders]
  · exact hlines
  · rw [hg]
  · rw [hg]
    exact id

theorem news_append (g : Gateway) (ms : List (String × Event))
    (h : ∀ m ∈ ms, ∀ e, m.2 ≠ .orderNew e) :
    Gateway.news { g with sent := g.sent ++ ms } = g.news := by
  rw [Gateway.news, Gateway.news, List.filterMap_append]
  have hnone : (ms.filterMap fun m =>
      match m.2 with
      | .orderNew e => some (m.1, e)
      | _ => none) = [] := by
    rw [List.filterMap_eq_nil_iff]
    intro m hm
    cases he : m.2 with
    | orderNew e => exact absurd he (h m hm e)
    | orderStatus => rfl
    | tableRequest => rfl
    | error => rfl
  rw [hnone, List.append_nil]

theorem news_emit (g : Gateway) (room : String) (h : ∀ e', e ≠ Event.orderNew e') :
    (g.emit room e).news = g.news := by
  apply news_append
  intro m hm
  obtain ⟨s, _, rfl⟩ := List.mem_map.1 hm
  exact h

theorem news_send (g : Gateway) (id : String) (h : ∀ e', e ≠ Event.orderNew e') :
    (g.send id e).news = g.news := by
  apply news_append
  intro m hm
  rw [List.mem_singleton.1 hm]
  exact h

theorem SocketOp.serve_news (pf : Platform) (op : SocketOp) (g : Gateway) :
    (op.serve pf g).news = g.news := by
  cases op with
  | connect now id plain h =>
    rw [serve, handleConnection]
    split <;> rfl
  | disconnect id => rfl
  | tableRequest id tableId requestType =>
    rw [serve, handleTableRequest]
    split
    · split
      · exact news_send _ _ (fun _ h => by cases h)
      · exact news_emit _ _ (fun _ h => by cases h)
    · exact news_send _ _ (fun _ h => by cases h)
  | acknowledge id =>
    rw [serve, handleOrderAcknowledge]
    split
    · split
      · exact news_send _ _ (fun _ h => by cases h)
      · rfl
    · exact news_send _ _ (fun _ h => by cases h)

theorem SocketOp.serve_distinct (pf : Platform) (op : SocketOp) (h : Gateway.Distinct g) :
    (op.serve pf g).Distinct := by
  cases op with
  | connect now id plain hs => exact h.connect pf now id plain hs
  | disconnect id => exact h.disconnect id
  | tableRequest id tableId requestType =>
    exact (tableRequest_sameClients id tableId requestType g).distinct h
  | acknowledge id => exact (acknowledge_sameClients id g).distinct h

theorem SocketOp.prog_silent (pf : Platform) (op : SocketOp) : (op.prog pf).Within Silent := by
  refine Prog.Within.bind (Prog.within_exec Silent.refl _ _ fun w r h => ?_) fun _ => trivial
  cases h
  exact ⟨rfl, rfl, op.serve_news pf w.gateway, op.serve_distinct pf⟩

theorem StatusStep.silent (h : StatusStep w w') : Silent w w' := by
  cases h with
  | refl => exact .refl w
  | update k s => exact ⟨map_key_updateWhere (OrderRow.contents_setStatus s) k _, rfl, rfl, id⟩
  | emit e => exact ⟨rfl, rfl, news_emit _ _ (fun _ h => by cases h), id⟩

def Operation.Places : Operation → Prop
  | .placeOrder _ => True
  | _ => False

theorem Operation.Step.silent (h : Operation.Step op w w') (hop : ¬op.Places) : Silent w w' := by
  cases op
  case placeOrder => exact absurd trivial hop
  case updateOrderStatus => exact StatusStep.silent h
  case createMenuItem | updateMenuItem | deleteMenuItem | toggleMenuItemAvailability =>
    obtain ⟨items, favorites, ht⟩ := MenuStep.tables h
    refine .of_gateway (by rw [ht]) (by rw [ht]) ?_
    cases h <;> rfl
  case addToCart | removeFromCart | clearCart => exact .of_gateway (by rw [h.1]) (by rw [h.1]) h.2
  case menu | menuItemsByTable => cases h <;> exact .of_gateway rfl rfl rfl
  case register | updateProfile | createBooking | updateBookingStatus =>
    cases h with
    | intro users bookings h => exact .of_gateway (by rw [h]) (by rw [h]) rfl
  all_goals
    cases h
    exact .refl _

/-- The guards let the request through as this caller: a user is the one that the token names. -/
def Request.Passes (pf : Platform) (r : Request) (caller : Option Caller) : Prop :=
  ∀ u, caller = some (.user u) → r.subject pf = some u.id

/-- A row of this user, or of nobody, may be written for the request. -/
def Request.WritesFor (pf : Platform) (r : Request) (user : Option Uuid) : Prop :=
  ∀ k, user = some k → r.subject pf = some k

/-- The keys of the carts that the request may use. -/
def Request.CartKey (pf : Platform) (r : Request) (key : String) : Prop :=
  ∃ caller, r.Passes pf caller ∧ cartKey (caller.bind Caller.id) r.guestId = some key

section Found

variable (V : World → Prop)

/-- What a placement may find as its cart in the states it meets: nothing, or what is stored under
a key of its request. -/
def Request.Finds (pf : Platform) (r : Request) (seen : Option Cached) : Prop :=
  seen = none ∨
    ∃ w key, V w ∧ r.CartKey pf key ∧ seen = (w.redis.get key).map Entry.value

/-- What a placement enters: the items of its cart or else of its input, all of them available, at
the prices of the menu. -/
def Request.Orders (pf : Platform) (r : Request) (input : PlaceOrderInput)
    (data : List OrderItemData) : Prop :=
  ∃ seen, r.Finds V pf seen ∧ effectiveItems seen input ≠ [] ∧ ∃ w rows, V w ∧
    availableItemsIn ((effectiveItems seen input).map EffectiveItem.menuItemId) w.db = .ok rows ∧
    unavailableItems rows (effectiveItems seen input) = [] ∧
    data = orderItemsData rows (effectiveItems seen input)

def PlaceOrderInput.Seats (input : PlaceOrderInput) (table : TableRow) : Prop :=
  ∃ w, V w ∧ tableById input.tableId w.db = .ok (some table)

end Found

/-- How far a placement has come: its order, what it has to enter, the lines it has stored and
whether the order has been announced. -/
structure Placing where
  env : Env
  order : OrderRow
  data : List OrderItemData
  lines : List OrderItemRow
  announced : Bool

/-- What a line of an order charges for: a price and how many times. -/
def OrderItemRow.charge (l : OrderItemRow) : Int × Int := (l.price, l.quantity)

/-- The announcement is of this order with these lines. -/
structure Announces (A : Arithmetic) (o : OrderRow) (lines : List OrderItemRow)
    (e : OrderPlacedEvent) : Prop where
  orderId : e.orderId = o.id
  tableId : e.tableId = o.tableId
  restaurantId : e.restaurantId = o.restaurantId.text
  totalAmount : e.totalAmount = A.total (lines.map OrderItemRow.charge)
  createdAt : e.createdAt = o.createdAt
  quantities : e.items.map Prod.snd = lines.map OrderItemRow.quantity
  stored : o.totalAmount = A.cents (lines.map OrderItemRow.charge)

/-- The steps of a request that may open orders as `P` describes them. -/
inductive PlacingStep (P : Env → OrderRow → List OrderItemData → Prop) :
    Option Placing → World → World → Option Placing → Prop
  | silent (h : Silent w w') : PlacingStep P g w w' g
  | opened (hP : P env o.stored data) (h : w.db.insertOrder o = .ok db) :
      PlacingStep P none w { w with db := db } (some ⟨env, o.stored, data, [], false⟩)
  | line (hd : p.data[p.lines.length]? = some d) (hu : parseUuid d.menuItemId = .ok u)
      (hn : p.announced = false)
      (h : w.db.insertOrderItem (newLine p.env p.order.id p.lines.length u d) = .ok db) :
      PlacingStep P (some p) w { w with db := db }
        (some { p with lines := p.lines ++ [newLine p.env p.order.id p.lines.length u d] })
  | announced (hn : p.announced = false) (he : Announces p.env.arithmetic p.order p.lines e) :
      PlacingStep P (some p) w { w with gateway := emitOrderPlaced e w.gateway }
        (some { p with announced := true })

/-- What a placement has done when it returns: its order is full. -/
def Filled (g : Option Placing) (v : Order) : Prop :=
  ∃ p, g = some p ∧ v.id = p.order.id ∧ p.lines ≠ [] ∧
    p.order.totalAmount = p.env.arithmetic.cents (p.lines.map OrderItemRow.charge)

theorem Request.Orders.ne_nil {r : Request} (h : r.Orders V pf input data) : data ≠ [] := by
  obtain ⟨_, _, hitems, _, _, _, _, havailable, rfl⟩ := h
  intro hnil
  have hread := orderItemsData_items havailable
  rw [hnil] at hread
  exact hitems hread.symm

section Follows

variable {V : World → Prop} {P : Env → OrderRow → List OrderItemData → Prop}

theorem silent_follows {p : Api α} (h : p.Within Silent) (hq : p.Returns Q) (g : Option Placing) :
    p.Follows V (PlacingStep P) (fun g' a => g' = g ∧ Q a) g :=
  h.follows hq fun _ _ hs => .silent hs

theorem select_follows {read : Db → Except DbError α} {Q : α → Prop} (site : Site)
    (h : ∀ w a, V w → read w.db = .ok a → Q a) :
    (select site read).Follows V (PlacingStep P) (fun g a => g = none ∧ Q a) none :=
  Prog.follows_query (fun w => .silent (.refl w)) _
    (fun w a hw ha => ⟨rfl, h w a hw (mapError_ok ha)⟩) fun _ hz => by cases hz

theorem newOrder_announces (env : Env) (input : PlaceOrderInput) (table : TableRow)
    (u : Option Uuid) (guestId : Option String) (rows : List MenuItemRow)
    (h : ls.map OrderItemRow.charge = OrderItemData.amounts data) :
    Announces env.arithmetic
      (newOrder env input table u guestId (OrderItemData.amounts data)).stored ls
      (placedEvent (newOrder env input table u guestId (OrderItemData.amounts data)).stored rows
        data (env.arithmetic.total (OrderItemData.amounts data))) := by
  have hquantities := congrArg (List.map Prod.snd) h
  rw [OrderItemData.amounts, List.map_map, List.map_map] at hquantities
  refine ⟨rfl, rfl, rfl, congrArg _ h.symm, rfl, ?_, congrArg _ h.symm⟩
  rw [placedEvent, List.map_map]
  exact hquantities.symm

/-- The lines of an order, as far as they are stored. -/
def Entered (env : Env) (order : OrderRow) (data : List OrderItemData) (g : Option Placing)
    (done : List OrderItemData) : Prop :=
  ∃ ls, g = some ⟨env, order, data, ls, false⟩ ∧
    ls.map OrderItemRow.charge = OrderItemData.amounts done

theorem insertLines_follow (env : Env) (order : OrderRow) (data : List OrderItemData)
    (hg : g = some ⟨env, order, data, [], false⟩) :
    (insertLines env order.id 0 data).Follows V (PlacingStep P)
      (fun g _ => Entered env order data g data) g := by
  refine Prog.follows_each (F := Entered env order data) (fun g done d rest hdata hdone => ?_)
    ⟨[], hg, rfl⟩
  obtain ⟨ls, rfl, hcharge⟩ := hdone
  have hlength : done.length = ls.length := by
    have h := congrArg List.length hcharge
    rwa [List.length_map, OrderItemData.amounts, List.length_map, eq_comm] at h
  have hnext : data[ls.length]? = some d := by
    rw [← hdata, ← hlength, List.getElem?_append_right le_rfl, Nat.sub_self]
    rfl
  rw [hlength]
  refine Prog.follows_exec (fun w => .silent (.refl w)) _ (fun w r h => ?_) fun _ hz => by cases hz
  obtain ⟨r', hr', rfl⟩ := map_ok h
  obtain ⟨u, hu, hinsert⟩ := insertLine_row (mapError_ok hr')
  refine ⟨_, .line hnext hu rfl hinsert, _, rfl, ?_⟩
  rw [List.map_append, hcharge, OrderItemData.amounts, OrderItemData.amounts, List.map_append]
  rfl

theorem finish_follows (key : Option String) (rows : List MenuItemRow) (data : List OrderItemData)
    (hevent : ∀ ls, ls.map OrderItemRow.charge = OrderItemData.amounts data →
      Announces env.arithmetic order ls (placedEvent order rows data
        (env.arithmetic.total (OrderItemData.amounts data))))
    (hdata : data ≠ []) (hg : Entered env order data g data) :
    (placeOrder.finish env key order rows data).Follows V (PlacingStep P) Filled g := by
  obtain ⟨ls, rfl, hcharge⟩ := hg
  have hlines : ls ≠ [] := by
    rintro rfl
    exact hdata (List.map_eq_nil_iff.1 hcharge.symm)
  have hclear : (clearSession key).Within Silent := by
    cases key with
    | none => trivial
    | some key => exact delCached_within .refl _ fun w => .of_gateway rfl rfl rfl
  refine (silent_follows hclear (Prog.returns_true _) _).bind fun g _ hg => ?_
  rw [hg.1]
  -- an announcement that fails is dropped, and the placement goes on without it
  refine Prog.Follows.bind (Q := fun g _ => ∃ b, g = some ⟨env, order, data, ls, b⟩)
    (Prog.follows_exec (fun w => .silent (.refl w)) _ (fun w r h => ?_) fun _ _ => ⟨_, rfl⟩)
    fun g _ hg => ?_
  · cases h
    exact ⟨_, .announced rfl (hevent ls hcharge), true, rfl⟩
  · obtain ⟨b, rfl⟩ := hg
    have hread := (getOrderWithDetails_keeps order.id.text).within Silent.refl
    refine (silent_follows hread (getOrderWithDetails_returns order.id) _).mono fun g v hv => ?_
    exact ⟨_, hv.1, hv.2, hlines, (hevent ls hcharge).stored⟩

theorem withMenu_follows (hitems : items ≠ [])
    (hP : ∀ u, parseOptUuid (given userId) = .ok u → unavailableItems rows items = [] →
      P env (newOrder env input table u guestId
        (OrderItemData.amounts (orderItemsData rows items))).stored (orderItemsData rows items)) :
    (placeOrder.withMenu env input userId guestId items table rows).Follows V (PlacingStep P)
      Filled none := by
  rw [placeOrder.withMenu]
  split
  · trivial
  rename_i havailable
  have hdata : orderItemsData rows items ≠ [] := by
    intro hnil
    have hread := orderItemsData_items (not_not.1 havailable)
    rw [hnil] at hread
    exact hitems hread.symm
  generalize orderItemsData rows items = data at *
  refine Prog.Follows.bind (Q := fun g order => g = some ⟨env, order, data, [], false⟩ ∧
      ∃ u, order = (newOrder env input table u guestId (OrderItemData.amounts data)).stored)
    (Prog.follows_exec (fun w => .silent (.refl w)) _ (fun w r h => ?_) fun _ hz => by cases hz)
    fun g order hg => ?_
  · obtain ⟨r', hr', rfl⟩ := map_ok h
    obtain ⟨u, hu, hinsert, hrow⟩ := insertOrder_row (mapError_ok hr')
    rw [hrow]
    exact ⟨_, .opened (hP u hu (not_not.1 havailable)) hinsert, rfl, u, rfl⟩
  · obtain ⟨hg, u, rfl⟩ := hg
    refine (insertLines_follow env _ _ hg).bind fun g _ hg => ?_
    exact finish_follows _ _ _ (fun _ h => newOrder_announces _ _ _ _ _ _ h) hdata hg

theorem placeOrder_follows {r : Request} (hcaller : r.Passes pf caller)
    (hP : ∀ table u data, input.Seats V table → r.WritesFor pf u → r.Orders V pf input data →
      P r.env (newOrder r.env input table u r.guestId (OrderItemData.amounts data)).stored data) :
    (placeOrder r.env input (caller.bind Caller.id) r.guestId).Follows V (PlacingStep P) Filled
      none := by
  have hcart (cached : Option Cached) (hseen : r.Finds V pf cached) :
      (placeOrder.withCart r.env input (caller.bind Caller.id) r.guestId cached).Follows V
        (PlacingStep P) Filled none := by
    rw [placeOrder.withCart]
    split
    · trivial
    rename_i hitems
    refine (select_follows _ fun w table hw ht =>
      (fun t he => ⟨w, hw, he ▸ ht⟩ : ∀ t, table = some t → input.Seats V t)).bind
        fun g table hg => ?_
    obtain ⟨rfl, htable⟩ := hg
    cases table with
    | none => trivial
    | some table =>
      refine (select_follows (Q := fun rows => ∃ w, V w ∧ availableItemsIn
        ((effectiveItems cached input).map EffectiveItem.menuItemId) w.db = .ok rows) _
        fun w rows hw hrows => ⟨w, hw, hrows⟩).bind fun g rows hg => ?_
      obtain ⟨rfl, w, hw, hrows⟩ := hg
      refine withMenu_follows hitems fun u hu havailable => ?_
      refine hP table u _ (htable table rfl) (fun k hk => ?_)
        ⟨cached, hseen, hitems, w, rows, hw, hrows, havailable, rfl⟩
      exact parseOptUuid_caller hcaller (hk ▸ hu)
  rw [placeOrder]
  split
  · exact hcart none (.inl rfl)
  · rename_i key hkey
    refine Prog.Follows.bind (Q := fun g cached => g = none ∧ r.Finds V pf cached)
      (Prog.follows_query (fun w => .silent (.refl w)) _ (fun w cached hw hread => ?_)
        fun cached hz => ?_) fun g cached hg => ?_
    · cases hread
      exact ⟨rfl, .inr ⟨w, key, hw, ⟨caller, hcaller, hkey⟩, rfl⟩⟩
    · cases hz
      exact ⟨rfl, .inl rfl⟩
    · rw [hg.1]
      exact hcart cached hg.2

/-- Whatever a request does, it opens at most one order, and what it returns from a placement is
an order that is full. -/
theorem handle_follows (pf : Platform) (r : Request) (op : Operation)
    (hP : ∀ input table u data, op = .placeOrder input → input.Seats V table →
      r.WritesFor pf u → r.Orders V pf input data →
      P r.env (newOrder r.env input table u r.guestId (OrderItemData.amounts data)).stored data) :
    (handle pf r op).Follows V (PlacingStep P)
      (fun g v => ¬op.Places ∧ g = none ∨ ∃ o, v = .order o ∧ Filled g o) none := by
  refine (silent_follows ((guards_keeps pf op.route r).within Silent.refl)
    (guards_subject pf r op.route) none).bind fun g caller hg => ?_
  obtain ⟨rfl, hcaller⟩ := hg
  by_cases hop : op.Places
  · cases op
    case placeOrder input =>
      refine (placeOrder_follows hcaller fun table u data => hP input table u data rfl).bind
        fun g v hv => .inr ⟨v, rfl, hv⟩
    all_goals exact hop.elim
  · refine (silent_follows ((op.resolve_step pf r caller).mono fun _ _ h => h.silent hop)
      (Prog.returns_true _) none).mono fun g v hv => .inl ⟨hop, hv.1⟩

end Follows

/-- Each placement under way has an order of its own, one that its request may open, with the
lines that it has entered so far. -/
structure Owners (P : Nat → Env → OrderRow → List OrderItemData → Prop) (w : World)
    (gs : Nat → Option Placing) : Prop where
  opened : ∀ i p, gs i = some p → P i p.env p.order p.data
  stored : ∀ i p, gs i = some p → ∃ o ∈ w.db.orders, o.contents = p.order.contents
  apart : ∀ i j p q, gs i = some p → gs j = some q → p.order.id = q.order.id → i = j
  lines : ∀ i p, gs i = some p → linesOf p.order.id w.db = p.lines

theorem Silent.contents (h : Silent w w') :
    ∀ o' ∈ w'.db.orders, ∃ o ∈ w.db.orders, o'.contents = o.contents := by
  intro o' ho'
  have hmem := List.mem_map_of_mem (f := OrderRow.contents) ho'
  rw [h.orders] at hmem
  obtain ⟨o, ho, he⟩ := List.mem_map.1 hmem
  exact ⟨o, ho, he.symm⟩

theorem Silent.stays (h : Silent w w') (ho : o ∈ w.db.orders) :
    ∃ o' ∈ w'.db.orders, o'.contents = o.contents := by
  have hmem := List.mem_map_of_mem (f := OrderRow.contents) ho
  rw [← h.orders] at hmem
  obtain ⟨o', ho', he⟩ := List.mem_map.1 hmem
  exact ⟨o', ho', he⟩

section Owners

variable {P : Nat → Env → OrderRow → List OrderItemData → Prop} {gs : Nat → Option Placing}

theorem Owners.start (P : Nat → Env → OrderRow → List OrderItemData → Prop) (w : World) :
    Owners P w fun _ => none := by
  constructor
  · intro i p hp
    cases hp
  · intro i p hp
    cases hp
  · intro i j p q hp
    cases hp
  · intro i p hp
    cases hp

theorem Silent.linesOf (hs : Silent w w') (k : Uuid) : linesOf k w'.db = linesOf k w.db := by
  rw [DineFlow.linesOf, hs.lines, DineFlow.linesOf]

theorem Owners.silent (h : Owners P w gs) (hs : Silent w w') : Owners P w' gs := by
  refine ⟨h.opened, fun i p hp => ?_, h.apart, fun i p hp => (hs.linesOf _).trans (h.lines i p hp)⟩
  obtain ⟨o, ho, he⟩ := h.stored i p hp
  obtain ⟨o', ho', he'⟩ := hs.stays ho
  exact ⟨o', ho', he'.trans he⟩

theorem Owners.ne_of_fresh (h : Owners P w gs) (hfresh : ∀ r ∈ w.db.orders, r.id ≠ k)
    (hj : gs j = some p) : p.order.id ≠ k := by
  intro he
  obtain ⟨o, ho, hc⟩ := h.stored j p hj
  exact hfresh o ho ((OrderRow.id_of_contents hc).trans he)

theorem Owners.open (h : Owners P w gs) (hP : P i env o.stored data)
    (ho : w.db.insertOrder o = .ok db) :
    Owners P { w with db := db }
      (Function.update gs i (some ⟨env, o.stored, data, [], false⟩)) := by
  obtain ⟨hacc, ht⟩ := Db.insertOrder_ok_iff.1 ho
  have hfresh := (OrderRow.accepted_refs hacc).1
  constructor
  · intro j p hp
    rcases Pool.update_some hp with ⟨rfl, hg⟩ | ⟨_, hp⟩
    · cases hg
      exact hP
    · exact h.opened j p hp
  · intro j p hp
    dsimp only
    rw [ht]
    rcases Pool.update_some hp with ⟨_, hg⟩ | ⟨_, hp⟩
    · cases hg
      exact ⟨o.stored, List.mem_append_right _ List.mem_cons_self, rfl⟩
    · obtain ⟨o', ho', hc⟩ := h.stored j p hp
      exact ⟨o', List.mem_append_left _ ho', hc⟩
  · intro j k p q hp hq hid
    rcases Pool.update_some hp with ⟨hj, hg⟩ | ⟨_, hp'⟩
    · rcases Pool.update_some hq with ⟨hk, _⟩ | ⟨_, hq'⟩
      · exact hj.trans hk.symm
      · cases hg
        exact absurd hid.symm (h.ne_of_fresh hfresh hq')
    · rcases Pool.update_some hq with ⟨_, hg⟩ | ⟨_, hq'⟩
      · cases hg
        exact absurd hid (h.ne_of_fresh hfresh hp')
      · exact h.apart j k p q hp' hq' hid
  · intro j p hp
    have hlines (k : Uuid) : linesOf k db = linesOf k w.db := by rw [linesOf, linesOf, ht]
    rcases Pool.update_some hp with ⟨_, hg⟩ | ⟨_, hp⟩
    · cases hg
      exact (hlines _).trans (linesOf_fresh hfresh)
    · exact (hlines _).trans (h.lines j p hp)

theorem Owners.progress (h : Owners P w gs) (hi : gs i = some p) (henv : p'.env = p.env)
    (hp' : p'.order = p.order) (hdata : p'.data = p.data)
    (horders : w'.db.orders = w.db.orders) (hown : linesOf p.order.id w'.db = p'.lines)
    (hlines : ∀ k, k ≠ p.order.id → linesOf k w'.db = linesOf k w.db) :
    Owners P w' (Function.update gs i (some p')) := by
  have hback : ∀ j q, Function.update gs i (some p') j = some q →
      ∃ q', gs j = some q' ∧ q'.order = q.order ∧ q'.env = q.env ∧ q'.data = q.data := by
    intro j q hq
    rcases Pool.update_some hq with ⟨rfl, hg⟩ | ⟨_, hq⟩
    · cases hg
      exact ⟨p, hi, hp'.symm, henv.symm, hdata.symm⟩
    · exact ⟨q, hq, rfl, rfl, rfl⟩
  constructor
  · intro j q hq
    obtain ⟨q', hq', he, henv, hdata⟩ := hback j q hq
    rw [← he, ← henv, ← hdata]
    exact h.opened j q' hq'
  · intro j q hq
    obtain ⟨q', hq', he, _⟩ := hback j q hq
    rw [horders, ← he]
    exact h.stored j q' hq'
  · intro j k q q' hq hq' hid
    obtain ⟨q₁, hq₁, he₁, _⟩ := hback j q hq
    obtain ⟨q₂, hq₂, he₂, _⟩ := hback k q' hq'
    rw [← he₁, ← he₂] at hid
    exact h.apart j k q₁ q₂ hq₁ hq₂ hid
  · intro j q hq
    rcases Pool.update_some hq with ⟨_, hg⟩ | ⟨hj, hq⟩
    · cases hg
      rw [hp']
      exact hown
    · have hne : q.order.id ≠ p.order.id := fun he => hj (h.apart j i q p hq hi he)
      exact (hlines _ hne).trans (h.lines j q hq)

theorem linesOf_insert (hinsert : Db.insertOrderItem db l = .ok db') (k : Uuid) :
    linesOf k db' = if l.orderId = k then linesOf k db ++ [l] else linesOf k db := by
  obtain ⟨_, ht⟩ := Db.insertOrderItem_ok_iff.1 hinsert
  rw [linesOf, ht, List.filter_append]
  split
  · rename_i hk
    rw [List.filter_cons_of_pos (by simpa using hk), List.filter_nil, linesOf]
  · rename_i hk
    rw [List.filter_cons_of_neg (by simpa using hk), List.filter_nil, List.append_nil, linesOf]

theorem Owners.enter (h : Owners P w gs) (hi : gs i = some p) (hl : l.orderId = p.order.id)
    (hinsert : w.db.insertOrderItem l = .ok db) :
    Owners P { w with db := db }
      (Function.update gs i (some { p with lines := p.lines ++ [l] })) := by
  have horders : db.orders = w.db.orders := by rw [(Db.insertOrderItem_ok_iff.1 hinsert).2]
  refine h.progress hi rfl rfl rfl horders ?_ fun k hk => ?_
  · dsimp only
    rw [linesOf_insert hinsert, if_pos hl, h.lines i p hi]
  · dsimp only
    rw [linesOf_insert hinsert, if_neg fun he => hk (he.symm.trans hl)]

theorem Owners.announce (h : Owners P w gs) (hi : gs i = some p) (gateway : Gateway) :
    Owners P { w with gateway := gateway }
      (Function.update gs i (some { p with announced := true })) :=
  h.progress hi rfl rfl rfl rfl (h.lines i p hi) fun _ _ => rfl

theorem Owners.step (w : World) (gs : Nat → Option Placing) (i : Nat) (w' : World)
    (g' : Option Placing) (h : Owners P w gs) (hs : PlacingStep (P i) (gs i) w w' g') :
    Owners P w' (Function.update gs i g') := by
  generalize hg : gs i = g at hs
  cases hs with
  | silent hs =>
    rw [← hg, Function.update_eq_self]
    exact h.silent hs
  | opened hP ho => exact h.open hP ho
  | line _ _ _ hinsert => exact h.enter hg rfl hinsert
  | announced _ _ => exact h.announce hg _

/-- An order that is being placed is stored with the lines entered so far. -/
theorem Owners.order (h : Owners P w gs) (hi : gs i = some p) :
    ∃ o ∈ w.db.orders, o.contents = p.order.contents ∧ linesOf o.id w.db = p.lines := by
  obtain ⟨o, ho, hc⟩ := h.stored i p hi
  refine ⟨o, ho, hc, ?_⟩
  rw [OrderRow.id_of_contents hc]
  exact h.lines i p hi

end Owners

/-- The order that a request may open is a placement's own: at its table, in the name of nobody but
its own user, for what it enters. -/
def MayOpen (V : World → Prop) (pf : Platform) (calls : List (Request × Operation)) (i : Nat)
    (env : Env) (o : OrderRow) (data : List OrderItemData) : Prop :=
  ∃ r input, calls[i]? = some (r, .placeOrder input) ∧ env = r.env ∧ r.Orders V pf input data ∧
    ∃ table u, input.Seats V table ∧ r.WritesFor pf u ∧
      o = (newOrder r.env input table u r.guestId (OrderItemData.amounts data)).stored

/-- What a request may return at the end of its placement, if it is one. -/
def Settled (calls : List (Request × Operation)) (i : Nat) (g : Option Placing) (v : Response) :
    Prop :=
  (∀ r input, calls[i]? ≠ some (r, .placeOrder input)) ∧ g = none ∨ ∃ o, v = .order o ∧ Filled g o

theorem getElem?_serveLive {i : Nat} (h : (serveLive pf calls ops w).threads[i]? = some t) :
    (∃ c, calls[i]? = some c ∧ t = handle pf c.1 c.2) ∨
      calls[i]? = none ∧ ∃ op ∈ ops, t = SocketOp.prog pf op :=
  Pool.of_getElem?_map_append h

theorem mayOpen_arithmetic {calls : List (Request × Operation)}
    (hA : ∀ c ∈ calls, c.1.env.arithmetic = A) (i : Nat) (env : Env) (o : OrderRow)
    (data : List OrderItemData) (h : MayOpen V pf calls i env o data) : env.arithmetic = A := by
  obtain ⟨r, input, hc, rfl, _⟩ := h
  exact hA _ (List.mem_of_getElem? hc)

theorem serveLive_follows (V : World → Prop) (pf : Platform) (calls : List (Request × Operation))
    (ops : List SocketOp) (w : World) :
    (serveLive pf calls ops w).AllFollow V (fun i => PlacingStep (MayOpen V pf calls i))
      (Settled calls) fun _ => none := by
  intro i t ht
  rcases getElem?_serveLive ht with ⟨⟨r, op⟩, hc, rfl⟩ | ⟨hnone, op, _, rfl⟩
  · refine (handle_follows pf r op fun input table u data hop hseat hu hdata => ?_).mono
      fun g v hv => ?_
    · subst hop
      exact ⟨r, input, hc, rfl, hdata, table, u, hseat, hu, rfl⟩
    · rcases hv with ⟨hop, hg⟩ | hv
      · refine .inl ⟨fun r' input hc' => ?_, hg⟩
        rw [hc] at hc'
        cases hc'
        exact hop trivial
      · exact .inr hv
  · refine (silent_follows (op.prog_silent pf) (Prog.returns_true _) none).mono fun g v hv => ?_
    refine .inl ⟨fun r input hc => ?_, hv.1⟩
    rw [hnone] at hc
    cases hc

/-- From when a placement has returned on, its order is stored with all its lines. -/
theorem placed_order_kept {calls : List (Request × Operation)} {turns : List (Nat × Bool)} {i : Nat}
    (hc : calls[i]? = some (r, .placeOrder input))
    (hv : (runs Pool.turn (serveLive pf calls ops w) turns).threads[i]? = some (.ret v)) :
    ∃ (shown : Order) (p : Placing), v = .order shown ∧
      MayOpen (fun _ => True) pf calls i p.env p.order p.data ∧
      shown.id = p.order.id ∧ p.lines ≠ [] ∧
      p.order.totalAmount = p.env.arithmetic.cents (p.lines.map OrderItemRow.charge) ∧
      ∀ later, ∃ o ∈ (runs Pool.turn (serveLive pf calls ops w) (turns ++ later)).state.db.orders,
        o.contents = p.order.contents ∧ linesOf o.id
          (runs Pool.turn (serveLive pf calls ops w) (turns ++ later)).state.db = p.lines := by
  obtain ⟨gs, hfollow, hown⟩ := Pool.runs_follow_always Owners.step
    (serveLive_follows (fun _ => True) pf calls ops w) (Owners.start _ w) turns
  rcases hfollow i _ hv with ⟨hno, _⟩ | ⟨shown, rfl, p, hp, hid, hne, htotal⟩
  · exact absurd hc (hno r input)
  -- the others of the pool go on, and the ghost of this placement stays as it is
  have hstep : ∀ (w : World) (gs : Nat → Option Placing) (j : Nat) (w' : World)
      (g' : Option Placing), Owners (MayOpen (fun _ => True) pf calls) w gs ∧ gs i = some p →
      Function.update (fun i => PlacingStep (MayOpen (fun _ => True) pf calls i)) i
        (fun _ _ _ _ => False) j (gs j) w w' g' →
      Owners (MayOpen (fun _ => True) pf calls) w' (Function.update gs j g') ∧
        Function.update gs j g' i = some p := by
    intro w gs j w' g' h hs
    by_cases hj : j = i
    · subst hj
      rw [Function.update_self] at hs
      exact hs.elim
    · rw [Function.update_of_ne hj] at hs
      exact ⟨Owners.step w gs j w' g' h.1 hs, (Function.update_of_ne (Ne.symm hj) _ _).trans h.2⟩
  refine ⟨shown, p, rfl, hown.opened i p hp, hid, hne, htotal, fun later => ?_⟩
  obtain ⟨gs', _, hown', hp'⟩ :=
    Pool.runs_follow_always hstep (hfollow.rest hv) ⟨hown, hp⟩ later
  have horder := hown'.order hp'
  rwa [← runs_append] at horder

end DineFlow
