import DineFlow.EventsGateway
import DineFlow.Frames
import DineFlow.Runs

namespace DineFlow
open Atomic Relational
set_option autoImplicit true

/-- What happens around the gateway: sockets come, go and send, orders are placed and updated. -/
inductive EventOp where
  | connect (now : Nat) (id : String) (plain : ':' ∉ id.toList) (h : Handshake)
  | disconnect (id : String)
  | tableRequest (id tableId requestType : String)
  | acknowledge (id : String)
  | place (env : Env) (input : PlaceOrderInput) (userId guestId : Option String) (f : Site → Bool)
  | update (orderId : String) (status : OrderStatus) (userId : String) (f : Site → Bool)

def EventOp.step (pf : Platform) (w : World) : EventOp → World
  | .connect now id plain h => { w with gateway := handleConnection pf now id plain h w.gateway }
  | .disconnect id => { w with gateway := handleDisconnect id w.gateway }
  | .tableRequest id tableId requestType =>
    { w with gateway := handleTableRequest id tableId requestType w.gateway }
  | .acknowledge id => { w with gateway := handleOrderAcknowledge id w.gateway }
  | .place env input userId guestId f => ((placeOrder env input userId guestId).run f w).2
  | .update orderId status userId f => ((updateOrderStatus orderId status userId).run f w).2

def EventOp.Connects (i : String) : EventOp → Prop
  | .connect _ id _ _ => id = i
  | _ => False

def StaffRoom (room : String) : Prop :=
  (∃ r, room = "restaurant:" ++ r) ∨ ∃ r, room = "kitchen:" ++ r

/-- A socket that is in no room that orders are announced to. -/
def Outside (i : String) (g : Gateway) : Prop :=
  ∀ s ∈ g.sockets, s.id = i → ∀ room ∈ s.rooms, ¬StaffRoom room

def Event.AboutOrder : Event → Prop
  | .orderNew _ | .orderStatus _ => True
  | _ => False

/-- A step of the gateway that leaves a socket outside and sends it nothing about an order. -/
def PassesBy (i : String) (g g' : Gateway) : Prop :=
  Outside i g → Outside i g' ∧
    ∃ l, g'.sent = g.sent ++ l ∧ ∀ m ∈ l, m.1 = i → ¬m.2.AboutOrder

theorem PassesBy.refl (i : String) (g : Gateway) : PassesBy i g g :=
  fun h => ⟨h, [], (List.append_nil _).symm, fun _ hm => absurd hm List.not_mem_nil⟩

theorem PassesBy.trans (h : PassesBy i g g') (h' : PassesBy i g' g'') : PassesBy i g g'' := by
  intro ho
  obtain ⟨ho', l, hl, hnone⟩ := h ho
  obtain ⟨ho'', l', hl', hnone'⟩ := h' ho'
  refine ⟨ho'', l ++ l', by rw [hl', hl, List.append_assoc], fun m hm => ?_⟩
  rcases List.mem_append.1 hm with hm | hm
  · exact hnone m hm
  · exact hnone' m hm

theorem passesBy_emit (i : String) (g : Gateway) (hroom : StaffRoom room) (e : Event) :
    PassesBy i g (g.emit room e) := by
  intro ho
  refine ⟨ho, _, rfl, fun m hm hi => ?_⟩
  obtain ⟨s, hs, rfl⟩ := List.mem_map.1 hm
  obtain ⟨hs, hin⟩ := List.mem_filter.1 hs
  exact absurd hroom (ho s hs hi room (of_decide_eq_true hin))

theorem passesBy_send (i : String) (g : Gateway) (id : String) (he : ¬Event.AboutOrder e) :
    PassesBy i g (g.send id e) := by
  refine fun ho => ⟨ho, _, rfl, fun m hm _ => ?_⟩
  rw [List.mem_singleton.1 hm]
  exact he

theorem passesBy_orderPlaced (i : String) (e : OrderPlacedEvent) (g : Gateway) :
    PassesBy i g (emitOrderPlaced e g) :=
  (passesBy_emit i g (.inl ⟨_, rfl⟩) _).trans (passesBy_emit i _ (.inr ⟨_, rfl⟩) _)

theorem passesBy_orderStatus (i : String) (e : OrderStatusEvent) (g : Gateway) :
    PassesBy i g (emitOrderStatusChanged e g) :=
  passesBy_emit i g (.inl ⟨_, rfl⟩) _

theorem passesBy_disconnect (i id : String) (g : Gateway) :
    PassesBy i g (handleDisconnect id g) :=
  fun ho => ⟨fun s hs => ho s (List.mem_of_mem_filter hs), [], (List.append_nil _).symm,
    fun _ hm => absurd hm List.not_mem_nil⟩

theorem passesBy_connect (pf : Platform) (now : Nat) {i id : String} (hid : id ≠ i)
    (plain : ':' ∉ id.toList) (h : Handshake) (g : Gateway) :
    PassesBy i g (handleConnection pf now id plain h g) := by
  intro ho
  have hg := passesBy_disconnect i id g ho
  rw [handleConnection]
  cases authenticateSocket pf now h with
  | none => exact hg
  | some a =>
    refine ⟨fun s hs hi => ?_, hg.2⟩
    rcases List.mem_cons.1 hs with rfl | hs
    · exact absurd hi hid
    · exact hg.1 s hs hi

theorem passesBy_tableRequest (i id tableId requestType : String) (g : Gateway) :
    PassesBy i g (handleTableRequest id tableId requestType g) := by
  rw [handleTableRequest]
  cases g.client id with
  | none => exact passesBy_send i g id (fun h => by cases h)
  | some m =>
    dsimp only
    split
    · exact passesBy_send i g id (fun h => by cases h)
    · exact passesBy_emit i g (.inl ⟨_, rfl⟩) _

theorem passesBy_acknowledge (i id : String) (g : Gateway) :
    PassesBy i g (handleOrderAcknowledge id g) := by
  rw [handleOrderAcknowledge]
  cases g.client id with
  | none => exact passesBy_send i g id (fun h => by cases h)
  | some m =>
    dsimp only
    split
    · exact passesBy_send i g id (fun h => by cases h)
    · exact .refl i g

theorem PlaceStep.passesBy (h : PlaceStep w w') (i : String) :
    PassesBy i w.gateway w'.gateway := by
  cases h with
  | emit e => exact passesBy_orderPlaced i e w.gateway
  | _ => exact .refl i w.gateway

theorem StatusStep.passesBy (h : StatusStep w w') (i : String) :
    PassesBy i w.gateway w'.gateway := by
  cases h with
  | emit e => exact passesBy_orderStatus i e w.gateway
  | _ => exact .refl i w.gateway

theorem run_passesBy {p : Api α} (h : p.Within fun w w' => PassesBy i w.gateway w'.gateway)
    (f : Site → Bool) (w : World) : PassesBy i w.gateway (p.run f w).2.gateway :=
  h.run (fun w => .refl i w.gateway) (fun h h' => PassesBy.trans h h') f w

theorem EventOp.passesBy (pf : Platform) (w : World) (op : EventOp) (h : ¬op.Connects i) :
    PassesBy i w.gateway (op.step pf w).gateway := by
  cases op with
  | connect now id plain hs => exact passesBy_connect pf now h plain hs w.gateway
  | disconnect id => exact passesBy_disconnect i id w.gateway
  | tableRequest id tableId requestType =>
    exact passesBy_tableRequest i id tableId requestType w.gateway
  | acknowledge id => exact passesBy_acknowledge i id w.gateway
  | place env input userId guestId f =>
    exact run_passesBy
      ((placeOrder_within env input userId guestId).mono fun _ _ h => h.passesBy i) f w
  | update orderId status userId f =>
    exact run_passesBy
      ((updateOrderStatus_within orderId status userId).mono fun _ _ h => h.passesBy i) f w

theorem runs_passesBy (pf : Platform) (w : World) (ops : List EventOp)
    (h : ∀ op ∈ ops, ¬op.Connects i) :
    PassesBy i w.gateway (runs (EventOp.step pf) w ops).gateway := by
  refine runs_keep_of (I := fun w' : World => PassesBy i w.gateway w'.gateway) h
    (.refl i w.gateway) ?_
  exact fun w' op hw' hop => hw'.trans (op.passesBy pf w' hop)

theorem StaffRoom.chars (h : StaffRoom room) : ':' ∈ room.toList ∧
    (room.toList.head? = some 'r' ∨ room.toList.head? = some 'k') := by
  rcases h with ⟨r, rfl⟩ | ⟨r, rfl⟩
  · exact ⟨by simp, .inl (by simp)⟩
  · exact ⟨by simp, .inr (by simp)⟩

theorem relevantRooms_outside (h : given m.restaurantId = none) (hroom : room ∈ relevantRooms m) :
    ¬StaffRoom room := by
  intro hstaff
  have hchars := hstaff.chars
  rw [relevantRooms, h, List.append_nil] at hroom
  rcases List.mem_append.1 hroom with hroom | hroom
  · split at hroom
    · split at hroom
      · rw [List.mem_singleton.1 hroom] at hchars
        simp at hchars
      · cases hroom
    · cases hroom
  · rw [List.mem_singleton.1 hroom] at hchars
    simp at hchars

theorem outside_connect (pf : Platform) (now : Nat) (i : String) (plain : ':' ∉ i.toList)
    (h : Handshake) (g : Gateway)
    (hno : ∀ a, authenticateSocket pf now h = some a → given a.restaurantId = none) :
    Outside i (handleConnection pf now i plain h g) := by
  have hgone (s : Socket) (hs : s ∈ (handleDisconnect i g).sockets) : s.id ≠ i :=
    of_decide_eq_true (List.mem_filter.1 hs).2
  rw [handleConnection]
  cases ha : authenticateSocket pf now h with
  | none => exact fun s hs hi => absurd hi (hgone s hs)
  | some a =>
    intro s hs hi room hroom
    rcases List.mem_cons.1 hs with rfl | hs
    · rcases List.mem_cons.1 hroom with rfl | hroom
      · exact fun hstaff => plain hstaff.chars.1
      · exact relevantRooms_outside (hno a ha) hroom
    · exact absurd hi (hgone s hs)

theorem sent_connect (pf : Platform) (now : Nat) (i : String) (plain : ':' ∉ i.toList)
    (h : Handshake) (g : Gateway) : (handleConnection pf now i plain h g).sent = g.sent := by
  rw [handleConnection]
  cases authenticateSocket pf now h <;> rfl

/-- Whoever connects without a restaurant stays outside and is told nothing about any order. -/
theorem runs_outside (pf : Platform) (now : Nat) (i : String) (plain : ':' ∉ i.toList)
    (h : Handshake) (hno : ∀ a, authenticateSocket pf now h = some a → given a.restaurantId = none)
    (w : World) (ops : List EventOp) (hops : ∀ op ∈ ops, ¬op.Connects i) :
    Outside i (runs (EventOp.step pf) w (.connect now i plain h :: ops)).gateway ∧
      ∃ l, (runs (EventOp.step pf) w (.connect now i plain h :: ops)).gateway.sent =
        w.gateway.sent ++ l ∧ ∀ m ∈ l, m.1 = i → ¬m.2.AboutOrder := by
  have hrun := runs_passesBy pf (EventOp.step pf w (.connect now i plain h)) ops hops
    (outside_connect pf now i plain h w.gateway hno)
  rw [EventOp.step, sent_connect] at hrun
  exact hrun

/-- What is assumed of the signed web tokens: what verifies holds the claims that were signed,
besides the two times the library adds. -/
def Platform.SignsClaims (pf : Platform) : Prop :=
  ∀ now now' c expiresIn q, pf.verify now' (pf.sign now c expiresIn) = some q →
    ∀ k, k ≠ "iat" → k ≠ "exp" → Claims.get q k = Claims.get c k

theorem login_restaurant (hpf : pf.SignsClaims) (user : UserRow) (issued now : Nat)
    (hjwt : Handshake.jwt h = some (login pf issued user))
    (ha : authenticateSocket pf now h = some a) : given a.restaurantId = none := by
  rw [authenticateSocket, hjwt, Option.bind_some] at ha
  split at ha
  · rename_i claims hclaims
    cases ha
    rw [hpf _ _ _ _ _ hclaims "restaurantId" (by decide) (by decide)]
    rfl
  · rw [authenticateGuest] at ha
    split at ha
    · cases ha
    · split at ha
      · cases ha
        rfl
      · cases ha

/-- No socket that connects with a token of the login is ever in the room of any restaurant, and
none is told about an order. -/
theorem staffSocket_never_joins (pf : Platform) (hpf : pf.SignsClaims) (user : UserRow)
    (issued now : Nat) (i : String) (plain : ':' ∉ i.toList) (h : Handshake)
    (hjwt : h.jwt = some (login pf issued user)) (w : World) (ops : List EventOp)
    (hops : ∀ op ∈ ops, ¬op.Connects i) :
    (∀ s ∈ (runs (EventOp.step pf) w (.connect now i plain h :: ops)).gateway.sockets,
      s.id = i → ¬∃ r, "restaurant:" ++ r ∈ s.rooms) ∧
    ∃ l, (runs (EventOp.step pf) w (.connect now i plain h :: ops)).gateway.sent =
      w.gateway.sent ++ l ∧ ∀ m ∈ l, m.1 = i → ¬m.2.AboutOrder := by
  obtain ⟨hout, hsent⟩ := runs_outside pf now i plain h
    (fun a => login_restaurant hpf user issued now hjwt) w ops hops
  refine ⟨?_, hsent⟩
  rintro s hs hi ⟨r, hr⟩
  exact hout s hs hi _ hr (.inl ⟨r, rfl⟩)

theorem samplePlatform_signsClaims : samplePlatform.SignsClaims := by
  intro now now' c expiresIn q hq k _ _
  by_cases hc : c = managerClaims
  · simp only [samplePlatform, hc, if_pos, Option.some.injEq] at hq
    rw [← hq, hc]
  · simp [samplePlatform, hc] at hq

theorem login_sample : login samplePlatform 0 sampleManager = "manager" := by
  have hclaims : [("sub", sampleManager.id.text), ("email", sampleManager.email),
      ("role", sampleManager.role.text)] = managerClaims := rfl
  rw [login, hclaims]
  simp [samplePlatform]

def managerHandshake : Handshake := ⟨some "manager", none, none⟩

theorem sampleSocket_plain : ':' ∉ "s1".toList := by decide

def managerConnects : EventOp := .connect 0 "s1" sampleSocket_plain managerHandshake

theorem managerSocket_outside :
    managerHandshake.jwt = some (login samplePlatform 0 sampleManager) ∧
    ∃ s ∈ (EventOp.step samplePlatform sampleWorld managerConnects).gateway.sockets,
      s.id = "s1" ∧ ¬∃ r, "restaurant:" ++ r ∈ s.rooms := by
  refine ⟨by rw [login_sample]; rfl,
    ⟨"s1", ["s1", "system:notifications"], by decide⟩, by decide +kernel, rfl, ?_⟩
  rintro ⟨r, hr⟩
  have hchars := StaffRoom.chars (.inl ⟨r, rfl⟩)
  revert hchars
  simp only [List.mem_cons, List.not_mem_nil, or_false] at hr
  rcases hr with hr | hr
  · rw [hr]
    decide
  · rw [hr]
    decide

/-- A guest orders, and the manager takes the order up. -/
def orderAndCook : List EventOp :=
  [.place sampleEnv ⟨(sampleId 2).text, some [⟨(sampleId 4).text, 1, none⟩], none⟩ none (some "g")
      noFault,
    .update (sampleId 8).text .cooking (sampleId 5).text noFault]

theorem managerSocket_never_joins :
    let w := runs (EventOp.step samplePlatform) sampleWorld (managerConnects :: orderAndCook)
    w.db.orders.map OrderRow.status = ["COOKING"] ∧
    (∃ s ∈ w.gateway.sockets, s.id = "s1") ∧
    (∀ s ∈ w.gateway.sockets, s.id = "s1" → ¬∃ r, "restaurant:" ++ r ∈ s.rooms) ∧
    ∀ m ∈ w.gateway.sent, m.1 = "s1" → ¬m.2.AboutOrder := by
  obtain ⟨hrooms, l, hl, hsent⟩ := staffSocket_never_joins samplePlatform
    samplePlatform_signsClaims sampleManager 0 0 "s1" sampleSocket_plain managerHandshake
    (by rw [login_sample]; rfl) sampleWorld orderAndCook
    (List.forall_mem_cons.2 ⟨id, List.forall_mem_singleton.2 id⟩)
  refine ⟨by decide +kernel, by decide +kernel, hrooms, fun m hm => hsent m ?_⟩
  rwa [managerConnects, hl] at hm

/-- A socket is sent the new status of an order between two states. -/
def Notified (i : String) (order : Uuid) (status : OrderStatus) (w w' : World) : Prop :=
  ∃ e, e.orderId = order ∧ e.status = status.text ∧
    (i, .orderStatus e) ∈ w'.gateway.sent.drop w.gateway.sent.length

theorem authenticateSocket_guest (hjwt : (Handshake.jwt h).bind (pf.verify now) = none)
    (ha : authenticateSocket pf now h = some a) :
    ∃ t p, given h.guestToken = some t ∧ verifyGuestToken pf now t = .ok p ∧
      a.tableId = some p.tableId ∧ a.restaurantId = none := by
  rw [authenticateSocket, hjwt] at ha
  dsimp only at ha
  rw [authenticateGuest] at ha
  split at ha
  · cases ha
  · rename_i t ht
    split at ha
    · rename_i p hp
      cases ha
      exact ⟨t, p, ht, hp, rfl, rfl⟩
    · cases ha

theorem guest_restaurant (hjwt : (Handshake.jwt h).bind (pf.verify now) = none)
    (ha : authenticateSocket pf now h = some a) : given a.restaurantId = none := by
  obtain ⟨_, _, _, _, _, hnone⟩ := authenticateSocket_guest hjwt ha
  rw [hnone]
  rfl

/-- No update of any order is told to a socket that has no web token, whatever guest token let
it in. -/
theorem guestSocket_never_notified (pf : Platform) (now : Nat) (i : String)
    (plain : ':' ∉ i.toList) (h : Handshake) (hjwt : h.jwt.bind (pf.verify now) = none)
    (w : World) (ops : List EventOp) (hops : ∀ op ∈ ops, ¬op.Connects i) (orderId : String)
    (status : OrderStatus) (userId : String) (f : Site → Bool) (order : Uuid) :
    ¬Notified i order status (runs (EventOp.step pf) w (.connect now i plain h :: ops))
      ((updateOrderStatus orderId status userId).run f
        (runs (EventOp.step pf) w (.connect now i plain h :: ops))).2 := by
  have hout := (runs_outside pf now i plain h (fun a => guest_restaurant hjwt) w ops hops).1
  obtain ⟨_, l, hl, hnone⟩ := EventOp.passesBy pf _ (.update orderId status userId f) id hout
  rintro ⟨e, _, _, he⟩
  rw [EventOp.step] at hl
  rw [hl, List.drop_left] at he
  exact hnone _ he rfl trivial

def guestHandshake : Handshake := ⟨none, none, some "payload.signature"⟩

/-- The sample restaurant with one order at its table. -/
def orderedTables : Tables :=
  { sampleTables with
    orders :=
      [⟨sampleId 6, sampleId 1, some (sampleId 2), none, some "g", "PENDING", 1, none, 0, 0⟩]
    orderItems := [⟨sampleId 7, sampleId 6, sampleId 4, 1, 1, none, 0, 0⟩] }

theorem orderedTables_valid : orderedTables.Valid := by
  constructor <;> simp [orderedTables, sampleTables, UniqueKey, Refs, FitsNumeric]

/-- A guest at the table is connected. -/
def guestWorld : World :=
  EventOp.step samplePlatform ⟨⟨orderedTables, orderedTables_valid⟩, Redis.empty, Gateway.empty⟩
    (.connect 0 "s1" (by decide) guestHandshake)

/-- The manager takes the order up. -/
def takenUp : Except ApiError Order × World :=
  (updateOrderStatus (sampleId 6).text .cooking (sampleId 5).text).run noFault guestWorld

theorem guestSocket_unnotified :
    (∃ s ∈ guestWorld.gateway.sockets, s.id = "s1" ∧
      "table:" ++ (sampleId 2).text ∈ s.rooms) ∧
    (∃ order ∈ takenUp.1.toOption, order.id = sampleId 6 ∧ order.table.id = sampleId 2) ∧
    ¬Notified "s1" (sampleId 6) .cooking guestWorld takenUp.2 := by
  refine ⟨by decide +kernel, by decide +kernel, ?_⟩
  have hsent : takenUp.2.gateway.sent = [] := by decide +kernel
  rintro ⟨e, _, _, he⟩
  rw [hsent, List.drop_nil] at he
  exact absurd he List.not_mem_nil

theorem guestSocket_never_notified_sample :
    ¬Notified "s1" (sampleId 6) .cooking guestWorld takenUp.2 :=
  guestSocket_never_notified samplePlatform 0 "s1" (by decide) guestHandshake rfl
    ⟨⟨orderedTables, orderedTables_valid⟩, Redis.empty, Gateway.empty⟩ [] (fun _ h => by cases h)
    (sampleId 6).text .cooking (sampleId 5).text noFault (sampleId 6)

end DineFlow
