import DineFlow.EventDelivery

namespace DineFlow
open Atomic Relational
set_option autoImplicit true

/-- The handshake of a connection that is made under a socket id. -/
def EventOp.handshake (i : String) : EventOp → Option (Nat × Handshake)
  | .connect now id _ h => if id = i then some (now, h) else none
  | _ => none

def lastHandshake (ops : List EventOp) (i : String) : Option (Nat × Handshake) :=
  ops.reverse.findSome? (EventOp.handshake i)

theorem lastHandshake_snoc (ops : List EventOp) (op : EventOp) (i : String) :
    lastHandshake (ops ++ [op]) i = (op.handshake i).or (lastHandshake ops i) := by
  rw [lastHandshake, List.reverse_append, List.reverse_singleton, List.singleton_append,
    List.findSome?_cons]
  cases op.handshake i <;> rfl

/-- The sockets are the same, and what is known of them. -/
def SameClients (g g' : Gateway) : Prop :=
  g'.sockets = g.sockets ∧ g'.connectedClients = g.connectedClients

theorem run_sameClients {p : Api α} (h : p.Within fun w w' => SameClients w.gateway w'.gateway)
    (f : Site → Bool) (w : World) : SameClients w.gateway (p.run f w).2.gateway :=
  h.run (R := fun w w' => SameClients w.gateway w'.gateway) (fun _ => ⟨rfl, rfl⟩)
    (fun h h' => ⟨h'.1.trans h.1, h'.2.trans h.2⟩) f w

theorem PlaceStep.sameClients (h : PlaceStep w w') : SameClients w.gateway w'.gateway := by
  cases h <;> exact ⟨rfl, rfl⟩

theorem StatusStep.sameClients (h : StatusStep w w') : SameClients w.gateway w'.gateway := by
  cases h <;> exact ⟨rfl, rfl⟩

theorem tableRequest_sameClients (id tableId requestType : String) (g : Gateway) :
    SameClients g (handleTableRequest id tableId requestType g) := by
  rw [handleTableRequest]
  split
  · split <;> exact ⟨rfl, rfl⟩
  · exact ⟨rfl, rfl⟩

theorem acknowledge_sameClients (id : String) (g : Gateway) :
    SameClients g (handleOrderAcknowledge id g) := by
  rw [handleOrderAcknowledge]
  split
  · split <;> exact ⟨rfl, rfl⟩
  · exact ⟨rfl, rfl⟩

/-- What is known of a socket that is there after a step was known of it before. -/
def Stays (g g' : Gateway) (s : Socket) : Prop :=
  s ∈ g'.sockets → s ∈ g.sockets ∧ g'.client s.id = g.client s.id

theorem SameClients.stays (h : SameClients g g') (s : Socket) : Stays g g' s := by
  intro hs
  rw [h.1] at hs
  rw [Gateway.client, h.2]
  exact ⟨hs, rfl⟩

theorem client_disconnect {i id : String} (h : i ≠ id) (g : Gateway) :
    (handleDisconnect id g).client i = g.client i := by
  rw [Gateway.client, handleDisconnect, List.find?_filter, Gateway.client]
  congr 2
  funext c
  by_cases hc : c.1 = i
  · simp [hc, h]
  · simp [hc]

theorem disconnect_stays (id : String) (g : Gateway) (s : Socket) :
    Stays g (handleDisconnect id g) s := by
  intro hs
  obtain ⟨hs, hid⟩ := List.mem_filter.1 hs
  exact ⟨hs, client_disconnect (of_decide_eq_true hid) g⟩

theorem connect_stays (pf : Platform) (now : Nat) (id : String) (plain : ':' ∉ id.toList)
    (h : Handshake) (g : Gateway) (hid : id ≠ s.id) :
    Stays g (handleConnection pf now id plain h g) s := by
  intro hs
  rw [handleConnection] at hs ⊢
  cases ha : authenticateSocket pf now h with
  | none =>
    rw [ha] at hs
    exact disconnect_stays id g s hs
  | some a =>
    rw [ha] at hs
    rcases List.mem_cons.1 hs with rfl | hs
    · exact absurd rfl hid
    · obtain ⟨hold, hclient⟩ := disconnect_stays id g s hs
      refine ⟨hold, Eq.trans ?_ hclient⟩
      rw [Gateway.client, List.find?_cons_of_neg (by simpa using hid)]
      rfl

theorem EventOp.step_gateway {P : Gateway → Prop} (pf : Platform) (w : World) (op : EventOp)
    (hconnect : ∀ now id plain h, op = .connect now id plain h →
      P (handleConnection pf now id plain h w.gateway))
    (hdisconnect : ∀ id, P (handleDisconnect id w.gateway))
    (hsame : ∀ g, SameClients w.gateway g → P g) : P (op.step pf w).gateway := by
  cases op with
  | connect now id plain h => exact hconnect now id plain h rfl
  | disconnect id => exact hdisconnect id
  | tableRequest id tableId requestType => exact hsame _ (tableRequest_sameClients _ _ _ _)
  | acknowledge id => exact hsame _ (acknowledge_sameClients _ _)
  | place env input userId guestId f =>
    apply hsame
    exact run_sameClients ((placeOrder_within env input userId guestId).mono
      fun _ _ h => h.sameClients) f w
  | update orderId status userId f =>
    apply hsame
    exact run_sameClients ((updateOrderStatus_within orderId status userId).mono
      fun _ _ h => h.sameClients) f w

theorem EventOp.stays (pf : Platform) (w : World) (op : EventOp) (h : op.handshake s.id = none) :
    Stays w.gateway (op.step pf w).gateway s := by
  apply op.step_gateway (P := fun g => Stays w.gateway g s) pf w
  case hconnect =>
    intro now id plain hs hop
    apply connect_stays
    intro he
    rw [hop, EventOp.handshake, if_pos he] at h
    cases h
  case hdisconnect => exact fun id => disconnect_stays id w.gateway s
  case hsame => exact fun g hg => hg.stays s

/-- The rooms of a socket come from the tokens of its last handshake. -/
def Admitted (pf : Platform) (ops : List EventOp) (g : Gateway) (s : Socket) : Prop :=
  ∃ now h a, lastHandshake ops s.id = some (now, h) ∧ authenticateSocket pf now h = some a ∧
    s.rooms = s.id :: a.metadata.joinedRooms ∧ g.client s.id = some a.metadata

theorem connect_admitted (pf : Platform) (ops : List EventOp) (now : Nat)
    (plain : ':' ∉ s.id.toList)
    (h : Handshake) (g : Gateway) (hs : s ∈ (handleConnection pf now s.id plain h g).sockets) :
    Admitted pf (ops ++ [.connect now s.id plain h])
      (handleConnection pf now s.id plain h g) s := by
  have hgone : s ∉ (handleDisconnect s.id g).sockets :=
    fun hs => of_decide_eq_true (List.mem_filter.1 hs).2 rfl
  refine ⟨now, h, ?_⟩
  rw [lastHandshake_snoc, EventOp.handshake, if_pos rfl, handleConnection]
  rw [handleConnection] at hs
  cases ha : authenticateSocket pf now h with
  | none =>
    rw [ha] at hs
    exact absurd hs hgone
  | some a =>
    rw [ha] at hs
    refine ⟨a, rfl, rfl, ?_, ?_⟩
    · rcases List.mem_cons.1 hs with hs | hs
      · rw [congrArg Socket.rooms hs]
      · exact absurd hs hgone
    · rw [Gateway.client, List.find?_cons_of_pos (by simp)]
      rfl

/-- Every socket that is connected was let in by its last handshake. -/
theorem runs_admitted (pf : Platform) (db : Db) (redis : Redis) (ops : List EventOp) :
    ∀ s ∈ (runs (EventOp.step pf) ⟨db, redis, .empty⟩ ops).gateway.sockets,
      Admitted pf ops (runs (EventOp.step pf) ⟨db, redis, .empty⟩ ops).gateway s := by
  induction ops using List.reverseRecOn with
  | nil =>
    intro s hs
    cases hs
  | append_singleton ops op ih =>
    rw [runs_append]
    generalize runs (EventOp.step pf) ⟨db, redis, .empty⟩ ops = w at ih
    intro s hs
    cases hop : op.handshake s.id with
    | none =>
      obtain ⟨hold, hclient⟩ := op.stays pf w hop hs
      obtain ⟨now, h, a, hlast, ha, hrooms, hmeta⟩ := ih s hold
      refine ⟨now, h, a, ?_, ha, hrooms, hclient.trans hmeta⟩
      rw [lastHandshake_snoc, hop]
      exact hlast
    | some c =>
      cases op with
      | connect now id plain h =>
        rw [EventOp.handshake] at hop
        split at hop
        · rename_i hid
          subst hid
          exact connect_admitted pf ops now plain h w.gateway hs
        · cases hop
      | _ => cases hop

/-- The roles whose sockets join the room of a restaurant. -/
def staffRoles : List String := ["waiter", "kitchen", "manager", "admin"]

/-- The families of rooms that a socket may join, and what is needed for each. -/
theorem mem_relevantRooms (h : room ∈ relevantRooms m) :
    (∃ t, given m.tableId = some t ∧ room = "table:" ++ t) ∨
      (∃ r, given m.restaurantId = some r ∧ ((m.role ∈ staffRoles ∧ room = "restaurant:" ++ r) ∨
        (m.role = "kitchen" ∧ room = "kitchen:" ++ r) ∨ ∃ u, room = "waiter:" ++ u)) ∨
      room = "system:notifications" := by
  rcases List.mem_append.1 h with h | h
  · rcases List.mem_append.1 h with h | h
    · split at h
      · rename_i t ht
        split at h
        · exact .inl ⟨t, ht, List.mem_singleton.1 h⟩
        · cases h
      · cases h
    · split at h
      · rename_i r hr
        refine .inr (.inl ⟨r, hr, ?_⟩)
        rcases List.mem_append.1 h with h | h
        · rcases List.mem_append.1 h with h | h
          · split at h
            · rename_i hrole
              exact .inl ⟨hrole, List.mem_singleton.1 h⟩
            · cases h
          · split at h
            · rename_i hrole
              exact .inr (.inl ⟨hrole, List.mem_singleton.1 h⟩)
            · cases h
        · split at h
          · rename_i u _
            split at h
            · exact .inr (.inr ⟨u, List.mem_singleton.1 h⟩)
            · cases h
          · cases h
      · cases h
  · exact .inr (.inr (List.mem_singleton.1 h))

theorem head_of_eq {s t : String} (h : s = t) : s.toList.head? = t.toList.head? := by rw [h]

theorem staffRoom_mem (h : room ∈ relevantRooms m)
    (hroom : room = "restaurant:" ++ r ∨ room = "kitchen:" ++ r) :
    m.role ∈ staffRoles ∧ given m.restaurantId = some r := by
  have hchars := StaffRoom.chars (hroom.imp (fun h => ⟨r, h⟩) fun h => ⟨r, h⟩)
  rcases mem_relevantRooms h with ⟨t, _, rfl⟩ | ⟨r', hr', ⟨hrole, rfl⟩ | ⟨hrole, rfl⟩ | ⟨u, rfl⟩⟩ |
    rfl
  · simp at hchars
  · rcases hroom with hroom | hroom
    · rw [String.append_right_inj] at hroom
      exact ⟨hrole, hroom ▸ hr'⟩
    · simpa using head_of_eq hroom
  · rcases hroom with hroom | hroom
    · simpa using head_of_eq hroom
    · rw [String.append_right_inj] at hroom
      exact ⟨hrole ▸ by decide, hroom ▸ hr'⟩
  · simp at hchars
  · simp at hchars

/-- The web token of a handshake verifies and is one of the staff of a restaurant. -/
def StaffToken (pf : Platform) (now : Nat) (h : Handshake) (r : String) : Prop :=
  ∃ claims, h.jwt.bind (pf.verify now) = some claims ∧
    (∃ role ∈ staffRoles, claims.get "role" = some role) ∧ claims.get "restaurantId" = some r

theorem given_some (h : given o = some s) : o = some s := (Option.filter_eq_some_iff.1 h).1

theorem staffToken_of_metadata (ha : authenticateSocket pf now h = some a)
    (hrole : a.metadata.role ∈ staffRoles) (hr : given a.metadata.restaurantId = some r) :
    StaffToken pf now h r := by
  cases hjwt : h.jwt.bind (pf.verify now) with
  | none =>
    have hnone : given a.metadata.restaurantId = none := guest_restaurant hjwt ha
    rw [hnone] at hr
    cases hr
  | some claims =>
    rw [authenticateSocket, hjwt] at ha
    cases ha
    refine ⟨claims, hjwt, ⟨_, hrole, ?_⟩, given_some hr⟩
    change claims.get "role" = some ((given (claims.get "role")).getD "guest")
    cases hg : given (claims.get "role") with
    | some role => exact given_some hg
    | none =>
      change (given (claims.get "role")).getD "guest" ∈ staffRoles at hrole
      rw [hg] at hrole
      exact absurd hrole (by decide)

/-- A call of one of the methods of the gateway that announce something to a restaurant. -/
inductive Emission where
  | orderPlaced (e : OrderPlacedEvent)
  | orderStatusChanged (e : OrderStatusEvent)
  | tableRequest (e : TableRequestEvent)

def Emission.restaurantId : Emission → Option String
  | .orderPlaced e => some e.restaurantId
  | .orderStatusChanged e => some e.restaurantId
  | .tableRequest e => e.restaurantId

def Emission.emit : Emission → Gateway → Gateway
  | .orderPlaced e => emitOrderPlaced e
  | .orderStatusChanged e => emitOrderStatusChanged e
  | .tableRequest e => emitTableRequest e

/-- What is sent because of a call, with the socket it is sent to. -/
def Emission.delivered (em : Emission) (g : Gateway) : List (String × Event) :=
  (em.emit g).sent.drop g.sent.length

theorem mem_copies {sockets : List Socket} {m : String × Event}
    (h : m ∈ (sockets.filter fun s => room ∈ s.rooms).map fun s => (s.id, e)) :
    ∃ s ∈ sockets, s.id = m.1 ∧ room ∈ s.rooms := by
  obtain ⟨s, hs, rfl⟩ := List.mem_map.1 h
  obtain ⟨hs, hroom⟩ := List.mem_filter.1 hs
  exact ⟨s, hs, rfl, of_decide_eq_true hroom⟩

theorem Emission.mem_delivered {em : Emission} (hr : em.restaurantId = some r)
    (h : m ∈ em.delivered g) : ∃ s ∈ g.sockets, s.id = m.1 ∧
      ∃ room ∈ s.rooms, room = "restaurant:" ++ r ∨ room = "kitchen:" ++ r := by
  cases em with
  | orderPlaced e =>
    cases hr
    rw [delivered, emit, emitOrderPlaced, Gateway.emit, Gateway.emit, List.append_assoc,
      List.drop_left] at h
    rcases List.mem_append.1 h with h | h
    · obtain ⟨s, hs, hid, hroom⟩ := mem_copies h
      exact ⟨s, hs, hid, _, hroom, .inl rfl⟩
    · obtain ⟨s, hs, hid, hroom⟩ := mem_copies h
      exact ⟨s, hs, hid, _, hroom, .inr rfl⟩
  | orderStatusChanged e =>
    cases hr
    rw [delivered, emit, emitOrderStatusChanged, Gateway.emit, List.drop_left] at h
    obtain ⟨s, hs, hid, hroom⟩ := mem_copies h
    exact ⟨s, hs, hid, _, hroom, .inl rfl⟩
  | tableRequest e =>
    rw [restaurantId] at hr
    rw [delivered, emit, emitTableRequest, hr, Gateway.emit, List.drop_left] at h
    obtain ⟨s, hs, hid, hroom⟩ := mem_copies h
    exact ⟨s, hs, hid, _, hroom, .inl rfl⟩

theorem Admitted.staffToken (h : Admitted pf ops g s) (hroom : room ∈ s.rooms)
    (hr : room = "restaurant:" ++ r ∨ room = "kitchen:" ++ r) :
    ∃ now hs, lastHandshake ops s.id = some (now, hs) ∧ StaffToken pf now hs r := by
  obtain ⟨now, hs, a, hlast, ha, hrooms, _⟩ := h
  refine ⟨now, hs, hlast, ?_⟩
  rw [hrooms] at hroom
  rcases List.mem_cons.1 hroom with rfl | hroom
  · -- the room of its own id has no colon in its name
    exact absurd (StaffRoom.chars (hr.imp (fun h => ⟨r, h⟩) fun h => ⟨r, h⟩)).1 s.plain
  · obtain ⟨hrole, hgiven⟩ := staffRoom_mem hroom hr
    exact staffToken_of_metadata ha hrole hgiven

/-- The rooms of a socket that was let in by a guest token. -/
def GuestRooms (pf : Platform) (now : Nat) (h : Handshake) (s : Socket) : Prop :=
  ∃ t p, given h.guestToken = some t ∧ verifyGuestToken pf now t = .ok p ∧
    ∀ room ∈ s.rooms, room = "table:" ++ p.tableId ∨ room = "system:notifications" ∨ room = s.id

theorem Admitted.guestRooms (h : Admitted pf ops g s)
    (hlast : lastHandshake ops s.id = some (now, hs))
    (hjwt : hs.jwt.bind (pf.verify now) = none) : GuestRooms pf now hs s := by
  obtain ⟨now', hs', a, hlast', ha, hrooms, _⟩ := h
  cases hlast.symm.trans hlast'
  obtain ⟨t, p, ht, hp, htable, hrest⟩ := authenticateSocket_guest hjwt ha
  refine ⟨t, p, ht, hp, fun room hroom => ?_⟩
  rw [hrooms] at hroom
  rcases List.mem_cons.1 hroom with rfl | hroom
  · exact .inr (.inr rfl)
  · rcases mem_relevantRooms hroom with ⟨t', ht', rfl⟩ | ⟨r, hr, _⟩ | hroom
    · have htext : p.tableId = t' := Option.some.inj (htable.symm.trans (given_some ht'))
      exact .inl (htext ▸ rfl)
    · have hnone : a.restaurantId = some r := given_some hr
      rw [hrest] at hnone
      cases hnone
    · exact .inr (.inl hroom)

/-- Events of a restaurant reach its staff only, and the sockets of guests are in no room but
that of their table and that of the system. -/
theorem rooms_isolated (pf : Platform) (db : Db) (redis : Redis) (ops : List EventOp) :
    (∀ (em : Emission) (r : String), em.restaurantId = some r →
      ∀ m ∈ em.delivered (runs (EventOp.step pf) ⟨db, redis, .empty⟩ ops).gateway,
        ∃ now h, lastHandshake ops m.1 = some (now, h) ∧ StaffToken pf now h r) ∧
    ∀ s ∈ (runs (EventOp.step pf) ⟨db, redis, .empty⟩ ops).gateway.sockets,
      (∃ m, (runs (EventOp.step pf) ⟨db, redis, .empty⟩ ops).gateway.client s.id = some m ∧
        s.rooms = s.id :: m.joinedRooms) ∧
      ∀ now h, lastHandshake ops s.id = some (now, h) → h.jwt.bind (pf.verify now) = none →
        GuestRooms pf now h s := by
  have hall := runs_admitted pf db redis ops
  constructor
  · intro em r hr m hm
    obtain ⟨s, hs, hid, room, hroom, hname⟩ := em.mem_delivered hr hm
    rw [← hid]
    exact (hall s hs).staffToken hroom hname
  · intro s hs
    refine ⟨?_, fun now h hlast hjwt => (hall s hs).guestRooms hlast hjwt⟩
    obtain ⟨_, _, a, _, _, hrooms, hmeta⟩ := hall s hs
    exact ⟨a.metadata, hmeta, hrooms⟩

/-- A platform with one web token, of a waiter of one restaurant. -/
def waiterPlatform : Platform :=
  { samplePlatform with
    verify := fun _ token =>
      if token = "waiter" then some [("role", "waiter"), ("restaurantId", "r1")] else none }

/-- A waiter and a guest connect. -/
def twoConnect : List EventOp :=
  [.connect 0 "s1" sampleSocket_plain ⟨some "waiter", none, none⟩,
    .connect 0 "s2" (by decide) guestHandshake]

theorem rooms_isolated_sample :
    ("s1", .tableRequest ⟨"t", "bill", some "r1"⟩) ∈
        (Emission.tableRequest ⟨"t", "bill", some "r1"⟩).delivered
          (runs (EventOp.step waiterPlatform) ⟨sampleWorld.db, .empty, .empty⟩ twoConnect).gateway ∧
      ∃ now h, lastHandshake twoConnect "s1" = some (now, h) ∧
        StaffToken waiterPlatform now h "r1" := by
  have hsent : ("s1", .tableRequest ⟨"t", "bill", some "r1"⟩) ∈
      (Emission.tableRequest ⟨"t", "bill", some "r1"⟩).delivered
        (runs (EventOp.step waiterPlatform)
          ⟨sampleWorld.db, .empty, .empty⟩ twoConnect).gateway := by
    decide +kernel
  exact ⟨hsent, (rooms_isolated waiterPlatform sampleWorld.db .empty twoConnect).1
    (.tableRequest ⟨"t", "bill", some "r1"⟩) "r1" rfl _ hsent⟩

end DineFlow
