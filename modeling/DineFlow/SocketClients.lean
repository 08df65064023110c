import DineFlow.Effects
import DineFlow.OrderNews

namespace DineFlow
open Atomic Relational
set_option autoImplicit true

def getConnectedClientsCount (g : Gateway) : Nat := g.connectedClients.length

def getRestaurantClients (restaurantId : String) (g : Gateway) : Nat :=
  (g.connectedClients.filter fun c => c.2.restaurantId = some restaurantId).length

/-- A socket and an entry of the gateway's map that belong together. -/
def Registered (s : Socket) (c : String × SocketMetadata) : Prop :=
  s.id = c.1 ∧ s.rooms = s.id :: relevantRooms c.2

/-- The server's sockets are those of the gateway's map, in the rooms that it has for them. -/
def Gateway.Matched (g : Gateway) : Prop := List.Forall₂ Registered g.sockets g.connectedClients

theorem forall₂_filter {R : α → β → Prop} {p : α → Bool} {q : β → Bool}
    (h : List.Forall₂ R as bs) (hpq : ∀ a b, R a b → p a = q b) :
    List.Forall₂ R (as.filter p) (bs.filter q) := by
  induction h with
  | nil => exact .nil
  | cons hab _ ih =>
    rw [List.filter_cons, List.filter_cons, hpq _ _ hab]
    split
    · exact .cons hab ih
    · exact ih

theorem Gateway.Matched.disconnect {g : Gateway} (h : g.Matched) (id : String) :
    (handleDisconnect id g).Matched := by
  apply forall₂_filter h
  intro s c hsc
  rw [hsc.1]

theorem Gateway.Matched.connect {g : Gateway} (h : g.Matched) (pf : Platform) (now : Nat)
    (id : String) (plain : ':' ∉ id.toList) (hs : Handshake) :
    (handleConnection pf now id plain hs g).Matched := by
  rw [handleConnection]
  cases authenticateSocket pf now hs with
  | none => exact h.disconnect id
  | some a => exact .cons ⟨rfl, rfl⟩ (h.disconnect id)

theorem SameClients.matched (h : SameClients g g') (hg : g.Matched) : g'.Matched := by
  rw [Gateway.Matched, h.1, h.2]
  exact hg

/-- What the sockets of clients do to the gateway, apart from what is sent. -/
theorem SocketOp.serve_cases {P : Gateway → Prop} (pf : Platform) (op : SocketOp) (g : Gateway)
    (hconnect : ∀ now id plain h, op = .connect now id plain h →
      P (handleConnection pf now id plain h g))
    (hdisconnect : ∀ id, P (handleDisconnect id g)) (hsame : ∀ g', SameClients g g' → P g') :
    P (op.serve pf g) := by
  cases op with
  | connect now id plain h => exact hconnect now id plain h rfl
  | disconnect id => exact hdisconnect id
  | tableRequest id tableId requestType =>
    exact hsame _ (tableRequest_sameClients id tableId requestType g)
  | acknowledge id => exact hsame _ (acknowledge_sameClients id g)

theorem Effect.sameClients (h : Effect pf r op w w') : SameClients w.gateway w'.gateway := by
  cases h <;> exact ⟨rfl, rfl⟩

theorem Gateway.Matched.serveLive (pf : Platform) (calls : List (Request × Operation))
    (ops : List SocketOp) (h : w.gateway.Matched) (turns : List (Nat × Bool)) :
    (runs Pool.turn (serveLive pf calls ops w) turns).state.gateway.Matched := by
  apply serveLive_invariant (I := fun w => w.gateway.Matched)
  · intro c _ w w' heffect hw
    exact heffect.sameClients.matched hw
  · intro op _ w hw
    apply op.serve_cases (P := Gateway.Matched) pf w.gateway
    · intro now id plain hs _
      exact hw.connect pf now id plain hs
    · exact hw.disconnect
    · exact fun g hg => hg.matched hw
  · exact h

theorem restaurantRoom_iff :
    "restaurant:" ++ r ∈ relevantRooms m ↔ m.role ∈ staffRoles ∧ given m.restaurantId = some r := by
  constructor
  · exact fun h => staffRoom_mem h (.inl rfl)
  · rintro ⟨hrole, hr⟩
    have hrole' : m.role ∈ ["waiter", "kitchen", "manager", "admin"] := hrole
    rw [relevantRooms, hr]
    simp only [if_pos hrole', List.mem_append, List.mem_singleton, true_or, or_true]

theorem kitchenRoom_iff :
    "kitchen:" ++ r ∈ relevantRooms m ↔ m.role = "kitchen" ∧ given m.restaurantId = some r :=
  ⟨kitchenRoom_mem, fun h => (kitchen_rooms h.1 h.2).2⟩

theorem Registered.ids (h : List.Forall₂ Registered sockets clients) :
    sockets.map Socket.id = clients.map Prod.fst := by
  induction h with
  | nil => rfl
  | cons hsc _ ih => rw [List.map_cons, List.map_cons, hsc.1, ih]

theorem Gateway.Matched.members {g : Gateway} (h : g.Matched) (room : String)
    (hcolon : ':' ∈ room.toList) :
    (g.sockets.filter fun s => room ∈ s.rooms).map Socket.id =
      (g.connectedClients.filter fun c => room ∈ relevantRooms c.2).map Prod.fst := by
  apply Registered.ids
  apply forall₂_filter h
  intro s c hsc
  have hne : room ≠ s.id := fun he => s.plain (he ▸ hcolon)
  rw [hsc.2]
  simp [hne]

/-- However requests and connections interleave, the server's rooms are what the gateway's map says
of its clients: as many sockets are connected as it counts, and those in the rooms of a restaurant
are its clients with that restaurant and a staff role, all of which it counts for the restaurant. -/
theorem rooms_match_clients (pf : Platform) (calls : List (Request × Operation))
    (ops : List SocketOp) (w : World) (hw : w.gateway.Matched) (turns : List (Nat × Bool)) :
    let g := (runs Pool.turn (serveLive pf calls ops w) turns).state.gateway
    g.sockets.length = getConnectedClientsCount g ∧ ∀ r,
      (g.sockets.filter fun s => "restaurant:" ++ r ∈ s.rooms).map Socket.id =
        (g.connectedClients.filter fun c =>
          c.2.role ∈ staffRoles ∧ given c.2.restaurantId = some r).map Prod.fst ∧
      (g.sockets.filter fun s => "kitchen:" ++ r ∈ s.rooms).map Socket.id =
        (g.connectedClients.filter fun c =>
          c.2.role = "kitchen" ∧ given c.2.restaurantId = some r).map Prod.fst ∧
      (g.sockets.filter fun s => "restaurant:" ++ r ∈ s.rooms).length ≤
        getRestaurantClients r g := by
  intro g
  have hg : g.Matched := hw.serveLive pf calls ops turns
  have hrestaurant (r : String) := hg.members ("restaurant:" ++ r) (by simp)
  have hkitchen (r : String) := hg.members ("kitchen:" ++ r) (by simp)
  simp only [restaurantRoom_iff] at hrestaurant
  simp only [kitchenRoom_iff] at hkitchen
  refine ⟨List.Forall₂.length_eq hg, fun r => ⟨hrestaurant r, hkitchen r, ?_⟩⟩
  have hlength := congrArg List.length (hrestaurant r)
  rw [List.length_map, List.length_map] at hlength
  rw [hlength, getRestaurantClients, ← List.countP_eq_length_filter,
    ← List.countP_eq_length_filter]
  apply List.countP_mono_left
  intro c _ hc
  exact decide_eq_true (given_some (of_decide_eq_true hc).2)

theorem secondSocket_plain : ':' ∉ "s2".toList := by decide

/-- Two cooks of one restaurant are connected, and one of them leaves. -/
def cookLeaves : List SocketOp :=
  [.connect 0 "s1" sampleSocket_plain ⟨some "cook", none, none⟩,
    .connect 0 "s2" secondSocket_plain ⟨some "cook", none, none⟩, .disconnect "s1"]

theorem rooms_match_clients_sample :
    Gateway.empty.Matched ∧
      (runs Pool.turn (serveLive cookPlatform [] cookLeaves sampleWorld)
        [(0, false), (1, false), (2, false)]).state.gateway.sockets.length =
      getConnectedClientsCount
        (runs Pool.turn (serveLive cookPlatform [] cookLeaves sampleWorld)
          [(0, false), (1, false), (2, false)]).state.gateway :=
  ⟨.nil, (rooms_match_clients cookPlatform [] cookLeaves sampleWorld .nil
    [(0, false), (1, false), (2, false)]).1⟩

/-- The handshake of `useSocket`, with an empty `auth` and no header of its own. -/
def webHandshake : Handshake := ⟨none, none, none⟩

def SocketOp.FromWeb : SocketOp → Prop
  | .connect _ _ _ h => h = webHandshake
  | _ => True

/-- Nobody is connected, and all that has been sent since are refusals. -/
structure Deaf (g₀ g : Gateway) : Prop where
  sockets : g.sockets = []
  clients : g.connectedClients = []
  sent : ∃ refusals, g.sent = g₀.sent ++ refusals ∧ ∀ m ∈ refusals, m.2 = .error "Unauthorized"

theorem Deaf.emit (h : Deaf g₀ g) (room : String) (e : Event) : Deaf g₀ (g.emit room e) := by
  refine ⟨h.sockets, h.clients, ?_⟩
  rw [Gateway.emit, h.sockets, List.filter_nil, List.map_nil, List.append_nil]
  exact h.sent

theorem Deaf.refuse (h : Deaf g₀ g) (id : String) :
    Deaf g₀ (g.send id (.error "Unauthorized")) := by
  obtain ⟨refusals, hsent, hall⟩ := h.sent
  refine ⟨h.sockets, h.clients, refusals ++ [(id, .error "Unauthorized")], ?_, fun m hm => ?_⟩
  · rw [Gateway.send, hsent, List.append_assoc]
  · rcases List.mem_append.1 hm with hm | hm
    · exact hall m hm
    · rw [List.mem_singleton.1 hm]

theorem Deaf.disconnect (h : Deaf g₀ g) (id : String) : Deaf g₀ (handleDisconnect id g) := by
  refine ⟨?_, ?_, h.sent⟩
  · rw [handleDisconnect, h.sockets]
    rfl
  · rw [handleDisconnect, h.clients]
    rfl

theorem Deaf.client (h : Deaf g₀ g) (id : String) : g.client id = none := by
  rw [Gateway.client, h.clients]
  rfl

theorem authenticate_web (pf : Platform) (now : Nat) :
    authenticateSocket pf now webHandshake = none := rfl

theorem Deaf.serve (h : Deaf g₀ g) (pf : Platform) {op : SocketOp} (hop : op.FromWeb) :
    Deaf g₀ (op.serve pf g) := by
  cases op with
  | connect now id plain hs =>
    rw [SocketOp.serve, handleConnection, show hs = webHandshake from hop, authenticate_web]
    exact h.disconnect id
  | disconnect id => exact h.disconnect id
  | tableRequest id tableId requestType =>
    rw [SocketOp.serve, handleTableRequest, h.client]
    exact h.refuse id
  | acknowledge id =>
    rw [SocketOp.serve, handleOrderAcknowledge, h.client]
    exact h.refuse id

theorem Effect.deaf (h : Effect pf r op w w') (hw : Deaf g₀ w.gateway) : Deaf g₀ w'.gateway := by
  cases h with
  | statusNews e => exact hw.emit _ _
  | news e => exact (hw.emit _ _).emit _ _
  | _ => exact hw

/-- The web client's sockets are all refused: as long as nobody connects but through it, no order
is announced and no status reported to anybody, whatever is ordered and whatever staff do. -/
theorem web_clients_hear_nothing (pf : Platform) (calls : List (Request × Operation))
    (ops : List SocketOp) (hops : ∀ op ∈ ops, op.FromWeb) (w : World)
    (hsockets : w.gateway.sockets = []) (hclients : w.gateway.connectedClients = [])
    (turns : List (Nat × Bool)) :
    let g := (runs Pool.turn (serveLive pf calls ops w) turns).state.gateway
    getConnectedClientsCount g = 0 ∧ g.sockets = [] ∧
      ∃ refusals, g.sent = w.gateway.sent ++ refusals ∧
        ∀ m ∈ refusals, m.2 = .error "Unauthorized" := by
  intro g
  have hg : Deaf w.gateway g := by
    apply serveLive_invariant (I := fun w' => Deaf w.gateway w'.gateway)
    · intro c _ w₁ w₂ heffect hw
      exact heffect.deaf hw
    · intro op hop w₁ hw
      exact hw.serve pf (hops op hop)
    · exact ⟨hsockets, hclients, [], (List.append_nil _).symm, fun m hm => by cases hm⟩
  exact ⟨congrArg List.length hg.clients, hg.sockets, hg.sent⟩

/-- A cook's page connects, and a guest orders. -/
theorem web_clients_hear_nothing_sample :
    (runs Pool.turn (serveLive cookPlatform [orderTwo]
      [.connect 0 "s1" sampleSocket_plain webHandshake] sampleWorld)
      ((1, false) :: List.replicate 12 (0, false))).state.gateway.sockets = [] := by
  refine (web_clients_hear_nothing cookPlatform [orderTwo]
    [.connect 0 "s1" sampleSocket_plain webHandshake] (fun op hop => ?_) sampleWorld rfl rfl
    ((1, false) :: List.replicate 12 (0, false))).2.1
  rw [List.mem_singleton.1 hop]
  rfl

end DineFlow
