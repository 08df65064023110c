import DineFlow.RoomIsolation

namespace DineFlow
open Atomic Relational
set_option autoImplicit true

/-- No two sockets have the same id. -/
def Gateway.Distinct (g : Gateway) : Prop := (g.sockets.map Socket.id).Nodup

theorem Gateway.Distinct.disconnect {g : Gateway} (h : g.Distinct) (id : String) :
    (handleDisconnect id g).Distinct :=
  h.sublist (List.filter_sublist.map Socket.id)

theorem Gateway.Distinct.connect {g : Gateway} (h : g.Distinct) (pf : Platform) (now : Nat)
    (id : String) (plain : ':' ∉ id.toList) (hs : Handshake) :
    (handleConnection pf now id plain hs g).Distinct := by
  have hrest := h.disconnect id
  rw [handleConnection]
  cases authenticateSocket pf now hs with
  | none => exact hrest
  | some a =>
    apply List.nodup_cons.2
    apply And.intro _ hrest
    intro hmem
    obtain ⟨s, hs, he⟩ := List.mem_map.1 hmem
    exact of_decide_eq_true (List.mem_filter.1 hs).2 he

theorem SameClients.distinct (h : SameClients g g') (hg : g.Distinct) : g'.Distinct := by
  rw [Gateway.Distinct, h.1]
  exact hg

theorem EventOp.distinct (pf : Platform) (w : World) (op : EventOp) (h : w.gateway.Distinct) :
    (op.step pf w).gateway.Distinct := by
  apply op.step_gateway (P := Gateway.Distinct) pf w
  case hconnect => exact fun now id plain hs _ => h.connect pf now id plain hs
  case hdisconnect => exact fun id => h.disconnect id
  case hsame => exact fun g hg => hg.distinct h

theorem runs_distinct (pf : Platform) (db : Db) (redis : Redis) (ops : List EventOp) :
    (runs (EventOp.step pf) ⟨db, redis, .empty⟩ ops).gateway.Distinct := by
  have hstart : (World.mk db redis .empty).gateway.Distinct := List.nodup_nil
  exact runs_keep (I := fun w : World => w.gateway.Distinct) (fun w op h => op.distinct pf w h)
    hstart ops

/-- The copies of an event that go to a room. -/
def Gateway.copies (g : Gateway) (room : String) (e : Event) : List (String × Event) :=
  (g.sockets.filter fun s => room ∈ s.rooms).map fun s => (s.id, e)

theorem Gateway.Distinct.mem_copies {g : Gateway} (h : g.Distinct) (hs : s ∈ g.sockets) :
    (s.id, e) ∈ g.copies room e ↔ room ∈ s.rooms := by
  constructor
  · intro hmem
    obtain ⟨s', hs', hid, hroom⟩ := DineFlow.mem_copies hmem
    rwa [← List.inj_on_of_nodup_map h hs' hs hid]
  · intro hroom
    exact List.mem_map.2 ⟨s, List.mem_filter.2 ⟨hs, decide_eq_true hroom⟩, rfl⟩

theorem Gateway.Distinct.count_copies {g : Gateway} (h : g.Distinct) (hs : s ∈ g.sockets)
    (room : String) (e : Event) :
    (g.copies room e).count (s.id, e) = if room ∈ s.rooms then 1 else 0 := by
  have hnodup : (g.copies room e).Nodup := by
    apply List.Nodup.of_map Prod.fst
    rw [copies, List.map_map]
    exact h.sublist (List.filter_sublist.map Socket.id)
  split
  · rename_i hroom
    exact List.count_eq_one_of_mem hnodup ((h.mem_copies hs).2 hroom)
  · rename_i hroom
    exact List.count_eq_zero_of_not_mem fun hmem => hroom ((h.mem_copies hs).1 hmem)

theorem delivered_orderPlaced (e : OrderPlacedEvent) (g : Gateway) :
    (Emission.orderPlaced e).delivered g =
      g.copies ("restaurant:" ++ e.restaurantId) (.orderNew e) ++
      g.copies ("kitchen:" ++ e.restaurantId) (.orderNew e) := by
  rw [Emission.delivered, Emission.emit, emitOrderPlaced, Gateway.emit, Gateway.emit,
    List.append_assoc, List.drop_left]
  rfl

theorem kitchenRoom_mem (h : "kitchen:" ++ r ∈ relevantRooms m) :
    m.role = "kitchen" ∧ given m.restaurantId = some r := by
  rcases mem_relevantRooms h with ⟨t, _, he⟩ | ⟨r', hr', ⟨_, he⟩ | ⟨hrole, he⟩ | ⟨u, he⟩⟩ | he
  · simpa using head_of_eq he
  · simpa using head_of_eq he
  · rw [String.append_right_inj] at he
    exact ⟨hrole, he ▸ hr'⟩
  · simpa using head_of_eq he
  · simpa using head_of_eq he

theorem kitchen_rooms (hrole : m.role = "kitchen") (hr : given m.restaurantId = some r) :
    "restaurant:" ++ r ∈ relevantRooms m ∧ "kitchen:" ++ r ∈ relevantRooms m := by
  rw [relevantRooms, hr, hrole]
  simp

/-- The socket of a cook: its web token has the role and the restaurant. -/
def Gateway.KitchenOf (g : Gateway) (r : String) (s : Socket) : Prop :=
  ∃ m, g.client s.id = some m ∧ m.role = "kitchen" ∧ given m.restaurantId = some r

/-- Only cooks are in both rooms that a new order is announced to. -/
theorem Admitted.both_rooms (h : Admitted pf ops g s) (r : String) :
    "restaurant:" ++ r ∈ s.rooms ∧ "kitchen:" ++ r ∈ s.rooms ↔ g.KitchenOf r s := by
  obtain ⟨_, _, a, _, _, hrooms, hclient⟩ := h
  have hplain (room : String) (hcolon : ':' ∈ room.toList) :
      room ∈ s.rooms ↔ room ∈ relevantRooms a.metadata := by
    rw [hrooms, List.mem_cons]
    apply or_iff_right
    intro he
    exact s.plain (he ▸ hcolon)
  rw [hplain _ (by simp), hplain _ (by simp)]
  constructor
  · intro hboth
    exact ⟨a.metadata, hclient, kitchenRoom_mem hboth.2⟩
  · rintro ⟨m, hm, hrole, hr⟩
    cases hclient.symm.trans hm
    exact kitchen_rooms hrole hr

/-- A new order is announced to every socket at most once exactly if no cook of the restaurant is
connected. -/
theorem orderNew_once_iff (pf : Platform) (db : Db) (redis : Redis) (ops : List EventOp)
    (e : OrderPlacedEvent) :
    (∀ s ∈ (runs (EventOp.step pf) ⟨db, redis, .empty⟩ ops).gateway.sockets,
      ((Emission.orderPlaced e).delivered
        (runs (EventOp.step pf) ⟨db, redis, .empty⟩ ops).gateway).count (s.id, .orderNew e) ≤ 1) ↔
    ∀ s ∈ (runs (EventOp.step pf) ⟨db, redis, .empty⟩ ops).gateway.sockets,
      ¬(runs (EventOp.step pf) ⟨db, redis, .empty⟩ ops).gateway.KitchenOf e.restaurantId s := by
  have hadmitted := runs_admitted pf db redis ops
  have hdistinct := runs_distinct pf db redis ops
  generalize (runs (EventOp.step pf) ⟨db, redis, .empty⟩ ops).gateway = g at hadmitted hdistinct
  apply forall₂_congr
  intro s hs
  rw [← (hadmitted s hs).both_rooms, delivered_orderPlaced, List.count_append,
    hdistinct.count_copies hs, hdistinct.count_copies hs]
  by_cases hr : "restaurant:" ++ e.restaurantId ∈ s.rooms <;>
    by_cases hk : "kitchen:" ++ e.restaurantId ∈ s.rooms <;> simp [hr, hk]

/-- A platform with the web token of a cook and that of a waiter of one restaurant. -/
def kitchenPlatform : Platform :=
  { samplePlatform with
    verify := fun _ token =>
      if token = "kitchen" then some [("role", "kitchen"), ("restaurantId", "r1")]
      else if token = "waiter" then some [("role", "waiter"), ("restaurantId", "r1")]
      else none }

def staffConnects (token : String) : List EventOp :=
  [.connect 0 "s1" sampleSocket_plain ⟨some token, none, none⟩]

def sampleNews : OrderPlacedEvent := ⟨sampleId 6, some (sampleId 2), "r1", [], 1, 0⟩

theorem orderNew_twice :
    ¬∀ s ∈ (runs (EventOp.step kitchenPlatform) ⟨sampleDb, .empty, .empty⟩
        (staffConnects "kitchen")).gateway.sockets,
      ((Emission.orderPlaced sampleNews).delivered (runs (EventOp.step kitchenPlatform)
        ⟨sampleDb, .empty, .empty⟩ (staffConnects "kitchen")).gateway).count
          (s.id, .orderNew sampleNews) ≤ 1 := by
  decide +kernel

theorem orderNew_once_sample :
    ∀ s ∈ (runs (EventOp.step kitchenPlatform) ⟨sampleDb, .empty, .empty⟩
        (staffConnects "waiter")).gateway.sockets,
      ((Emission.orderPlaced sampleNews).delivered (runs (EventOp.step kitchenPlatform)
        ⟨sampleDb, .empty, .empty⟩ (staffConnects "waiter")).gateway).count
          (s.id, .orderNew sampleNews) ≤ 1 := by
  apply (orderNew_once_iff kitchenPlatform sampleDb .empty (staffConnects "waiter") sampleNews).2
  intro s hs
  rintro ⟨m, hm, hrole, _⟩
  have hclient : (runs (EventOp.step kitchenPlatform) ⟨sampleDb, .empty, .empty⟩
      (staffConnects "waiter")).gateway.connectedClients.all
        (fun c => c.2.role ≠ "kitchen") = true := by
    decide +kernel
  obtain ⟨c, hc, rfl⟩ := Option.map_eq_some_iff.1 hm
  exact of_decide_eq_true (List.all_eq_true.1 hclient c (List.mem_of_find?_eq_some hc)) hrole

end DineFlow
