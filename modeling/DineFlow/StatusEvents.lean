import DineFlow.EventDelivery
import DineFlow.StatusThreads

namespace DineFlow
open Atomic Relational
set_option autoImplicit true

def OrderStatusEvent.tells (i : String) (k : Uuid) : String × Event → Option OrderStatusEvent
  | (id, .orderStatus e) => if id = i ∧ e.orderId = k then some e else none
  | _ => none

/-- The status events of an order among what was sent to a socket. -/
def statusEvents (i : String) (k : Uuid) (sent : List (String × Event)) : List OrderStatusEvent :=
  sent.filterMap (OrderStatusEvent.tells i k)

def statusText (k : Uuid) (w : World) : Option String :=
  (lookup OrderRow.id k w.db.orders).map OrderRow.status

/-- Several calls that have just come in. -/
def callsPool (calls : List StatusCall) (w : World) : Pool (Api Order) Site World :=
  ⟨w, calls.map StatusCall.prog, []⟩

/-- The last event since `w` that the socket got for the order carries the status that is stored. -/
def LastEventAgrees (w : World) (i : String) (k : Uuid) (w' : World) : Prop :=
  ∀ e, (statusEvents i k (w'.gateway.sent.drop w.gateway.sent.length)).getLast? = some e →
    statusText k w' = some e.status

/-- No update is stored while another call stands between its update and its event, and no event
is lost. -/
def Undivided (p : Pool (Api Order) Site World) (t : Nat × Bool) : Prop :=
  (p.nextSite Prog.next t.1 = some .statusUpdate →
      ∀ j, j ≠ t.1 → p.nextSite Prog.next j ≠ some .emitStatus) ∧
    (p.nextSite Prog.next t.1 = some .emitStatus → t.2 = false)

theorem statusEvents_emit (hs : s ∈ Gateway.sockets g)
    (hroom : "restaurant:" ++ e.restaurantId ∈ s.rooms)
    (hk : OrderStatusEvent.orderId e = k) (h : g.sent = sent₀ ++ l) :
    ∃ l', (emitOrderStatusChanged e g).sent = sent₀ ++ l' ∧
      (statusEvents s.id k l').getLast? = some e := by
  let room := "restaurant:" ++ e.restaurantId
  let told : List (String × Event) :=
    (g.sockets.filter fun s => room ∈ s.rooms).map fun s => (s.id, .orderStatus e)
  refine ⟨l ++ told, ?_, ?_⟩
  · rw [emitOrderStatusChanged, Gateway.emit, h, List.append_assoc]
  -- the new copies are all of this event, and the socket gets one
  have hall : ∀ x ∈ statusEvents s.id k told, x = e := by
    intro x hx
    obtain ⟨m, hm, hx⟩ := List.mem_filterMap.1 hx
    obtain ⟨s', -, rfl⟩ := List.mem_map.1 hm
    rw [OrderStatusEvent.tells] at hx
    split at hx
    · exact (Option.some.inj hx).symm
    · cases hx
  have hmem : e ∈ statusEvents s.id k told := by
    refine List.mem_filterMap.2 ⟨(s.id, .orderStatus e), ?_, ?_⟩
    · exact List.mem_map.2 ⟨s, List.mem_filter.2 ⟨hs, decide_eq_true hroom⟩, rfl⟩
    · exact if_pos ⟨rfl, hk⟩
  rw [statusEvents, List.filterMap_append, List.getLast?_append]
  change Option.or (statusEvents s.id k told).getLast? _ = _
  cases hl : (statusEvents s.id k told).getLast? with
  | none =>
    rw [List.getLast?_eq_none_iff.1 hl] at hmem
    cases hmem
  | some x =>
    rw [hall x (List.mem_of_getLast? hl)]
    rfl

/-- A call that is about to send its event has the row as it is stored now. -/
def StatusPhase.Holds (o : OrderRow) (w : World) (ph : StatusPhase) : Prop :=
  ∀ row, ph = .emit row → row.id = o.id ∧ row.restaurantId = o.restaurantId ∧
    statusText o.id w = some row.status

/-- Along a run: an event that is due carries the stored status, and if none is due the last one
did. -/
structure Announced (w : World) (o : OrderRow) (i : String) (calls : List StatusCall)
    (p : Pool (Api Order) Site World) : Prop where
  phases : AtPhases calls (StatusPhase.Holds o p.state) p
  present : ∃ o', lookup OrderRow.id o.id p.state.db.orders = some o' ∧
    o'.restaurantId = o.restaurantId
  sockets : p.state.gateway.sockets = w.gateway.sockets
  sent : ∃ l, p.state.gateway.sent = w.gateway.sent ++ l ∧
    ((∀ j, p.nextSite Prog.next j ≠ some .emitStatus) →
      ∀ e, (statusEvents i o.id l).getLast? = some e → statusText o.id p.state = some e.status)

instance Undivided.decide (p : Pool (Api Order) Site World) (t : Nat × Bool) :
    Decidable (Undivided p t) :=
  decidable_of_iff ((p.nextSite Prog.next t.1 = some .statusUpdate →
      ∀ j < p.threads.length, j ≠ t.1 → p.nextSite Prog.next j ≠ some .emitStatus) ∧
    (p.nextSite Prog.next t.1 = some .emitStatus → t.2 = false)) <| by
    refine and_congr_left fun _ => forall_congr' fun _ => ⟨fun h j hj he => ?_, fun h j _ => h j⟩
    exact h j (Pool.lt_of_nextSite Prog.next he) hj he

theorem nextSite_emit (h : p.threads[i]? = some (StatusPhase.prog c (.emit row))) :
    Pool.nextSite Prog.next p i = some .emitStatus := by
  rw [Pool.nextSite, h]
  rfl

section Steps

variable {w : World} {o : OrderRow} {i : String} {calls : List StatusCall}
variable {p : Pool (Api Order) Site World}

theorem Announced.idle (h : Announced w o i calls p) (hc : calls[j]? = some c)
    (hsite : p.nextSite Prog.next j = some site) (hs : site ≠ .emitStatus)
    (hph : ∀ row, ph ≠ .emit row) (log : List (Nat × Site)) :
    Announced w o i calls ⟨p.state, p.threads.set j (StatusPhase.prog c ph), log⟩ := by
  obtain ⟨l, hl, hlast⟩ := h.sent
  refine ⟨h.phases.set hc (fun row he => absurd he (hph row)) (fun _ _ _ _ _ _ hP => hP) _ _,
    h.present,
    h.sockets, l, hl, fun hnone => hlast fun j' => ?_⟩
  by_cases hj : j' = j
  · rw [hj, hsite]
    exact fun he => hs (Option.some.inj he)
  · rw [← Pool.nextSite_set_other Prog.next hj]
    exact hnone j'

theorem Announced.stored (h : Announced w o i calls p) (hc : calls[j]? = some c)
    (hsite : p.nextSite Prog.next j = some site)
    (hother : ∀ j', j' ≠ j → p.nextSite Prog.next j' ≠ some .emitStatus)
    (hr : lookup OrderRow.id o.id (p.state.db.updateOrderStatus o.id s).orders = some row)
    (log : List (Nat × Site)) :
    Announced w o i calls ⟨{ p.state with db := p.state.db.updateOrderStatus o.id s },
      p.threads.set j (StatusPhase.prog c (.emit row)), log⟩ := by
  obtain ⟨o', ho', hrest⟩ := h.present
  have hl : lookup OrderRow.id o.id (p.state.db.updateOrderStatus o.id s).orders =
      some (OrderRow.setStatus s o') := by
    refine (lookup_updateWhere (by exact fun _ => rfl) o.id o.id p.state.db.orders).trans ?_
    rw [if_pos rfl, ho']
    rfl
  have hrow : row = OrderRow.setStatus s o' := Option.some.inj (hr.symm.trans hl)
  have hrest' : row.restaurantId = o.restaurantId := by
    rw [hrow]
    exact hrest
  obtain ⟨l, hsent, _⟩ := h.sent
  constructor
  · refine h.phases.set hc ?_ ?_ _ _
    · intro row' he
      cases he
      refine ⟨(lookup_mem hr).2, hrest', ?_⟩
      rw [statusText, hr]
      rfl
    · rintro j' t ph hj ht ⟨c', rfl⟩ _ row' rfl
      exact absurd (nextSite_emit ht) (hother j' hj)
  · exact ⟨row, hr, hrest'⟩
  · exact h.sockets
  · have hj : (p.threads.set j (StatusPhase.prog c (.emit row)))[j]? =
        some (StatusPhase.prog c (.emit row)) :=
      List.getElem?_set_self (Pool.lt_of_nextSite Prog.next hsite)
    exact ⟨l, hsent, fun hnone => absurd (nextSite_emit hj) (hnone j)⟩

theorem Announced.told (h : Announced w o s.id calls p) (hc : calls[j]? = some c)
    (hs : s ∈ w.gateway.sockets) (hroom : "restaurant:" ++ e.restaurantId ∈ s.rooms)
    (hk : OrderStatusEvent.orderId e = o.id) (hstatus : statusText o.id p.state = some e.status)
    (hph : ∀ row, ph ≠ .emit row) (log : List (Nat × Site)) :
    Announced w o s.id calls
      ⟨{ p.state with gateway := emitOrderStatusChanged e p.state.gateway },
        p.threads.set j (StatusPhase.prog c ph), log⟩ := by
  obtain ⟨l, hsent, _⟩ := h.sent
  rw [← h.sockets] at hs
  obtain ⟨l', hl', hlast⟩ := statusEvents_emit hs hroom hk hsent
  refine ⟨h.phases.set hc (fun row he => absurd he (hph row)) (fun _ _ _ _ _ _ hP => hP) _ _,
    h.present, h.sockets, l', hl', fun _ e' he' => ?_⟩
  rw [hlast] at he'
  cases he'
  exact hstatus

theorem Announced.turn (h : Announced w o s.id calls p)
    (hcalls : ∀ c ∈ calls, Uuid.parse c.orderId = some o.id) (hs : s ∈ w.gateway.sockets)
    (hroom : "restaurant:" ++ o.restaurantId.text ∈ s.rooms) (hok : Undivided p t) :
    Announced w o s.id calls (p.turn t) := by
  obtain ⟨j, fails⟩ := t
  obtain he | ⟨c, ph, site, ph', w', hc, hph, hsite, hturn, he⟩ := h.phases.turn j fails
  · rw [he]
    exact h
  · rw [he]
    have hid := hcalls c (List.mem_of_getElem? hc)
    cases hturn with
    | cleared => exact h.idle hc hsite (by decide) (fun _ he => by cases he) _
    | found => exact h.idle hc hsite (by decide) (fun _ he => by cases he) _
    | stored hu hr =>
      cases hid.symm.trans hu
      exact h.stored hc hsite (hok.1 hsite) hr _
    | missed hu hr e =>
      cases hid.symm.trans hu
      obtain ⟨o', ho', _⟩ := h.present
      rw [show lookup OrderRow.id o.id (p.state.db.updateOrderStatus o.id c.status).orders = _ from
        (lookup_updateWhere (by exact fun _ => rfl) o.id o.id p.state.db.orders), if_pos rfl,
          ho'] at hr
      cases hr
    | told =>
      rename_i row
      obtain ⟨hk, hrest, hstatus⟩ := hph row rfl
      rw [← hrest] at hroom
      exact h.told (e := ⟨row.id, row.status, row.restaurantId.text⟩) hc hs hroom hk hstatus
        (fun _ he => by cases he) _
    | refused hf e =>
      refine h.idle hc hsite (fun he => ?_) (fun _ he => by cases he) _
      rw [he] at hsite
      have hfails : fails = false := hok.2 hsite
      rw [hf he] at hfails
      cases hfails
    | read hd hp hp' =>
      refine h.idle hc hsite (fun he => ?_) (fun _ he => by cases he) _
      rw [he] at hd
      exact absurd hd (by simp [Site.IsDetail])

end Steps

theorem announced_start (ho : o ∈ w.db.orders) (i : String) (calls : List StatusCall) :
    Announced w o i calls (callsPool calls w) := by
  constructor
  · intro j t ht
    rw [callsPool, List.getElem?_map] at ht
    obtain ⟨c, hc, rfl⟩ := Option.map_eq_some_iff.1 ht
    exact ⟨c, .check, hc, rfl, fun row he => by cases he⟩
  · exact ⟨o, w.db.valid.orderIds.lookup ho, rfl⟩
  · rfl
  · exact ⟨[], (List.append_nil _).symm, fun _ e he => by cases he⟩

/-- All calls have ended. -/
def AllEnded (p : Pool (Api Order) Site World) : Prop := ∀ t ∈ p.threads, (Prog.result t).isSome

instance AllEnded.decide (p : Pool (Api Order) Site World) : Decidable (AllEnded p) :=
  inferInstanceAs (Decidable (∀ t ∈ p.threads, (Prog.result t).isSome))

theorem AllEnded.nextSite (h : AllEnded p) (j : Nat) : p.nextSite Prog.next j = none := by
  rw [Pool.nextSite]
  cases ht : p.threads[j]? with
  | none => rfl
  | some t =>
    have hr := h t (List.mem_of_getElem? ht)
    cases t with
    | ret => rfl
    | throw => rfl
    | stmt => cases hr

/-- When all calls on an order have ended, and no update came between the update and the event of
another call, what each socket of the restaurant was told last is what is stored. -/
theorem lastEvent_agrees (w : World) (o : OrderRow) (ho : o ∈ w.db.orders)
    (calls : List StatusCall) (hcalls : ∀ c ∈ calls, Uuid.parse c.orderId = some o.id)
    (turns : List (Nat × Bool)) (h : Guarded Pool.turn Undivided (callsPool calls w) turns)
    (hend : AllEnded (runs Pool.turn (callsPool calls w) turns)) (s : Socket)
    (hs : s ∈ w.gateway.sockets) (hroom : "restaurant:" ++ o.restaurantId.text ∈ s.rooms) :
    LastEventAgrees w s.id o.id (runs Pool.turn (callsPool calls w) turns).state := by
  have hrun : Announced w o s.id calls (runs Pool.turn (callsPool calls w) turns) :=
    h.runs (announced_start ho s.id calls) fun p t hp hok => hp.turn hcalls hs hroom hok
  obtain ⟨l, hl, hlast⟩ := hrun.sent
  rw [LastEventAgrees, hl, List.drop_left]
  refine hlast fun j => ?_
  rw [hend.nextSite j]
  exact fun he => by cases he

/-- The order of the sample restaurant, with a dashboard that watches it. -/
def watchedWorld : World where
  db := ⟨orderedTables, orderedTables_valid⟩
  redis := Redis.empty
  gateway := ⟨[⟨"s1", ["s1", "restaurant:" ++ (sampleId 1).text], sampleSocket_plain⟩], [], []⟩

/-- The manager takes the order up and calls it ready. -/
def cookAndReady : List StatusCall :=
  [⟨(sampleId 6).text, .cooking, (sampleId 5).text⟩, ⟨(sampleId 6).text, .ready, (sampleId 5).text⟩]

/-- The first call up to its update, all of the second, and the rest of the first. -/
def overtaken : List (Nat × Bool) :=
  List.replicate 3 (0, false) ++ List.replicate 8 (1, false) ++ List.replicate 5 (0, false)

theorem lastEvent_differs :
    AllEnded (runs Pool.turn (callsPool cookAndReady watchedWorld) overtaken) ∧
      ¬LastEventAgrees watchedWorld "s1" (sampleId 6)
        (runs Pool.turn (callsPool cookAndReady watchedWorld) overtaken).state := by
  constructor
  · decide +kernel
  · intro h
    have hcooking := h ⟨sampleId 6, "COOKING", (sampleId 1).text⟩ (by decide +kernel)
    exact absurd hcooking (by decide +kernel)

theorem lastEvent_agrees_sample :
    LastEventAgrees watchedWorld "s1" (sampleId 6)
      (runs Pool.turn (callsPool cookAndReady watchedWorld)
        (List.replicate 8 (0, false) ++ List.replicate 8 (1, false))).state :=
  lastEvent_agrees watchedWorld
    ⟨sampleId 6, sampleId 1, some (sampleId 2), none, some "g", "PENDING", 1, none, 0, 0⟩
    (by decide) cookAndReady (by decide +kernel) _ (by decide +kernel) (by decide +kernel)
    ⟨"s1", ["s1", "restaurant:" ++ (sampleId 1).text], by decide⟩ (by decide +kernel)
    (by decide +kernel)

end DineFlow
