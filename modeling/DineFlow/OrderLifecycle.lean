import DineFlow.Placement
import DineFlow.StatusThreads

namespace DineFlow
open Atomic Relational
set_option autoImplicit true

/-- The step along the life of an order. -/
def OrderStatus.next : OrderStatus → Option OrderStatus
  | .pending => some .cooking
  | .cooking => some .ready
  | .ready => some .served
  | .served => some .paid
  | .paid | .cancelled => none

def OrderStatus.isFinal (s : OrderStatus) : Bool := s = .paid || s = .cancelled

/-- What a client may ask for when it sees a status: the next one, or the end of the order. -/
def OrderStatus.legal (s s' : OrderStatus) : Bool :=
  s.next = some s' || (s' = .cancelled && !s.isFinal)

def OrderStatus.rank : OrderStatus → Nat
  | .pending => 0
  | .cooking => 1
  | .ready => 2
  | .served => 3
  | .paid => 4
  | .cancelled => 5

/-- The order goes on or stays where it is, and what is paid or cancelled stays so. -/
def OrderStatus.Forward (s s' : OrderStatus) : Prop :=
  s.rank ≤ s'.rank ∧ (s.isFinal → s' = s)

theorem OrderStatus.Forward.refl (s : OrderStatus) : s.Forward s := ⟨le_rfl, fun _ => rfl⟩

theorem OrderStatus.Forward.trans (h : OrderStatus.Forward s s') (h' : s'.Forward s'') :
    s.Forward s'' := by
  refine ⟨h.1.trans h'.1, fun hf => ?_⟩
  have hs := h.2 hf
  rw [h'.2 (by rwa [hs]), hs]

theorem OrderStatus.forward_of_legal (h : OrderStatus.legal s s' = true) : s.Forward s' := by
  cases s with
  | paid => cases s' <;> cases h
  | cancelled => cases s' <;> cases h
  | pending | cooking | ready | served =>
    refine ⟨?_, fun hf => by cases hf⟩
    revert h
    cases s' <;> decide

theorem orderStatusFromDb_text (s : OrderStatus) : orderStatusFromDb s.text = s := by
  cases s <;> decide

def storedStatus (k : Uuid) (w : World) : Option OrderStatus :=
  (lookup OrderRow.id k w.db.orders).map fun o => orderStatusFromDb o.status

theorem storedStatus_update (k u : Uuid) (s : OrderStatus) (w : World) :
    storedStatus k { w with db := w.db.updateOrderStatus u s } =
      if k = u then (storedStatus k w).map fun _ => s else storedStatus k w := by
  have hl : lookup OrderRow.id k (w.db.updateOrderStatus u s).orders =
      if k = u then (lookup OrderRow.id k w.db.orders).map (OrderRow.setStatus s)
      else lookup OrderRow.id k w.db.orders :=
    lookup_updateWhere (by exact fun _ => rfl) k u w.db.orders
  rw [storedStatus, storedStatus, hl]
  split
  · rw [Option.map_map, Option.map_map]
    congr 1
    funext o
    exact orderStatusFromDb_text s
  · rfl

/-- Every order that is there stays, and goes on. -/
def Forwards (w w' : World) : Prop :=
  ∀ k s, storedStatus k w = some s → ∃ s', storedStatus k w' = some s' ∧ s.Forward s'

theorem Forwards.refl (w : World) : Forwards w w := fun _ s hs => ⟨s, hs, .refl s⟩

theorem Forwards.trans (h : Forwards w w') (h' : Forwards w' w'') : Forwards w w'' := by
  intro k s hs
  obtain ⟨s', hs', hf⟩ := h k s hs
  obtain ⟨s'', hs'', hf'⟩ := h' k s' hs'
  exact ⟨s'', hs'', hf.trans hf'⟩

theorem Forwards.of_orders (h : w'.db.orders = w.db.orders) : Forwards w w' := by
  intro k s hs
  refine ⟨s, ?_, .refl s⟩
  rwa [storedStatus, h]

theorem Forwards.of_update (hseen : storedStatus u w = some seen)
    (hs : OrderStatus.legal seen s = true) :
    Forwards w { w with db := w.db.updateOrderStatus u s } := by
  intro k s₀ hk
  rw [storedStatus_update]
  split
  · rename_i hku
    subst hku
    rw [hseen] at hk
    cases hk
    exact ⟨s, by rw [hseen]; rfl, OrderStatus.forward_of_legal hs⟩
  · exact ⟨s₀, hk, .refl s₀⟩

theorem PlaceStep.forwards (h : PlaceStep w w') : Forwards w w' := by
  cases h with
  | refl => exact .refl w
  | line l h =>
    have ht := (Db.insertOrderItem_ok_iff.1 h).2
    exact .of_orders (by rw [ht])
  | clear key => exact .of_orders rfl
  | emit e => exact .of_orders rfl
  | order o h =>
    have ht := (Db.insertOrder_ok_iff.1 h).2
    intro k s hs
    refine ⟨s, ?_, .refl s⟩
    obtain ⟨row, hrow, rfl⟩ := Option.map_eq_some_iff.1 hs
    rw [storedStatus, ht, lookup, List.find?_append]
    rw [lookup] at hrow
    rw [hrow]
    rfl

/-- A request of a client, with the status it saw. -/
structure StatusRequest where
  order : Uuid
  seen : OrderStatus
  status : OrderStatus
  userId : String

def StatusRequest.call (r : StatusRequest) : StatusCall := ⟨r.order.text, r.status, r.userId⟩

/-- The staff clients with their copies of the orders, and the server with their requests. -/
structure Floor where
  copies : Nat → Uuid → Option OrderStatus
  requests : List StatusRequest
  pool : Pool (Api Order) Site World

def Floor.start (w : World) : Floor := ⟨fun _ _ => none, [], ⟨w, [], []⟩⟩

inductive FloorAct where
  /-- A client reads an order. -/
  | refetch (client : Nat) (order : Uuid)
  /-- A client asks for a status, and may show it before the server has answered. -/
  | request (client : Nat) (order : Uuid) (status : OrderStatus) (userId : String)
      (optimistic : Bool)
  /-- The server executes a statement of a request. -/
  | turn (i : Nat) (fails : Bool)
  /-- A customer places an order. -/
  | place (env : Env) (input : PlaceOrderInput) (userId guestId : Option String)
      (fault : Site → Bool)

def setCopy (copies : Nat → Uuid → Option OrderStatus) (client : Nat) (order : Uuid)
    (s : Option OrderStatus) : Nat → Uuid → Option OrderStatus :=
  fun c k => if c = client ∧ k = order then s else copies c k

/-- One thing that happens. A client that sees no legal step asks for nothing. -/
def Floor.step (fl : Floor) : FloorAct → Floor
  | .refetch client order =>
    { fl with copies := setCopy fl.copies client order (storedStatus order fl.pool.state) }
  | .request client order status userId optimistic =>
    match fl.copies client order with
    | none => fl
    | some seen =>
      if seen.legal status then
        let r : StatusRequest := ⟨order, seen, status, userId⟩
        { copies := if optimistic then setCopy fl.copies client order (some status) else fl.copies
          requests := fl.requests ++ [r]
          pool := { fl.pool with threads := fl.pool.threads ++ [r.call.prog] } }
      else fl
  | .turn i fails => { fl with pool := fl.pool.turn (i, fails) }
  | .place env input userId guestId fault =>
    { fl with pool := { fl.pool with
        state := ((placeOrder env input userId guestId).run fault fl.pool.state).2 } }

/-- A request that is about to be stored was made on the status that is stored now. -/
def Floor.Current (fl : Floor) : FloorAct → Prop
  | .turn i _ => fl.pool.nextSite Prog.next i = some .statusUpdate →
      ∀ r ∈ fl.requests[i]?, storedStatus r.order fl.pool.state = some r.seen
  | _ => True

instance Floor.Current.decide (fl : Floor) : (a : FloorAct) → Decidable (fl.Current a)
  | .turn i _ => inferInstanceAs (Decidable (fl.pool.nextSite Prog.next i = some .statusUpdate →
      ∀ r ∈ fl.requests[i]?, storedStatus r.order fl.pool.state = some r.seen))
  | .refetch _ _ | .request _ _ _ _ _ | .place _ _ _ _ _ => .isTrue trivial

structure Floor.Legal (fl : Floor) : Prop where
  phases : AtPhases (fl.requests.map StatusRequest.call) (fun _ => True) fl.pool
  length : fl.pool.threads.length = fl.requests.length
  steps : ∀ r ∈ fl.requests, r.seen.legal r.status = true

theorem Floor.legal_start (w : World) : (Floor.start w).Legal := by
  refine ⟨fun i t ht => ?_, rfl, fun r hr => ?_⟩
  · cases ht
  · cases hr

theorem Floor.Legal.request (h : Floor.Legal fl) (hr : r.seen.legal r.status = true)
    (copies : Nat → Uuid → Option OrderStatus) :
    Floor.Legal ⟨copies, fl.requests ++ [r],
      { fl.pool with threads := fl.pool.threads ++ [StatusCall.prog (StatusRequest.call r)] }⟩ := by
  refine ⟨?_, ?_, fun r' hr' => ?_⟩
  · rw [List.map_append]
    exact h.phases.snoc (by rw [List.length_map, h.length]) r.call trivial
  · simp [h.length]
  · rcases List.mem_append.1 hr' with hr' | hr'
    · exact h.steps r' hr'
    · rw [List.mem_singleton.1 hr']
      exact hr

theorem Floor.Legal.set (h : Floor.Legal fl)
    (hc : (fl.requests.map StatusRequest.call)[i]? = some c)
    (ph : StatusPhase) (w : World) (log : List (Nat × Site)) :
    Floor.Legal { fl with pool := ⟨w, fl.pool.threads.set i (ph.prog c), log⟩ } :=
  ⟨h.phases.set hc trivial (fun _ _ _ _ _ _ _ => trivial) w log, by rw [List.length_set, h.length],
    h.steps⟩

theorem Floor.Legal.turn (h : Floor.Legal fl) (hok : fl.Current (.turn i fails)) :
    (fl.step (.turn i fails)).Legal ∧
      Forwards fl.pool.state (fl.step (.turn i fails)).pool.state := by
  rw [Floor.step]
  obtain he | ⟨c, ph, site, ph', w', hc, _, hsite, hturn, he⟩ := h.phases.turn i fails
  · rw [he]
    exact ⟨h, .refl _⟩
  · rw [he]
    refine ⟨h.set hc ph' w' _, ?_⟩
    obtain ⟨r, hr, rfl⟩ : ∃ r, fl.requests[i]? = some r ∧ r.call = c := by
      rw [List.getElem?_map] at hc
      exact Option.map_eq_some_iff.1 hc
    have hlegal := h.steps r (List.mem_of_getElem? hr)
    -- only the update changes the orders, and its client has a copy of what it finds
    cases hturn with
    | stored hu hrow =>
      rw [StatusRequest.call, Uuid.parse_text] at hu
      cases hu
      exact .of_update (hok hsite r hr) hlegal
    | missed hu hrow e =>
      rw [StatusRequest.call, Uuid.parse_text] at hu
      cases hu
      exact .of_update (hok hsite r hr) hlegal
    | cleared => exact .refl _
    | found => exact .refl _
    | told => exact .of_orders rfl
    | refused => exact .refl _
    | read => exact .refl _

theorem Floor.Legal.step (h : Floor.Legal fl) (hok : fl.Current a) :
    (fl.step a).Legal ∧ Forwards fl.pool.state (fl.step a).pool.state := by
  cases a with
  | refetch client order => exact ⟨⟨h.phases, h.length, h.steps⟩, .refl _⟩
  | request client order status userId optimistic =>
    rw [Floor.step]
    split
    · exact ⟨h, .refl _⟩
    · split
      · exact ⟨h.request ‹_› _, .refl _⟩
      · exact ⟨h, .refl _⟩
  | turn i fails => exact h.turn hok
  | place env input userId guestId fault =>
    have hplace := ((placeOrder_within env input userId guestId).mono
      fun _ _ => PlaceStep.forwards).run Forwards.refl Forwards.trans fault fl.pool.state
    exact ⟨⟨h.phases, h.length, h.steps⟩, hplace⟩

theorem Floor.Legal.runs (h : Floor.Legal fl) (hacts : Guarded Floor.step Floor.Current fl acts) :
    (runs Floor.step fl acts).Legal ∧
      Forwards fl.pool.state (runs Floor.step fl acts).pool.state := by
  apply hacts.runs (I := fun fl' => fl'.Legal ∧ Forwards fl.pool.state fl'.pool.state)
  · exact ⟨h, .refl _⟩
  · rintro fl' a ⟨hfl, hf⟩ hok
    exact ⟨(hfl.step hok).1, hf.trans (hfl.step hok).2⟩

/-- In a run in which every update is asked for on the status that it replaces, orders only go
on, and what is paid or cancelled stays so. -/
theorem lifecycle_kept (w : World) (before after : List FloorAct)
    (h : Guarded Floor.step Floor.Current (Floor.start w) (before ++ after)) :
    Forwards (runs Floor.step (Floor.start w) before).pool.state
      (runs Floor.step (Floor.start w) (before ++ after)).pool.state := by
  obtain ⟨hbefore, hafter⟩ := guarded_append.1 h
  rw [runs_append]
  exact (((Floor.legal_start w).runs hbefore).1.runs hafter).2

/-- An order is placed and two clients read it; the first of them cancels it. -/
def cancelRun : List FloorAct :=
  [.place sampleEnv sampleBasket none sampleGuest noFault, .refetch 0 (sampleEnv.uuid 0),
    .refetch 1 (sampleEnv.uuid 0),
    .request 0 (sampleEnv.uuid 0) .cancelled (sampleId 5).text true,
    .turn 0 false, .turn 0 false, .turn 0 false]

/-- A client starts to cook the order. -/
def cookRun (client : Nat) : List FloorAct :=
  [.request client (sampleEnv.uuid 0) .cooking (sampleId 5).text true,
    .turn 1 false, .turn 1 false, .turn 1 false]

theorem lifecycle_kept_sample :
    Forwards (runs Floor.step (Floor.start sampleWorld) cancelRun).pool.state
      (runs Floor.step (Floor.start sampleWorld) (cancelRun ++ cookRun 0)).pool.state :=
  lifecycle_kept sampleWorld cancelRun (cookRun 0) (by decide +kernel)

/-- The second client still sees a pending order, and a cancelled order is cooked. -/
theorem lifecycle_not_kept :
    ¬Forwards (runs Floor.step (Floor.start sampleWorld) cancelRun).pool.state
      (runs Floor.step (Floor.start sampleWorld) (cancelRun ++ cookRun 1)).pool.state := by
  intro h
  have hbefore : storedStatus (sampleEnv.uuid 0)
      (runs Floor.step (Floor.start sampleWorld) cancelRun).pool.state = some .cancelled := by
    decide +kernel
  have hafter : storedStatus (sampleEnv.uuid 0) (runs Floor.step (Floor.start sampleWorld)
      (cancelRun ++ cookRun 1)).pool.state = some .cooking := by
    decide +kernel
  obtain ⟨s', hs', hf⟩ := h _ _ hbefore
  rw [hafter] at hs'
  cases hs'
  exact absurd (hf.2 rfl) (by decide)

end DineFlow
