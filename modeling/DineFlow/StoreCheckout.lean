import DineFlow.StoreConvergence

namespace DineFlow.CartStore
open Atomic Relational
set_option autoImplicit true

def IsAddition : Move Tap Env → Prop
  | .act (.addItem _ _) => True
  | _ => False

/-- How many units of an item a move puts into the local cart. -/
def added (k : String) : Move Tap Env → Nat
  | .act (.addItem item _) => if item.id = k then 1 else 0
  | _ => 0

def addedUnits (k : String) (moves : List (Move Tap Env)) : Nat := (moves.map (added k)).sum

theorem addedUnits_append (k : String) (moves moves' : List (Move Tap Env)) :
    addedUnits k (moves ++ moves') = addedUnits k moves + addedUnits k moves' := by
  rw [addedUnits, List.map_append, List.sum_append]
  rfl

theorem addedUnits_zero_iff (moves : List (Move Tap Env)) :
    (∀ k, addedUnits k moves = 0) ↔ ∀ mv ∈ moves, ¬IsAddition mv := by
  simp only [addedUnits, List.sum_eq_zero_iff, List.forall_mem_map]
  constructor
  · intro h mv hmv hadd
    cases mv with
    | act a =>
      cases a with
      | addItem item notes =>
        have hone := h item.id _ hmv
        rw [added, if_pos rfl] at hone
        cases hone
      | _ => exact hadd
    | _ => exact hadd
  · intro h k mv hmv
    have hno := h mv hmv
    cases mv with
    | act a =>
      cases a with
      | addItem item notes => exact absurd trivial hno
      | _ => rfl
    | _ => rfl

section Checkout

variable (pf : Platform) (userId : Option String) (demoTableId : String)

/-- The store takes its items as they are and sends them as an order. -/
def TakesSnapshot (n : Line) (mv : Move Tap Env) : Prop :=
  ∃ token tableId specialInstructions,
    ((traffic pf userId demoTableId).step n mv).requests = n.requests ++
      [.placeOrder token ⟨tableId, some (localItems n.client.items), specialInstructions⟩]

def Reply.placed : Reply → Bool
  | .placeOrder (.ok _) => true
  | _ => false

/-- The page removes nothing, and no further order is answered with success. -/
def OnlyAdds (n : Line) : Move Tap Env → Prop
  | .act (.removeItem _) => False
  | .receive i => (n.replies[i]?).any Reply.placed = false
  | _ => True

theorem receive_placed {b : Reply} (h : b.placed = true) (st : CartState) :
    (b.receive st).1.lines = [] := by
  cases b with
  | placeOrder outcome =>
    cases outcome with
    | ok order => rfl
    | error e => cases h
  | _ => cases h

theorem receive_lines {b : Reply} (h : b.placed = false) (st : CartState) :
    (b.receive st).1.lines = st.lines := by
  cases b with
  | placeOrder outcome =>
    cases outcome with
    | error e => rfl
    | ok order => cases h
  | _ => rfl

theorem step_quantity {n : Line} {mv : Move Tap Env} (h : OnlyAdds n mv)
    (hd : (n.client.lines.map Prod.fst).Nodup) :
    ((((traffic pf userId demoTableId).step n mv).client.lines.map Prod.fst).Nodup) ∧
      ∀ k, ((traffic pf userId demoTableId).step n mv).client.lines.quantity k =
        n.client.lines.quantity k + added k mv := by
  have hsame {st : CartState} (hl : st.lines = n.client.lines) (hz : ∀ k, added k mv = 0) :
      (st.lines.map Prod.fst).Nodup ∧
        ∀ k, st.lines.quantity k = n.client.lines.quantity k + added k mv := by
    refine ⟨hl ▸ hd, fun k => ?_⟩
    rw [hl, hz k]
    exact (Int.add_zero _).symm
  cases mv with
  | act a =>
    cases a with
    | addItem item notes =>
      have hlines : ((traffic pf userId demoTableId).step n
          (.act (.addItem item notes))).client.lines = n.client.lines.add item.id :=
        addLocal_lines item notes (n.client.lines_ids ▸ hd)
      rw [hlines]
      refine ⟨Lines.nodup_add hd, fun k => ?_⟩
      rw [Lines.quantity_add, added]
      by_cases hk : k = item.id
      · simp [hk]
      · simp [hk, Ne.symm hk]
    | removeItem k => exact h.elim
    | placeOrder tableId specialInstructions => exact hsame rfl fun _ => rfl
  | serve i env =>
    rw [Exchange.step]
    split <;> exact hsame rfl fun _ => rfl
  | receive i =>
    rw [Exchange.step]
    split
    · rename_i b hb
      rw [OnlyAdds, hb] at h
      exact hsame (receive_lines h n.client) fun _ => rfl
    · exact hsame rfl fun _ => rfl

theorem runs_quantity {n : Line} {moves : List (Move Tap Env)}
    (h : Guarded (traffic pf userId demoTableId).step OnlyAdds n moves)
    (hd : (n.client.lines.map Prod.fst).Nodup) (k : String) :
    (runs (traffic pf userId demoTableId).step n moves).client.lines.quantity k =
      n.client.lines.quantity k + addedUnits k moves := by
  induction moves generalizing n with
  | nil => exact (Int.add_zero _).symm
  | cons mv moves ih =>
    obtain ⟨hd', hq⟩ := step_quantity pf userId demoTableId h.1 hd
    rw [runs_cons, ih h.2 hd', hq k, addedUnits, addedUnits, List.map_cons, List.sum_cons]
    push_cast
    exact Int.add_assoc _ _ _

/-- Every unit that these moves have put in is in the local cart. -/
def UnitsKept (moves : List (Move Tap Env)) (st : CartState) : Prop :=
  ∀ k, (addedUnits k moves : Int) ≤ st.lines.quantity k

/-- A run from the moment the store takes its snapshot to the reply that the order is placed. -/
structure Checkout where
  before : Line
  snapshot : Move Tap Env
  takes : TakesSnapshot pf userId demoTableId before snapshot
  during : List (Move Tap Env)
  reply : Nat
  placed : ((runs (traffic pf userId demoTableId).step before
    (snapshot :: during)).replies[reply]?).any Reply.placed = true

/-- The page and the server when the reply has arrived. -/
def Checkout.after (c : Checkout pf userId demoTableId) : Line :=
  runs (traffic pf userId demoTableId).step c.before (c.snapshot :: c.during ++ [.receive c.reply])

theorem Checkout.after_lines (c : Checkout pf userId demoTableId) : c.after.client.lines = [] := by
  have hplaced := c.placed
  rw [after, runs_append, runs_cons, runs_nil, Exchange.step]
  cases hb : (runs (traffic pf userId demoTableId).step c.before
      (c.snapshot :: c.during)).replies[c.reply]? with
  | none =>
    rw [hb] at hplaced
    cases hplaced
  | some b =>
    rw [hb] at hplaced
    exact receive_placed hplaced _

/-- What was put in while the order was on its way is lost, and only that: the units added since
the snapshot are kept exactly if none was added before the reply. -/
theorem units_kept_iff (c : Checkout pf userId demoTableId) (later : List (Move Tap Env))
    (hlater : Guarded (traffic pf userId demoTableId).step OnlyAdds c.after later) :
    UnitsKept (c.during ++ later) (runs (traffic pf userId demoTableId).step c.after later).client ↔
      ∀ mv ∈ c.during, ¬IsAddition mv := by
  have hempty := c.after_lines
  have hquantity (k : String) :
      (runs (traffic pf userId demoTableId).step c.after later).client.lines.quantity k =
        addedUnits k later := by
    rw [runs_quantity pf userId demoTableId hlater (by rw [hempty]; exact List.nodup_nil), hempty]
    exact Int.zero_add _
  rw [UnitsKept, ← addedUnits_zero_iff]
  refine forall_congr' fun k => ?_
  rw [hquantity, addedUnits_append]
  omega

end Checkout

/-- The page with one dish in its cart and nothing on its way. -/
def dishLine : Line :=
  runs (traffic samplePlatform none "").step ⟨.initial, sampleWorld, [], []⟩ tappedOnce

def tapOrder : Move Tap Env := .act (.placeOrder (sampleId 2).text none)

theorem tapOrder_takes : TakesSnapshot samplePlatform none "" dishLine tapOrder := by
  have hopen : dishLine.client.sessionOpen = true := by decide +kernel
  refine ⟨dishLine.client.guestToken, (sampleId 2).text, some "", ?_⟩
  change dishLine.requests ++ [Waiting.send _ _ _] = _
  rw [Waiting.send, if_pos (by exact hopen)]
  rfl

/-- The dish is put in once more while the order is on its way. -/
def crossedCheckout : Checkout samplePlatform none "" where
  before := dishLine
  snapshot := tapOrder
  takes := tapOrder_takes
  during := [tapDish, answerFirst (sampleId 9)]
  reply := 0
  placed := by decide +kernel

theorem unit_lost : ¬UnitsKept crossedCheckout.during crossedCheckout.after.client := by
  intro h
  have hone := h (sampleId 4).text
  rw [Checkout.after_lines] at hone
  revert hone
  decide +kernel

def plainCheckout : Checkout samplePlatform none "" where
  before := dishLine
  snapshot := tapOrder
  takes := tapOrder_takes
  during := [answerFirst (sampleId 9)]
  reply := 0
  placed := by decide +kernel

theorem units_kept_sample :
    UnitsKept (plainCheckout.during ++ [tapDish])
      (runs (traffic samplePlatform none "").step plainCheckout.after [tapDish]).client :=
  (units_kept_iff samplePlatform none "" plainCheckout [tapDish] ⟨trivial, trivial⟩).2
    (List.forall_mem_singleton.2 id)

end DineFlow.CartStore
