import DineFlow.Schema

namespace DineFlow
set_option autoImplicit true

structure KitchenTable where
  id : String
  tableNumber : Int
  deriving DecidableEq, Repr

structure KitchenLine where
  id : String
  quantity : Int
  menuItemId : String
  menuItemName : String
  deriving DecidableEq, Repr

/-- An order as the page queries it; the time is the one that `createdAt` stands for. -/
structure KitchenOrder where
  id : String
  status : OrderStatus
  createdAt : Int
  totalAmount : Int
  table : KitchenTable
  items : List KitchenLine
  deriving DecidableEq, Repr

def KitchenOrder.shown (o : KitchenOrder) : String × OrderStatus := (o.id, o.status)

/-- The page: the last result of the query, and its local copy of the orders. -/
structure Board where
  data : Option (List KitchenOrder)
  orders : List KitchenOrder
  deriving DecidableEq, Repr

def sortByAge (orders : List KitchenOrder) : List KitchenOrder :=
  orders.insertionSort fun a b => a.createdAt ≤ b.createdAt

/-- A result of the query arrives. One that is equal to the last result keeps its reference, and
then the effect that copies the orders does not run. -/
def Board.receive (b : Board) (result : List KitchenOrder) : Board :=
  if b.data = some result then b else ⟨some result, sortByAge result⟩

/-- The step that the button of an order asks for. -/
def nextStatus : OrderStatus → Option OrderStatus
  | .pending => some .cooking
  | .cooking => some .ready
  | _ => none

def KitchenOrder.withStatus (id : String) (status : OrderStatus) (o : KitchenOrder) :
    KitchenOrder :=
  if o.id = id then { o with status := status } else o

/-- What `handleUpdateStatus` does before it sends its request. -/
def Board.optimistic (b : Board) (id : String) (current : OrderStatus) : Board :=
  match nextStatus current with
  | none => b
  | some status => { b with orders := b.orders.map (KitchenOrder.withStatus id status) }

/-- The board after `handleUpdateStatus`, the failure of its request and the refetch: `between`
are the results of polls and other refetches that arrive first, `server` is the refetch's. -/
def Board.failedUpdate (b : Board) (id : String) (current : OrderStatus)
    (between : List (List KitchenOrder)) (server : List KitchenOrder) : Board :=
  (between ++ [server]).foldl Board.receive (b.optimistic id current)

/-- The board shows the statuses of these orders, and no others. -/
def Board.Shows (b : Board) (server : List KitchenOrder) : Prop :=
  List.Perm (b.orders.map KitchenOrder.shown) (server.map KitchenOrder.shown)

instance Board.Shows.decide (b : Board) (server : List KitchenOrder) : Decidable (b.Shows server) :=
  inferInstanceAs (Decidable (List.Perm _ _))

/-- The local copy is the one that the effect makes of the last result. -/
def Board.Synced (b : Board) (result : List KitchenOrder) : Prop :=
  b = ⟨some result, sortByAge result⟩

theorem Board.Synced.shows {b : Board} (h : b.Synced result) : b.Shows result := by
  rw [h]
  exact (List.perm_insertionSort _ result).map _

theorem Board.Synced.receive {b : Board} (h : b.Synced result) (new : List KitchenOrder) :
    (b.receive new).Synced new := by
  rw [Board.receive]
  split
  · rename_i hsame
    rw [h] at hsame
    cases hsame
    exact h
  · rfl

theorem Board.Synced.receive_all {b : Board} (h : b.Synced result)
    (between : List (List KitchenOrder)) (server : List KitchenOrder) :
    ((between ++ [server]).foldl Board.receive b).Synced server := by
  induction between generalizing b result with
  | nil => exact h.receive server
  | cons new between ih => exact ih (h.receive new)

theorem Board.synced_of_new {b : Board} (between : List (List KitchenOrder))
    (server : List KitchenOrder) (h : ∃ r ∈ between ++ [server], b.data ≠ some r) :
    ((between ++ [server]).foldl Board.receive b).Synced server := by
  induction between with
  | nil =>
    obtain ⟨r, hr, hne⟩ := h
    rw [List.nil_append, List.mem_singleton] at hr
    subst hr
    exact if_neg hne
  | cons new between ih =>
    by_cases hnew : b.data = some new
    · -- this result is the old one: the board stays, and a later one differs
      have hstay : b.receive new = b := if_pos hnew
      have hlater : ∃ r ∈ between ++ [server], b.data ≠ some r := by
        obtain ⟨r, hr, hne⟩ := h
        rcases List.mem_cons.1 hr with rfl | hr
        · exact absurd hnew hne
        · exact ⟨r, hr, hne⟩
      rw [List.cons_append, List.foldl_cons, hstay]
      exact ih hlater
    · have hsynced : (b.receive new).Synced new := if_neg hnew
      exact hsynced.receive_all between server

theorem Board.receive_same {b : Board} (results : List (List KitchenOrder))
    (h : ∀ r ∈ results, b.data = some r) : results.foldl Board.receive b = b := by
  induction results with
  | nil => rfl
  | cons r results ih =>
    have hstay : b.receive r = b := if_pos (h r List.mem_cons_self)
    rw [List.foldl_cons, hstay]
    exact ih fun r' hr' => h r' (List.mem_cons_of_mem _ hr')

theorem Board.optimistic_data (b : Board) (id : String) (current : OrderStatus) :
    (b.optimistic id current).data = b.data := by
  rw [optimistic]
  cases nextStatus current <;> rfl

theorem KitchenOrder.shown_withStatus (id : String) (status : OrderStatus) (o : KitchenOrder) :
    (o.withStatus id status).shown =
      if o.shown.1 = id then (o.shown.1, status) else o.shown := by
  rw [withStatus]
  change _ = if o.id = id then (o.id, status) else o.shown
  split <;> rfl

theorem Board.Shows.withStatus {b : Board} (h : b.Shows server) (id : String)
    (status : OrderStatus) :
    List.Perm ((b.orders.map (KitchenOrder.withStatus id status)).map KitchenOrder.shown)
      ((server.map (KitchenOrder.withStatus id status)).map KitchenOrder.shown) := by
  have hpush (orders : List KitchenOrder) :
      (orders.map (KitchenOrder.withStatus id status)).map KitchenOrder.shown =
        (orders.map KitchenOrder.shown).map fun p => if p.1 = id then (p.1, status) else p := by
    rw [List.map_map, List.map_map]
    exact List.map_congr_left fun o _ => o.shown_withStatus id status
  rw [hpush, hpush]
  exact h.map _

/-- A board that showed the orders of the server shows them again after a failed update exactly if
a result that differs from its data arrives, or the server has what the update asked for. -/
theorem board_reverts_iff (b : Board) (before : List KitchenOrder) (hshows : b.Shows before)
    (id : String) (current status : OrderStatus) (hnext : nextStatus current = some status)
    (between : List (List KitchenOrder)) (server : List KitchenOrder) :
    (b.failedUpdate id current between server).Shows server ↔
      (∃ r ∈ between ++ [server], b.data ≠ some r) ∨
        List.Perm ((before.map (KitchenOrder.withStatus id status)).map KitchenOrder.shown)
          (server.map KitchenOrder.shown) := by
  by_cases hnew : ∃ r ∈ between ++ [server], b.data ≠ some r
  · refine iff_of_true ?_ (.inl hnew)
    apply Board.Synced.shows
    apply Board.synced_of_new
    rw [b.optimistic_data]
    exact hnew
  · have hsame : ∀ r ∈ between ++ [server], (b.optimistic id current).data = some r := by
      intro r hr
      rw [b.optimistic_data]
      by_contra hne
      exact hnew ⟨r, hr, hne⟩
    have hstay : b.failedUpdate id current between server = b.optimistic id current :=
      Board.receive_same _ hsame
    have horders : (b.optimistic id current).orders =
        b.orders.map (KitchenOrder.withStatus id status) := by
      rw [Board.optimistic, hnext]
    have hperm := hshows.withStatus id status
    rw [or_iff_right hnew, hstay, Board.Shows, horders]
    exact ⟨fun h => hperm.symm.trans h, fun h => hperm.trans h⟩

/-- One order that waits for the kitchen. -/
def sampleTicket : KitchenOrder :=
  ⟨"o1", .pending, 0, 1000, ⟨"t1", 1⟩, [⟨"l1", 1, "m1", "Tibs"⟩]⟩

def sampleBoard : Board := ⟨some [sampleTicket], [sampleTicket]⟩

/-- Another order comes in before the refetch: the board is right again. -/
theorem board_reverts_sample :
    sampleBoard.Shows [sampleTicket] ∧
      (sampleBoard.failedUpdate "o1" .pending []
        [sampleTicket, { sampleTicket with id := "o2", createdAt := 1 }]).Shows
        [sampleTicket, { sampleTicket with id := "o2", createdAt := 1 }] := by
  have hshows : sampleBoard.Shows [sampleTicket] := .refl _
  refine ⟨hshows, (board_reverts_iff sampleBoard _ hshows "o1" .pending .cooking rfl [] _).2
    (.inl ⟨_, List.mem_cons_self, ?_⟩)⟩
  decide

/-- Nothing changed on the server: the refetch brings what the page has, and the order is shown as
being cooked. -/
theorem board_stays :
    sampleBoard.Shows [sampleTicket] ∧
      ¬(sampleBoard.failedUpdate "o1" .pending [] [sampleTicket]).Shows [sampleTicket] := by
  decide

end DineFlow
