import DineFlow.CartThreads
import DineFlow.Frames
import DineFlow.Interference

namespace DineFlow
open Atomic Relational CartPhase
set_option autoImplicit true

/-- The arguments of a call of `updateOrderStatus`. -/
structure StatusCall where
  orderId : String
  status : OrderStatus
  userId : String
  deriving DecidableEq, Repr

namespace StatusCall

def prog (c : StatusCall) : Api Order := updateOrderStatus c.orderId c.status c.userId

/-- The part of a call after its update: staff are told, the order is read back. -/
def tell (row : OrderRow) : Api Order := do
  notify .emitStatus (emitOrderStatusChanged ⟨row.id, row.status, row.restaurantId.text⟩)
    (.error .emitFailed)
  getOrderWithDetails row.id.text

def write (c : StatusCall) : Api Order := do
  let updated ← dbWrite .statusUpdate (updateStatus c.orderId c.status)
  let updated ← orElse updated (.error "Failed to update order status")
  tell updated

def find (c : StatusCall) : Api Order := do
  let order ← select .statusOrder (orderById c.orderId)
  let _ ← orElse order (.notFound "Order not found")
  c.write

theorem prog_eq (c : StatusCall) :
    c.prog = (verifyStaffPermission c.userId).bind fun _ => c.find := rfl

end StatusCall

def Site.IsDetail (site : Site) : Prop :=
  site ∈ [Site.detailOrder, .detailTable, .detailLines, .detailMenu]

/-- A program that only reads, as `getOrderWithDetails` does. -/
def ReadsDetails : Api α → Prop
  | .ret _ | .throw _ => True
  | .stmt site upd next fault => site.IsDetail ∧ (∀ w, upd w = w) ∧ (∀ w, ReadsDetails (next w)) ∧
      ReadsDetails fault

theorem ReadsDetails.select_bind (hs : Site.IsDetail site) (read : Db → Except DbError α)
    {g : α → Api β} (hg : ∀ a, ReadsDetails (g a)) : ReadsDetails ((select site read).bind g) := by
  refine ⟨hs, fun _ => rfl, fun w => ?_, trivial⟩
  dsimp only
  cases read w.db with
  | error e => trivial
  | ok a => exact hg a

theorem ReadsDetails.orElse_bind (o : Option α) (e : ApiError) {g : α → Api β}
    (hg : ∀ a, ReadsDetails (g a)) : ReadsDetails ((orElse o e).bind g) := by
  cases o with
  | none => trivial
  | some a => exact hg a

theorem getOrderWithDetails_reads (orderId : String) :
    ReadsDetails (getOrderWithDetails orderId) := by
  refine .select_bind (by simp [Site.IsDetail]) _ fun order => ?_
  refine .orElse_bind _ _ fun order => ?_
  refine .select_bind (by simp [Site.IsDetail]) _ fun table => ?_
  refine .orElse_bind _ _ fun table => ?_
  refine .select_bind (by simp [Site.IsDetail]) _ fun lines => ?_
  exact .select_bind (by simp [Site.IsDetail]) _ fun rows => trivial

/-- Where a call stands between two of its statements. -/
inductive StatusPhase where
  | check
  | find
  | update
  | emit (row : OrderRow)
  | rest (p : Api Order) (reads : ReadsDetails p)

def StatusPhase.prog (c : StatusCall) : StatusPhase → Api Order
  | .check => c.prog
  | .find => c.find
  | .update => c.write
  | .emit row => StatusCall.tell row
  | .rest p _ => p

def StatusPhase.failed (e : ApiError) : StatusPhase := .rest (.throw e) trivial

/-- One statement of a call: the phase and the world it takes the call to. -/
inductive StatusTurn (c : StatusCall) (fails : Bool) :
    StatusPhase → World → Site → StatusPhase → World → Prop
  | cleared : StatusTurn c fails .check w .staffCheck .find w
  | found : StatusTurn c fails .find w .statusOrder .update w
  | stored (hu : Uuid.parse c.orderId = some u)
      (hr : lookup OrderRow.id u (w.db.updateOrderStatus u c.status).orders = some row) :
      StatusTurn c fails .update w .statusUpdate (.emit row)
        { w with db := w.db.updateOrderStatus u c.status }
  | missed (hu : Uuid.parse c.orderId = some u)
      (hr : lookup OrderRow.id u (w.db.updateOrderStatus u c.status).orders = none)
      (e : ApiError) :
      StatusTurn c fails .update w .statusUpdate (.failed e)
        { w with db := w.db.updateOrderStatus u c.status }
  | told : StatusTurn c fails (.emit row) w .emitStatus
      (.rest (getOrderWithDetails row.id.text) (getOrderWithDetails_reads _))
      { w with gateway :=
        emitOrderStatusChanged ⟨row.id, row.status, row.restaurantId.text⟩ w.gateway }
  | refused (h : site = .emitStatus → fails = true) (e : ApiError) :
      StatusTurn c fails ph w site (.failed e) w
  | read (hs : Site.IsDetail site) (hp : ReadsDetails p) (hp' : ReadsDetails p') :
      StatusTurn c fails (.rest p hp) w site (.rest p' hp') w

section Phases

variable {c : StatusCall} {w : World}

theorem StatusPhase.check_turn (h : Prog.next c.prog = some (site, act)) :
    ∃ ph', StatusTurn c false .check w site ph' (act w).2 ∧ (act w).1 = ph'.prog c := by
  rw [StatusCall.prog_eq, verifyStaffPermission, Prog.bind_eq, Prog.bind_assoc,
    next_select_bind] at h
  cases h
  dsimp only
  cases userById c.userId w.db with
  | error e => exact ⟨.failed _, .refused (fun h => by cases h) _, rfl⟩
  | ok user =>
    cases user with
    | none => exact ⟨.failed _, .refused (fun h => by cases h) _, rfl⟩
    | some u =>
      dsimp only
      split
      · exact ⟨.find, .cleared, rfl⟩
      · exact ⟨.failed _, .refused (fun h => by cases h) _, rfl⟩

theorem StatusPhase.find_turn (h : Prog.next c.find = some (site, act)) :
    ∃ ph', StatusTurn c false .find w site ph' (act w).2 ∧ (act w).1 = ph'.prog c := by
  rw [StatusCall.find, Prog.bind_eq, next_select_bind] at h
  cases h
  dsimp only
  cases orderById c.orderId w.db with
  | error e => exact ⟨.failed _, .refused (fun h => by cases h) _, rfl⟩
  | ok order =>
    cases order with
    | none => exact ⟨.failed _, .refused (fun h => by cases h) _, rfl⟩
    | some order => exact ⟨.update, .found, rfl⟩

theorem StatusPhase.update_turn (h : Prog.next c.write = some (site, act)) :
    ∃ ph', StatusTurn c false .update w site ph' (act w).2 ∧ (act w).1 = ph'.prog c := by
  rw [StatusCall.write, Prog.bind_eq, next_dbWrite_bind] at h
  cases h
  dsimp only [updateStatus, parseUuid]
  cases hu : Uuid.parse c.orderId with
  | none => exact ⟨.failed _, .refused (fun h => by cases h) _, rfl⟩
  | some u =>
    dsimp only [Except.map]
    cases hr : lookup OrderRow.id u (w.db.updateOrderStatus u c.status).orders with
    | none => exact ⟨.failed _, .missed hu hr _, rfl⟩
    | some row => exact ⟨.emit row, .stored hu hr, rfl⟩

theorem StatusPhase.emit_turn (row : OrderRow)
    (h : Prog.next (StatusCall.tell row) = some (site, act)) :
    ∃ ph', StatusTurn c false (.emit row) w site ph' (act w).2 ∧ (act w).1 = ph'.prog c := by
  cases h
  exact ⟨.rest _ (getOrderWithDetails_reads _), .told, rfl⟩

theorem StatusPhase.rest_turn {p : Api Order} (hp : ReadsDetails p) (fails : Bool)
    (h : (if fails then Prog.failing else Prog.next) p = some (site, act)) :
    ∃ ph', StatusTurn c fails (.rest p hp) w site ph' (act w).2 ∧ (act w).1 = ph'.prog c := by
  cases p with
  | ret => cases fails <;> cases h
  | throw => cases fails <;> cases h
  | stmt i u k z =>
    obtain ⟨hs, hu, hk, hz⟩ := id hp
    cases fails with
    | true =>
      cases h
      exact ⟨.rest z hz, .read hs hp hz, rfl⟩
    | false =>
      cases h
      have hread : StatusTurn c false (.rest _ hp) w site (.rest (k w) (hk w)) (u w) := by
        rw [hu w]
        exact .read hs hp (hk w)
      exact ⟨_, hread, rfl⟩

/-- What a statement of a call can do. -/
theorem StatusPhase.turn_cases (ph : StatusPhase) (fails : Bool)
    (h : (if fails then Prog.failing else Prog.next) (ph.prog c) = some (site, act)) :
    ∃ ph', StatusTurn c fails ph w site ph' (act w).2 ∧ (act w).1 = ph'.prog c := by
  cases ph with
  | rest p hp => exact rest_turn hp fails h
  | check =>
    cases fails with
    | false => exact check_turn h
    | true =>
      cases h
      exact ⟨.failed _, .refused (fun _ => rfl) _, rfl⟩
  | find =>
    cases fails with
    | false => exact find_turn h
    | true =>
      cases h
      exact ⟨.failed _, .refused (fun _ => rfl) _, rfl⟩
  | update =>
    cases fails with
    | false => exact update_turn h
    | true =>
      cases h
      exact ⟨.failed _, .refused (fun _ => rfl) _, rfl⟩
  | emit row =>
    cases fails with
    | false => exact emit_turn row h
    | true =>
      cases h
      exact ⟨.failed _, .refused (fun _ => rfl) _, rfl⟩

end Phases

/-- Every thread stands at a phase of its call, and the phase is as `P` says. -/
def AtPhases (calls : List StatusCall) (P : StatusPhase → Prop)
    (p : Pool (Api Order) Site World) : Prop :=
  ∀ (i : Nat) t, p.threads[i]? = some t →
    ∃ c ph, calls[i]? = some c ∧ t = StatusPhase.prog c ph ∧ P ph

theorem AtPhases.turn (h : AtPhases calls P p) (i : Nat) (fails : Bool) :
    (p.turn (i, fails) = p) ∨ ∃ c ph site ph' w', calls[i]? = some c ∧ P ph ∧
      p.nextSite Prog.next i = some site ∧ StatusTurn c fails ph p.state site ph' w' ∧
      p.turn (i, fails) = ⟨w', p.threads.set i (ph'.prog c), p.log ++ [(i, site)]⟩ := by
  obtain he | ⟨t, site, act, ht, hn, -, he⟩ :=
    Pool.step_cases (if fails then Prog.failing else Prog.next) p i
  · exact .inl he
  · obtain ⟨c, ph, hc, rfl, hP⟩ := h i t ht
    obtain ⟨ph', hturn, hph'⟩ := ph.turn_cases (w := p.state) fails hn
    have hnext : p.nextSite Prog.next i = some site := by
      rw [Pool.nextSite, ht]
      exact Prog.nextSite_of_turn hn
    refine .inr ⟨c, ph, site, ph', _, hc, hP, hnext, hturn, ?_⟩
    rw [Pool.turn, he, hph']

theorem AtPhases.set (h : AtPhases calls P p) (hc : calls[i]? = some c) (hph : P' ph)
    (hP : ∀ j t ph, j ≠ i → p.threads[j]? = some t → (∃ c, t = StatusPhase.prog c ph) → P ph →
      P' ph)
    (w : World) (log : List (Nat × Site)) :
    AtPhases calls P' ⟨w, p.threads.set i (ph.prog c), log⟩ := by
  intro j t ht
  rcases Pool.of_getElem?_set ht with ⟨rfl, rfl⟩ | ⟨hij, ht⟩
  · exact ⟨c, ph, hc, rfl, hph⟩
  · obtain ⟨c', ph', hc', rfl, hph'⟩ := h j t ht
    exact ⟨c', ph', hc', rfl, hP j _ ph' hij.symm ht ⟨c', rfl⟩ hph'⟩

theorem AtPhases.snoc (h : AtPhases calls P p) (hl : p.threads.length = calls.length)
    (c : StatusCall) (hP : P .check) :
    AtPhases (calls ++ [c]) P { p with threads := p.threads ++ [c.prog] } := by
  intro i t ht
  rcases lt_or_ge i p.threads.length with hi | hi
  · rw [List.getElem?_append_left hi] at ht
    obtain ⟨c', ph, hc, rfl, hph⟩ := h i t ht
    exact ⟨c', ph, by rw [List.getElem?_append_left (hl ▸ hi), hc], rfl, hph⟩
  · rw [List.getElem?_append_right hi] at ht
    rw [List.getElem?_append_right (hl ▸ hi), ← hl]
    cases hn : i - p.threads.length with
    | zero =>
      rw [hn] at ht
      cases ht
      exact ⟨c, .check, rfl, rfl, hP⟩
    | succ n =>
      rw [hn] at ht
      cases ht

end DineFlow
