import DineFlow.OpenOrders
import DineFlow.GuestIdentity

namespace DineFlow
open Atomic Relational
set_option autoImplicit true

/-- The total of the order is what the server makes of the prices and quantities of its lines. -/
def OrderRow.AddsUp (A : Arithmetic) (db : Db) (o : OrderRow) : Prop :=
  o.totalAmount = A.cents ((linesOf o.id db).map OrderItemRow.charge)

instance (A : Arithmetic) (db : Db) (o : OrderRow) : Decidable (o.AddsUp A db) :=
  inferInstanceAs (Decidable (_ = _))

theorem OrderRow.AddsUp.of_contents {o o' : OrderRow} (h : o.AddsUp A db)
    (hc : o'.contents = o.contents) (hl : linesOf o.id db' = linesOf o.id db) :
    o'.AddsUp A db' := by
  rw [AddsUp, OrderRow.id_of_contents hc, OrderRow.total_of_contents hc, hl]
  exact h

/-- The orders and the placements under way: every order that is not being placed adds up. -/
structure OrderBook (A : Arithmetic) (P : Nat → Env → OrderRow → List OrderItemData → Prop)
    (w : World) (gs : Nat → Option Placing) : Prop extends Owners P w gs where
  others : ∀ o ∈ w.db.orders, o.AddsUp A w.db ∨ ∃ i p, gs i = some p ∧ p.order.id = o.id

section Steps

variable {P : Nat → Env → OrderRow → List OrderItemData → Prop} {gs : Nat → Option Placing}

theorem OrderBook.silent (h : OrderBook A P w gs) (hs : Silent w w') : OrderBook A P w' gs := by
  refine ⟨h.toOwners.silent hs, fun o' ho' => ?_⟩
  obtain ⟨o, ho, hc⟩ := hs.contents o' ho'
  rcases h.others o ho with hsum | ⟨i, p, hp, hid⟩
  · exact .inl (hsum.of_contents hc (hs.linesOf _))
  · exact .inr ⟨i, p, hp, hid.trans (OrderRow.id_of_contents hc).symm⟩

theorem OrderBook.still_owned (h : OrderBook A P w gs) (ho : o ∈ w.db.orders)
    (hi : ∀ p, gs i = some p → p.order.id ≠ o.id) (g : Option Placing) :
    o.AddsUp A w.db ∨ ∃ j q, Function.update gs i g j = some q ∧ q.order.id = o.id := by
  rcases h.others o ho with hsum | ⟨j, q, hq, hid⟩
  · exact .inl hsum
  · have hj : j ≠ i := by
      rintro rfl
      exact hi q hq hid
    exact .inr ⟨j, q, (Function.update_of_ne hj _ _).trans hq, hid⟩

theorem OrderBook.open (h : OrderBook A P w gs) (hi : gs i = none)
    (hP : P i env o.stored data) (ho : w.db.insertOrder o = .ok db) :
    OrderBook A P { w with db := db }
      (Function.update gs i (some ⟨env, o.stored, data, [], false⟩)) := by
  refine ⟨h.toOwners.open hP ho, fun o' ho' => ?_⟩
  obtain ⟨_, ht⟩ := Db.insertOrder_ok_iff.1 ho
  dsimp only at ho'
  rw [ht] at ho'
  rcases List.mem_append.1 ho' with ho' | ho'
  · have hnone : ∀ p, gs i = some p → p.order.id ≠ o'.id := by
      intro p hp
      rw [hi] at hp
      cases hp
    have hlines : linesOf o'.id db = linesOf o'.id w.db := by rw [linesOf, linesOf, ht]
    exact (h.still_owned ho' hnone _).imp_left fun hsum => hsum.of_contents rfl hlines
  · rw [List.mem_singleton.1 ho']
    exact .inr ⟨i, _, Function.update_self _ _ _, rfl⟩

/-- A step of the placement of one order leaves the other orders alone. -/
theorem OrderBook.progress (h : OrderBook A P w gs) (hi : gs i = some p) (hp' : p'.order = p.order)
    (hown : Owners P w' (Function.update gs i (some p')))
    (horders : w'.db.orders = w.db.orders)
    (hlines : ∀ k, k ≠ p.order.id → linesOf k w'.db = linesOf k w.db) :
    OrderBook A P w' (Function.update gs i (some p')) := by
  refine ⟨hown, fun o ho => ?_⟩
  rw [horders] at ho
  by_cases hid : o.id = p.order.id
  · exact .inr ⟨i, _, Function.update_self _ _ _, (congrArg OrderRow.id hp').trans hid.symm⟩
  · have hother : ∀ q, gs i = some q → q.order.id ≠ o.id := by
      intro q hq he
      rw [hi] at hq
      cases hq
      exact hid he.symm
    exact (h.still_owned ho hother _).imp_left fun hsum => hsum.of_contents rfl (hlines _ hid)

theorem OrderBook.step (w : World) (gs : Nat → Option Placing) (i : Nat) (w' : World)
    (g' : Option Placing) (h : OrderBook A P w gs) (hs : PlacingStep (P i) (gs i) w w' g') :
    OrderBook A P w' (Function.update gs i g') := by
  generalize hg : gs i = g at hs
  cases hs with
  | silent hs =>
    rw [← hg, Function.update_eq_self]
    exact h.silent hs
  | opened hP ho => exact h.open hg hP ho
  | line _ _ _ hinsert =>
    have horders := (Db.insertOrderItem_ok_iff.1 hinsert).2
    refine h.progress hg rfl (h.toOwners.enter hg rfl hinsert) (by rw [horders]) fun k hk => ?_
    dsimp only
    rw [linesOf_insert hinsert]
    exact if_neg hk.symm
  | announced _ _ => exact h.progress hg rfl (h.toOwners.announce hg _) rfl fun _ _ => rfl

end Steps

theorem OrderBook.filled (h : OrderBook A P w gs) (hi : gs i = some p)
    (htotal : p.order.totalAmount = A.cents (p.lines.map OrderItemRow.charge))
    (hid : p.order.id = o.id) (ho : o ∈ w.db.orders) : o.AddsUp A w.db := by
  obtain ⟨o', ho', hc⟩ := h.stored i p hi
  have hsame : o' = o :=
    w.db.valid.orderIds.eq_of_mem ho' ho ((OrderRow.id_of_contents hc).trans hid)
  rw [hsame] at hc
  rw [OrderRow.AddsUp, OrderRow.total_of_contents hc, OrderRow.id_of_contents hc, h.lines i p hi]
  exact htotal

/-- On a server that adds up as `A` does, however requests interleave, whichever of their statements
fail and whoever connects, every order adds up to its lines, but for the order of a placement that
has not returned; and a placement that has returned has stored the order it shows. -/
theorem orders_add_up (A : Arithmetic) (pf : Platform) (calls : List (Request × Operation))
    (hA : ∀ c ∈ calls, c.1.env.arithmetic = A) (ops : List SocketOp) (w : World)
    (hw : ∀ o ∈ w.db.orders, o.AddsUp A w.db) (turns : List (Nat × Bool)) :
    let p := runs Pool.turn (serveLive pf calls ops w) turns
    (∀ o ∈ p.state.db.orders, o.AddsUp A p.state.db ∨
      ∃ (i : Nat) (r : Request) (input : PlaceOrderInput),
        calls[i]? = some (r, .placeOrder input) ∧ o.id = r.env.uuid 0 ∧
        ∀ v, p.threads[i]? ≠ some (.ret v)) ∧
    ∀ (i : Nat) r input v, calls[i]? = some (r, .placeOrder input) →
      p.threads[i]? = some (.ret v) → ∃ shown, v = .order shown ∧
        ∃ o ∈ p.state.db.orders, o.id = shown.id ∧ o.AddsUp A p.state.db := by
  intro p
  have hstart : OrderBook A (MayOpen (fun _ => True) pf calls) w fun _ => none :=
    ⟨Owners.start _ _, fun o ho => .inl (hw o ho)⟩
  obtain ⟨gs, hfollow, hbook⟩ :=
    Pool.runs_follow_always OrderBook.step (serveLive_follows _ pf calls ops w) hstart turns
  have hadds (i : Nat) (q : Placing) (hq : gs i = some q) : q.env.arithmetic = A :=
    mayOpen_arithmetic hA i _ _ _ (hbook.opened i q hq)
  have hret : ∀ (i : Nat) v, p.threads[i]? = some (.ret v) → Settled calls i (gs i) v :=
    fun i v hv => hfollow i _ hv
  constructor
  · intro o ho
    rcases hbook.others o ho with hsum | ⟨i, q, hq, hid⟩
    · exact .inl hsum
    · by_cases hv : ∃ v, p.threads[i]? = some (.ret v)
      · obtain ⟨v, hv⟩ := hv
        rcases hret i v hv with ⟨_, hnone⟩ | ⟨shown, _, q', hq', _, _, htotal⟩
        · rw [hq] at hnone
          cases hnone
        · rw [hq] at hq'
          cases hq'
          rw [hadds i q hq] at htotal
          exact .inl (hbook.filled hq htotal hid ho)
      · obtain ⟨r, input, hc, _, _, _, _, _, _, hopen⟩ := hbook.opened i q hq
        exact .inr ⟨i, r, input, hc, hid.symm.trans (congrArg OrderRow.id hopen),
          fun v hv' => hv ⟨v, hv'⟩⟩
  · intro i r input v hc hv
    rcases hret i v hv with ⟨hno, _⟩ | ⟨shown, rfl, q, hq, hid, _, htotal⟩
    · exact absurd hc (hno r input)
    · obtain ⟨o, ho, hcontents⟩ := hbook.stored i q hq
      have hoid := OrderRow.id_of_contents hcontents
      rw [hadds i q hq] at htotal
      exact ⟨shown, rfl, o, ho, hoid.trans hid.symm, hbook.filled hq htotal hoid.symm ho⟩

/-- A guest who orders two of a dish at once. -/
def orderTwo : Request × Operation :=
  (bearer "g", .placeOrder ⟨(sampleId 2).text, some [⟨(sampleId 4).text, 2, none⟩], none⟩)

def orderTwoRun : Pool (Api Response) Site World :=
  runs Pool.turn (serveLive samplePlatform [orderTwo] [] sampleWorld)
    (List.replicate 12 (0, false))

theorem orders_add_up_sample :
    ∃ shown, orderTwoRun.threads[0]? = some (.ret (.order shown)) ∧
      ∃ o ∈ orderTwoRun.state.db.orders, o.id = shown.id ∧
        o.AddsUp .exact orderTwoRun.state.db := by
  have hreturned : ∃ v, orderTwoRun.threads[0]? = some (.ret v) := ⟨_, rfl⟩
  obtain ⟨v, hv⟩ := hreturned
  obtain ⟨shown, rfl, ho⟩ := (orders_add_up .exact samplePlatform [orderTwo]
    (List.forall_mem_singleton.2 rfl) [] sampleWorld (by decide +kernel)
    (List.replicate 12 (0, false))).2 0 _ _ v rfl hv
  exact ⟨shown, hv, ho⟩

/-- Once a placement has returned, its order and the lines of its order are as they will ever be,
but for the status, whatever else is running or still starts. -/
theorem placed_orders_final (pf : Platform) (calls : List (Request × Operation))
    (ops : List SocketOp) (w : World) (turns later : List (Nat × Bool)) (i : Nat) (r : Request)
    (input : PlaceOrderInput) (v : Response) (hc : calls[i]? = some (r, .placeOrder input))
    (hv : (runs Pool.turn (serveLive pf calls ops w) turns).threads[i]? = some (.ret v)) :
    let db := (runs Pool.turn (serveLive pf calls ops w) turns).state.db
    let db' := (runs Pool.turn (serveLive pf calls ops w) (turns ++ later)).state.db
    ∃ shown, v = .order shown ∧ ∃ o ∈ db.orders, o.id = shown.id ∧
      ∃ o' ∈ db'.orders, o'.contents = o.contents ∧ linesOf o'.id db' = linesOf o.id db := by
  intro db db'
  obtain ⟨shown, p, rfl, _, hid, _, _, hkept⟩ := placed_order_kept hc hv
  obtain ⟨o, ho, hcontents, hlines⟩ := hkept []
  obtain ⟨o', ho', hcontents', hlines'⟩ := hkept later
  rw [List.append_nil] at ho hlines
  exact ⟨shown, rfl, o, ho, (OrderRow.id_of_contents hcontents).trans hid.symm, o', ho',
    hcontents'.trans hcontents.symm, hlines'.trans hlines.symm⟩

/-- Another guest, who orders the same after the first. -/
def orderNext : Request × Operation :=
  ({ bearer "h" with
    env := { sampleEnv with uuid := fun n => sampleId (Fin.ofNat 16 (n + 11)) } }, orderTwo.2)

def orderBothRun : Pool (Api Response) Site World :=
  runs Pool.turn (serveLive samplePlatform [orderTwo, orderNext] [] sampleWorld)
    (List.replicate 12 (0, false) ++ List.replicate 12 (1, false))

/-- The order of a guest who has been answered is as it was when the next guest has ordered too. -/
theorem placed_orders_final_sample :
    orderBothRun.state.db.orders.length = 2 ∧
      ∃ o ∈ (runs Pool.turn (serveLive samplePlatform [orderTwo, orderNext] [] sampleWorld)
        (List.replicate 12 (0, false))).state.db.orders,
      ∃ o' ∈ orderBothRun.state.db.orders, o'.contents = o.contents := by
  have hreturned : ∃ v, (runs Pool.turn (serveLive samplePlatform [orderTwo, orderNext] []
      sampleWorld) (List.replicate 12 (0, false))).threads[0]? = some (.ret v) := ⟨_, rfl⟩
  obtain ⟨v, hv⟩ := hreturned
  obtain ⟨_, _, o, ho, _, o', ho', hc, _⟩ := placed_orders_final samplePlatform
    [orderTwo, orderNext] [] sampleWorld (List.replicate 12 (0, false))
    (List.replicate 12 (1, false)) 0 _ _ v rfl hv
  exact ⟨by decide +kernel, o, ho, o', ho', hc⟩

end DineFlow
