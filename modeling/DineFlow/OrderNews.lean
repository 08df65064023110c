import DineFlow.OrderSums

namespace DineFlow
open Atomic Relational
set_option autoImplicit true

/-- What staff have been told is true: every announcement is of a stored order with all of its
lines, and no socket has been told of an order more than twice. -/
structure NewsTrue (A : Arithmetic) (w : World) : Prop where
  distinct : w.gateway.Distinct
  told : ∀ m ∈ w.gateway.news, ∃ o ∈ w.db.orders, Announces A o (linesOf o.id w.db) m.2
  twice : ∀ id k, (w.gateway.news.countP fun m => m.1 = id ∧ m.2.orderId = k) ≤ 2

theorem Announces.of_contents (h : Announces A o ls e) (hc : o'.contents = o.contents) :
    Announces A o' ls e := by
  cases o
  cases o'
  cases hc
  exact ⟨h.orderId, h.tableId, h.restaurantId, h.totalAmount, h.createdAt, h.quantities, h.stored⟩

/-- The sockets in a room. -/
def Gateway.audience (g : Gateway) (room : String) : List String :=
  (g.sockets.filter fun s => room ∈ s.rooms).map Socket.id

theorem Gateway.Distinct.audience {g : Gateway} (h : g.Distinct) (room : String) :
    (g.audience room).Nodup :=
  h.sublist (List.filter_sublist.map Socket.id)

theorem news_emit_orderNew (g : Gateway) (room : String) (e : OrderPlacedEvent) :
    (g.emit room (.orderNew e)).news = g.news ++ (g.audience room).map fun id => (id, e) := by
  rw [Gateway.news, Gateway.emit, List.filterMap_append, List.filterMap_map, Gateway.audience,
    List.map_map, Gateway.news]
  congr 1
  exact congrFun List.filterMap_eq_map' _

theorem news_orderPlaced (g : Gateway) (e : OrderPlacedEvent) :
    (emitOrderPlaced e g).news = g.news ++
      ((g.audience ("restaurant:" ++ e.restaurantId)).map fun id => (id, e)) ++
      (g.audience ("kitchen:" ++ e.restaurantId)).map fun id => (id, e) := by
  rw [emitOrderPlaced, news_emit_orderNew, news_emit_orderNew]
  rfl

theorem countP_audience {ids : List String} (h : ids.Nodup) (e : OrderPlacedEvent) (id : String)
    (k : Uuid) :
    ((ids.map fun i => (i, e)).countP fun m => m.1 = id ∧ m.2.orderId = k) ≤
      if e.orderId = k then 1 else 0 := by
  rw [List.countP_map]
  split
  · calc ids.countP _ ≤ ids.count id := by
          refine List.countP_mono_left fun i _ hi => ?_
          simp only [Function.comp, decide_eq_true_eq] at hi
          exact beq_iff_eq.2 hi.1
      _ ≤ 1 := List.nodup_iff_count_le_one.1 h id
  · rename_i hk
    rw [Nat.le_zero, List.countP_eq_zero]
    intro i _ hi
    simp only [Function.comp, decide_eq_true_eq] at hi
    exact hk hi.2

/-- The announcements and the placements under way: nobody has heard of an order before its
placement announces it. -/
structure NewsBook (A : Arithmetic) (P : Nat → Env → OrderRow → List OrderItemData → Prop)
    (w : World) (gs : Nat → Option Placing) : Prop extends Owners P w gs, NewsTrue A w where
  untold : ∀ i p, gs i = some p → p.announced = false →
    ∀ m ∈ w.gateway.news, m.2.orderId ≠ p.order.id

section Steps

variable {P : Nat → Env → OrderRow → List OrderItemData → Prop} {gs : Nat → Option Placing}

theorem NewsTrue.silent (h : NewsTrue A w) (hs : Silent w w') : NewsTrue A w' := by
  refine ⟨hs.distinct h.distinct, fun m hm => ?_, fun id k => ?_⟩
  · rw [hs.news] at hm
    obtain ⟨o, ho, ha⟩ := h.told m hm
    obtain ⟨o', ho', hc⟩ := hs.stays ho
    refine ⟨o', ho', ?_⟩
    rw [hs.linesOf, OrderRow.id_of_contents hc]
    exact ha.of_contents hc
  · rw [hs.news]
    exact h.twice id k

theorem NewsBook.silent (h : NewsBook A P w gs) (hs : Silent w w') : NewsBook A P w' gs := by
  refine ⟨h.toOwners.silent hs, h.toNewsTrue.silent hs, fun i p hp hn m hm => ?_⟩
  rw [hs.news] at hm
  exact h.untold i p hp hn m hm

theorem NewsBook.open (h : NewsBook A P w gs) (hP : P i env o.stored data)
    (ho : w.db.insertOrder o = .ok db) :
    NewsBook A P { w with db := db }
      (Function.update gs i (some ⟨env, o.stored, data, [], false⟩)) := by
  obtain ⟨hacc, ht⟩ := Db.insertOrder_ok_iff.1 ho
  refine ⟨h.toOwners.open hP ho, ⟨h.distinct, fun m hm => ?_, h.twice⟩, ?_⟩
  · obtain ⟨o', ho', ha⟩ := h.told m hm
    have hlines : linesOf o'.id db = linesOf o'.id w.db := by rw [linesOf, linesOf, ht]
    refine ⟨o', ?_, ?_⟩
    · dsimp only
      rw [ht]
      exact List.mem_append_left _ ho'
    · rw [hlines]
      exact ha
  · intro j p hp hn m hm
    rcases Pool.update_some hp with ⟨_, hg⟩ | ⟨_, hp⟩
    · cases hg
      obtain ⟨o', ho', ha⟩ := h.told m hm
      rw [ha.orderId]
      exact (OrderRow.accepted_refs hacc).1 o' ho'
    · exact h.untold j p hp hn m hm

theorem NewsBook.enter (h : NewsBook A P w gs) (hi : gs i = some p) (hn : p.announced = false)
    (hl : l.orderId = p.order.id) (hinsert : w.db.insertOrderItem l = .ok db) :
    NewsBook A P { w with db := db }
      (Function.update gs i (some { p with lines := p.lines ++ [l] })) := by
  obtain ⟨_, ht⟩ := Db.insertOrderItem_ok_iff.1 hinsert
  refine ⟨h.toOwners.enter hi hl hinsert, ⟨h.distinct, fun m hm => ?_, h.twice⟩, ?_⟩
  · obtain ⟨o, ho, ha⟩ := h.told m hm
    have hne : ¬l.orderId = o.id := by
      intro he
      apply h.untold i p hi hn m hm
      rw [ha.orderId, ← he, hl]
    refine ⟨o, ?_, ?_⟩
    · dsimp only
      rw [ht]
      exact ho
    · rw [linesOf_insert hinsert, if_neg hne]
      exact ha
  · intro j q hq hq' m hm
    rcases Pool.update_some hq with ⟨_, hg⟩ | ⟨_, hq⟩
    · cases hg
      exact h.untold i p hi hn m hm
    · exact h.untold j q hq hq' m hm

theorem NewsBook.announce (h : NewsBook A P w gs) (hi : gs i = some p) (hn : p.announced = false)
    (he : Announces A p.order p.lines e) :
    NewsBook A P { w with gateway := emitOrderPlaced e w.gateway }
      (Function.update gs i (some { p with announced := true })) := by
  have hnew (m : String × OrderPlacedEvent) (hm : m ∈ (emitOrderPlaced e w.gateway).news) :
      m ∈ w.gateway.news ∨ m.2 = e := by
    rw [news_orderPlaced, List.append_assoc] at hm
    rcases List.mem_append.1 hm with hm | hm
    · exact .inl hm
    · rcases List.mem_append.1 hm with hm | hm
      · obtain ⟨id, _, rfl⟩ := List.mem_map.1 hm
        exact .inr rfl
      · obtain ⟨id, _, rfl⟩ := List.mem_map.1 hm
        exact .inr rfl
  refine ⟨h.toOwners.announce hi _, ⟨h.distinct, fun m hm => ?_, fun id k => ?_⟩, ?_⟩
  · rcases hnew m hm with hm | rfl
    · exact h.told m hm
    · obtain ⟨o, ho, hc, hlines⟩ := h.toOwners.order hi
      refine ⟨o, ho, ?_⟩
      rw [hlines]
      exact he.of_contents hc
  · -- the two rooms of a restaurant bring one announcement each, of an order not told before
    dsimp only
    rw [news_orderPlaced, List.countP_append, List.countP_append]
    have hr := countP_audience (h.distinct.audience ("restaurant:" ++ e.restaurantId)) e id k
    have hk := countP_audience (h.distinct.audience ("kitchen:" ++ e.restaurantId)) e id k
    have hold := h.twice id k
    by_cases hid : e.orderId = k
    · have hzero : (w.gateway.news.countP fun m => m.1 = id ∧ m.2.orderId = k) = 0 := by
        rw [List.countP_eq_zero]
        intro m hm hmk
        apply h.untold i p hi hn m hm
        rw [← he.orderId, hid]
        exact (of_decide_eq_true hmk).2
      rw [if_pos hid] at hr hk
      omega
    · rw [if_neg hid] at hr hk
      omega
  · intro j q hq hq' m hm
    rcases Pool.update_some hq with ⟨_, hg⟩ | ⟨hj, hq⟩
    · cases hg
      cases hq'
    · rcases hnew m hm with hm | rfl
      · exact h.untold j q hq hq' m hm
      · rw [he.orderId]
        exact fun hid => hj (h.apart j i q p hq hi hid.symm)

theorem NewsBook.step (hA : ∀ i env o data, P i env o data → env.arithmetic = A) (w : World)
    (gs : Nat → Option Placing) (i : Nat) (w' : World) (g' : Option Placing)
    (h : NewsBook A P w gs) (hs : PlacingStep (P i) (gs i) w w' g') :
    NewsBook A P w' (Function.update gs i g') := by
  generalize hg : gs i = g at hs
  cases hs with
  | silent hs =>
    rw [← hg, Function.update_eq_self]
    exact h.silent hs
  | opened hP ho => exact h.open hP ho
  | line _ _ hn hinsert => exact h.enter hg hn rfl hinsert
  | announced hn he => exact h.announce hg hn (hA i _ _ _ (h.opened i _ hg) ▸ he)

end Steps

/-- On a server that adds up as `A` does, however requests interleave, whichever of their statements
fail and whoever connects, staff hear only of orders that are stored with all the lines they hear
of, and at most twice. -/
theorem news_stays_true (A : Arithmetic) (pf : Platform) (calls : List (Request × Operation))
    (hA : ∀ c ∈ calls, c.1.env.arithmetic = A) (ops : List SocketOp) (w : World)
    (hw : NewsTrue A w) (turns : List (Nat × Bool)) :
    NewsTrue A (runs Pool.turn (serveLive pf calls ops w) turns).state := by
  have hstart : NewsBook A (MayOpen (fun _ => True) pf calls) w fun _ => none := by
    refine ⟨Owners.start _ _, hw, fun i p hp => ?_⟩
    cases hp
  obtain ⟨gs, _, hbook⟩ := Pool.runs_follow_always (NewsBook.step (mayOpen_arithmetic hA))
    (serveLive_follows _ pf calls ops w) hstart turns
  exact hbook.toNewsTrue

/-- A platform with the web token of a cook of the sample restaurant. -/
def cookPlatform : Platform :=
  { samplePlatform with
    verify := fun _ token =>
      if token = "cook" then some [("role", "kitchen"), ("restaurantId", (sampleId 1).text)]
      else none }

/-- A cook connects while a guest orders. -/
def cookedRun : Pool (Api Response) Site World :=
  runs Pool.turn (serveLive cookPlatform [orderTwo]
    [.connect 0 "s1" sampleSocket_plain ⟨some "cook", none, none⟩] sampleWorld)
    ((1, false) :: List.replicate 12 (0, false))

theorem news_stays_true_sample :
    NewsTrue .exact cookedRun.state ∧ cookedRun.state.gateway.news.map Prod.fst = ["s1", "s1"] := by
  have hstart : NewsTrue .exact sampleWorld := by
    refine ⟨List.nodup_nil, fun m hm => ?_, fun id k => Nat.zero_le 2⟩
    cases hm
  exact ⟨news_stays_true .exact cookPlatform [orderTwo]
    (List.forall_mem_singleton.2 rfl) _ _ hstart _, by decide +kernel⟩

end DineFlow
