import DineFlow.ShopLedger

namespace DineFlow
open Atomic Relational CartPhase
set_option autoImplicit true

/-- A call writes the cart or an order only while what it read is still stored and no placement
is halfway; a placement only if its lines will all go in. -/
def Undisturbed (s : Session) (cs : List CartCall) (p : Pool (Api Unit) Site World) (i : Nat) :
    Prop :=
  ((p.nextSite Prog.next i = some .cartSet ∨ p.nextSite Prog.next i = some .orderInsert) →
    Pool.Quiet p.log .cartGet CartWrite i ∧ ∀ j, j ≠ i → ¬InWindow p j) ∧
  (p.nextSite Prog.next i = some .orderInsert →
    ∀ env input, cs[i]? = some (.place env input) → LinesFit s env p.state)

theorem InWindow.lt (h : InWindow p j) : j < p.threads.length := by
  by_contra hn
  have hsome := h.2.2.2
  rw [Pool.nextSite, List.getElem?_eq_none (Nat.le_of_not_lt hn)] at hsome
  cases hsome

instance (s : Session) (env : Env) (w : World) : Decidable (LinesFit s env w) :=
  match h : seenCart s w with
  | some (.cart c) => decidable_of_iff
      ((∀ l ∈ c.items, FitsInt4 l.quantity ∧ ∀ s ∈ l.notes, Storable s) ∧
      ((List.range' 1 c.items.length).map env.uuid).Nodup ∧
      ∀ u ∈ (List.range' 1 c.items.length).map env.uuid, ∀ r ∈ w.db.orderItems, r.id ≠ u)
    ⟨fun hfit c' hc => by rw [h] at hc; cases hc; exact hfit, fun hfit => hfit c h⟩
  | some (.menu _) => .isTrue fun c hc => by rw [h] at hc; cases hc
  | some (.items _) => .isTrue fun c hc => by rw [h] at hc; cases hc
  | none => .isTrue fun c hc => by rw [h] at hc; cases hc

instance (p : Pool (Api Unit) Site World) (i : Nat) : Decidable (InWindow p i) :=
  decidable_of_iff ((i, .orderInsert) ∈ p.log ∧ (i, .cartDel) ∉ p.log ∧
    (p.nextSite Prog.next i).isSome)
    ⟨fun h => ⟨h.1, h.2.1, ⟨_, h.1⟩, h.2.2⟩, fun h => ⟨h.1, h.2.1, h.2.2.2⟩⟩

instance (p : Pool (Api Unit) Site World) (i : Nat) :
    Decidable (∀ j, j ≠ i → ¬InWindow p j) :=
  decidable_of_iff (∀ j < p.threads.length, j ≠ i → ¬InWindow p j)
    ⟨fun h j hij hw => h j hw.lt hij hw, fun h j _ => h j⟩

instance (s : Session) (cs : List CartCall) (i : Nat) (w : World) :
    Decidable (∀ env input, cs[i]? = some (.place env input) → LinesFit s env w) :=
  match h : cs[i]? with
  | some (.place env input) => decidable_of_iff (LinesFit s env w)
    ⟨fun hfit _ _ hc => by cases hc; exact hfit, fun hfit => hfit env input rfl⟩
  | some (.add _ _) => .isTrue fun _ _ h => by cases h
  | some (.remove _ _) => .isTrue fun _ _ h => by cases h
  | none => .isTrue fun _ _ h => by cases h

instance (s : Session) (cs : List CartCall) (p : Pool (Api Unit) Site World) (i : Nat) :
    Decidable (Undisturbed s cs p i) :=
  inferInstanceAs (Decidable ((_ → _ ∧ _) ∧ (_ → _)))

/-- Each successful addition went to exactly one place, the cart (`none`) or a created order,
and each place holds exactly what went there. -/
structure ConservedBy (s : Session) (cs : List CartCall) (w : World)
    (p : Pool (Api Unit) Site World) (dest : Nat → Option Uuid) (adds : List Nat) : Prop where
  nodup : adds.Nodup
  succeeded : ∀ i, i ∈ adds ↔
    (∃ env input, cs[i]? = some (.add env input)) ∧ p.threads[i]? = some (.ret ())
  dests : ∀ i ∈ adds, ∀ u, dest i = some u → ∃ o ∈ createdOrders w p.state, o.id = u
  cart : ∀ item, quantityOf item (seenCart s p.state) = share cs dest adds none item
  orders : ∀ o ∈ createdOrders w p.state, ∀ item,
    placedQuantity item o.id p.state.db = share cs dest adds (some o.id) item

def Conserved (s : Session) (cs : List CartCall) (w : World) (p : Pool (Api Unit) Site World) :
    Prop :=
  ∃ dest adds, ConservedBy s cs w p dest adds

theorem ShopInv.step (h : ShopInv s cs w p) (hcs : ∀ c ∈ cs, c.Shops) (i : Nat)
    (hok : Undisturbed s cs (p.map (prog s)) i) : ShopInv s cs w (p.step (next s) i) := by
  rcases p.step_cases (next s) i with he | ⟨φ, site, act, hφ, hn, hs, he⟩
  · rw [he]
    exact h
  rw [he]
  obtain ⟨c, hc, hat⟩ := h.threads i φ hφ
  have hshops := hcs c (List.mem_of_getElem? hc)
  rw [Undisturbed, Pool.nextSite_map (simulates s), hs] at hok
  -- when no other placement is halfway, no order is open
  have hclosed (hclose : φ.openOrder = none)
      (hw : ∀ j, j ≠ i → ¬InWindow (p.map (prog s)) j) (j : Nat) (ψ : CartPhase)
      (hψ : p.threads[j]? = some ψ) : ψ.openOrder = none := by
    by_contra ho
    by_cases hij : j = i
    · subst hij
      rw [hφ] at hψ
      cases hψ
      exact ho hclose
    · obtain ⟨c', _, hat'⟩ := h.threads j ψ hψ
      exact hw j hij (hat'.inWindow hψ ho)
  rcases hat.own hshops h.menu hn with hsilent | ⟨env, seen, cart, rfl⟩ |
      ⟨env, input, seen, table, rows, order, db, rfl, hins⟩ |
      ⟨env, order, rows, data, n, d, ds, rfl⟩ | ⟨env, order, rows, data, rfl⟩
  · exact h.silent hφ hc hsilent
  · cases hn
    obtain ⟨hq, hw⟩ := hok.1 (.inl rfl)
    exact h.store hφ hq (hclosed rfl hw)
  · cases hn
    obtain ⟨hq, hw⟩ := hok.1 (.inr rfl)
    obtain ⟨rfl, _⟩ := hat
    dsimp only
    rw [hins]
    exact h.opening hφ hshops hq (hclosed rfl hw) (hok.2 rfl env input hc) hins
  · cases hn
    obtain ⟨db, hins, hinv⟩ := h.line hφ
    dsimp only
    rw [hins]
    exact hinv
  · cases hn
    exact h.clear hφ

theorem ShopAt.returned (h : ShopAt s w p i c φ) :
    (∃ env input, c = .add env input) ∧ prog s φ = .ret () ↔ φ = .stored := by
  constructor
  · rintro ⟨⟨env, input, hc⟩, hr⟩
    rcases of_prog_ret s hr with rfl | rfl
    · rfl
    · obtain ⟨er, he⟩ := h.2 env input hc
      cases he
  · rintro rfl
    exact ⟨h, rfl⟩

theorem ShopInv.conserved (h : ShopInv s cs w p) (hend : ∀ j, ¬InWindow (p.map (prog s)) j) :
    Conserved s cs w (p.map (prog s)) := by
  obtain ⟨dest, adds, ha⟩ := h.account
  refine ⟨dest, adds, ha.nodup, fun i => ?_, ha.dests, ha.cart, fun o ho => ?_⟩
  · rw [ha.stored, Pool.map, List.getElem?_map]
    cases hφ : p.threads[i]? with
    | none => simp
    | some φ =>
      obtain ⟨c, hc, hat⟩ := h.threads i φ hφ
      rw [hc]
      simpa using hat.returned.symm
  · refine ha.orders o ho fun i φ hφ hopen => ?_
    obtain ⟨c, _, hat⟩ := h.threads i φ hφ
    refine hend i (hat.inWindow hφ ?_)
    rw [hopen]
    intro h
    cases h

/-- Nothing that is added to a cart is lost or ordered twice in any run of additions and
placements that do not disturb each other, once no placement is halfway. -/
theorem cartUnits_conserved (s : Session) (cs : List CartCall) (hcs : ∀ c ∈ cs, c.Shops)
    (w : World) (hw : seenCart s w = none) (is : List Nat)
    (h : Guarded (Pool.step Prog.next) (Undisturbed s cs) (startPool s cs w) is)
    (hend : ∀ j, ¬InWindow (runs (Pool.step Prog.next) (startPool s cs w) is) j) :
    Conserved s cs w (runs (Pool.step Prog.next) (startPool s cs w) is) := by
  rw [startPool_eq, Pool.guarded_map (simulates s)] at h
  rw [startPool_eq, Pool.runs_map (simulates s)] at hend ⊢
  exact (h.runs (ShopInv.start s cs w hw) fun p i hp hok => hp.step hcs i hok).conserved hend

def addCall : CartCall := .add sampleEnv ⟨(sampleId 4).text, 1, none⟩

def placeCall : CartCall := .place sampleEnv sampleOrder

/-- A second placement, which draws other uuids. -/
def placeCallAgain : CartCall :=
  .place { sampleEnv with uuid := fun n => sampleId (Fin.ofNat 16 (n + 11)) } sampleOrder

/-- An addition and then a placement, each run to its end. -/
def addThenPlace : Pool (Api Unit) Site World :=
  runs (Pool.step Prog.next) (startPool sampleSession [addCall, placeCall] sampleWorld)
    (List.replicate 4 0 ++ List.replicate 11 1)

theorem cartUnits_conserved_sample :
    Conserved sampleSession [addCall, placeCall] sampleWorld addThenPlace := by
  have hshops : ∀ c ∈ [addCall, placeCall], c.Shops := by
    simp [addCall, placeCall, sampleOrder, CartCall.Shops]
  have hclosed : ∀ e ∈ addThenPlace.log, e.2 = .orderInsert →
      (e.1, .cartDel) ∈ addThenPlace.log := by
    decide +kernel
  exact cartUnits_conserved sampleSession [addCall, placeCall] hshops sampleWorld rfl _
    (by decide +kernel) fun j hj => hj.2.1 (hclosed _ hj.1 rfl)

def doubleCalls : List CartCall := [addCall, placeCall, placeCallAgain]

/-- The addition runs, both placements read the cart, then each runs to its end. -/
def doubleSubmitted : Pool (Api Unit) Site World :=
  runs (Pool.step Prog.next) (startPool sampleSession doubleCalls sampleWorld)
    (List.replicate 4 0 ++ [1, 2] ++ List.replicate 10 1 ++ List.replicate 10 2)

/-- A placement that is submitted twice: the one unit that was added is ordered twice. -/
theorem cartUnits_not_conserved :
    (∀ t ∈ doubleSubmitted.threads, t.result = some (.ok ())) ∧
      ¬Conserved sampleSession doubleCalls sampleWorld doubleSubmitted := by
  have hdone : ∀ t ∈ doubleSubmitted.threads, t.result = some (.ok ()) := by decide +kernel
  have hlen : 0 < doubleSubmitted.threads.length := by decide +kernel
  refine ⟨hdone, ?_⟩
  rintro ⟨dest, adds, h⟩
  have hperm : adds.Perm [0] := by
    refine (List.perm_ext_iff_of_nodup h.nodup (by decide)).2 fun i => (h.succeeded i).trans ?_
    rcases i with _ | _ | _ | i
    · refine iff_of_true ⟨⟨_, _, rfl⟩, ?_⟩ (by decide)
      have hfirst := hdone _ (List.getElem_mem hlen)
      rw [List.getElem?_eq_getElem hlen, Prog.result_eq_ok.1 hfirst]
    · exact iff_of_false (by rintro ⟨⟨_, _, he⟩, _⟩; cases he) (by decide)
    · exact iff_of_false (by rintro ⟨⟨_, _, he⟩, _⟩; cases he) (by decide)
    · exact iff_of_false (by rintro ⟨⟨_, _, he⟩, _⟩; cases he) (by simp)
  -- each of the two orders holds the unit, so each is the place it went to
  have hdest (o : OrderRow) (ho : o ∈ createdOrders sampleWorld doubleSubmitted.state)
      (hq : placedQuantity (sampleId 4).text o.id doubleSubmitted.state.db = 1) :
      dest 0 = some o.id := by
    have hs := h.orders o ho (sampleId 4).text
    rw [hq, share, ((hperm.filter _).map _).sum_eq] at hs
    by_contra hne
    simp [hne] at hs
  have htwo : (createdOrders sampleWorld doubleSubmitted.state).map OrderRow.id =
      [sampleId 8, sampleId 11] ∧ ∀ o ∈ createdOrders sampleWorld doubleSubmitted.state,
        placedQuantity (sampleId 4).text o.id doubleSubmitted.state.db = 1 := by
    decide +kernel
  obtain ⟨o₁, ho₁, he₁⟩ := List.mem_map.1 (htwo.1 ▸ List.mem_cons_self : sampleId 8 ∈ _)
  obtain ⟨o₂, ho₂, he₂⟩ := List.mem_map.1
    (htwo.1 ▸ List.mem_cons_of_mem _ List.mem_cons_self : sampleId 11 ∈ _)
  have hsame := (hdest o₁ ho₁ (htwo.2 o₁ ho₁)).symm.trans (hdest o₂ ho₂ (htwo.2 o₂ ho₂))
  rw [he₁, he₂] at hsame
  exact absurd hsame (by decide)

end DineFlow
