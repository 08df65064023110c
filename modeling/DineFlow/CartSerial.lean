import DineFlow.CartEdits

namespace DineFlow
open Atomic Relational CartPhase
set_option autoImplicit true

/-- A call that is about to store its cart still has the one that is stored: no other call has
written it since. -/
def StoresFresh (p : Pool (Api Unit) Site World) (i : Nat) : Prop :=
  p.nextSite Prog.next i = some .cartSet → Pool.Quiet p.log .cartGet CartWrite i

instance (p : Pool (Api Unit) Site World) (i : Nat) : Decidable (StoresFresh p i) :=
  inferInstanceAs (Decidable (_ → _))

def serialStep (s : Session) (es : List CartEdit) (w : World) (i : Nat) : World :=
  match es[i]? with
  | some e => ((e.call.prog s).run noFault w).2
  | none => w

def SerialOk (s : Session) (es : List CartEdit) (w : World) (i : Nat) : Prop :=
  ∃ e, es[i]? = some e ∧ ((e.call.prog s).run noFault w).1 = .ok ()

/-- What the `i`-th call adds of an item. -/
def addedBy (es : List CartEdit) (item : String) (i : Nat) : Int :=
  ((es[i]?).map (CartEdit.added item)).getD 0

/-- The calls that have returned successfully, in an order in which running them one after
another succeeds and leaves the cart that is stored. -/
structure SerialOrder (s : Session) (es : List CartEdit) (w : World)
    (p : Pool (Api Unit) Site World) (order : List Nat) : Prop where
  nodup : order.Nodup
  succeeded : ∀ i, i ∈ order ↔ p.threads[i]? = some (.ret ())
  ok : Guarded (serialStep s es) (SerialOk s es) w order
  stored : p.state.redis.get s.key = (runs (serialStep s es) w order).redis.get s.key
  sums : ∀ item, (∀ e ∈ es, ¬e.removes item) →
    quantityOf item (seenCart s p.state) =
      quantityOf item (seenCart s w) + (order.map (addedBy es item)).sum

def Serializable (s : Session) (es : List CartEdit) (w : World)
    (p : Pool (Api Unit) Site World) : Prop :=
  ∃ order, SerialOrder s es w p order

/-- The threads that have stored a cart, in the order in which they did. -/
def savedOrder (log : List (Nat × Site)) : List Nat :=
  log.filterMap fun e => if e.2 = .cartSet then some e.1 else none

/-- What is known of a thread that runs an edit, in each of its phases. -/
def EditAt (s : Session) (p : Pool CartPhase Site World) (i : Nat) (e : CartEdit) :
    CartPhase → Prop
  | .call c => c = e.call
  | .found env input row =>
    e = .add env input ∧ availableItem input.menuItemId p.state.db = .ok (some row)
  | .pricing env seen cart => env = e.env ∧ SawCart s p i seen ∧ cart.items ≠ [] ∧
    e.outcome p.state.db seen = priceCart p.state.db cart
  | .storing env seen cart => env = e.env ∧ SawCart s p i seen ∧
    e.outcome p.state.db seen = .ok cart
  | .stored => True
  | .rest q => ∃ er, q = .throw er
  | _ => False

theorem EditAt.other {p p' : Pool CartPhase Site World} (h : EditAt s p j e φ) (hij : i ≠ j)
    (hdb : p'.state.db = p.state.db) (hlog : p'.log = p.log ++ [(i, site)])
    (hseen : ¬CartWrite site → seenCart s p'.state = seenCart s p.state) : EditAt s p' j e φ := by
  cases φ with
  | call c => exact h
  | found env input row => exact ⟨h.1, hdb ▸ h.2⟩
  | pricing env seen cart => exact ⟨h.1, h.2.1.other hij hlog hseen, h.2.2.1, hdb ▸ h.2.2.2⟩
  | storing env seen cart => exact ⟨h.1, h.2.1.other hij hlog hseen, hdb ▸ h.2.2⟩
  | stored => trivial
  | rest q => exact h
  | seating => exact h
  | checking => exact h
  | inserting => exact h
  | lining => exact h
  | clearing => exact h

theorem EditAt.changed {p : Pool CartPhase Site World} {e : CartEdit}
    (hlog : (i, .cartGet) ∈ p.log)
    (ho : e.outcome p.state.db (seenCart s p.state) = r.bind (priceCart p.state.db)) :
    changed e.env (seenCart s p.state) r ≠ .stored ∧
      EditAt s p i e (CartPhase.changed e.env (seenCart s p.state) r) := by
  have hsaw : SawCart s p i (seenCart s p.state) := ⟨hlog, fun _ => rfl⟩
  cases r with
  | error er => exact ⟨(fun h => by cases h), er, rfl⟩
  | ok cart =>
    rw [CartPhase.changed]
    split
    · rename_i hi
      refine ⟨(fun h => by cases h), rfl, hsaw, ?_⟩
      rw [ho]
      exact if_pos hi
    · rename_i hi
      exact ⟨(fun h => by cases h), rfl, hsaw, hi, ho⟩

/-- A thread's own step: it learns something and changes nothing, or it stores its cart. -/
theorem EditAt.own {p : Pool CartPhase Site World} (h : EditAt s p i e φ)
    (hn : next s φ = some (site, act)) :
    (site ≠ .cartSet ∧ (act p.state).2 = p.state ∧ (act p.state).1 ≠ .stored ∧
      ∀ ts, EditAt s ⟨p.state, ts, p.log ++ [(i, site)]⟩ i e (act p.state).1) ∨
    ∃ env seen cart, site = .cartSet ∧ φ = .storing env seen cart ∧ act p.state =
      (.stored, { p.state with redis := p.state.redis.set s.key (cartEntry s env cart) }) := by
  have hlast (site : Site) : (i, site) ∈ p.log ++ [(i, site)] :=
    List.mem_append_right _ List.mem_cons_self
  cases φ with
  | call c =>
    obtain rfl : c = e.call := h
    cases e with
    | add env input =>
      cases hn
      left
      dsimp only
      cases hr : availableItem input.menuItemId p.state.db with
      | error er => exact ⟨(fun h => by cases h), rfl, (fun h => by cases h), fun _ => ⟨_, rfl⟩⟩
      | ok row =>
        cases row with
        | none => exact ⟨(fun h => by cases h), rfl, (fun h => by cases h), fun _ => ⟨_, rfl⟩⟩
        | some row => exact ⟨(fun h => by cases h), rfl, (fun h => by cases h), fun _ => ⟨rfl, hr⟩⟩
    | remove env menuItemId =>
      cases hn
      left
      have hc (ts : List CartPhase) := EditAt.changed (s := s) (i := i)
        (p := ⟨p.state, ts, p.log ++ [(i, .cartGet)]⟩) (e := .remove env menuItemId) (hlast _) rfl
      exact ⟨(fun h => by cases h), rfl, (hc []).1, fun ts => (hc ts).2⟩
  | found env input row =>
    obtain ⟨rfl, hrow⟩ := h
    cases hn
    left
    have ho : (CartEdit.add env input).outcome p.state.db (seenCart s p.state) =
        (addedCart env input row (seenCart s p.state)).bind (priceCart p.state.db) := by
      rw [CartEdit.outcome, hrow]
    have hc (ts : List CartPhase) := EditAt.changed (s := s) (i := i)
      (p := ⟨p.state, ts, p.log ++ [(i, .cartGet)]⟩) (e := .add env input) (hlast _) ho
    exact ⟨(fun h => by cases h), rfl, (hc []).1, fun ts => (hc ts).2⟩
  | pricing env seen cart =>
    obtain ⟨rfl, hs, hi, ho⟩ := h
    cases hn
    left
    rw [priceCart, if_neg hi] at ho
    dsimp only
    cases hr : menuItemsIn (cart.items.map CartItem.menuItemId) p.state.db with
    | error er => exact ⟨(fun h => by cases h), rfl, (fun h => by cases h), fun _ => ⟨_, rfl⟩⟩
    | ok rows =>
      rw [hr] at ho
      exact ⟨(fun h => by cases h), rfl, (fun h => by cases h), fun _ => ⟨rfl, hs.own rfl rfl, ho⟩⟩
  | storing env seen cart =>
    cases hn
    exact .inr ⟨env, seen, cart, rfl, rfl, rfl⟩
  | stored => cases hn
  | rest q =>
    obtain ⟨er, rfl⟩ := h
    cases hn
  | seating => exact h.elim
  | checking => exact h.elim
  | inserting => exact h.elim
  | lining => exact h.elim
  | clearing => exact h.elim

theorem savedOrder_snoc (log : List (Nat × Site)) (i : Nat) (site : Site) :
    savedOrder (log ++ [(i, site)]) =
      savedOrder log ++ if site = .cartSet then [i] else [] := by
  rw [savedOrder, List.filterMap_append]
  by_cases h : site = .cartSet <;> simp [h, savedOrder]

/-- Every thread is where its edit can be, and the stored cart is the one that the edits which
have stored leave, in that order. -/
structure SerialInv (s : Session) (es : List CartEdit) (w : World)
    (p : Pool CartPhase Site World) : Prop where
  db : p.state.db = w.db
  threads : ∀ i φ, p.threads[i]? = some φ → ∃ e, es[i]? = some e ∧ EditAt s p i e φ
  saved : ∀ i, i ∈ savedOrder p.log ↔ p.threads[i]? = some .stored
  nodup : (savedOrder p.log).Nodup
  ok : Guarded (serialStep s es) (SerialOk s es) w (savedOrder p.log)
  serialDb : (runs (serialStep s es) w (savedOrder p.log)).db = w.db
  stored : p.state.redis.get s.key =
    (runs (serialStep s es) w (savedOrder p.log)).redis.get s.key

theorem SerialInv.start (s : Session) (es : List CartEdit) (w : World) :
    SerialInv s es w (phasePool (es.map CartEdit.call) w) where
  db := rfl
  threads := by
    intro i φ h
    rw [phasePool, List.map_map, List.getElem?_map] at h
    obtain ⟨e, he, rfl⟩ := Option.map_eq_some_iff.1 h
    exact ⟨e, he, rfl⟩
  saved := by
    intro i
    refine iff_of_false (by simp [savedOrder, phasePool]) fun h => ?_
    rw [phasePool, List.map_map, List.getElem?_map] at h
    obtain ⟨e, _, he⟩ := Option.map_eq_some_iff.1 h
    cases he
  nodup := List.nodup_nil
  ok := trivial
  serialDb := rfl
  stored := rfl

/-- Running one more edit alone, in a state that agrees on the database and the stored cart. -/
theorem serialStep_stores {e : CartEdit} (he : es[i]? = some e)
    (ho : e.outcome w.db (seenCart s w) = .ok cart) :
    SerialOk s es w i ∧ serialStep s es w i =
      { w with redis := w.redis.set s.key (cartEntry s e.env cart) } := by
  have hr := e.run s w
  rw [ho] at hr
  refine ⟨⟨e, he, congrArg Prod.fst hr⟩, ?_⟩
  rw [serialStep, he]
  exact congrArg Prod.snd hr

theorem SerialInv.threads_set (h : SerialInv s es w p) (hes : es[i]? = some e) (w' : World)
    (hdb : w'.db = p.state.db)
    (hown : EditAt s ⟨w', p.threads.set i ψ, p.log ++ [(i, site)]⟩ i e ψ)
    (hseen : ¬CartWrite site → seenCart s w' = seenCart s p.state) (j : Nat) (χ : CartPhase)
    (hχ : (p.threads.set i ψ)[j]? = some χ) :
    ∃ e, es[j]? = some e ∧ EditAt s ⟨w', p.threads.set i ψ, p.log ++ [(i, site)]⟩ j e χ := by
  rcases Pool.of_getElem?_set hχ with ⟨rfl, rfl⟩ | ⟨hij, hχ⟩
  · exact ⟨e, hes, hown⟩
  · obtain ⟨e', hes', hat⟩ := h.threads j χ hχ
    exact ⟨e', hes', hat.other hij hdb rfl hseen⟩

theorem SerialInv.learn (h : SerialInv s es w p) (hes : es[i]? = some e)
    (hφ : p.threads[i]? = some φ) (hne : φ ≠ .stored) (hne' : ψ ≠ .stored)
    (hsite : site ≠ .cartSet)
    (hat : EditAt s ⟨p.state, p.threads.set i ψ, p.log ++ [(i, site)]⟩ i e ψ) :
    SerialInv s es w ⟨p.state, p.threads.set i ψ, p.log ++ [(i, site)]⟩ := by
  have horder : savedOrder (p.log ++ [(i, site)]) = savedOrder p.log := by
    rw [savedOrder_snoc, if_neg hsite, List.append_nil]
  refine ⟨h.db, h.threads_set hes _ rfl hat fun _ => rfl, fun j => ?_, ?_, ?_, ?_, ?_⟩
  · rw [horder, h.saved j]
    exact (stored_set_iff hφ hne hne' j).symm
  all_goals rw [horder]
  exacts [h.nodup, h.ok, h.serialDb, h.stored]

theorem SerialInv.save (h : SerialInv s es w p) {e : CartEdit} (hes : es[i]? = some e)
    (hφ : p.threads[i]? = some (.storing e.env seen cart)) (hseen : seenCart s p.state = seen)
    (ho : e.outcome p.state.db seen = .ok cart) :
    SerialInv s es w ⟨{ p.state with redis := p.state.redis.set s.key (cartEntry s e.env cart) },
      p.threads.set i .stored, p.log ++ [(i, .cartSet)]⟩ := by
  have hlt : i < p.threads.length := (List.getElem?_eq_some_iff.1 hφ).1
  have horder : savedOrder (p.log ++ [(i, .cartSet)]) = savedOrder p.log ++ [i] := by
    rw [savedOrder_snoc, if_pos rfl]
  have hserial : seenCart s (runs (serialStep s es) w (savedOrder p.log)) = seen := by
    rw [← hseen, seenCart, seenCart, h.stored]
  rw [← hserial, h.db, ← h.serialDb] at ho
  obtain ⟨hok, hstep⟩ := serialStep_stores hes ho
  have hnew : i ∉ savedOrder p.log := by
    rw [h.saved, hφ]
    intro h
    cases h
  refine ⟨h.db, h.threads_set hes _ rfl trivial fun hc => absurd (.inl rfl) hc, fun j => ?_,
    ?_, ?_, ?_, ?_⟩
  · rw [horder, List.mem_append, h.saved j]
    by_cases hij : i = j
    · subst hij
      rw [List.getElem?_set_self hlt]
      simp
    · rw [List.getElem?_set_ne hij]
      simp [Ne.symm hij]
  all_goals rw [horder]
  · refine List.nodup_append.2 ⟨h.nodup, List.nodup_singleton i, fun a ha b hb hab => hnew ?_⟩
    rw [← List.mem_singleton.1 hb, ← hab]
    exact ha
  · exact guarded_append.2 ⟨h.ok, hok, trivial⟩
  · rw [runs_append, runs_cons, runs_nil, hstep]
    exact h.serialDb
  · rw [runs_append, runs_cons, runs_nil, hstep, Redis.get_set_same, Redis.get_set_same]

theorem SerialInv.step (h : SerialInv s es w p) (i : Nat)
    (hok : p.nextSite (next s) i = some .cartSet →
      Pool.Quiet p.log .cartGet CartWrite i) :
    SerialInv s es w (p.step (next s) i) := by
  rcases p.step_cases (next s) i with he | ⟨φ, site, act, hφ, hn, hs, he⟩
  · rw [he]
    exact h
  rw [he]
  obtain ⟨e, hes, hat⟩ := h.threads i φ hφ
  rcases hat.own hn with ⟨hsite, hstate, hne, hat'⟩ | ⟨env, seen, cart, rfl, rfl, hact⟩
  · rw [hstate]
    refine h.learn hes hφ (fun hc => ?_) hne hsite (hat' _)
    cases hc
    cases hn
  · obtain ⟨rfl, hsaw, ho⟩ := hat
    rw [hact]
    exact h.save hes hφ (hsaw.2 (hok hs)) ho

theorem SerialOk.outcome (h : SerialOk s es w i) :
    ∃ e cart, es[i]? = some e ∧ e.outcome w.db (seenCart s w) = .ok cart := by
  obtain ⟨e, he, hr⟩ := h
  rw [e.run s w] at hr
  cases ho : e.outcome w.db (seenCart s w) with
  | error er =>
    rw [ho] at hr
    cases hr
  | ok cart => exact ⟨e, cart, he, ho⟩

theorem serial_sum (hr : ∀ e ∈ es, ¬e.removes item)
    (h : Guarded (serialStep s es) (SerialOk s es) w order) :
    quantityOf item (seenCart s (runs (serialStep s es) w order)) =
      quantityOf item (seenCart s w) + (order.map (addedBy es item)).sum := by
  induction order generalizing w with
  | nil => simp
  | cons i order ih =>
    obtain ⟨e, cart, he, ho⟩ := h.1.outcome
    have hstep := (serialStep_stores he ho).2
    have hq := CartEdit.outcome_quantity ho (hr e (List.mem_of_getElem? he))
    have hadd : addedBy es item i = e.added item := by rw [addedBy, he]; rfl
    have hafter : quantityOf item (seenCart s (serialStep s es w i)) =
        lineQuantity item cart.items := by
      rw [hstep, seenCart, Redis.get_set_same]
      exact lineQuantity_json item cart.items
    rw [runs_cons, ih h.2, hafter, hq, List.map_cons, List.sum_cons, hadd, add_assoc]

theorem EditAt.returned (h : EditAt s p i e φ) : prog s φ = .ret () ↔ φ = .stored := by
  refine ⟨fun hr => ?_, fun he => he ▸ rfl⟩
  rcases of_prog_ret s hr with rfl | rfl
  · rfl
  · obtain ⟨er, he⟩ := h
    cases he

theorem SerialInv.serializable (h : SerialInv s es w p) :
    Serializable s es w (p.map (prog s)) := by
  refine ⟨savedOrder p.log, h.nodup, fun i => ?_, h.ok, h.stored, fun item hr => ?_⟩
  · rw [h.saved, Pool.map, List.getElem?_map]
    cases hφ : p.threads[i]? with
    | none => simp
    | some φ =>
      obtain ⟨e, _, hat⟩ := h.threads i φ hφ
      simp [hat.returned]
  · rw [← serial_sum hr h.ok, Pool.map, seenCart, seenCart, h.stored]

/-- Additions to and removals from one cart are serializable in every run in which no call
stores a cart over one it has not read. -/
theorem cartEdits_serializable (s : Session) (es : List CartEdit) (w : World) (is : List Nat)
    (h : Guarded (Pool.step Prog.next) StoresFresh (startPool s (es.map CartEdit.call) w) is) :
    Serializable s es w (runs (Pool.step Prog.next) (startPool s (es.map CartEdit.call) w) is) := by
  rw [startPool_eq, Pool.guarded_map (simulates s)] at h
  rw [startPool_eq, Pool.runs_map (simulates s)]
  apply SerialInv.serializable
  refine h.runs (SerialInv.start s es w) fun p i hp hok => hp.step i fun hs => hok ?_
  rw [Pool.nextSite_map (simulates s)]
  exact hs

def sampleEdit : CartEdit := .add sampleEnv ⟨(sampleId 4).text, 1, none⟩

/-- Two calls that both read the cart before either stores it: one unit is lost. -/
theorem cartEdits_not_serializable :
    ¬Serializable sampleSession [sampleEdit, sampleEdit] sampleWorld
      (runs (Pool.step Prog.next) (startPool sampleSession
        ([sampleEdit, sampleEdit].map CartEdit.call) sampleWorld) [0, 0, 1, 1, 0, 0, 1, 1]) := by
  rintro ⟨order, h⟩
  have hperm : order.Perm [0, 1] := by
    refine (List.perm_ext_iff_of_nodup h.nodup (by decide)).2 fun i => (h.succeeded i).trans ?_
    rcases i with _ | _ | i
    · exact iff_of_true rfl (by decide)
    · exact iff_of_true rfl (by decide)
    · exact iff_of_false (fun h => by cases h) (by simp)
  have hsum := h.sums (sampleId 4).text (by simp [sampleEdit, CartEdit.removes])
  rw [(hperm.map _).sum_eq] at hsum
  revert hsum
  decide +kernel

/-- Run one after the other, the same two calls leave two units. -/
theorem cartEdits_serializable_sample :
    Serializable sampleSession [sampleEdit, sampleEdit] sampleWorld
      (runs (Pool.step Prog.next) (startPool sampleSession
        ([sampleEdit, sampleEdit].map CartEdit.call) sampleWorld) [0, 0, 0, 0, 1, 1, 1, 1]) :=
  cartEdits_serializable sampleSession [sampleEdit, sampleEdit] sampleWorld _ (by decide +kernel)

end DineFlow
