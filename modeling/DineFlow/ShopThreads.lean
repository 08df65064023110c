import DineFlow.CartEdits
import DineFlow.Placement

namespace DineFlow
open Atomic Relational CartPhase
set_option autoImplicit true

/-- Additions, and placements that bring no items of their own. -/
def CartCall.Shops : CartCall → Prop
  | .add _ _ => True
  | .remove _ _ => False
  | .place _ input => input.items.getD [] = []

/-- A placement between its order row and the deletion of the cart. -/
def InWindow (p : Pool (Api Unit) Site World) (i : Nat) : Prop :=
  (i, .orderInsert) ∈ p.log ∧ (i, .cartDel) ∉ p.log ∧ p.Running Prog.next i

def createdOrders (w w' : World) : List OrderRow :=
  w'.db.orders.filter fun o => !hasKey OrderRow.id w.db.orders o.id

def placedQuantity (item : String) (order : Uuid) (db : Db) : Int :=
  ((linesOf order db).map fun l => if l.menuItemId.text = item then l.quantity else 0).sum

/-- The order that a phase has inserted while the cart it was made from is still stored. -/
def CartPhase.openOrder : CartPhase → Option Uuid
  | .lining _ order _ _ _ _ _ => some order.id
  | .clearing _ order _ _ => some order.id
  | _ => none

def dataQuantity (item : String) (data : List OrderItemData) : Int :=
  (data.map fun d => if d.menuItemId = item then d.quantity else 0).sum

/-- What holds while a placement is halfway: its order is new, the lines left to insert will be
accepted, and with those inserted they make up the stored cart. -/
structure WindowAt (s : Session) (w : World) (p : Pool CartPhase Site World) (i : Nat) (env : Env)
    (order : OrderRow) (data left : List OrderItemData) (n : Nat) : Prop where
  begun : (i, .orderInsert) ∈ p.log
  pending : (i, .cartDel) ∉ p.log
  created : order ∈ createdOrders w p.state
  priced : Priced p.state.db left
  accepted : LinesAccepted noFault env n left p.state.db.orderItems
  content : ∀ item, dataQuantity item data = quantityOf item (seenCart s p.state)
  placed : ∀ item, placedQuantity item order.id p.state.db + dataQuantity item left =
    dataQuantity item data

/-- What is known of a thread in each of its phases. -/
def ShopAt (s : Session) (w : World) (p : Pool CartPhase Site World) (i : Nat) (c : CartCall) :
    CartPhase → Prop
  | .call c' => c' = c ∧ (i, .cartDel) ∉ p.log
  | .found env input _ => c = .add env input
  | .pricing env seen cart | .storing env seen cart => ∃ input, c = .add env input ∧
    SawCart s p i seen ∧ ∀ item, lineQuantity item cart.items =
      quantityOf item seen + if input.menuItemId = item then input.quantity else 0
  | .stored => ∃ env input, c = .add env input
  | .seating env input seen | .checking env input seen _ =>
    c = .place env input ∧ SawCart s p i seen ∧ (i, .cartDel) ∉ p.log
  | .inserting env input seen _ rows => c = .place env input ∧ SawCart s p i seen ∧
    (i, .cartDel) ∉ p.log ∧ (∀ r ∈ rows, r ∈ w.db.menuItems) ∧
    unavailableItems rows (effectiveItems seen input) = []
  | .lining env order _ data n d ds =>
    (∃ input, c = .place env input) ∧ WindowAt s w p i env order data (d :: ds) n
  | .clearing env order _ data =>
    (∃ input, c = .place env input) ∧ ∃ n, WindowAt s w p i env order data [] n
  | .rest q => q.Keeps (fun w => (w.db, w.redis)) ∧
    ∀ env input, c = .add env input → ∃ er, q = .throw er

section Other

variable {p p' : Pool CartPhase Site World} (hij : i ≠ j) (hlog : p'.log = p.log ++ [(i, site)])
include hij hlog

theorem not_mem_log (h : (j, site') ∉ p.log) : (j, site') ∉ p'.log := by
  rw [hlog]
  intro hm
  rcases List.mem_append.1 hm with hm | hm
  · exact h hm
  · exact hij (congrArg Prod.fst (List.mem_singleton.1 hm)).symm

theorem WindowAt.other (h : WindowAt s w p j env order data left n)
    (hdb : p'.state.db = p.state.db) (hredis : p'.state.redis = p.state.redis) :
    WindowAt s w p' j env order data left n where
  begun := by
    rw [hlog]
    exact List.mem_append_left _ h.begun
  pending := not_mem_log hij hlog h.pending
  created := by
    rw [createdOrders, hdb]
    exact h.created
  priced := hdb ▸ h.priced
  accepted := hdb ▸ h.accepted
  content := by
    rw [seenCart, hredis]
    exact h.content
  placed := by
    rw [hdb]
    exact h.placed

/-- A step of another thread leaves what is known of a thread alone, if a placement that is
halfway sees the same database and cart. -/
theorem ShopAt.other (h : ShopAt s w p j c φ)
    (hseen : ¬CartWrite site → seenCart s p'.state = seenCart s p.state)
    (hopen : φ.openOrder ≠ none → p'.state.db = p.state.db ∧ p'.state.redis = p.state.redis) :
    ShopAt s w p' j c φ := by
  cases φ with
  | call c' => exact ⟨h.1, not_mem_log hij hlog h.2⟩
  | found => exact h
  | pricing =>
    obtain ⟨input, hc, hs, hq⟩ := h
    exact ⟨input, hc, hs.other hij hlog hseen, hq⟩
  | storing =>
    obtain ⟨input, hc, hs, hq⟩ := h
    exact ⟨input, hc, hs.other hij hlog hseen, hq⟩
  | stored => exact h
  | seating => exact ⟨h.1, h.2.1.other hij hlog hseen, not_mem_log hij hlog h.2.2⟩
  | checking => exact ⟨h.1, h.2.1.other hij hlog hseen, not_mem_log hij hlog h.2.2⟩
  | inserting =>
    exact ⟨h.1, h.2.1.other hij hlog hseen, not_mem_log hij hlog h.2.2.1, h.2.2.2⟩
  | lining =>
    obtain ⟨hdb, hredis⟩ := hopen (fun h => by cases h)
    exact ⟨h.1, h.2.other hij hlog hdb hredis⟩
  | clearing =>
    obtain ⟨hdb, hredis⟩ := hopen (fun h => by cases h)
    obtain ⟨hc, n, hw⟩ := h
    exact ⟨hc, n, hw.other hij hlog hdb hredis⟩
  | rest => exact h

end Other

/-- A step of a thread that touches neither the database nor the cart. -/
structure SilentStep (s : Session) (w : World) (p : Pool CartPhase Site World) (i : Nat)
    (c : CartCall) (φ : CartPhase) (site : Site) (r : CartPhase × World) : Prop where
  db : r.2.db = p.state.db
  redis : r.2.redis = p.state.redis
  closed : φ.openOrder = none
  closed' : r.1.openOrder = none
  unstored : φ ≠ .stored
  unstored' : r.1 ≠ .stored
  at' : ∀ p' : Pool CartPhase Site World, p'.state = r.2 → p'.log = p.log ++ [(i, site)] →
    ShopAt s w p' i c r.1

theorem shopAt_failed (er : ApiError) : ShopAt s w p i c (failed er) :=
  ⟨trivial, fun _ _ _ => ⟨er, rfl⟩⟩

theorem SilentStep.moves (hφ : φ.openOrder = none) (hs : φ ≠ .stored)
    (hψ : ψ.openOrder = none) (hs' : ψ ≠ .stored)
    (hat : ∀ p' : Pool CartPhase Site World, p'.state = p.state → p'.log = p.log ++ [(i, site)] →
      ShopAt s w p' i c ψ) : SilentStep s w p i c φ site (ψ, p.state) :=
  ⟨rfl, rfl, hφ, hψ, hs, hs', hat⟩

theorem SilentStep.failed (hφ : φ.openOrder = none) (hs : φ ≠ .stored) (er : ApiError) :
    SilentStep s w p i c φ site (CartPhase.failed er, p.state) :=
  .moves hφ hs rfl (fun h => by cases h) fun _ _ _ => shopAt_failed er

theorem not_mem_snoc {log : List (Nat × Site)} (h : (i, .cartDel) ∉ log) (hs : site ≠ .cartDel) :
    (i, .cartDel) ∉ log ++ [(i, site)] := by
  intro hm
  rcases List.mem_append.1 hm with hm | hm
  · exact h hm
  · exact hs (congrArg Prod.snd (List.mem_singleton.1 hm)).symm

theorem SawCart.here {p p' : Pool CartPhase Site World} (hstate : p'.state = p.state)
    (hlog : p'.log = p.log ++ [(i, .cartGet)]) : SawCart s p' i (seenCart s p.state) := by
  rw [SawCart, hlog, hstate]
  exact ⟨List.mem_append_right _ List.mem_cons_self, fun _ => rfl⟩

theorem silent_changed {r : Except ApiError Cart} (hφ : φ.openOrder = none) (hs : φ ≠ .stored)
    (hc : c = .add env input)
    (hq : ∀ cart, r = .ok cart → ∀ item, lineQuantity item cart.items =
      quantityOf item (seenCart s p.state) +
        if input.menuItemId = item then input.quantity else 0) :
    SilentStep s w p i c φ .cartGet (changed env (seenCart s p.state) r, p.state) := by
  cases r with
  | error er => exact .failed hφ hs er
  | ok cart =>
    rw [changed]
    split
    · exact .moves hφ hs rfl (fun h => by cases h) fun p' h h' =>
        ⟨input, hc, SawCart.here h h', hq cart rfl⟩
    · exact .moves hφ hs rfl (fun h => by cases h) fun p' h h' =>
        ⟨input, hc, SawCart.here h h', hq cart rfl⟩

section Own

variable {p : Pool CartPhase Site World}

theorem silent_add (hn : next s (.call (.add env input)) = some (site, act)) :
    SilentStep s w p i (.add env input) (.call (.add env input)) site (act p.state) := by
  cases hn
  dsimp only
  cases availableItem input.menuItemId p.state.db with
  | error er => exact .failed rfl (fun h => by cases h) _
  | ok row =>
    cases row with
    | none => exact .failed rfl (fun h => by cases h) _
    | some row =>
      exact .moves rfl (fun h => by cases h) rfl (fun h => by cases h) fun _ _ _ => rfl

theorem silent_place (hdel : (i, .cartDel) ∉ p.log)
    (hn : next s (.call (.place env input)) = some (site, act)) :
    SilentStep s w p i (.place env input) (.call (.place env input)) site (act p.state) := by
  cases hn
  dsimp only
  split
  · exact .failed rfl (fun h => by cases h) _
  · refine .moves rfl (fun h => by cases h) rfl (fun h => by cases h) fun p' hstate hlog =>
      ⟨rfl, SawCart.here hstate hlog, ?_⟩
    rw [hlog]
    exact not_mem_snoc hdel (fun h => by cases h)

theorem silent_seating (h : ShopAt s w p i c (.seating env input seen))
    (hn : next s (.seating env input seen) = some (site, act)) :
    SilentStep s w p i c (.seating env input seen) site (act p.state) := by
  obtain ⟨hplace, hs, hdel⟩ := h
  cases hn
  dsimp only
  cases tableById input.tableId p.state.db with
  | error er => exact .failed rfl (fun h => by cases h) _
  | ok table =>
    cases table with
    | none => exact .failed rfl (fun h => by cases h) _
    | some table =>
      refine .moves rfl (fun h => by cases h) rfl (fun h => by cases h) fun p' hstate hlog =>
        ⟨hplace, hs.own hlog (by rw [hstate]), ?_⟩
      rw [hlog]
      exact not_mem_snoc hdel (fun h => by cases h)

theorem silent_checking (h : ShopAt s w p i c (.checking env input seen table))
    (hmenu : p.state.db.menuItems = w.db.menuItems)
    (hn : next s (.checking env input seen table) = some (site, act)) :
    SilentStep s w p i c (.checking env input seen table) site (act p.state) := by
  obtain ⟨hplace, hs, hdel⟩ := h
  cases hn
  dsimp only
  cases hr : availableItemsIn ((effectiveItems seen input).map EffectiveItem.menuItemId)
      p.state.db with
  | error er => exact .failed rfl (fun h => by cases h) _
  | ok rows =>
    rw [afterMenu]
    split
    · exact .failed rfl (fun h => by cases h) _
    · rename_i ha
      refine .moves rfl (fun h => by cases h) rfl (fun h => by cases h) fun p' hstate hlog =>
        ⟨hplace, hs.own hlog (by rw [hstate]), ?_, fun r hm => ?_, not_not.1 ha⟩
      · rw [hlog]
        exact not_mem_snoc hdel (fun h => by cases h)
      · rw [← hmenu]
        exact (availableItemsIn_mem hr r hm).1

theorem silent_rest {q : Api Unit} (h : ShopAt s w p i c (.rest q))
    (hn : next s (.rest q) = some (site, act)) :
    SilentStep s w p i c (.rest q) site (act p.state) := by
  cases q with
  | ret => cases hn
  | throw => cases hn
  | stmt i' u k z =>
    obtain ⟨hk, hadd⟩ := h
    cases hn
    have hu : ((u p.state).db, (u p.state).redis) = (p.state.db, p.state.redis) := hk.1 p.state
    refine ⟨congrArg Prod.fst hu, congrArg Prod.snd hu, rfl, rfl, (fun h => by cases h),
      (fun h => by cases h), fun _ _ _ => ⟨hk.2.1 p.state, fun env input he => ?_⟩⟩
    obtain ⟨er, her⟩ := hadd env input he
    cases her

/-- What the next step of a thread can be. -/
theorem ShopAt.own (h : ShopAt s w p i c φ) (hc : c.Shops)
    (hmenu : p.state.db.menuItems = w.db.menuItems) (hn : next s φ = some (site, act)) :
    SilentStep s w p i c φ site (act p.state) ∨
    (∃ env seen cart, φ = .storing env seen cart) ∨
    (∃ env input seen table rows order db, φ = .inserting env input seen table rows ∧
      insertOrder env input table s.userId s.guestId
        (OrderItemData.amounts (orderItemsData rows (effectiveItems seen input))) p.state.db =
          .ok (order, db)) ∨
    (∃ env order rows data n d ds, φ = .lining env order rows data n d ds) ∨
    ∃ env order rows data, φ = .clearing env order rows data := by
  cases φ with
  | call c' =>
    obtain ⟨rfl, hdel⟩ := h
    cases c' with
    | add env input => exact .inl (silent_add hn)
    | remove => exact hc.elim
    | place env input => exact .inl (silent_place hdel hn)
  | found env input row =>
    left
    cases hn
    refine silent_changed rfl (fun h => by cases h) h fun cart hr item => ?_
    obtain ⟨c₀, hc₀, rfl⟩ := map_ok hr
    rw [← currentCart_quantity hc₀]
    exact lineQuantity_mergeItem item env.now input row c₀.items
  | pricing env seen cart =>
    left
    obtain ⟨input, hadd, hs, hq⟩ := h
    cases hn
    dsimp only
    cases menuItemsIn (cart.items.map CartItem.menuItemId) p.state.db with
    | error er => exact .failed rfl (fun h => by cases h) _
    | ok rows =>
      exact .moves rfl (fun h => by cases h) rfl (fun h => by cases h) fun p' hstate hlog =>
        ⟨input, hadd, hs.own hlog (by rw [hstate]), hq⟩
  | storing env seen cart => exact .inr (.inl ⟨env, seen, cart, rfl⟩)
  | stored => cases hn
  | seating env input seen => exact .inl (silent_seating h hn)
  | checking env input seen table => exact .inl (silent_checking h hmenu hn)
  | inserting env input seen table rows =>
    cases hr : insertOrder env input table s.userId s.guestId
        (OrderItemData.amounts (orderItemsData rows (effectiveItems seen input))) p.state.db with
    | error er =>
      left
      cases hn
      dsimp only
      rw [hr]
      exact .failed rfl (fun h => by cases h) _
    | ok r => exact .inr (.inr (.inl ⟨env, input, seen, table, rows, r.1, r.2, rfl, hr⟩))
  | lining env order rows data n d ds =>
    exact .inr (.inr (.inr (.inl ⟨env, order, rows, data, n, d, ds, rfl⟩)))
  | clearing env order rows data =>
    exact .inr (.inr (.inr (.inr ⟨env, order, rows, data, rfl⟩)))
  | rest q => exact .inl (silent_rest h hn)

end Own

theorem ShopAt.inWindow (h : ShopAt s w p j c φ) (hφ : p.threads[j]? = some φ)
    (ho : φ.openOrder ≠ none) : InWindow (p.map (prog s)) j := by
  have hrun (hn : (next s φ).isSome) (site : Site) (hlog : (j, site) ∈ p.log) :
      (p.map (prog s)).Running Prog.next j := by
    refine ⟨⟨site, hlog⟩, ?_⟩
    rw [Pool.nextSite_map (simulates s), Pool.nextSite, hφ, Option.bind_some, Option.isSome_map]
    exact hn
  cases φ with
  | lining =>
    obtain ⟨_, hw⟩ := h
    exact ⟨hw.begun, hw.pending, hrun rfl _ hw.begun⟩
  | clearing =>
    obtain ⟨_, n, hw⟩ := h
    exact ⟨hw.begun, hw.pending, hrun rfl _ hw.begun⟩
  | call => exact absurd rfl ho
  | found => exact absurd rfl ho
  | pricing => exact absurd rfl ho
  | storing => exact absurd rfl ho
  | stored => exact absurd rfl ho
  | seating => exact absurd rfl ho
  | checking => exact absurd rfl ho
  | inserting => exact absurd rfl ho
  | rest => exact absurd rfl ho

end DineFlow
