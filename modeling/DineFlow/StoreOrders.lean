import DineFlow.CartSync

namespace DineFlow.CartStore
open Atomic Relational
set_option autoImplicit true

theorem setQuantity_ids (k : String) (q : Int) (items : List CartItem) :
    (items.map fun i => if i.id = k then { i with quantity := q } else i).map CartItem.id =
      items.map CartItem.id := by
  rw [List.map_map]
  refine List.map_congr_left fun i _ => ?_
  dsimp only [Function.comp_apply]
  split <;> rfl

theorem setQuantity_same {items : List CartItem} (h : ∀ i ∈ items, i.id = k → i.quantity = q) :
    (items.map fun i => if i.id = k then { i with quantity := q } else i) = items := by
  refine (List.map_congr_left fun i hi => ?_).trans (List.map_id items)
  split
  · rename_i hk
    rw [← h i hi hk]
    rfl
  · rfl

theorem Lines.named_iff {st : CartState} :
    st.lines.Named ↔ ∀ k ∈ st.items.map CartItem.id, (Uuid.parse k).isSome = true := by
  rw [← st.lines_ids, List.forall_mem_map]
  rfl

theorem Synced.updateQuantity (h : Synced pf userId us b) (env : Env)
    (hs : q ≤ 0 ∨ (∀ i ∈ b.store.items, i.id = k → i.quantity = q) ∨ ¬Live userId b.store) :
    Synced pf userId us (updateQuantity userId env k q b) := by
  rw [CartStore.updateQuantity]
  split
  · exact h.removeItem env k
  · rename_i hq
    refine ⟨h.token, h.fresh, ?_, ?_, fun hlive => ?_⟩
    · rw [CartState.lines_ids, setQuantity_ids, ← CartState.lines_ids]
      exact h.distinct
    · rw [Lines.named_iff, setQuantity_ids, ← Lines.named_iff]
      exact h.named
    · rcases hs with hs | hs | hs
      · exact absurd hs hq
      · rw [setQuantity_same hs]
        exact h.agrees hlive
      · exact absurd hlive hs

theorem Synced.reload (h : Synced pf userId us b) : Synced pf userId us (reload b) := by
  refine ⟨h.token, h.fresh, h.distinct, h.named, fun hlive => h.agrees ?_⟩
  rcases hlive with hlive | hlive
  · exact .inl hlive
  · cases hlive

/-- The ids of the guest sessions that an action may open. -/
def Action.draws : Action → List Uuid
  | .addItem session _ _ _ => [session.uuid 0]
  | _ => []

def Action.Available (db : Db) : Action → Prop
  | .addItem _ _ item _ => ∃ row, availableItem item.id db = .ok (some row)
  | _ => True

/-- An action that the server's copy of the cart follows. -/
def Action.Followed (userId : Option String) (b : Browser) : Action → Prop
  | .addItem _ _ _ _ => Live userId b.store ∨ b.store.items = []
  | .updateQuantity _ id quantity => quantity ≤ 0 ∨
      (∀ i ∈ b.store.items, i.id = id → i.quantity = quantity) ∨ ¬Live userId b.store
  | _ => True

theorem Synced.step (h : Synced pf userId (a.draws ++ us) b) (hd : (a.draws ++ us).Nodup)
    (hf : a.Followed userId b) (ha : a.Available b.server.db) :
    Synced pf userId us (step pf userId demoTableId b a) := by
  cases a with
  | setTableId tableId => exact ⟨h.token, h.fresh, h.distinct, h.named, h.agrees⟩
  | addItem session env item notes =>
    obtain ⟨row, hrow⟩ := ha
    exact Synced.addItem h (List.nodup_cons.1 hd).1 hf hrow
  | removeItem env k => exact Synced.removeItem h env k
  | updateQuantity env k q => exact Synced.updateQuantity h env hf
  | clearCart => exact Synced.clearCart h
  | reload => exact Synced.reload h

theorem step_db (pf : Platform) (userId : Option String) (demoTableId : String) (b : Browser)
    (a : Action) : (step pf userId demoTableId b a).server.db = b.server.db := by
  cases a with
  | setTableId tableId => rfl
  | addItem session env item notes => exact (addToCart_touches _ _ _ _ _).1
  | removeItem env k => exact (removeFromCart_touches _ _ _ _ _).1
  | updateQuantity env k q =>
    rw [CartStore.step, CartStore.updateQuantity]
    split
    · exact (removeFromCart_touches _ _ _ _ _).1
    · rfl
  | clearCart => exact (clearCart_touches _ _ _).1
  | reload => rfl

theorem Synced.after {actions : List Action}
    (h : Synced pf userId (actions.flatMap Action.draws ++ us) b)
    (hd : (actions.flatMap Action.draws ++ us).Nodup)
    (hf : Guarded (CartStore.step pf userId demoTableId) (Action.Followed userId) b actions)
    (ha : ∀ a ∈ actions, a.Available b.server.db) :
    Synced pf userId us (runs (CartStore.step pf userId demoTableId) b actions) := by
  induction actions generalizing b with
  | nil => exact h
  | cons a actions ih =>
    rw [List.flatMap_cons, List.append_assoc] at h hd
    obtain ⟨haa, hrest⟩ := List.forall_mem_cons.1 ha
    refine ih (h.step hd hf.1 haa) hd.of_append_right hf.2 fun x hx => ?_
    rw [step_db]
    exact hrest x hx

theorem localItems_lines (st : CartState) :
    (localItems st.items).map (fun i => (i.menuItemId, i.quantity)) = st.lines := by
  rw [localItems, List.map_map]
  rfl

theorem effectiveItems_lines {input : PlaceOrderInput} {items : List AddToCartInput}
    (hi : input.items = some items) (hls : items.map (fun i => (i.menuItemId, i.quantity)) = ls)
    (h : Agrees seen ls ∨ seen = none) :
    (effectiveItems seen input).map (fun i => (i.menuItemId, i.quantity)) = ls := by
  rw [effectiveItems]
  split
  · rw [hi, Option.getD_some, List.map_map]
    exact hls
  · rename_i hne
    rcases h with h | rfl
    · cases seen with
      | none => exact absurd rfl hne
      | some c =>
        cases c with
        | cart c =>
          rw [cartLines, List.map_map]
          exact h
        | menu m => exact h.elim
        | items rows => exact h.elim
    · exact absurd rfl hne

/-- The order that the store gets is the local cart. -/
def OrdersCart (b : Browser) (r : Except ApiError Order × Browser) : Prop :=
  ∀ order, r.1 = .ok order →
    (linesOf order.id r.2.server.db).map (fun l => (l.menuItemId.text, l.quantity)) = b.store.lines

theorem Synced.placeOrder (h : Synced pf userId (session.uuid 0 :: us) b)
    (hn : session.uuid 0 ∉ us) (env : Env) (tableId : String)
    (specialInstructions : Option String) :
    OrdersCart b (placeOrder pf userId session env tableId specialInstructions b) := by
  have hb : Synced pf userId (session.uuid 0 :: us)
      ⟨{ b.store with isLoading := true, error := none }, b.server⟩ :=
    ⟨h.token, h.fresh, h.distinct, h.named, h.agrees⟩
  have hseen := (hb.ensure hn tableId).2.2.imp_right And.right
  have hitems : (ensureGuestSession pf session tableId
      { b.store with isLoading := true, error := none }).items = b.store.items := by
    rw [ensureGuestSession]
    split <;> rfl
  intro order horder
  rw [CartStore.placeOrder] at horder ⊢
  generalize ensureGuestSession pf session tableId
    { b.store with isLoading := true, error := none } = st at hseen hitems horder ⊢
  generalize hinput : PlaceOrderInput.mk tableId (some (localItems st.items))
    (some (specialInstructions.getD "")) = input at horder ⊢
  generalize hr : (DineFlow.placeOrder env input userId st.guestToken).run noFault b.server = r
    at horder ⊢
  obtain ⟨outcome, w⟩ := r
  cases outcome with
  | error e => cases horder
  | ok v =>
    cases horder
    have hlines := placeOrder_lines (congrArg Prod.fst hr)
    rw [hr] at hlines
    refine hlines.trans (effectiveItems_lines (congrArg PlaceOrderInput.items hinput.symm) ?_ hseen)
    rw [hitems]
    exact localItems_lines b.store

/-- What a run of a page starts from: Redis has no cart of the user, nor one under the ids that
the server is going to draw. -/
structure FreshStart (pf : Platform) (userId : Option String) (us : List Uuid) (w : World) :
    Prop where
  noCart : visibleCart userId none w = none
  noGuestCarts : ∀ u ∈ us, NoGuestCart pf u w.redis
  distinct : us.Nodup

theorem FreshStart.synced (h : FreshStart pf userId us w) :
    Synced pf userId us ⟨.initial, w⟩ where
  token := fun t ht => by cases ht
  fresh := h.noGuestCarts
  distinct := List.nodup_nil
  named := fun l hl => by cases hl
  agrees := fun _ => by
    change Agrees (visibleCart userId none w) []
    rw [h.noCart]
    rfl

/-- As long as the server follows every action, the next order is what the page shows. -/
theorem storeOrder_matches (pf : Platform) (userId : Option String) (demoTableId : String)
    (actions : List Action) (session env : Env) (tableId : String)
    (specialInstructions : Option String) (w : World)
    (hstart : FreshStart pf userId (actions.flatMap Action.draws ++ [session.uuid 0]) w)
    (havailable : ∀ a ∈ actions, a.Available w.db)
    (hfollowed : Guarded (step pf userId demoTableId) (Action.Followed userId) ⟨.initial, w⟩
      actions) :
    OrdersCart (runs (step pf userId demoTableId) ⟨.initial, w⟩ actions)
      (placeOrder pf userId session env tableId specialInstructions
        (runs (step pf userId demoTableId) ⟨.initial, w⟩ actions)) :=
  (hstart.synced.after hstart.distinct hfollowed havailable).placeOrder List.not_mem_nil env tableId
    specialInstructions

def sampleDish : ItemInput := ⟨(sampleId 4).text, "Injera", 1, none⟩

def envOf (u : Uuid) : Env := { sampleEnv with uuid := fun _ => u }

def putDish (session : Uuid) : Action := .addItem (envOf session) sampleEnv sampleDish none

def setDish (quantity : Int) : Action := .updateQuantity sampleEnv (sampleId 4).text quantity

/-- What the page shows of the cart after some actions. -/
def pageAfter (actions : List Action) : Browser :=
  runs (step samplePlatform none "") ⟨.initial, sampleWorld⟩ actions

def orderAfter (actions : List Action) : Except ApiError Order × Browser :=
  placeOrder samplePlatform none (envOf (sampleId 7)) sampleEnv (sampleId 2).text none
    (pageAfter actions)

theorem sampleWorld_fresh (pf : Platform) (h : us.Nodup) :
    FreshStart pf none us sampleWorld :=
  ⟨rfl, fun _ _ _ _ _ => rfl, h⟩

theorem putDish_available (session : Uuid) : (putDish session).Available sampleWorld.db := by
  refine ⟨⟨sampleId 4, sampleId 1, sampleId 3, "Injera", none, none, none, 1, none, true, none, 0,
    0⟩, ?_⟩
  decide +kernel

/-- The dish is put in twice, and the quantity is set to what it is. -/
theorem storeOrder_matches_sample :
    (pageAfter [putDish (sampleId 6), putDish (sampleId 8), setDish 2]).store.lines.map Prod.snd =
        [2] ∧
      OrdersCart (pageAfter [putDish (sampleId 6), putDish (sampleId 8), setDish 2])
        (orderAfter [putDish (sampleId 6), putDish (sampleId 8), setDish 2]) := by
  refine ⟨by decide +kernel, storeOrder_matches samplePlatform none ""
    [putDish (sampleId 6), putDish (sampleId 8), setDish 2] (envOf (sampleId 7)) sampleEnv
    (sampleId 2).text none sampleWorld (sampleWorld_fresh _ (by decide)) ?_ ?_⟩
  · exact List.forall_mem_cons.2 ⟨putDish_available _, List.forall_mem_cons.2
      ⟨putDish_available _, List.forall_mem_singleton.2 trivial⟩⟩
  · refine ⟨.inr rfl, .inl (.inr ?_), .inr (.inl ?_), trivial⟩
    · decide +kernel
    · decide +kernel

theorem storeOrder_differs :
    FreshStart samplePlatform none
        ([putDish (sampleId 6), setDish 3].flatMap Action.draws ++ [sampleId 7]) sampleWorld ∧
      (∀ a ∈ [putDish (sampleId 6), setDish 3], a.Available sampleWorld.db) ∧
      ¬OrdersCart (pageAfter [putDish (sampleId 6), setDish 3])
        (orderAfter [putDish (sampleId 6), setDish 3]) := by
  refine ⟨sampleWorld_fresh _ (by decide), ?_, fun h => ?_⟩
  · exact List.forall_mem_cons.2 ⟨putDish_available _, List.forall_mem_singleton.2 trivial⟩
  · have hone : ∃ order ∈ (orderAfter [putDish (sampleId 6), setDish 3]).1.toOption,
        (linesOf order.id (orderAfter [putDish (sampleId 6), setDish 3]).2.server.db).map
          (fun l => l.quantity) = [1] := by
      decide +kernel
    have hthree : (pageAfter [putDish (sampleId 6), setDish 3]).store.lines.map Prod.snd = [3] := by
      decide +kernel
    obtain ⟨order, horder, hquantity⟩ := hone
    have hlines := congrArg (List.map Prod.snd) (h order (toOption_ok horder))
    rw [List.map_map, hthree] at hlines
    have hsame := hquantity.symm.trans hlines
    cases hsame

end DineFlow.CartStore
