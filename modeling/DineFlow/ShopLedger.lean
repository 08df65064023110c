import DineFlow.ShopThreads

namespace DineFlow
open Atomic Relational CartPhase
set_option autoImplicit true

/-- The lines of the stored cart can all be inserted by a placement that draws these uuids. -/
def LinesFit (s : Session) (env : Env) (w : World) : Prop :=
  ∀ c, seenCart s w = some (.cart c) →
    (∀ l ∈ c.items, FitsInt4 l.quantity ∧ ∀ s ∈ l.notes, Storable s) ∧
    ((List.range' 1 c.items.length).map env.uuid).Nodup ∧
    ∀ u ∈ (List.range' 1 c.items.length).map env.uuid, ∀ r ∈ w.db.orderItems, r.id ≠ u

/-- What a call adds of an item. -/
def unitsOf (cs : List CartCall) (item : String) (i : Nat) : Int :=
  match cs[i]? with
  | some (.add _ input) => if input.menuItemId = item then input.quantity else 0
  | _ => 0

/-- What the additions that went to one place hold of an item. -/
def share (cs : List CartCall) (dest : Nat → Option Uuid) (adds : List Nat)
    (place : Option Uuid) (item : String) : Int :=
  ((adds.filter fun i => dest i = place).map (unitsOf cs item)).sum

/-- The bookkeeping of a state: as `ConservedBy`, with the order that is being written and the
cart it is made from counted once, as the cart. -/
structure Accounts (s : Session) (cs : List CartCall) (w : World) (p : Pool CartPhase Site World)
    (dest : Nat → Option Uuid) (adds : List Nat) : Prop where
  nodup : adds.Nodup
  stored : ∀ i, i ∈ adds ↔ p.threads[i]? = some .stored
  dests : ∀ i ∈ adds, ∀ u, dest i = some u → ∃ o ∈ createdOrders w p.state, o.id = u
  cart : ∀ item, quantityOf item (seenCart s p.state) = share cs dest adds none item
  orders : ∀ o ∈ createdOrders w p.state,
    (∀ (i : Nat) (φ : CartPhase), p.threads[i]? = some φ → φ.openOrder ≠ some o.id) →
    ∀ item, placedQuantity item o.id p.state.db = share cs dest adds (some o.id) item
  unshared : ∀ (i : Nat) (φ : CartPhase) u, p.threads[i]? = some φ → φ.openOrder = some u →
    ∀ j ∈ adds, dest j ≠ some u

structure ShopInv (s : Session) (cs : List CartCall) (w : World)
    (p : Pool CartPhase Site World) : Prop where
  menu : p.state.db.menuItems = w.db.menuItems
  kept : ∀ o ∈ w.db.orders, o ∈ p.state.db.orders
  threads : ∀ (i : Nat) φ, p.threads[i]? = some φ → ∃ c, cs[i]? = some c ∧ ShopAt s w p i c φ
  window : ∀ (i j : Nat) (φ ψ : CartPhase), p.threads[i]? = some φ → p.threads[j]? = some ψ →
    φ.openOrder ≠ none → ψ.openOrder ≠ none → i = j
  account : ∃ dest adds, Accounts s cs w p dest adds

theorem ShopInv.start (s : Session) (cs : List CartCall) (w : World)
    (hw : seenCart s w = none) : ShopInv s cs w (phasePool cs w) := by
  have hget (i : Nat) (φ : CartPhase) (h : (phasePool cs w).threads[i]? = some φ) :
      ∃ c, cs[i]? = some c ∧ φ = .call c := by
    rw [phasePool, List.getElem?_map] at h
    obtain ⟨c, hc, rfl⟩ := Option.map_eq_some_iff.1 h
    exact ⟨c, hc, rfl⟩
  have hnone : createdOrders w w = [] := by
    rw [createdOrders, List.filter_eq_nil_iff]
    intro o ho
    rw [hasKey_iff.2 ⟨o, ho, rfl⟩]
    intro h
    cases h
  refine ⟨rfl, fun _ ho => ho, fun i φ h => ?_, fun i j φ ψ h _ ho _ => ?_, fun _ => none, [], ?_⟩
  · obtain ⟨c, hc, rfl⟩ := hget i φ h
    exact ⟨c, hc, rfl, List.not_mem_nil⟩
  · obtain ⟨c, _, rfl⟩ := hget i φ h
    exact absurd rfl ho
  · refine ⟨List.nodup_nil, fun i => iff_of_false List.not_mem_nil fun h => ?_,
      fun _ h => absurd h List.not_mem_nil,
      fun item => ?_, fun o ho => ?_, fun _ _ _ _ _ _ hj => absurd hj List.not_mem_nil⟩
    · obtain ⟨c, _, hc⟩ := hget i _ h
      cases hc
    · change quantityOf item (seenCart s w) = _
      rw [hw]
      rfl
    · change o ∈ createdOrders w w at ho
      rw [hnone] at ho
      cases ho

theorem createdOrders_congr {w' w'' : World} (h : w''.db = w'.db) :
    createdOrders w w'' = createdOrders w w' := by
  rw [createdOrders, h]
  rfl

theorem ShopInv.threads_set (h : ShopInv s cs w p) (hc : cs[i]? = some c) (w' : World)
    (hown : ShopAt s w ⟨w', p.threads.set i ψ, p.log ++ [(i, site)]⟩ i c ψ)
    (hseen : ¬CartWrite site → seenCart s w' = seenCart s p.state)
    (hopen : ∀ (j : Nat) (χ : CartPhase), p.threads[j]? = some χ → i ≠ j → χ.openOrder ≠ none →
      w'.db = p.state.db ∧ w'.redis = p.state.redis) (j : Nat) (χ : CartPhase)
    (hχ : (p.threads.set i ψ)[j]? = some χ) :
    ∃ c, cs[j]? = some c ∧ ShopAt s w ⟨w', p.threads.set i ψ, p.log ++ [(i, site)]⟩ j c χ := by
  rcases Pool.of_getElem?_set hχ with ⟨rfl, rfl⟩ | ⟨hij, hχ⟩
  · exact ⟨c, hc, hown⟩
  · obtain ⟨c', hc', hat⟩ := h.threads j χ hχ
    exact ⟨c', hc', hat.other hij rfl hseen (hopen j χ hχ hij)⟩

theorem ShopInv.others_closed (h : ShopInv s cs w p) (hφ : p.threads[i]? = some φ)
    (ho : φ.openOrder ≠ none) (j : Nat) (ψ : CartPhase) (hψ : p.threads[j]? = some ψ)
    (hij : i ≠ j) : ψ.openOrder = none := by
  by_contra ho'
  exact hij (h.window i j φ ψ hφ hψ ho ho')

theorem SilentStep.was_open (hs : SilentStep s w p i c φ site r) (j : Nat) (ψ : CartPhase)
    (hψ : (p.threads.set i r.1)[j]? = some ψ) (ho : ψ.openOrder ≠ none) :
    p.threads[j]? = some ψ := by
  rcases Pool.of_getElem?_set hψ with ⟨rfl, rfl⟩ | ⟨_, hψ⟩
  · exact absurd hs.closed' ho
  · exact hψ

theorem SilentStep.sees (hs : SilentStep s w p i c φ site r) :
    seenCart s r.2 = seenCart s p.state := by
  rw [seenCart, hs.redis]
  rfl

theorem Accounts.silent (ha : Accounts s cs w p dest adds) (hφ : p.threads[i]? = some φ)
    (hs : SilentStep s w p i c φ site r) (log : List (Nat × Site)) :
    Accounts s cs w ⟨r.2, p.threads.set i r.1, log⟩ dest adds where
  nodup := ha.nodup
  stored j := by
    rw [ha.stored]
    exact (stored_set_iff hφ hs.unstored hs.unstored' j).symm
  dests := by
    rw [createdOrders_congr hs.db]
    exact ha.dests
  cart item := by
    rw [hs.sees]
    exact ha.cart item
  orders o ho hn item := by
    rw [createdOrders_congr hs.db] at ho
    rw [hs.db]
    refine ha.orders o ho (fun j ψ hψ => ?_) item
    by_cases hij : i = j
    · subst hij
      rw [hφ] at hψ
      cases hψ
      rw [hs.closed]
      intro h
      cases h
    · exact hn j ψ (by rw [List.getElem?_set_ne hij]; exact hψ)
  unshared j ψ u hψ hu := by
    have ho : ψ.openOrder ≠ none := by
      rw [hu]
      intro h
      cases h
    exact ha.unshared j ψ u (hs.was_open j ψ hψ ho) hu

theorem ShopInv.silent (h : ShopInv s cs w p) (hφ : p.threads[i]? = some φ)
    (hc : cs[i]? = some c) (hs : SilentStep s w p i c φ site r) :
    ShopInv s cs w ⟨r.2, p.threads.set i r.1, p.log ++ [(i, site)]⟩ where
  menu := by
    change r.2.db.menuItems = _
    rw [hs.db]
    exact h.menu
  kept := by
    change ∀ o ∈ w.db.orders, o ∈ r.2.db.orders
    rw [hs.db]
    exact h.kept
  threads := h.threads_set hc r.2 (hs.at' _ rfl rfl) (fun _ => hs.sees)
    fun _ _ _ _ _ => ⟨hs.db, hs.redis⟩
  window j k ψ χ hψ hχ ho ho' :=
    h.window j k ψ χ (hs.was_open j ψ hψ ho) (hs.was_open k χ hχ ho') ho ho'
  account := by
    obtain ⟨dest, adds, ha⟩ := h.account
    exact ⟨dest, adds, ha.silent hφ hs _⟩

theorem share_congr (h : ∀ j ∈ adds, dest j = place ↔ dest' j = place') (cs : List CartCall)
    (item : String) : share cs dest adds place item = share cs dest' adds place' item := by
  rw [share, share, List.filter_congr fun j hj => decide_eq_decide.2 (h j hj)]

theorem share_snoc (cs : List CartCall) (dest : Nat → Option Uuid) (adds : List Nat) (i : Nat)
    (place : Option Uuid) (item : String) :
    share cs dest (adds ++ [i]) place item =
      share cs dest adds place item + if dest i = place then unitsOf cs item i else 0 := by
  rw [share, List.filter_append, List.map_append, List.sum_append, share]
  by_cases h : dest i = place <;> simp [h]

theorem Accounts.store {cart : Cart} (ha : Accounts s cs w p dest adds)
    (hφ : p.threads[i]? = some (.storing env seen cart))
    (hnone : ∀ (j : Nat) (ψ : CartPhase), p.threads[j]? = some ψ → ψ.openOrder = none)
    (hunits : ∀ item, lineQuantity item cart.items =
      quantityOf item (seenCart s p.state) + unitsOf cs item i) (log : List (Nat × Site)) :
    Accounts s cs w ⟨{ p.state with redis := p.state.redis.set s.key (cartEntry s env cart) },
      p.threads.set i .stored, log⟩ (Function.update dest i none) (adds ++ [i]) := by
  have hlt : i < p.threads.length := (List.getElem?_eq_some_iff.1 hφ).1
  have hnew : i ∉ adds := by
    rw [ha.stored, hφ]
    intro h
    cases h
  have hdest (place : Option Uuid) (j : Nat) (hj : j ∈ adds) :
      Function.update dest i none j = place ↔ dest j = place := by
    have hji : j ≠ i := by
      rintro rfl
      exact hnew hj
    rw [Function.update_of_ne hji]
  exact {
    nodup := by
      refine List.nodup_append.2 ⟨ha.nodup, List.nodup_singleton i, fun a hm b hb hab => hnew ?_⟩
      rw [← List.mem_singleton.1 hb, ← hab]
      exact hm
    stored := by
      intro j
      rw [List.mem_append, ha.stored]
      by_cases hij : i = j
      · subst hij
        rw [List.getElem?_set_self hlt]
        simp
      · rw [List.getElem?_set_ne hij]
        simp [Ne.symm hij]
    dests := by
      intro j hj u hu
      rcases List.mem_append.1 hj with hj | hj
      · exact ha.dests j hj u ((hdest _ j hj).1 hu)
      · rw [List.mem_singleton.1 hj, Function.update_self] at hu
        cases hu
    cart := by
      intro item
      rw [share_snoc, share_congr (hdest none), ← ha.cart item, Function.update_self, if_pos rfl,
        ← hunits, seenCart, Redis.get_set_same]
      exact lineQuantity_json item cart.items
    orders := by
      intro o ho _ item
      rw [share_snoc, share_congr (hdest (some o.id)), Function.update_self,
        if_neg (fun h => by cases h), add_zero]
      exact ha.orders o ho (fun j ψ hψ => by rw [hnone j ψ hψ]; intro h; cases h) item
    unshared := by
      intro j ψ u hψ hu
      rcases Pool.of_getElem?_set hψ with ⟨rfl, rfl⟩ | ⟨_, hψ⟩
      · cases hu
      · rw [hnone j ψ hψ] at hu
        cases hu }

/-- An addition that stores its cart: its units go to the cart. -/
theorem ShopInv.store (h : ShopInv s cs w p) (hφ : p.threads[i]? = some (.storing env seen cart))
    (hq : Pool.Quiet p.log .cartGet CartWrite i)
    (hnone : ∀ (j : Nat) (ψ : CartPhase), p.threads[j]? = some ψ → ψ.openOrder = none) :
    ShopInv s cs w
      ⟨{ p.state with redis := p.state.redis.set s.key (cartEntry s env cart) },
        p.threads.set i .stored, p.log ++ [(i, .cartSet)]⟩ := by
  obtain ⟨c, hc, input, hadd, hsaw, hquant⟩ := h.threads i _ hφ
  have hunits (item : String) : lineQuantity item cart.items =
      quantityOf item (seenCart s p.state) + unitsOf cs item i := by
    rw [unitsOf, hc, hadd, hsaw.2 hq]
    exact hquant item
  have hclosed (j : Nat) (ψ : CartPhase) (hψ : (p.threads.set i .stored)[j]? = some ψ) :
      ψ.openOrder = none := by
    rcases Pool.of_getElem?_set hψ with ⟨rfl, rfl⟩ | ⟨_, hψ⟩
    · rfl
    · exact hnone j ψ hψ
  refine ⟨h.menu, h.kept, ?_, fun j k ψ χ hψ _ ho _ => absurd (hclosed j ψ hψ) ho, ?_⟩
  · exact h.threads_set hc _ ⟨env, input, hadd⟩ (fun hw => absurd (.inl rfl) hw)
      fun j ψ hψ _ ho => absurd (hnone j ψ hψ) ho
  · obtain ⟨dest, adds, ha⟩ := h.account
    exact ⟨_, _, ha.store hφ hnone hunits _⟩

def itemsQuantity (item : String) (items : List EffectiveItem) : Int :=
  (items.map fun i => if i.menuItemId = item then i.quantity else 0).sum

theorem itemsQuantity_cartLines (item : String) (seen : Option Cached) :
    itemsQuantity item (cartLines seen) = quantityOf item seen := by
  cases seen with
  | none => rfl
  | some c =>
    cases c with
    | cart c =>
      rw [cartLines, itemsQuantity, List.map_map]
      rfl
    | menu => rfl
    | items => rfl

theorem dataQuantity_eq (h : data.map OrderItemData.item = items) (item : String) :
    dataQuantity item data = itemsQuantity item items := by
  rw [itemsQuantity, ← h, List.map_map]
  rfl

theorem effectiveItems_cart {input : PlaceOrderInput} (h : input.items.getD [] = [])
    (seen : Option Cached) : effectiveItems seen input = cartLines seen := by
  rw [effectiveItems, h]
  split
  · rename_i he
    rw [he]
    rfl
  · rfl

theorem LinesFit.accepted (h : LinesFit s env w) (hseen : seenCart s w = seen)
    (hd : data.map OrderItemData.item = cartLines seen) :
    LinesAccepted noFault env 0 data w.db.orderItems := by
  cases seen with
  | none =>
    rw [List.map_eq_nil_iff.1 hd]
    exact linesAccepted_nil _ _ _ _
  | some c =>
    cases c with
    | menu =>
      rw [List.map_eq_nil_iff.1 hd]
      exact linesAccepted_nil _ _ _ _
    | items =>
      rw [List.map_eq_nil_iff.1 hd]
      exact linesAccepted_nil _ _ _ _
    | cart c =>
      obtain ⟨hq, hn, hf⟩ := h c hseen
      have hlen : data.length = c.items.length := by
        have hl := congrArg List.length hd
        rwa [List.length_map, cartLines, List.length_map] at hl
      refine ⟨fun _ _ => rfl, fun d hm => ?_, by rw [lineIds, hlen]; exact hn,
        by rw [lineIds, hlen]; exact hf⟩
      have hi : d.item ∈ cartLines (some (.cart c)) := hd ▸ List.mem_map_of_mem hm
      obtain ⟨l, hl, he⟩ := List.mem_map.1 hi
      have hqd : d.quantity = l.quantity := (congrArg EffectiveItem.quantity he).symm
      have hnd : d.notes = l.notes := (congrArg EffectiveItem.notes he).symm
      rw [OrderItemData.Fits, hqd, hnd]
      exact hq l hl

theorem openOrder_liningFrom (env : Env) (order : OrderRow) (rows : List MenuItemRow)
    (data : List OrderItemData) (n : Nat) (ds : List OrderItemData) :
    (liningFrom env order rows data n ds).openOrder = some order.id := by
  cases ds <;> rfl

theorem shopAt_liningFrom (hc : c = .place env input)
    (h : WindowAt s w p i env order data ds n) :
    ShopAt s w p i c (liningFrom env order rows data n ds) := by
  cases ds with
  | nil => exact ⟨⟨input, hc⟩, n, h⟩
  | cons => exact ⟨⟨input, hc⟩, h⟩

theorem createdOrders_snoc (ho : w''.db.orders = w'.db.orders ++ [order])
    (hn : ∀ o ∈ w.db.orders, o.id ≠ order.id) :
    createdOrders w w'' = createdOrders w w' ++ [order] := by
  rw [createdOrders, ho, List.filter_append, createdOrders]
  simp [hasKey_of_fresh hn]

theorem placedQuantity_congr {db db' : Db} (h : db'.orderItems = db.orderItems) (item : String)
    (u : Uuid) : placedQuantity item u db' = placedQuantity item u db := by
  rw [placedQuantity, placedQuantity, linesOf, linesOf, h]

theorem WindowAt.opened {p : Pool CartPhase Site World} {p' : Pool CartPhase Site World}
    (hlog : p'.log = p.log ++ [(i, .orderInsert)]) (hdel : (i, .cartDel) ∉ p.log)
    (hcart : seenCart s p'.state = seen)
    (hcreated : order ∈ createdOrders w p'.state) (hpriced : Priced p'.state.db data)
    (haccepted : LinesAccepted noFault env 0 data p'.state.db.orderItems)
    (hdata : data.map OrderItemData.item = cartLines seen)
    (hempty : linesOf order.id p'.state.db = []) : WindowAt s w p' i env order data data 0 where
  begun := by
    rw [hlog]
    exact List.mem_append_right _ List.mem_cons_self
  pending := by
    rw [hlog]
    exact not_mem_snoc hdel (fun h => by cases h)
  created := hcreated
  priced := hpriced
  accepted := haccepted
  content item := by rw [dataQuantity_eq hdata, itemsQuantity_cartLines, hcart]
  placed item := by
    rw [placedQuantity, hempty]
    exact zero_add _

theorem open_set {ts : List CartPhase}
    (hothers : ∀ (j : Nat) (ψ : CartPhase), ts[j]? = some ψ → i ≠ j → ψ.openOrder = none)
    (hψ : ψ.openOrder = some u) (j : Nat) (χ : CartPhase) (hχ : (ts.set i ψ)[j]? = some χ)
    (ho : χ.openOrder ≠ none) : j = i ∧ χ.openOrder = some u := by
  rcases Pool.of_getElem?_set hχ with ⟨rfl, rfl⟩ | ⟨hij, hχ⟩
  · exact ⟨rfl, hψ⟩
  · exact absurd (hothers j χ hχ hij) ho

theorem liningFrom_ne_stored (env : Env) (order : OrderRow) (rows : List MenuItemRow)
    (data : List OrderItemData) (n : Nat) (ds : List OrderItemData) :
    liningFrom env order rows data n ds ≠ .stored := by
  cases ds <;> exact fun h => by cases h

theorem Accounts.opening (ha : Accounts s cs w p dest adds)
    (hφ : p.threads[i]? = some (.inserting env input seen table rows))
    (hnone : ∀ (j : Nat) (ψ : CartPhase), p.threads[j]? = some ψ → ψ.openOrder = none)
    (hfresh : ∀ o ∈ p.state.db.orders, o.id ≠ order.id)
    (hcreated : createdOrders w w' = createdOrders w p.state ++ [order])
    (hitems : w'.db.orderItems = p.state.db.orderItems)
    (hredis : w'.redis = p.state.redis) :
    Accounts s cs w ⟨w', p.threads.set i (liningFrom env order rows data 0 data), log⟩ dest
      adds where
  nodup := ha.nodup
  stored j := by
    rw [ha.stored]
    exact (stored_set_iff hφ (fun h => by cases h) (liningFrom_ne_stored _ _ _ _ _ _) j).symm
  dests j hj u hu := by
    obtain ⟨o, ho, hid⟩ := ha.dests j hj u hu
    rw [hcreated]
    exact ⟨o, List.mem_append_left _ ho, hid⟩
  cart item := by
    rw [seenCart, hredis]
    exact ha.cart item
  orders o ho hn item := by
    have hlt : i < p.threads.length := (List.getElem?_eq_some_iff.1 hφ).1
    rw [hcreated] at ho
    rcases List.mem_append.1 ho with ho | ho
    · rw [placedQuantity_congr hitems]
      exact ha.orders o ho (fun j ψ hψ => by rw [hnone j ψ hψ]; intro h; cases h) item
    · refine absurd ?_ (hn i _ (List.getElem?_set_self hlt))
      rw [openOrder_liningFrom, List.mem_singleton.1 ho]
  unshared j ψ u hψ hu k hk hd := by
    have ho : ψ.openOrder ≠ none := by
      rw [hu]
      intro h
      cases h
    have hopen := open_set (fun j ψ hψ _ => hnone j ψ hψ)
      (openOrder_liningFrom env order rows data 0 data) j ψ hψ ho
    rw [hopen.2] at hu
    cases hu
    obtain ⟨o, ho, hid⟩ := ha.dests k hk _ hd
    exact hfresh o (List.mem_of_mem_filter ho) hid

/-- A placement that inserts its order row: the cart counts until it is deleted. -/
theorem ShopInv.opening (h : ShopInv s cs w p)
    (hφ : p.threads[i]? = some (.inserting env input seen table rows))
    (hi : input.items.getD [] = []) (hq : Pool.Quiet p.log .cartGet CartWrite i)
    (hnone : ∀ (j : Nat) (ψ : CartPhase), p.threads[j]? = some ψ → ψ.openOrder = none)
    (hfit : LinesFit s env p.state)
    (hins : insertOrder env input table s.userId s.guestId total p.state.db = .ok (order, db)) :
    ShopInv s cs w ⟨{ p.state with db := db },
      p.threads.set i (liningFrom env order rows
        (orderItemsData rows (effectiveItems seen input)) 0
        (orderItemsData rows (effectiveItems seen input))),
      p.log ++ [(i, .orderInsert)]⟩ := by
  obtain ⟨c, hc, hplace, hsaw, hdel, hrows, havail⟩ := h.threads i _ hφ
  have hseen := hsaw.2 hq
  have ht := (insertOrder_ok hins).2
  have hfresh := insertOrder_fresh hins
  have hitems : db.orderItems = p.state.db.orderItems := by rw [ht]
  have hcreated : createdOrders w { p.state with db := db } = createdOrders w p.state ++ [order] :=
    createdOrders_snoc (by rw [ht]) fun o ho => hfresh o (h.kept o ho)
  have hdata := orderItemsData_items havail
  have hpriced : Priced db (orderItemsData rows (effectiveItems seen input)) := by
    refine orderItemsData_priced (fun r hr => ?_) _
    rw [ht]
    change r ∈ p.state.db.menuItems
    rw [h.menu]
    exact hrows r hr
  rw [effectiveItems_cart hi] at hdata hpriced ⊢
  generalize orderItemsData rows (cartLines seen) = data at hdata hpriced
  have hopen := open_set (i := i) (fun j ψ hψ _ => hnone j ψ hψ)
    (openOrder_liningFrom env order rows data 0 data)
  refine ⟨?_, fun o ho => ?_, ?_, fun j k ψ χ hψ hχ ho ho' => ?_, ?_⟩
  · change db.menuItems = _
    rw [ht]
    exact h.menu
  · change o ∈ db.orders
    rw [ht]
    exact List.mem_append_left _ (h.kept o ho)
  · refine h.threads_set hc _ (shopAt_liningFrom hplace ?_) (fun _ => rfl)
      fun j ψ hψ _ ho => absurd (hnone j ψ hψ) ho
    refine .opened rfl hdel hseen ?_ hpriced ?_ hdata ?_
    · rw [hcreated]
      exact List.mem_append_right _ List.mem_cons_self
    · rw [hitems]
      exact hfit.accepted hseen hdata
    · rw [linesOf, hitems]
      exact linesOf_fresh hfresh
  · exact (hopen j ψ hψ ho).1.trans (hopen k χ hχ ho').1.symm
  · obtain ⟨dest, adds, ha⟩ := h.account
    exact ⟨dest, adds, ha.opening hφ hnone hfresh hcreated hitems rfl⟩

theorem placedQuantity_snoc {db db' : Db} (h : db'.orderItems = db.orderItems ++ [l])
    (item : String) (u : Uuid) :
    placedQuantity item u db' = placedQuantity item u db +
      if l.orderId = u ∧ l.menuItemId.text = item then l.quantity else 0 := by
  rw [placedQuantity, linesOf, h, List.filter_append, List.map_append, List.sum_append,
    placedQuantity, linesOf]
  by_cases hu : l.orderId = u <;> simp [hu]

theorem WindowAt.db_orders (h : WindowAt s w p i env order data left n) :
    order ∈ p.state.db.orders :=
  List.mem_of_mem_filter h.created

theorem not_open {ts : List CartPhase} (hφ : ts[i]? = some φ)
    (hothers : ∀ (j : Nat) (ψ : CartPhase), ts[j]? = some ψ → i ≠ j → ψ.openOrder = none)
    (hu : φ.openOrder ≠ some u) (j : Nat) (ψ : CartPhase) (hψ : ts[j]? = some ψ) :
    ψ.openOrder ≠ some u := by
  by_cases hij : i = j
  · subst hij
    rw [hφ] at hψ
    cases hψ
    exact hu
  · rw [hothers j ψ hψ hij]
    intro h
    cases h

/-- A line more is in: the order fills up. -/
theorem WindowAt.lined {p p' : Pool CartPhase Site World}
    (hw : WindowAt s w p i env order data (d :: ds) n)
    (hlog : p'.log = p.log ++ [(i, .lineInsert n)]) (hredis : p'.state.redis = p.state.redis)
    (hcreated : createdOrders w p'.state = createdOrders w p.state)
    (hmenu : p'.state.db.menuItems = p.state.db.menuItems)
    (haccepted : LinesAccepted noFault env (n + 1) ds p'.state.db.orderItems)
    (hitems : p'.state.db.orderItems = p.state.db.orderItems ++ [newLine env order.id n m d])
    (hd : d.menuItemId = m.text) : WindowAt s w p' i env order data ds (n + 1) where
  begun := by
    rw [hlog]
    exact List.mem_append_left _ hw.begun
  pending := by
    rw [hlog]
    exact not_mem_snoc hw.pending (fun h => by cases h)
  created := by
    rw [hcreated]
    exact hw.created
  priced x hx := by
    rw [hmenu]
    exact hw.priced x (List.mem_cons_of_mem _ hx)
  accepted := haccepted
  content := by
    rw [seenCart, hredis]
    exact hw.content
  placed item := by
    have hp := hw.placed item
    rw [dataQuantity, List.map_cons, List.sum_cons] at hp
    rw [placedQuantity_snoc hitems, ← hp, add_assoc]
    simp only [newLine, true_and, hd, dataQuantity]

theorem Accounts.line (ha : Accounts s cs w p dest adds)
    (hφ : p.threads[i]? = some (.lining env order rows data n d ds))
    (hothers : ∀ (j : Nat) (ψ : CartPhase), p.threads[j]? = some ψ → i ≠ j → ψ.openOrder = none)
    (hcreated : createdOrders w w' = createdOrders w p.state)
    (hitems : w'.db.orderItems = p.state.db.orderItems ++ [newLine env order.id n m d])
    (hredis : w'.redis = p.state.redis) :
    Accounts s cs w ⟨w', p.threads.set i (liningFrom env order rows data (n + 1) ds), log⟩ dest
      adds where
  nodup := ha.nodup
  stored j := by
    rw [ha.stored]
    exact (stored_set_iff hφ (fun h => by cases h) (liningFrom_ne_stored _ _ _ _ _ _) j).symm
  dests := by
    rw [hcreated]
    exact ha.dests
  cart item := by
    rw [seenCart, hredis]
    exact ha.cart item
  orders o ho hn item := by
    have hlt : i < p.threads.length := (List.getElem?_eq_some_iff.1 hφ).1
    have hne : order.id ≠ o.id := by
      intro he
      refine hn i _ (List.getElem?_set_self hlt) ?_
      rw [openOrder_liningFrom, he]
    rw [hcreated] at ho
    rw [placedQuantity_snoc hitems, if_neg fun hl => hne hl.1, add_zero]
    exact ha.orders o ho (not_open hφ hothers fun he => hne (Option.some.inj he)) item
  unshared j ψ u hψ hu := by
    have ho : ψ.openOrder ≠ none := by
      rw [hu]
      intro h
      cases h
    have hopen := open_set hothers (openOrder_liningFrom env order rows data (n + 1) ds) j ψ hψ ho
    rw [hopen.2] at hu
    cases hu
    exact ha.unshared i _ _ hφ rfl

/-- A placement that inserts its next line: it is accepted, and the order fills up. -/
theorem ShopInv.line (h : ShopInv s cs w p)
    (hφ : p.threads[i]? = some (.lining env order rows data n d ds)) :
    ∃ db, insertLine env order.id n d p.state.db = .ok ((), db) ∧
      ShopInv s cs w ⟨{ p.state with db := db },
        p.threads.set i (liningFrom env order rows data (n + 1) ds),
        p.log ++ [(i, .lineInsert n)]⟩ := by
  obtain ⟨c, hc, ⟨input, hplace⟩, hw⟩ := h.threads i _ hφ
  obtain ⟨m, hm, hd, hpr⟩ := hw.priced d List.mem_cons_self
  obtain ⟨_, hok, hacc⟩ := (linesAccepted_cons (newLine env order.id n m.id d) rfl).1 hw.accepted
  rcases insertLine_cases ⟨order, hw.db_orders, rfl⟩ hm hd hpr with ⟨_, db, hins, ht⟩ | ⟨hn, _⟩
  swap
  · exact absurd hok hn
  refine ⟨db, hins, ?_⟩
  have hitems : db.orderItems = p.state.db.orderItems ++ [newLine env order.id n m.id d] := by
    rw [ht]
  have hcreated : createdOrders w { p.state with db := db } = createdOrders w p.state := by
    rw [createdOrders, createdOrders, ht]
  have hothers := h.others_closed hφ (fun h => by cases h)
  have hopen := open_set hothers (openOrder_liningFrom env order rows data (n + 1) ds)
  refine ⟨?_, fun o ho => ?_, ?_, fun j k ψ χ hψ hχ ho ho' => ?_, ?_⟩
  · change db.menuItems = _
    rw [ht]
    exact h.menu
  · change o ∈ db.orders
    rw [ht]
    exact h.kept o ho
  · refine h.threads_set hc _ (shopAt_liningFrom hplace ?_) (fun _ => rfl)
      fun j ψ hψ hij ho => absurd (hothers j ψ hψ hij) ho
    refine hw.lined rfl rfl hcreated ?_ ?_ hitems hd
    · change db.menuItems = _
      rw [ht]
    · rw [hitems]
      exact hacc
  · exact (hopen j ψ hψ ho).1.trans (hopen k χ hχ ho').1.symm
  · obtain ⟨dest, adds, ha⟩ := h.account
    exact ⟨dest, adds, ha.line hφ hothers hcreated hitems rfl⟩

theorem afterClear_keeps (env : Env) (order : OrderRow) (rows : List MenuItemRow)
    (data : List OrderItemData) :
    (afterClear env order rows data).Keeps fun w => (w.db, w.redis) := by
  refine Prog.Within.bind (Prog.Within.bind (Prog.keeps_exec _ _ fun w r hr => ?_) fun _ => ?_)
    fun _ => trivial
  · cases hr
    rfl
  · exact (getOrderWithDetails_keeps _).within fun _ => rfl

/-- What went to the cart went to the order, once the cart is deleted. -/
def afterwards (dest : Nat → Option Uuid) (u : Uuid) (j : Nat) : Option Uuid :=
  if dest j = none then some u else dest j

theorem afterwards_ne_none (dest : Nat → Option Uuid) (u : Uuid) (j : Nat) :
    afterwards dest u j ≠ none := by
  rw [afterwards]
  split
  · intro h
    cases h
  · assumption

theorem Accounts.clear (ha : Accounts s cs w p dest adds)
    (hφ : p.threads[i]? = some (.clearing env order rows data))
    (hothers : ∀ (j : Nat) (ψ : CartPhase), p.threads[j]? = some ψ → i ≠ j → ψ.openOrder = none)
    (hw : WindowAt s w p i env order data [] n) :
    Accounts s cs w ⟨{ p.state with redis := p.state.redis.del s.key },
      p.threads.set i (.rest (afterClear env order rows data)), log⟩ (afterwards dest order.id)
      adds where
  nodup := ha.nodup
  stored j := by
    rw [ha.stored]
    exact (stored_set_iff hφ (fun h => by cases h) (fun h => by cases h) j).symm
  dests j hj u hu := by
    rw [afterwards] at hu
    split at hu
    · cases hu
      exact ⟨order, hw.created, rfl⟩
    · exact ha.dests j hj u hu
  cart item := by
    have hfilter : adds.filter (fun j => afterwards dest order.id j = none) = [] := by
      rw [List.filter_eq_nil_iff]
      intro j _ he
      exact afterwards_ne_none dest order.id j (of_decide_eq_true he)
    rw [share, hfilter, seenCart, Redis.get_del_same]
    rfl
  orders o ho _ item := by
    by_cases hoo : o.id = order.id
    · have hp := hw.placed item
      rw [hw.content, dataQuantity, List.map_nil, List.sum_nil, add_zero, ha.cart] at hp
      rw [hoo, hp]
      refine share_congr (fun j hj => ?_) cs item
      rw [afterwards]
      split
      · simp [*]
      · rename_i hne
        exact iff_of_false hne (ha.unshared i _ _ hφ rfl j hj)
    · have hother := not_open hφ hothers fun he => hoo (Option.some.inj he).symm
      rw [ha.orders o ho hother item]
      refine share_congr (fun j hj => ?_) cs item
      rw [afterwards]
      split
      · rename_i hnone
        rw [hnone]
        exact iff_of_false (fun h => by cases h) fun he => hoo (Option.some.inj he).symm
      · exact Iff.rfl
  unshared j ψ u hψ hu := by
    rcases Pool.of_getElem?_set hψ with ⟨rfl, rfl⟩ | ⟨hij, hψ⟩
    · cases hu
    · rw [hothers j ψ hψ hij] at hu
      cases hu

/-- A placement that deletes the cart: everything in it now belongs to the order. -/
theorem ShopInv.clear (h : ShopInv s cs w p)
    (hφ : p.threads[i]? = some (.clearing env order rows data)) :
    ShopInv s cs w ⟨{ p.state with redis := p.state.redis.del s.key },
      p.threads.set i (.rest (afterClear env order rows data)), p.log ++ [(i, .cartDel)]⟩ := by
  obtain ⟨c, hc, ⟨input, hplace⟩, n, hw⟩ := h.threads i _ hφ
  have hopen := h.others_closed hφ (fun h => by cases h)
  have hclosed (j : Nat) (ψ : CartPhase)
      (hψ : (p.threads.set i (.rest (afterClear env order rows data)))[j]? = some ψ) :
      ψ.openOrder = none := by
    rcases Pool.of_getElem?_set hψ with ⟨rfl, rfl⟩ | ⟨hij, hψ⟩
    · rfl
    · exact hopen j ψ hψ hij
  refine ⟨h.menu, h.kept, ?_, fun j k ψ χ hψ _ ho _ => absurd (hclosed j ψ hψ) ho, ?_⟩
  · refine h.threads_set hc _ ⟨afterClear_keeps env order rows data, fun env' input' he => ?_⟩
      (fun hn => absurd (.inr rfl) hn) fun j ψ hψ hij ho => absurd (hopen j ψ hψ hij) ho
    rw [hplace] at he
    cases he
  · obtain ⟨dest, adds, ha⟩ := h.account
    exact ⟨_, adds, ha.clear hφ hopen hw⟩

end DineFlow
