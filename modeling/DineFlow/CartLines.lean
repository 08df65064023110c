import DineFlow.CartEdits
import DineFlow.CartStore

namespace DineFlow.CartStore
open Atomic Relational
open CartPhase (seenCart)
set_option autoImplicit true

/-- A cart apart from where it is kept: its items and how many there are of each. -/
abbrev Lines : Type := List (String × Int)

def Lines.add (id : String) : Lines → Lines
  | [] => [(id, 1)]
  | l :: ls => if l.1 = id then (l.1, l.2 + 1) :: ls else l :: Lines.add id ls

def Lines.remove (id : String) (ls : Lines) : Lines := ls.filter fun l => l.1 ≠ id

theorem Lines.mem_add {ls : Lines} (h : l ∈ ls.add k) : l.1 = k ∨ l ∈ ls := by
  induction ls with
  | nil =>
    rw [List.mem_singleton.1 h]
    exact .inl rfl
  | cons x ls ih =>
    rw [Lines.add] at h
    split at h
    · rename_i hx
      rcases List.mem_cons.1 h with rfl | h
      · exact .inl hx
      · exact .inr (List.mem_cons_of_mem _ h)
    · rcases List.mem_cons.1 h with rfl | h
      · exact .inr List.mem_cons_self
      · exact (ih h).imp_right (List.mem_cons_of_mem _)

theorem Lines.nodup_add {ls : Lines} (h : (ls.map Prod.fst).Nodup) :
    ((ls.add k).map Prod.fst).Nodup := by
  induction ls with
  | nil => simp [Lines.add]
  | cons x ls ih =>
    rw [List.map_cons, List.nodup_cons] at h
    rw [Lines.add]
    split
    · exact List.nodup_cons.2 h
    · rename_i hx
      refine List.nodup_cons.2 ⟨fun hm => ?_, ih h.2⟩
      obtain ⟨l, hl, he⟩ := List.mem_map.1 hm
      rcases mem_add hl with hid | hl
      · exact hx (he.symm.trans hid)
      · exact h.1 (he ▸ List.mem_map_of_mem hl)

def CartState.lines (st : CartState) : Lines := st.items.map fun i => (i.id, i.quantity)

def serverLines (items : List DineFlow.CartItem) : Lines :=
  items.map fun i => (i.menuItemId, i.quantity)

theorem serverLines_mergeItem (now : Nat) (id : String) (notes : Option String)
    (row : MenuItemRow) (items : List DineFlow.CartItem) :
    serverLines (mergeItem now ⟨id, 1, notes⟩ row items) = Lines.add id (serverLines items) := by
  induction items with
  | nil => rfl
  | cons i is ih =>
    have hcons : serverLines (i :: is) = (i.menuItemId, i.quantity) :: serverLines is := rfl
    rw [mergeItem, hcons, Lines.add]
    by_cases hi : i.menuItemId = id
    · rw [if_pos hi, if_pos hi]
      rfl
    · rw [if_neg hi, if_neg hi, ← ih]
      rfl

theorem serverLines_filter (id : String) (items : List DineFlow.CartItem) :
    serverLines (items.filter fun i => i.menuItemId ≠ id) =
      Lines.remove id (serverLines items) := by
  rw [serverLines, serverLines, Lines.remove, List.filter_map]
  rfl

theorem localLines_filter (id : String) (items : List CartItem) :
    (items.filter fun i => i.id ≠ id).map (fun i => (i.id, i.quantity)) =
      Lines.remove id (items.map fun i => (i.id, i.quantity)) := by
  rw [Lines.remove, List.filter_map]
  rfl

theorem addLocal_cons (item : ItemInput) (notes : Option String) (i : CartItem)
    (is : List CartItem) (h : ∀ j ∈ is, j.id ≠ i.id) :
    (addLocal item notes (i :: is)).map (fun i => (i.id, i.quantity)) =
      if i.id = item.id then (i.id, i.quantity + 1) :: is.map fun i => (i.id, i.quantity)
      else (i.id, i.quantity) :: (addLocal item notes is).map fun i => (i.id, i.quantity) := by
  rw [addLocal, addLocalBy]
  by_cases hi : i.id = item.id
  · have hrest : (is.map fun j => if j.id = item.id then
        { j with quantity := j.quantity + 1, notes := notes.or j.notes } else j) = is := by
      refine (List.map_congr_left fun j hj => ?_).trans (List.map_id is)
      rw [if_neg (hi ▸ h j hj)]
      rfl
    simp [hi, hrest]
  · rw [addLocal, addLocalBy]
    simp only [List.any_cons, hi, decide_false, Bool.false_or, if_false]
    split
    · simp [hi]
    · simp

theorem addLocal_lines (item : ItemInput) (notes : Option String) {items : List CartItem}
    (h : (items.map CartItem.id).Nodup) :
    (addLocal item notes items).map (fun i => (i.id, i.quantity)) =
      Lines.add item.id (items.map fun i => (i.id, i.quantity)) := by
  induction items with
  | nil => rfl
  | cons i is ih =>
    rw [List.map_cons, List.nodup_cons] at h
    rw [addLocal_cons item notes i is fun j hj he => h.1 (he ▸ List.mem_map_of_mem hj),
      List.map_cons, Lines.add, ih h.2]

/-- What Redis has for a session is this cart. -/
def Agrees : Option Cached → Lines → Prop
  | none, ls => ls = []
  | some (.cart c), ls => serverLines c.items = ls
  | some _, _ => False

/-- Every item is named by a text that the database reads as a uuid. -/
def Lines.Named (ls : Lines) : Prop := ∀ l ∈ ls, (Uuid.parse l.1).isSome = true

theorem priceCart_named (db : Db) (h : Lines.Named (serverLines cart.items)) :
    ∃ cart', priceCart db cart = .ok cart' ∧ cart'.items = cart.items := by
  refine ⟨_, priceCart_ok_iff.2 ⟨fun i hi => ?_, rfl⟩, rfl⟩
  exact h (i.menuItemId, i.quantity) (List.mem_map.2 ⟨i, hi, rfl⟩)

theorem Lines.Named.add {ls : Lines} (h : ls.Named) (hk : (Uuid.parse k).isSome = true) :
    (ls.add k).Named := by
  intro l hl
  rcases Lines.mem_add hl with rfl | hl
  · exact hk
  · exact h l hl

theorem Lines.Named.remove {ls : Lines} (h : ls.Named) (k : String) : (ls.remove k).Named :=
  fun l hl => h l (List.mem_of_mem_filter hl)

theorem Agrees.added (h : Agrees seen ls) (hn : Lines.Named ls) (env : Env) (notes : Option String)
    (ha : availableItem k db = .ok (some row)) :
    ∃ cart, (CartEdit.add env ⟨k, 1, notes⟩).outcome db seen = .ok cart ∧
      serverLines cart.items = ls.add k := by
  obtain ⟨cart, hcart, hls⟩ : ∃ cart, addToCart.currentCart env.now seen = .ok cart ∧
      serverLines cart.items = ls := by
    cases seen with
    | none => exact ⟨_, rfl, h.symm⟩
    | some c =>
      cases c with
      | cart c => exact ⟨c, rfl, h⟩
      | menu m => exact h.elim
      | items rows => exact h.elim
  have hadd : serverLines (addToCart.update env ⟨k, 1, notes⟩ row cart).items = ls.add k := by
    rw [← hls]
    exact serverLines_mergeItem _ _ _ _ _
  obtain ⟨cart', hp, hitems⟩ := priceCart_named db
    (hadd ▸ hn.add (availableItem_named ha))
  refine ⟨cart', ?_, ?_⟩
  · rw [CartEdit.outcome, ha]
    dsimp only
    rw [addedCart, hcart]
    exact hp
  · rw [hitems, hadd]

theorem Agrees.removed (h : Agrees seen ls) (hn : Lines.Named ls) (env : Env) (k : String)
    (db : Db) :
    (seen = none ∧ ∃ e, (CartEdit.remove env k).outcome db seen = .error e) ∨
      ∃ cart, (CartEdit.remove env k).outcome db seen = .ok cart ∧
        serverLines cart.items = ls.remove k := by
  cases seen with
  | none => exact .inl ⟨rfl, _, rfl⟩
  | some c =>
    cases c with
    | menu m => exact h.elim
    | items rows => exact h.elim
    | cart c =>
      right
      have hrem : serverLines (removeFromCart.update env k c).items = ls.remove k := by
        rw [← (h : serverLines c.items = ls)]
        exact serverLines_filter _ _
      obtain ⟨cart', hp, hitems⟩ := priceCart_named db (hrem ▸ hn.remove k)
      exact ⟨cart', hp, hitems ▸ hrem⟩

theorem seenCart_stored (s : Session) (env : Env) (w : World) (cart : Cart) :
    seenCart s (storeResult s env w (.ok cart)).2 = some (.cart cart.json) :=
  seenCart_storeResult s env w (.ok cart)

theorem serverLines_json (items : List DineFlow.CartItem) :
    serverLines (items.map DineFlow.CartItem.json) = serverLines items := by
  rw [serverLines, List.map_map]
  rfl

theorem addToCart_agrees (s : Session) (env : Env) (notes : Option String) {w : World}
    (h : Agrees (seenCart s w) ls) (hn : Lines.Named ls)
    (ha : availableItem k w.db = .ok (some row)) :
    Agrees (seenCart s ((addToCart env ⟨k, 1, notes⟩ s.userId s.guestId).run noFault w).2)
      (ls.add k) := by
  obtain ⟨cart, hout, hls⟩ := h.added hn env notes ha
  rw [run_addToCart, hout, seenCart_stored]
  exact (serverLines_json _).trans hls

theorem removeFromCart_agrees (s : Session) (env : Env) (k : String) {w : World}
    (h : Agrees (seenCart s w) ls) (hn : Lines.Named ls) :
    Agrees (seenCart s ((removeFromCart env k s.userId s.guestId).run noFault w).2)
      (ls.remove k) := by
  rw [run_removeFromCart]
  rcases h.removed hn env k w.db with ⟨hnone, e, hout⟩ | ⟨cart, hout, hls⟩
  · rw [hnone] at h hout
    cases (h : ls = [])
    rw [hnone, hout]
    change Agrees (seenCart s w) _
    rw [hnone]
    rfl
  · rw [hout, seenCart_stored]
    exact (serverLines_json _).trans hls

end DineFlow.CartStore
