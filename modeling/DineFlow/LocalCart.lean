import DineFlow.Listing
import DineFlow.StoreConvergence

namespace DineFlow.CartStore
open Atomic Relational
set_option autoImplicit true

/-- `quantity + 1`, a sum of doubles. -/
def oneMore (quantity : Int) : Int := Doubles.addWhole quantity 1

theorem one_le_oneMore (q : Int) (h : 1 ≤ q) : 1 ≤ oneMore q := Doubles.one_le_addWhole (by omega)

/-- What the page waits for: a guest session before it goes on, the answer to an addition or a
removal, to `clearCart`, or to an order. -/
inductive Pending where
  | session (next : Waiting)
  | sync
  | clear
  | order

def Waiting.pending : Waiting → Pending
  | .add _ _ => .sync
  | .order _ _ => .order

/-- The store of a page, and what the page waits for. -/
structure Page where
  store : CartState
  pending : List Pending

namespace Page

def start : Page := ⟨.initial, []⟩

def wait (c : Pending) (p : Page) : Page := { p with pending := p.pending ++ [c] }

/-- `ensureGuestSession`, and then the request. -/
def ensure (next : Waiting) (p : Page) : Page :=
  p.wait (if p.store.sessionOpen then next.pending else .session next)

def addItem (item : ItemInput) (notes : Option String) (p : Page) : Page :=
  ensure (.add item notes)
    { p with store := { p.store with items := addLocalBy oneMore item notes p.store.items } }

def removeItem (id : String) (p : Page) : Page :=
  wait .sync { p with store := { p.store with items := p.store.items.filter fun i => i.id ≠ id } }

def updateQuantity (id : String) (quantity : Int) (p : Page) : Page :=
  if quantity ≤ 0 then p.removeItem id
  else
    { p with store := { p.store with
        items := p.store.items.map fun i =>
          if i.id = id then { i with quantity := quantity } else i } }

def clearCart (p : Page) : Page :=
  wait .clear { p with store := { p.store with
    items := []
    isLoading := true
    guestSessionReady := false } }

def placeOrder (tableId : String) (specialInstructions : Option String) (p : Page) : Page :=
  ensure (.order tableId specialInstructions)
    { p with store := { p.store with isLoading := true, error := none } }

/-- One of the answers is there: a text, which is the token if a session was asked for, or an
error. A session that could not be opened is only logged. -/
def settle (answer : Except ApiError String) (c : Pending) (p : Page) : Page :=
  match c, answer with
  | .session next, .ok token =>
    wait next.pending
      { p with store := { p.store with guestToken := some token, guestSessionReady := true } }
  | .session next, .error _ => p.wait next.pending
  | .sync, _ => p
  | .clear, _ => { p with store := { p.store with isLoading := false } }
  | .order, .ok _ =>
    { p with store := { p.store with
        items := []
        isLoading := false
        guestSessionReady := false } }
  | .order, .error e => { p with store := { p.store with error := some e, isLoading := false } }

end Page

/-- What can happen to a page; the answers arrive in any order. -/
inductive PageEvent where
  | setTableId (tableId : String)
  | addItem (item : ItemInput) (notes : Option String)
  | removeItem (id : String)
  | updateQuantity (id : String) (quantity : Int)
  | clearCart
  | placeOrder (tableId : String) (specialInstructions : Option String)
  | answered (i : Nat) (answer : Except ApiError String)
  | reload

def Page.step (p : Page) : PageEvent → Page
  | .setTableId tableId => { p with store := { p.store with tableId := some tableId } }
  | .addItem item notes => p.addItem item notes
  | .removeItem id => p.removeItem id
  | .updateQuantity id quantity => p.updateQuantity id quantity
  | .clearCart => p.clearCart
  | .placeOrder tableId specialInstructions => p.placeOrder tableId specialInstructions
  | .answered i answer =>
    match p.pending[i]? with
    | some c => Page.settle answer c { p with pending := p.pending.eraseIdx i }
    | none => p
  | .reload => ⟨p.store.rehydrate, []⟩

def getTotalItems (items : List CartItem) : Int :=
  items.foldl (fun acc i => Doubles.addWhole acc i.quantity) 0

def getTotalPrice (items : List CartItem) : Rat :=
  items.foldl (fun acc i => acc + i.price * i.quantity) 0

/-- The ids are distinct and the quantities positive. -/
def Proper (items : List CartItem) : Prop :=
  (items.map CartItem.id).Nodup ∧ ∀ i ∈ items, 1 ≤ i.quantity

theorem Proper.addLocalBy (h : Proper items) (hmore : ∀ q, 1 ≤ q → 1 ≤ more q) (item : ItemInput)
    (notes : Option String) : Proper (addLocalBy more item notes items) := by
  rw [CartStore.addLocalBy]
  split
  · constructor
    · rw [List.map_map]
      have hids : (CartItem.id ∘ fun i : CartItem => if i.id = item.id then
          { i with quantity := more i.quantity, notes := notes.or i.notes } else i) =
          CartItem.id := by
        funext i
        rw [Function.comp_apply]
        split <;> rfl
      rw [hids]
      exact h.1
    · intro i hi
      obtain ⟨j, hj, rfl⟩ := List.mem_map.1 hi
      split
      · exact hmore _ (h.2 j hj)
      · exact h.2 j hj
  · rename_i hnew
    constructor
    · rw [List.map_append]
      refine h.1.append (List.nodup_singleton _) (List.disjoint_singleton.2 fun hmem => hnew ?_)
      obtain ⟨i, hi, hid⟩ := List.mem_map.1 hmem
      exact List.any_eq_true.2 ⟨i, hi, decide_eq_true hid⟩
    · intro i hi
      rcases List.mem_append.1 hi with hi | hi
      · exact h.2 i hi
      · rw [List.mem_singleton.1 hi]

theorem Proper.filter (h : Proper items) (keep : CartItem → Bool) : Proper (items.filter keep) :=
  ⟨h.1.sublist (List.filter_sublist.map _), fun i hi => h.2 i (List.mem_of_mem_filter hi)⟩

theorem Proper.setQuantity (h : Proper items) (id : String) (hq : 0 < quantity) :
    Proper (items.map fun i => if i.id = id then { i with quantity := quantity } else i) := by
  constructor
  · have hids : (items.map fun i => if i.id = id then { i with quantity := quantity } else i).map
        CartItem.id = items.map CartItem.id := by
      rw [List.map_map]
      apply List.map_congr_left
      intro i _
      rw [Function.comp_apply]
      split <;> rfl
    rw [hids]
    exact h.1
  · intro i hi
    obtain ⟨j, hj, rfl⟩ := List.mem_map.1 hi
    split
    · exact hq
    · exact h.2 j hj

theorem proper_nil : Proper [] := ⟨List.nodup_nil, fun _ h => by cases h⟩

theorem Proper.settle {p : Page} (h : Proper p.store.items) (answer : Except ApiError String)
    (c : Pending) : Proper (p.settle answer c).store.items := by
  cases c with
  | session next => cases answer <;> exact h
  | sync => exact h
  | clear => exact h
  | order =>
    cases answer with
    | ok => exact proper_nil
    | error => exact h

theorem Proper.step {p : Page} (h : Proper p.store.items) (e : PageEvent) :
    Proper (p.step e).store.items := by
  cases e with
  | setTableId => exact h
  | addItem item notes => exact h.addLocalBy one_le_oneMore item notes
  | removeItem id => exact h.filter _
  | updateQuantity id quantity =>
    rw [Page.step, Page.updateQuantity]
    split
    · exact h.filter _
    · rename_i hq
      exact h.setQuantity id (Int.not_le.1 hq)
  | clearCart => exact proper_nil
  | placeOrder => exact h
  | answered i answer =>
    rw [Page.step]
    split
    · exact Proper.settle (p := { p with pending := p.pending.eraseIdx i }) h answer _
    · exact h
  | reload => exact h

theorem Lines.sum_add (k : String) (ls : Lines) :
    ((ls.add k).map Prod.snd).sum = (ls.map Prod.snd).sum + 1 := by
  induction ls with
  | nil => rfl
  | cons l ls ih =>
    rw [add]
    split
    · rw [List.map_cons, List.map_cons, List.sum_cons, List.sum_cons]
      ring
    · rw [List.map_cons, List.map_cons, List.sum_cons, List.sum_cons, ih]
      ring

/-- The units in the cart, added up exactly. -/
def units (items : List CartItem) : Int := (items.map CartItem.quantity).sum

theorem units_cons (i : CartItem) (items : List CartItem) :
    units (i :: items) = i.quantity + units items := List.sum_cons

theorem units_nonneg (h : ∀ i ∈ items, 1 ≤ CartItem.quantity i) : 0 ≤ units items := by
  refine List.sum_nonneg fun q hq => ?_
  obtain ⟨i, hi, rfl⟩ := List.mem_map.1 hq
  exact zero_le_one.trans (h i hi)

/-- As long as all units fit a double, so do the sums on the way. -/
theorem foldl_addWhole (h : ∀ i ∈ items, 1 ≤ CartItem.quantity i) {acc : Int} (hacc : 0 ≤ acc)
    (hle : acc + units items ≤ 2 ^ 53) :
    items.foldl (fun acc i => Doubles.addWhole acc i.quantity) acc = acc + units items := by
  induction items generalizing acc with
  | nil => exact (add_zero acc).symm
  | cons i items ih =>
    obtain ⟨hi, hitems⟩ := List.forall_mem_cons.1 h
    have hrest := units_nonneg hitems
    rw [units_cons] at hle ⊢
    have hsum : Doubles.addWhole acc i.quantity = acc + i.quantity :=
      Doubles.addWhole_eq (by omega)
    rw [List.foldl_cons, hsum, ih hitems (by omega) (by omega)]
    omega

theorem getTotalItems_eq (h : ∀ i ∈ items, 1 ≤ CartItem.quantity i) (hle : units items ≤ 2 ^ 53) :
    getTotalItems items = units items :=
  (foldl_addWhole h le_rfl (by omega)).trans (zero_add _)

theorem quantity_le_units (h : ∀ i ∈ items, 1 ≤ CartItem.quantity i) (hi : i ∈ items) :
    i.quantity ≤ units items := by
  refine List.single_le_sum (fun q hq => ?_) _ (List.mem_map_of_mem hi)
  obtain ⟨j, hj, rfl⟩ := List.mem_map.1 hq
  exact zero_le_one.trans (h j hj)

theorem addLocalBy_oneMore (h : ∀ i ∈ items, 1 ≤ CartItem.quantity i) (hlt : units items < 2 ^ 53)
    (item : ItemInput) (notes : Option String) :
    addLocalBy oneMore item notes items = addLocal item notes items := by
  rw [addLocal, addLocalBy, addLocalBy]
  congr 1
  refine List.map_congr_left fun i hi => ?_
  have hq := quantity_le_units h hi
  have hpos := h i hi
  rw [oneMore, Doubles.addWhole_eq (by omega)]

theorem units_addItem (h : Proper items) (hlt : units items < 2 ^ 53) (item : ItemInput)
    (notes : Option String) : units (addLocalBy oneMore item notes items) = units items + 1 := by
  have hlines (items : List CartItem) :
      units items = ((items.map fun i => (i.id, i.quantity)).map Prod.snd).sum := by
    rw [units, List.map_map]
    rfl
  rw [addLocalBy_oneMore h.2 hlt, hlines, addLocal_lines item notes h.1, Lines.sum_add, ← hlines]

/-- How many there are of a dish; none if it has no line. -/
def quantityOf (id : String) (items : List CartItem) : Int :=
  ((lookup CartItem.id id items).map CartItem.quantity).getD 0

/-- What `updateQuantity` promises of the line it is called for, and of the others. -/
structure SetsQuantity (id : String) (quantity : Int) (items items' : List CartItem) : Prop where
  value : quantityOf id items' = max quantity 0
  present : (∃ i ∈ items', i.id = id) ↔ 0 < quantity
  rest : others CartItem.id id items' = others CartItem.id id items

theorem setsQuantity_removed (h : quantity ≤ 0) (id : String) (items : List CartItem) :
    SetsQuantity id quantity items (items.filter fun i => i.id ≠ id) where
  value := by
    have hnone : lookup CartItem.id id (items.filter fun i => i.id ≠ id) = none := by
      rw [lookup, List.find?_eq_none]
      intro i hi
      simpa using (List.mem_filter.1 hi).2
    rw [quantityOf, hnone, max_eq_right h]
    rfl
  present := by
    apply iff_of_false
    · rintro ⟨i, hi, rfl⟩
      simpa using (List.mem_filter.1 hi).2
    · exact Int.not_lt.2 h
  rest := by
    rw [others, others, List.filter_filter]
    simp

theorem setsQuantity_set {items : List CartItem} {id : String} (h : 0 < quantity)
    (hid : ∃ i ∈ items, i.id = id) :
    SetsQuantity id quantity items
      (updateWhere CartItem.id id (fun i => { i with quantity := quantity }) items) where
  value := by
    obtain ⟨i, hi⟩ := lookup_isSome hid
    rw [quantityOf, lookup_updateWhere (by exact fun _ => rfl), if_pos rfl, hi, max_eq_left h.le]
    rfl
  present := by
    apply iff_of_true
    · obtain ⟨i, hi, rfl⟩ := hid
      exact exists_mem_updateWhere (by exact fun _ => rfl) i.id hi
    · exact h
  rest := others_updateWhere (by exact fun _ => rfl) id items

/-- In every state that a page reaches, whatever is tapped and in whichever order the answers
arrive: the cart is proper, and the operations and totals do what they say. One item more counts
for one as long as the cart has fewer than `2 ^ 53` units. -/
theorem localCart_invariant (events : List PageEvent) :
    let p := runs Page.step .start events
    Proper p.store.items ∧
      (units p.store.items < 2 ^ 53 → ∀ item notes,
        getTotalItems (p.addItem item notes).store.items = getTotalItems p.store.items + 1) ∧
      (∀ id quantity, (∃ i ∈ p.store.items, i.id = id) →
        SetsQuantity id quantity p.store.items (p.updateQuantity id quantity).store.items) ∧
      getTotalPrice p.store.items =
        (p.store.items.map fun i => i.price * (i.quantity : Rat)).sum := by
  intro p
  have hproper : Proper p.store.items :=
    runs_keep (I := fun p : Page => Proper p.store.items) (fun _ e h => Proper.step h e)
      proper_nil events
  refine ⟨hproper, fun hunits item notes => ?_, ?_, ?_⟩
  · have hadded : Proper (p.addItem item notes).store.items := hproper.step (.addItem item notes)
    have hmore : units (p.addItem item notes).store.items = units p.store.items + 1 :=
      units_addItem hproper hunits item notes
    rw [getTotalItems_eq hadded.2 (by omega), getTotalItems_eq hproper.2 hunits.le, hmore]
  · intro id quantity hid
    rw [Page.updateQuantity]
    split
    · rename_i hq
      exact setsQuantity_removed hq id _
    · rename_i hq
      exact setsQuantity_set (Int.not_le.1 hq) hid
  · rw [getTotalPrice, List.sum_eq_foldl, List.foldl_map]

def sampleItem : ItemInput := ⟨"m1", "Tibs", (120 : Int), none⟩

/-- A dish is added, its quantity set, and the page loaded again. -/
theorem localCart_invariant_sample :
    let p := runs Page.step .start [.addItem sampleItem none, .updateQuantity "m1" 3, .reload]
    getTotalItems p.store.items = 3 ∧
      getTotalItems (p.addItem sampleItem none).store.items = 4 := by
  intro p
  have htotal : getTotalItems p.store.items = 3 := by decide +kernel
  have hmore := (localCart_invariant [.addItem sampleItem none, .updateQuantity "m1" 3,
    .reload]).2.1 (by decide +kernel) sampleItem none
  exact ⟨htotal, hmore.trans (congrArg (· + 1) htotal)⟩

/-- One more than `2 ^ 53` is no double: the total stays as it is. -/
theorem localCart_rounds :
    let p := runs Page.step .start [.addItem sampleItem none, .updateQuantity "m1" (2 ^ 53)]
    getTotalItems p.store.items = 2 ^ 53 ∧
      getTotalItems (p.addItem sampleItem none).store.items = 2 ^ 53 := by
  decide +kernel

end DineFlow.CartStore
