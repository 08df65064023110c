import DineFlow.LocalCart
import DineFlow.TokenText

namespace DineFlow.CartStore
open Atomic Utf16
open Json (Value NumberFormat Canonical stringify parse)
open TokenText (key replaced)
set_option autoImplicit true

/-- How the numbers of a cart are read and printed. Whole numbers come back as they are where
those of a double do. -/
structure CartNumbers extends NumberFormat Rat where
  whole : ∀ n : Int, 0 ≤ n → n ≤ 2 ^ 53 → toNumberFormat.Exact n

/-- A text of the language as a string. -/
def textOf (s : List UInt16) : String := String.ofList ((points s).map replaced)

theorem textOf_key (s : String) : textOf (key s) = s := by
  have hpoints : points (key s) = s.toList.map .char := points_units s.toList
  rw [textOf, hpoints, List.map_map]
  have hid : replaced ∘ Point.char = id := rfl
  rw [hid, List.map_id, String.ofList_toList]

theorem key_ne_nil (h : s ≠ "") : key s ≠ [] := by
  intro hnil
  have htext := textOf_key s
  rw [hnil] at htext
  exact h htext.symm

section Values

/-- A member that is left out when there is nothing to say. -/
def optionalMember (name : String) : Option String → List (List UInt16 × Value Rat)
  | some s => [(key name, .str (key s))]
  | none => []

def nullable : Option String → Value Rat
  | some s => .str (key s)
  | none => .null

/-- The members in the order in which `addItem` sets them. -/
def CartItem.toJson (i : CartItem) : Value Rat :=
  .obj ([(key "id", .str (key i.id)), (key "name", .str (key i.name)), (key "price", .num i.price)]
    ++ optionalMember "imageUrl" i.imageUrl ++ (key "quantity", .num i.quantity) ::
      optionalMember "notes" i.notes)

/-- What `partialize` keeps, as the value that is stored. -/
def CartState.persisted (st : CartState) : Value Rat :=
  .obj [(key "state", .obj [(key "items", .arr (st.items.map CartItem.toJson)),
      (key "tableId", nullable st.tableId), (key "guestToken", nullable st.guestToken)]),
    (key "version", .num (0 : Int))]

/-- `v?.name` -/
def member (name : String) : Value Rat → Option (Value Rat)
  | .obj ms => (ms.find? fun m => m.1 = key name).map Prod.snd
  | _ => none

def textValue : Value Rat → Option String
  | .str s => some (textOf s)
  | _ => none

def numberValue : Value Rat → Option Rat
  | .num x => some x
  | _ => none

def textMember (name : String) (v : Value Rat) : Option String := (member name v).bind textValue

def readItem (v : Value Rat) : Option CartItem := do
  let id ← textMember "id" v
  let name ← textMember "name" v
  let price ← (member "price" v).bind numberValue
  let quantity ← (member "quantity" v).bind numberValue
  some ⟨id, name, price, quantity.num, textMember "imageUrl" v, textMember "notes" v⟩

/-- The stored members over those of a new store. -/
def readState (state : Value Rat) : Option CartState :=
  match member "items" state with
  | some (.arr vs) =>
    (vs.mapM readItem).map fun items =>
      { CartState.initial with
        items := items
        tableId := textMember "tableId" state
        guestToken := textMember "guestToken" state }
  | _ => none

/-- A version that is a number has to be that of the store, which is zero. -/
def sameVersion (v : Value Rat) : Bool :=
  match member "version" v with
  | some (.num x) => x = 0
  | _ => true

def truthy : Value Rat → Bool
  | .null => false
  | .bool b => b
  | .num x => x ≠ 0
  | .str s => s ≠ []
  | .arr _ | .obj _ => true

theorem textValue_nullable (s : Option String) : textValue (nullable s) = s := by
  cases s with
  | none => rfl
  | some s => exact congrArg some (textOf_key s)

theorem readItem_toJson (i : CartItem) : readItem i.toJson = some i := by
  obtain ⟨id, name, price, quantity, imageUrl, notes⟩ := i
  have hread : readItem (CartItem.toJson ⟨id, name, price, quantity, imageUrl, notes⟩) =
      some ⟨textOf (key id), textOf (key name), price, (quantity : Rat).num,
        imageUrl.map fun s => textOf (key s), notes.map fun s => textOf (key s)⟩ := by
    cases imageUrl <;> cases notes <;> rfl
  rw [hread]
  simp only [textOf_key, Rat.num_intCast, Option.map_id_fun', id_eq]

theorem mapM_readItem (items : List CartItem) :
    (items.map CartItem.toJson).mapM readItem = some items := by
  induction items with
  | nil => rfl
  | cons i items ih =>
    rw [List.map_cons, List.mapM_cons, readItem_toJson, ih]
    rfl

theorem readState_persisted (st : CartState) :
    (member "state" st.persisted).bind readState = some st.rehydrate := by
  have hread : (member "state" st.persisted).bind readState =
      ((st.items.map CartItem.toJson).mapM readItem).map fun items =>
        { CartState.initial with
          items := items
          tableId := textValue (nullable st.tableId)
          guestToken := textValue (nullable st.guestToken) } := rfl
  rw [hread, mapM_readItem, textValue_nullable, textValue_nullable]
  rfl

theorem filter_truthy_nullable (s : Option String) :
    (some (nullable s)).filter truthy = (given s).map fun s => .str (key s) := by
  cases s with
  | none => rfl
  | some s =>
    by_cases hs : s = ""
    · subst hs
      rfl
    · have hkey : truthy (nullable (some s)) = true := decide_eq_true (key_ne_nil hs)
      have hgiven : given (some s) = some s := Option.filter_some_pos (decide_eq_true hs)
      rw [Option.filter_some_pos hkey, hgiven]
      rfl

end Values

/-- The numbers of the lines are printed exactly, and the quantities are at most `n`. -/
def Printable (fmt : CartNumbers) (n : Int) (items : List CartItem) : Prop :=
  ∀ i ∈ items, fmt.Exact i.price ∧ 0 ≤ i.quantity ∧ i.quantity ≤ n

theorem canonical_optionalMember (fmt : NumberFormat Rat) (name : String) (s : Option String) :
    ∀ m ∈ optionalMember name s, Canonical fmt m.2 := by
  cases s with
  | none => exact List.forall_mem_nil _
  | some s => exact List.forall_mem_singleton.2 (.str _)

theorem canonical_nullable (fmt : NumberFormat Rat) (s : Option String) :
    Canonical fmt (nullable s) := by
  cases s with
  | none => exact .null
  | some s => exact .str _

section Texts

variable {fmt : CartNumbers}

theorem CartItem.canonical {i : CartItem} (hprice : fmt.Exact i.price) (h : 0 ≤ i.quantity)
    (hle : i.quantity ≤ 2 ^ 53) : Canonical fmt.toNumberFormat i.toJson := by
  refine .obj ?_ ?_
  · simp only [List.forall_mem_append, List.forall_mem_cons]
    exact ⟨⟨⟨.str _, .str _, .num hprice, List.forall_mem_nil _⟩, canonical_optionalMember _ _ _⟩,
      .num (fmt.whole _ h hle), canonical_optionalMember _ _ _⟩
  · obtain ⟨id, name, price, quantity, imageUrl, notes⟩ := i
    cases imageUrl <;> cases notes <;> rfl

theorem CartState.canonical {st : CartState} (h : Printable fmt n st.items) (hn : n ≤ 2 ^ 53) :
    Canonical fmt.toNumberFormat st.persisted := by
  have hitems : Canonical fmt.toNumberFormat (.arr (st.items.map CartItem.toJson)) := by
    refine .arr fun v hv => ?_
    obtain ⟨i, hi, rfl⟩ := List.mem_map.1 hv
    obtain ⟨hprice, hpos, hle⟩ := h i hi
    exact CartItem.canonical hprice hpos (hle.trans hn)
  have hstate : Canonical fmt.toNumberFormat (.obj [(key "items",
      .arr (st.items.map CartItem.toJson)), (key "tableId", nullable st.tableId),
      (key "guestToken", nullable st.guestToken)]) := by
    refine .obj ?_ rfl
    simp only [List.forall_mem_cons]
    exact ⟨hitems, canonical_nullable _ _, canonical_nullable _ _, List.forall_mem_nil _⟩
  refine .obj ?_ rfl
  simp only [List.forall_mem_cons]
  exact ⟨hstate, .num (fmt.whole 0 le_rfl (by decide)), List.forall_mem_nil _⟩

end Texts

section Storage

variable (fmt : CartNumbers)

/-- The text under `dineflow-cart`. -/
def storedText (st : CartState) : List Char := stringify fmt.print st.persisted

/-- The store of a page that is loaded. Without a text, or with one that is not JSON or of another
version, it is new. -/
def hydrate (raw : Option (List Char)) : CartState :=
  ((raw.bind (parse fmt.read)).bind fun v =>
    if sameVersion v then (member "state" v).bind readState else none).getD .initial

/-- `authLink`: what it finds under `state` of a stored text, if that is truthy. A text that is not
JSON is only logged. -/
def storedToken (name : String) (raw : Option (List Char)) : Option (Value Rat) :=
  match raw with
  | none | some [] => none
  | some cs => (((parse fmt.read cs).bind (member "state")).bind (member name)).filter truthy

/-- The header `x-guest-token` of a request. -/
def guestHeader (raw : Option (List Char)) : Option (Value Rat) := storedToken fmt "guestToken" raw

/-- A page and what is stored for it. -/
structure StoredPage where
  page : Page
  raw : Option (List Char)

def StoredPage.start : StoredPage := ⟨.start, none⟩

/-- The answer sets the state of the store. -/
def Pending.sets (answer : Except ApiError String) : Pending → Bool
  | .session _ => answer.toBool
  | .sync => false
  | .clear | .order => true

/-- Each time its state is set, the store writes it; a page that is loaded again has only what is
written. -/
def StoredPage.step (s : StoredPage) : PageEvent → StoredPage
  | .reload => ⟨⟨hydrate fmt s.raw, []⟩, s.raw⟩
  | .answered i answer =>
    let p := s.page.step (.answered i answer)
    ⟨p, if s.page.pending[i]?.any (Pending.sets answer) then some (storedText fmt p.store)
      else s.raw⟩
  | e =>
    let p := s.page.step e
    ⟨p, some (storedText fmt p.store)⟩

/-- The prices are printed exactly, and no quantity is typed that a double would round. -/
def PageEvent.Printable : PageEvent → Prop
  | .addItem item _ => fmt.Exact item.price
  | .updateQuantity _ quantity => quantity ≤ 2 ^ 52
  | _ => True

/-- What is stored is the state of the store, or nothing while it is still new. -/
def StoredPage.Written (s : StoredPage) : Prop :=
  s.raw = some (storedText fmt s.page.store) ∨
    s.raw = none ∧ s.page.store.rehydrate = .initial

end Storage

section Runs

variable {fmt : CartNumbers}

theorem parse_storedText {st : CartState} (h : Printable fmt n st.items) (hn : n ≤ 2 ^ 53) :
    parse fmt.read (storedText fmt st) = some st.persisted :=
  (CartState.canonical h hn).parse_stringify

theorem StoredPage.Written.hydrate {s : StoredPage} (h : s.Written fmt)
    (hprint : Printable fmt n s.page.store.items) (hn : n ≤ 2 ^ 53) :
    hydrate fmt s.raw = s.page.store.rehydrate := by
  rcases h with hraw | ⟨hraw, hnew⟩
  · have hversion : sameVersion s.page.store.persisted = true := rfl
    rw [CartStore.hydrate, hraw, Option.bind_some, parse_storedText hprint hn, Option.bind_some,
      if_pos hversion, readState_persisted]
    rfl
  · rw [hraw, hnew]
    rfl

theorem StoredPage.Written.guestHeader {s : StoredPage} (h : s.Written fmt)
    (hprint : Printable fmt n s.page.store.items) (hn : n ≤ 2 ^ 53) :
    guestHeader fmt s.raw = (given s.page.store.guestToken).map fun t => .str (key t) := by
  rcases h with hraw | ⟨hraw, hnew⟩
  · obtain ⟨c, cs, hcs⟩ := List.exists_cons_of_ne_nil (CartState.canonical hprint hn).opens.ne_nil
    have htext : storedText fmt s.page.store = c :: cs := hcs
    have hparse := parse_storedText hprint hn
    rw [htext] at hparse
    have hmember : (member "state" s.page.store.persisted).bind (member "guestToken") =
        some (nullable s.page.store.guestToken) := rfl
    calc CartStore.guestHeader fmt s.raw
      _ = storedToken fmt "guestToken" (some (c :: cs)) := by
        rw [CartStore.guestHeader, hraw, htext]
      _ = (((parse fmt.read (c :: cs)).bind (member "state")).bind
          (member "guestToken")).filter truthy := rfl
      _ = (some (nullable s.page.store.guestToken)).filter truthy := by
        rw [hparse, Option.bind_some, hmember]
      _ = _ := filter_truthy_nullable _
  · have htoken : s.page.store.guestToken = none := congrArg CartState.guestToken hnew
    rw [hraw, htoken]
    rfl

theorem Printable.mono (h : Printable fmt n items) (hle : n ≤ m) : Printable fmt m items :=
  fun i hi => ⟨(h i hi).1, (h i hi).2.1, (h i hi).2.2.trans hle⟩

theorem Printable.filter (h : Printable fmt n items) (keep : CartItem → Bool) :
    Printable fmt n (items.filter keep) :=
  fun i hi => h i (List.mem_of_mem_filter hi)

theorem printable_nil : Printable fmt n [] := List.forall_mem_nil _

theorem Printable.addItem (h : Printable fmt n items) (hn : 0 ≤ n) (hlt : n < 2 ^ 53)
    {item : ItemInput} (hprice : fmt.Exact item.price) (notes : Option String) :
    Printable fmt (n + 1) (addLocalBy oneMore item notes items) := by
  intro i hi
  rw [addLocalBy] at hi
  split at hi
  · obtain ⟨j, hj, rfl⟩ := List.mem_map.1 hi
    obtain ⟨hp, hpos, hle⟩ := h j hj
    have hmore : oneMore j.quantity = j.quantity + 1 := Doubles.addWhole_eq (by omega)
    split
    · refine ⟨hp, ?_, ?_⟩
      · dsimp only
        omega
      · dsimp only
        omega
    · exact ⟨hp, hpos, by omega⟩
  · rcases List.mem_append.1 hi with hold | hnew
    · exact h.mono (by omega) i hold
    · rw [List.mem_singleton.1 hnew]
      exact ⟨hprice, Int.one_nonneg, Int.le_add_of_nonneg_left hn⟩

theorem Printable.setQuantity (h : Printable fmt n items) (id : String) (hpos : 0 < quantity)
    (hle : quantity ≤ n) :
    Printable fmt n
      (items.map fun i => if i.id = id then { i with quantity := quantity } else i) := by
  intro i hi
  obtain ⟨j, hj, rfl⟩ := List.mem_map.1 hi
  split
  · exact ⟨(h j hj).1, hpos.le, hle⟩
  · exact h j hj

theorem Printable.settle {p : Page} (h : Printable fmt n p.store.items)
    (answer : Except ApiError String) (c : Pending) :
    Printable fmt n (p.settle answer c).store.items := by
  cases c with
  | session next => cases answer <;> exact h
  | sync => exact h
  | clear => exact h
  | order =>
    cases answer with
    | ok => exact printable_nil
    | error => exact h

/-- A tap adds one unit at most, or sets a quantity that was typed. -/
theorem Printable.step {p : Page} (h : Printable fmt n p.store.items) (hn : 2 ^ 52 ≤ n)
    (hlt : n < 2 ^ 53) {e : PageEvent} (he : e.Printable fmt) :
    Printable fmt (n + 1) (p.step e).store.items := by
  have hsame := h.mono (Int.le_add_one le_rfl)
  cases e with
  | setTableId => exact hsame
  | addItem item notes => exact h.addItem (by omega) hlt he notes
  | removeItem id => exact hsame.filter _
  | updateQuantity id quantity =>
    have hle : quantity ≤ 2 ^ 52 := he
    rw [Page.step, Page.updateQuantity]
    split
    · exact hsame.filter _
    · rename_i hq
      exact hsame.setQuantity id (Int.not_le.1 hq) (by omega)
  | clearCart => exact printable_nil
  | placeOrder => exact hsame
  | answered i answer =>
    rw [Page.step]
    split
    · exact Printable.settle (p := { p with pending := p.pending.eraseIdx i }) hsame answer _
    · exact hsame
  | reload => exact hsame

theorem store_unset {p : Page} (h : p.pending[i]?.any (Pending.sets answer) = false) :
    (p.step (.answered i answer)).store = p.store := by
  rw [Page.step]
  split
  · rename_i c hc
    rw [hc, Option.any_some] at h
    cases c with
    | session next =>
      cases answer with
      | ok => cases h
      | error => rfl
    | sync => rfl
    | clear => cases h
    | order => cases h
  · rfl

theorem StoredPage.Written.step {s : StoredPage} (h : s.Written fmt)
    (hprint : Printable fmt n s.page.store.items) (hn : n ≤ 2 ^ 53) (e : PageEvent) :
    (s.step fmt e).page = s.page.step e ∧ (s.step fmt e).Written fmt := by
  cases e with
  | reload =>
    have hpage : (s.step fmt .reload).page = s.page.step .reload :=
      congrArg (fun st => Page.mk st []) (h.hydrate hprint hn)
    refine ⟨hpage, ?_⟩
    rw [Written, hpage]
    exact h
  | answered i answer =>
    refine ⟨rfl, ?_⟩
    cases hsets : s.page.pending[i]?.any (Pending.sets answer) with
    | true => exact .inl (if_pos hsets)
    | false =>
      have hraw : (s.step fmt (.answered i answer)).raw = s.raw := if_neg (by simp [hsets])
      have hstore : (s.step fmt (.answered i answer)).page.store = s.page.store := store_unset hsets
      rw [Written, hraw, hstore]
      exact h
  | setTableId => exact ⟨rfl, .inl rfl⟩
  | addItem => exact ⟨rfl, .inl rfl⟩
  | removeItem => exact ⟨rfl, .inl rfl⟩
  | updateQuantity => exact ⟨rfl, .inl rfl⟩
  | clearCart => exact ⟨rfl, .inl rfl⟩
  | placeOrder => exact ⟨rfl, .inl rfl⟩

/-- The run with the stored text is that of the page alone. The induction carries how large the
quantities can have become. -/
theorem StoredPage.Written.runs {s : StoredPage} (h : s.Written fmt)
    (hprint : Printable fmt n s.page.store.items) (hn : 2 ^ 52 ≤ n)
    (hle : n + events.length ≤ 2 ^ 53) (hevents : ∀ e ∈ events, e.Printable fmt) :
    let s' := Atomic.runs (StoredPage.step fmt) s events
    s'.page = Atomic.runs Page.step s.page events ∧ s'.Written fmt ∧
      Printable fmt (2 ^ 53) s'.page.store.items := by
  induction events generalizing s n with
  | nil => exact ⟨rfl, h, hprint.mono (by simpa using hle)⟩
  | cons e events ih =>
    obtain ⟨he, hevents⟩ := List.forall_mem_cons.1 hevents
    rw [List.length_cons, Nat.cast_add, Nat.cast_one] at hle
    obtain ⟨hpage, hwritten⟩ := h.step hprint (by omega) e
    have hnext := hprint.step hn (by omega) he
    rw [← hpage] at hnext
    rw [runs_cons, runs_cons, ← hpage]
    exact ih hwritten hnext (by omega) (by omega) hevents

/-- Whatever happens to a page: its store is the one that is kept without any text, a reload finds
all that is to be kept, and each request carries the token of the store as its header. -/
theorem stored_cart_faithful (fmt : CartNumbers) (events : List PageEvent)
    (hlength : events.length ≤ 2 ^ 52) (hevents : ∀ e ∈ events, e.Printable fmt) :
    let s := Atomic.runs (StoredPage.step fmt) .start events
    s.page = Atomic.runs Page.step .start events ∧
      hydrate fmt s.raw = s.page.store.rehydrate ∧
      guestHeader fmt s.raw = (given s.page.store.guestToken).map fun t => .str (key t) := by
  intro s
  have hstart : StoredPage.start.Written fmt := .inr ⟨rfl, rfl⟩
  have hempty : Printable fmt (2 ^ 52) StoredPage.start.page.store.items := printable_nil
  obtain ⟨hpage, hwritten, hprint⟩ := hstart.runs hempty le_rfl (by omega) hevents
  exact ⟨hpage, hwritten.hydrate hprint le_rfl, hwritten.guestHeader hprint le_rfl⟩

end Runs

theorem wholeNumbers_exact (n : Int) :
    NumberFormat.Exact ⟨fun cs => (TokenText.wholeOf cs : Rat), fun x => Json.decimal x.num⟩
      (n : Rat) := by
  apply NumberFormat.Exact.of_decimal
  · exact congrArg Json.decimal (Rat.num_intCast n)
  · exact congrArg Int.cast (TokenText.wholeOf_decimal n)

/-- Numbers that are printed and read as whole numbers. -/
def wholeNumbers : CartNumbers where
  read cs := TokenText.wholeOf cs
  print x := Json.decimal x.num
  whole n _ _ := wholeNumbers_exact n

/-- A guest adds a dish, gets a session and loads the page again. -/
def sampleVisit : List PageEvent :=
  [.addItem ⟨"m1", "Tibs", (120 : Int), none⟩ none, .answered 0 (.ok "g.1"), .reload]

theorem sampleVisit_printable : ∀ e ∈ sampleVisit, e.Printable wholeNumbers := by
  simp only [sampleVisit, List.forall_mem_cons]
  exact ⟨wholeNumbers_exact 120, trivial, trivial, List.forall_mem_nil _⟩

theorem stored_cart_faithful_sample :
    let s := runs (StoredPage.step wholeNumbers) .start sampleVisit
    s.page = runs Page.step .start sampleVisit ∧
      s.page.store.guestToken = some "g.1" ∧
      guestHeader wholeNumbers s.raw = some (.str (key "g.1")) := by
  obtain ⟨hpage, _, hheader⟩ :=
    stored_cart_faithful wholeNumbers sampleVisit (by decide) sampleVisit_printable
  have htoken : (runs Page.step .start sampleVisit).store.guestToken = some "g.1" := rfl
  rw [← hpage] at htoken
  refine ⟨hpage, htoken, ?_⟩
  rw [hheader, htoken]
  rfl

end DineFlow.CartStore
