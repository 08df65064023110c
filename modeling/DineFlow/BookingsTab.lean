import DineFlow.BookingService
import DineFlow.Listing
import DineFlow.Runs

namespace DineFlow
open Atomic Relational
set_option autoImplicit true

/-- The lower case that the page compares in. -/
structure LowerCase where
  map : String → String
  map_empty : map "" = ""

def includes (text part : String) : Bool := decide (part.toList <:+: text.toList)

theorem includes_empty (text : String) : includes text "" = true :=
  decide_eq_true ⟨[], text.toList, by simp⟩

def matchesSearch (lower : LowerCase) (search : String) (b : BookingRow) : Bool :=
  (b.guestName.any fun name => includes (lower.map name) (lower.map search)) ||
    b.guestEmail.any fun email => email ≠ "" && includes (lower.map email) (lower.map search)

def matchesStatus (filter : String) (b : BookingRow) : Bool := filter = "ALL" || b.status = filter

def filteredBookings (lower : LowerCase) (search filter : String) (bookings : List BookingRow) :
    List BookingRow :=
  bookings.filter fun b => matchesSearch lower search b && matchesStatus filter b

/-- The values of the status filter besides `ALL`. -/
def filterValues : List String := ["PENDING", "CONFIRMED", "CANCELLED"]

/-- Without a search text each booking is listed under `ALL` and under one more filter value. -/
def Partitioned (lower : LowerCase) (bookings : List BookingRow) : Prop :=
  ∀ b ∈ bookings, b ∈ filteredBookings lower "" "ALL" bookings ∧
    ∃! filter, filter ∈ filterValues ∧ b ∈ filteredBookings lower "" filter bookings

/-- A booking comes in, or the manager decides about one. -/
inductive BookingStep where
  | create (env : Env) (input : CreateBookingInput) (userId : Option String)
  | confirm (env : Env) (bookingId : String)
  | cancel (env : Env) (bookingId : String)

namespace BookingStep

def prog : BookingStep → Api BookingRow
  | .create env input userId => createBooking env input userId
  | .confirm env bookingId => updateBookingStatus env bookingId "CONFIRMED"
  | .cancel env bookingId => updateBookingStatus env bookingId "CANCELLED"

def step (w : World) (a : BookingStep) : World := (a.prog.run noFault w).2

/-- The status that a step asks for the booking to have. -/
def verdict (k : Uuid) : BookingStep → Option String
  | .create _ _ _ => none
  | .confirm _ bookingId => if Uuid.parse bookingId = some k then some "CONFIRMED" else none
  | .cancel _ bookingId => if Uuid.parse bookingId = some k then some "CANCELLED" else none

end BookingStep

/-- A booking with the id is inserted by the run, and no later step decides about it. -/
def LeftOpen (w : World) (restaurant : Uuid) (steps : List BookingStep) : Prop :=
  ∃ before env input userId after row db, steps = before ++ .create env input userId :: after ∧
    insertBooking env input userId (runs BookingStep.step w before).db = .ok (row, db) ∧
    row.restaurantId = restaurant ∧ ∀ a ∈ after, a.verdict row.id = none

theorem insertBooking_row (h : insertBooking env input userId db = .ok (row, db')) :
    db'.bookings = db.bookings ++ [row] ∧ (∀ b ∈ db.bookings, b.id ≠ row.id) ∧
      row.status = "pending" ∧ row.guestName.isSome := by
  rw [insertBooking] at h
  split at h
  · obtain ⟨db'', hi, he⟩ := map_ok h
    cases he
    obtain ⟨hok, ht⟩ := Db.insertBooking_ok_iff.1 hi
    exact ⟨by rw [ht], fresh_of_hasKey hok.1, newBooking_stored_status _ _ _ _, rfl⟩
  all_goals cases h

theorem createBooking_step (w : World) (env : Env) (input : CreateBookingInput)
    (userId : Option String) :
    (BookingStep.step w (.create env input userId)).db =
      match insertBooking env input userId w.db with
      | .ok r => r.2
      | .error _ => w.db := by
  rw [BookingStep.step, BookingStep.prog, createBooking, dbWrite, Prog.run_exec, noFault]
  cases insertBooking env input userId w.db <;> rfl

theorem updateBookingStatus_step (w : World) (env : Env) (bookingId : String)
    (hfit : FitsVarchar 20 status) (k : Uuid) :
    lookup BookingRow.id k
        ((updateBookingStatus env bookingId status).run noFault w).2.db.bookings =
      (lookup BookingRow.id k w.db.bookings).map fun b =>
        if Uuid.parse bookingId = some k then b.setStatus status env.now else b := by
  rw [updateBookingStatus, Prog.bind_eq, run_dbWrite_bind, noFault, if_neg (fun h => by cases h),
    writeBookingStatus, parseUuid]
  cases hu : Uuid.parse bookingId with
  | none => simp
  | some u =>
    have hfree :
        ¬(hasKey BookingRow.id w.db.bookings u && !decide (FitsVarchar 20 status)) = true := by
      simp [hfit]
    dsimp only
    rw [Db.updateBooking, if_neg (not_not.2 hfit.1), if_neg hfree]
    have hend (row : Option BookingRow) (w' : World) :
        ((orElse row (.notFound "Booking not found")).run noFault w').2 = w' := by
      cases row <;> rfl
    change lookup BookingRow.id k ((orElse _ _).run noFault _).2.db.bookings = _
    rw [hend]
    refine (lookup_updateWhere (by exact fun _ => rfl) k u w.db.bookings).trans ?_
    by_cases hk : k = u
    · subst hk
      simp
    · have hne : ¬some u = some k := fun h => hk (Option.some.inj h).symm
      simp [hk, hne]

/-- What a step leaves of a booking: all but the status, and that as the step says. -/
theorem BookingStep.stays {w : World} (h : lookup BookingRow.id k w.db.bookings = some b)
    (a : BookingStep) : ∃ b', lookup BookingRow.id k (a.step w).db.bookings = some b' ∧
      b'.restaurantId = b.restaurantId ∧ b'.guestName = b.guestName ∧
      b'.status = (a.verdict k).getD b.status := by
  have hdecide (env : Env) (bookingId status : String) (hfit : IsVarchar 20 status) :
      ∃ b', lookup BookingRow.id k
          ((updateBookingStatus env bookingId status).run noFault w).2.db.bookings = some b' ∧
        b'.restaurantId = b.restaurantId ∧ b'.guestName = b.guestName ∧
        b'.status =
          (if Uuid.parse bookingId = some k then some status else none).getD b.status := by
    rw [updateBookingStatus_step w env bookingId hfit.fits k, h]
    refine ⟨_, rfl, ?_⟩
    split
    · exact ⟨rfl, rfl, hfit.cut⟩
    · exact ⟨rfl, rfl, rfl⟩
  cases a with
  | confirm env bookingId => exact hdecide env bookingId "CONFIRMED" (by decide)
  | cancel env bookingId => exact hdecide env bookingId "CANCELLED" (by decide)
  | create env input userId =>
    rw [createBooking_step]
    cases hi : insertBooking env input userId w.db with
    | error e => exact ⟨b, h, rfl, rfl, rfl⟩
    | ok r =>
      refine ⟨b, ?_, rfl, rfl, rfl⟩
      dsimp only
      rw [(insertBooking_row hi).1]
      rw [lookup] at h ⊢
      rw [List.find?_append, h]
      rfl

theorem BookingStep.source {w : World} (h : lookup BookingRow.id k w.db.bookings = none)
    (a : BookingStep) (h' : lookup BookingRow.id k (a.step w).db.bookings = some b) :
    ∃ env input userId db, a = .create env input userId ∧
      insertBooking env input userId w.db = .ok (b, db) := by
  cases a with
  | confirm env bookingId =>
    rw [step, prog, updateBookingStatus_step w env bookingId (by decide) k, h] at h'
    cases h'
  | cancel env bookingId =>
    rw [step, prog, updateBookingStatus_step w env bookingId (by decide) k, h] at h'
    cases h'
  | create env input userId =>
    rw [createBooking_step] at h'
    cases hi : insertBooking env input userId w.db with
    | error e =>
      rw [hi] at h'
      exact absurd (h'.symm.trans h) (by simp)
    | ok r =>
      obtain ⟨row, db⟩ := r
      rw [hi] at h'
      dsimp only at h'
      rw [(insertBooking_row hi).1] at h'
      rw [lookup] at h h'
      rw [List.find?_append, h, Option.none_or] at h'
      have hb : b = row := List.mem_singleton.1 (List.mem_of_find?_eq_some h')
      subst hb
      exact ⟨env, input, userId, db, rfl, hi⟩

/-- The status of a booking after some steps. -/
def statusAfter (k : Uuid) (status : String) (steps : List BookingStep) : String :=
  steps.foldl (fun s a => (a.verdict k).getD s) status

theorem BookingStep.runs_stay {w : World} (h : lookup BookingRow.id k w.db.bookings = some b)
    (steps : List BookingStep) :
    ∃ b', lookup BookingRow.id k (runs BookingStep.step w steps).db.bookings = some b' ∧
      b'.restaurantId = b.restaurantId ∧ b'.guestName = b.guestName ∧
      b'.status = statusAfter k b.status steps := by
  induction steps generalizing w b with
  | nil => exact ⟨b, h, rfl, rfl, rfl⟩
  | cons a steps ih =>
    obtain ⟨b₁, h₁, hr₁, hn₁, hs₁⟩ := a.stays h
    obtain ⟨b₂, h₂, hr₂, hn₂, hs₂⟩ := ih h₁
    refine ⟨b₂, h₂, hr₂.trans hr₁, hn₂.trans hn₁, ?_⟩
    rw [hs₂, hs₁]
    rfl

theorem BookingStep.runs_source {w : World} (h : lookup BookingRow.id k w.db.bookings = none)
    (steps : List BookingStep)
    (h' : lookup BookingRow.id k (runs BookingStep.step w steps).db.bookings = some b) :
    ∃ before env input userId after row db, steps = before ++ .create env input userId :: after ∧
      insertBooking env input userId (runs BookingStep.step w before).db = .ok (row, db) ∧
      row.id = k := by
  induction steps generalizing w with
  | nil => exact absurd (h.symm.trans h') (by simp)
  | cons a steps ih =>
    cases hl : lookup BookingRow.id k (a.step w).db.bookings with
    | some row =>
      obtain ⟨env, input, userId, db, rfl, hi⟩ := a.source h hl
      exact ⟨[], env, input, userId, steps, row, db, rfl, hi, (lookup_mem hl).2⟩
    | none =>
      obtain ⟨before, env, input, userId, after, row, db, rfl, hi, hk⟩ := ih hl h'
      exact ⟨a :: before, env, input, userId, after, row, db, rfl, hi, hk⟩

/-- What becomes of a booking that a step of the run inserts. -/
theorem BookingStep.runs_created {w : World}
    (hi : insertBooking env input userId (runs BookingStep.step w before).db = .ok (row, db))
    (after : List BookingStep) :
    ∃ b, lookup BookingRow.id row.id
        (runs BookingStep.step w (before ++ .create env input userId :: after)).db.bookings =
          some b ∧
      b.restaurantId = row.restaurantId ∧ b.guestName.isSome ∧
      b.status = statusAfter row.id "pending" after := by
  obtain ⟨hrows, hfresh, hstatus, hname⟩ := insertBooking_row hi
  have hnew : lookup BookingRow.id row.id
      (step (runs BookingStep.step w before) (.create env input userId)).db.bookings =
        some row := by
    rw [createBooking_step, hi]
    dsimp only
    rw [hrows]
    exact lookup_snoc hfresh
  obtain ⟨b, hb, hr, hn, hs⟩ := runs_stay hnew after
  rw [runs_append, runs_cons]
  refine ⟨b, hb, hr, ?_, ?_⟩
  · rw [hn]
    exact hname
  · rw [hs, hstatus]

theorem statusAfter_open (h : ∀ a ∈ steps, BookingStep.verdict k a = none) :
    statusAfter k status steps = status := by
  induction steps with
  | nil => rfl
  | cons a steps ih =>
    rw [statusAfter, List.foldl_cons, h a List.mem_cons_self]
    exact ih fun a' ha' => h a' (List.mem_cons_of_mem _ ha')

def Decided (status : String) : Prop := status = "CONFIRMED" ∨ status = "CANCELLED"

theorem BookingStep.verdict_decided (h : BookingStep.verdict k a = some status) :
    Decided status := by
  cases a with
  | create => cases h
  | confirm env bookingId =>
    rw [verdict] at h
    split at h
    · cases h
      exact .inl rfl
    · cases h
  | cancel env bookingId =>
    rw [verdict] at h
    split at h
    · cases h
      exact .inr rfl
    · cases h

theorem Decided.stays (h : Decided status) (steps : List BookingStep) :
    Decided (statusAfter k status steps) := by
  induction steps generalizing status with
  | nil => exact h
  | cons a steps ih =>
    apply ih
    change Decided ((a.verdict k).getD status)
    cases hv : a.verdict k with
    | none => exact h
    | some s => exact BookingStep.verdict_decided hv

theorem statusAfter_decided (h : ∃ a ∈ steps, BookingStep.verdict k a ≠ none) (status : String) :
    Decided (statusAfter k status steps) := by
  induction steps generalizing status with
  | nil =>
    obtain ⟨a, ha, -⟩ := h
    cases ha
  | cons a steps ih =>
    rw [statusAfter, List.foldl_cons]
    cases hv : a.verdict k with
    | some s => exact (BookingStep.verdict_decided hv).stays steps
    | none =>
      apply ih
      obtain ⟨a', ha', hne⟩ := h
      rcases List.mem_cons.1 ha' with rfl | ha'
      · exact absurd hv hne
      · exact ⟨a', ha', hne⟩

section Filter

variable {lower : LowerCase} {bookings : List BookingRow}

theorem mem_filtered (hb : b ∈ bookings) (hname : b.guestName.isSome) (filter : String) :
    b ∈ filteredBookings lower "" filter bookings ↔ filter = "ALL" ∨ b.status = filter := by
  obtain ⟨name, hn⟩ := Option.isSome_iff_exists.1 hname
  have hsearch : matchesSearch lower "" b = true := by
    rw [matchesSearch, hn, lower.map_empty, Option.any_some, includes_empty, Bool.true_or]
  rw [filteredBookings, List.mem_filter, hsearch, matchesStatus]
  simp [hb]

/-- A booking with a name is listed as it should be exactly if its status is a filter value. -/
theorem listed_iff (hb : b ∈ bookings) (hname : b.guestName.isSome) :
    (b ∈ filteredBookings lower "" "ALL" bookings ∧
        ∃! filter, filter ∈ filterValues ∧ b ∈ filteredBookings lower "" filter bookings) ↔
      b.status ∈ filterValues := by
  have hvalue (filter : String) (hf : filter ∈ filterValues) :
      b ∈ filteredBookings lower "" filter bookings ↔ b.status = filter := by
    have hall : filter ≠ "ALL" := by
      rintro rfl
      exact absurd hf (by decide)
    rw [mem_filtered hb hname, or_iff_right hall]
  constructor
  · rintro ⟨-, filter, ⟨hf, hlisted⟩, -⟩
    rw [(hvalue filter hf).1 hlisted]
    exact hf
  · intro hs
    refine ⟨(mem_filtered hb hname _).2 (.inl rfl), b.status, ⟨hs, (hvalue _ hs).2 rfl⟩, ?_⟩
    rintro filter ⟨hf, hlisted⟩
    exact ((hvalue filter hf).1 hlisted).symm

end Filter

theorem mem_bookingsByRestaurant (hr : Uuid.parse restaurantId = some restaurant)
    (h : ((bookingsByRestaurant plan restaurantId none).run noFault w).1 = .ok bookings) :
    b ∈ bookings ↔ b ∈ w.db.bookings ∧ b.restaurantId = restaurant := by
  rw [bookingsByRestaurant, select, Prog.run_query, noFault, parseUuid, hr] at h
  cases h
  rw [(plan.arrange_perm _).mem_iff, List.mem_filter]
  simp

/-- The filter partitions the bookings of a restaurant after a run exactly if the run decides
about each of them after it came in. -/
theorem bookings_partitioned_iff (lower : LowerCase) (w : World) (hstart : w.db.bookings = [])
    (steps : List BookingStep) (plan : RowOrder) (restaurantId : String) (restaurant : Uuid)
    (hr : Uuid.parse restaurantId = some restaurant) (bookings : List BookingRow)
    (hlist : ((bookingsByRestaurant plan restaurantId none).run noFault
      (runs BookingStep.step w steps)).1 = .ok bookings) :
    Partitioned lower bookings ↔ ¬LeftOpen w restaurant steps := by
  constructor
  · rintro h ⟨before, env, input, userId, after, row, db, rfl, hi, hrow, hopen⟩
    obtain ⟨b, hb, hbr, hname, hstatus⟩ := BookingStep.runs_created hi after
    have hmem := (mem_bookingsByRestaurant hr hlist).2 ⟨(lookup_mem hb).1, hbr.trans hrow⟩
    have hvalue := (listed_iff hmem hname).1 (h b hmem)
    rw [hstatus, statusAfter_open hopen] at hvalue
    exact absurd hvalue (by decide)
  · intro h b hb
    obtain ⟨hmem, hbr⟩ := (mem_bookingsByRestaurant hr hlist).1 hb
    have hb' := (runs BookingStep.step w steps).db.valid.bookingIds.lookup hmem
    have hnone : lookup BookingRow.id b.id w.db.bookings = none := by
      rw [hstart]
      rfl
    obtain ⟨before, env, input, userId, after, row, db, rfl, hi, hk⟩ :=
      BookingStep.runs_source hnone steps hb'
    obtain ⟨b₁, hb₁, hbr₁, hname, hstatus⟩ := BookingStep.runs_created hi after
    rw [hk] at hb₁
    cases hb'.symm.trans hb₁
    apply (listed_iff hb hname).2
    have hdecided : ∃ a ∈ after, a.verdict row.id ≠ none := by
      by_contra hopen
      refine h ⟨before, env, input, userId, after, row, db, rfl, hi, hbr₁.symm.trans hbr, ?_⟩
      intro a ha
      by_contra hne
      exact hopen ⟨a, ha, hne⟩
    rcases statusAfter_decided hdecided "pending" with hs | hs
    · rw [hstatus, hs]
      decide
    · rw [hstatus, hs]
      decide

def sampleLower : LowerCase := ⟨id, rfl⟩

def sampleRequest : CreateBookingInput :=
  ⟨(sampleId 1).text, "Abebe", "abebe@example.com", none, "2025-01-01", "19:00", 2, none⟩

/-- A booking comes in and is confirmed. -/
def sampleVisit : List BookingStep :=
  [.create sampleEnv sampleRequest none, .confirm sampleEnv (sampleEnv.uuid 0).text]

theorem bookings_partitioned_sample :
    ∃ b, ((bookingsByRestaurant .stored (sampleId 1).text none).run noFault
        (runs BookingStep.step sampleWorld sampleVisit)).1 = .ok [b] ∧
      Partitioned sampleLower [b] := by
  have hlist : ((bookingsByRestaurant .stored (sampleId 1).text none).run noFault
      (runs BookingStep.step sampleWorld sampleVisit)).1 =
        .ok [(newBooking sampleEnv sampleRequest (sampleId 1) none).setStatus "CONFIRMED"
          sampleEnv.now] := by
    decide +kernel
  refine ⟨_, hlist, (bookings_partitioned_iff sampleLower sampleWorld rfl sampleVisit .stored
    (sampleId 1).text (sampleId 1) (Uuid.parse_text _) _ hlist).2 ?_⟩
  rintro ⟨before, env, input, userId, after, row, db, hsteps, hi, -, hopen⟩
  cases before with
  | nil =>
    -- the booking is the one that is confirmed afterwards
    cases hsteps
    have hrow : insertBooking sampleEnv sampleRequest none sampleWorld.db =
        .ok ((newBooking sampleEnv sampleRequest (sampleId 1) none).stored, db) := by
      rw [insertBooking, parseUuid, sampleRequest, Uuid.parse_text] at hi ⊢
      obtain ⟨db', hdb, he⟩ := map_ok hi
      cases he
      exact hi
    cases hi.symm.trans hrow
    have hnone := hopen _ List.mem_cons_self
    rw [BookingStep.verdict, Uuid.parse_text] at hnone
    exact absurd hnone (by decide)
  | cons a before =>
    cases before with
    | nil => cases hsteps
    | cons a' before => cases before <;> cases hsteps

/-- A booking that has just come in is listed under `ALL` only. -/
theorem booking_unlisted :
    ∃ b, ((bookingsByRestaurant .stored (sampleId 1).text none).run noFault
        (runs BookingStep.step sampleWorld [.create sampleEnv sampleRequest none])).1 = .ok [b] ∧
      ¬Partitioned sampleLower [b] := by
  refine ⟨newBooking sampleEnv sampleRequest (sampleId 1) none, by decide +kernel, fun h => ?_⟩
  have hmem : newBooking sampleEnv sampleRequest (sampleId 1) none ∈
      [newBooking sampleEnv sampleRequest (sampleId 1) none] := List.mem_cons_self
  have hvalue := (listed_iff hmem rfl).1 (h _ hmem)
  exact absurd hvalue (by decide)

def itemsPerBookingPage : Nat := 10

/-- What the tab keeps: the search text, the filter, the open page and the last list. -/
structure BookingsTab where
  search : String
  filter : String
  page : Nat
  bookings : List BookingRow

def BookingsTab.start : BookingsTab := ⟨"", "ALL", 0, []⟩

inductive TabAction where
  | edit (search : String)
  | choose (filter : String)
  | prev
  | next
  /-- `Refresh`: another list arrives. -/
  | refresh (bookings : List BookingRow)
  /-- The answer to a status update arrives and is written into the list. -/
  | updated (id : Uuid) (status : String)

namespace BookingsTab

variable (lower : LowerCase)

def filtered (s : BookingsTab) : List BookingRow :=
  filteredBookings lower s.search s.filter s.bookings

/-- `slice` of the filtered list. -/
def displayed (s : BookingsTab) : List BookingRow :=
  ((s.filtered lower).drop (s.page * itemsPerBookingPage)).take itemsPerBookingPage

/-- The buttons are there only if there is more than one page. -/
def hasPager (s : BookingsTab) : Bool := itemsPerBookingPage < (s.filtered lower).length

def step (s : BookingsTab) : TabAction → BookingsTab
  | .edit search => { s with search := search, page := 0 }
  | .choose filter => { s with filter := filter, page := 0 }
  | .prev => if s.hasPager lower && s.page ≠ 0 then { s with page := s.page - 1 } else s
  | .next =>
    if s.hasPager lower && (s.page + 1) * itemsPerBookingPage < (s.filtered lower).length then
      { s with page := s.page + 1 }
    else s
  | .refresh bookings => { s with bookings := bookings }
  | .updated id status =>
    { s with
      bookings := s.bookings.map fun b => if b.id = id then { b with status := status } else b }

/-- A list or an update that arrives while a later page is open leaves as many bookings as the
filter found before. -/
def Gentle (s : BookingsTab) (a : TabAction) : Prop :=
  match a with
  | .refresh _ | .updated _ _ =>
    s.page = 0 ∨ (s.filtered lower).length ≤ ((s.step lower a).filtered lower).length
  | _ => True

/-- The open page starts within the filtered list. -/
def InRange (s : BookingsTab) : Prop :=
  s.page = 0 ∨ s.page * itemsPerBookingPage < (s.filtered lower).length

end BookingsTab

section Pages

variable {lower : LowerCase}

theorem BookingsTab.InRange.displayed {s : BookingsTab} (h : s.InRange lower)
    (hne : s.filtered lower ≠ []) : s.displayed lower ≠ [] := by
  have hstart : s.page * itemsPerBookingPage < (s.filtered lower).length := by
    rcases h with h | h
    · rw [h, Nat.zero_mul]
      exact List.length_pos_iff.2 hne
    · exact h
  intro hnil
  have hlength := congrArg List.length hnil
  rw [BookingsTab.displayed, List.length_take, List.length_drop, List.length_nil,
    itemsPerBookingPage] at hlength
  rw [itemsPerBookingPage] at hstart
  omega

theorem BookingsTab.InRange.step {s : BookingsTab} (h : s.InRange lower)
    (hok : s.Gentle lower a) : (s.step lower a).InRange lower := by
  have harrives (bookings : List BookingRow)
      (hok : s.page = 0 ∨ (s.filtered lower).length ≤
        (BookingsTab.filtered lower { s with bookings := bookings }).length) :
      BookingsTab.InRange lower { s with bookings := bookings } := by
    rcases h with h | h
    · exact .inl h
    · rcases hok with hok | hok
      · exact .inl hok
      · exact .inr (lt_of_lt_of_le h hok)
  cases a with
  | edit search => exact .inl rfl
  | choose filter => exact .inl rfl
  | refresh bookings => exact harrives bookings hok
  | updated id status => exact harrives _ hok
  | prev =>
    rw [BookingsTab.step]
    split
    · rcases h with h | h
      · exact .inl (by dsimp only; omega)
      · refine .inr (lt_of_le_of_lt ?_ h)
        exact Nat.mul_le_mul_right _ (Nat.sub_le _ _)
    · exact h
  | next =>
    rw [BookingsTab.step]
    split
    · rename_i henabled
      rw [Bool.and_eq_true, decide_eq_true_eq] at henabled
      exact .inr henabled.2
    · exact h

/-- While the lists that arrive do not shrink under a later page, a page of a list with bookings
in it shows some. -/
theorem page_nonempty (lower : LowerCase) (actions : List TabAction)
    (h : Guarded (BookingsTab.step lower) (BookingsTab.Gentle lower) .start actions)
    (hne : (runs (BookingsTab.step lower) .start actions).filtered lower ≠ []) :
    (runs (BookingsTab.step lower) .start actions).displayed lower ≠ [] := by
  have hrange : (runs (BookingsTab.step lower) .start actions).InRange lower :=
    h.runs (I := BookingsTab.InRange lower) (.inl rfl) fun _ _ hs hok => hs.step hok
  exact hrange.displayed hne

end Pages

/-- Eleven bookings that are confirmed. -/
def fullHouse : List BookingRow :=
  ([0, 1, 2, 3, 4, 5, 6, 7, 8, 9, 10] : List (Fin 16)).map fun n =>
    { newBooking sampleEnv sampleRequest (sampleId 1) none with
      id := sampleId n
      status := "CONFIRMED" }

theorem page_nonempty_sample :
    (runs (BookingsTab.step sampleLower) .start [.refresh fullHouse, .next]).displayed
      sampleLower ≠ [] := by
  refine page_nonempty sampleLower [.refresh fullHouse, .next] ?_ ?_
  · exact ⟨.inl rfl, trivial, trivial⟩
  · decide +kernel

/-- The manager opens the second page of the confirmed bookings and cancels the one that is
there. -/
def emptiedTab : BookingsTab :=
  runs (BookingsTab.step sampleLower) .start
    [.refresh fullHouse, .choose "CONFIRMED", .next, .updated (sampleId 10) "CANCELLED"]

/-- The page is empty, though ten bookings match the filter. -/
theorem page_empty :
    (emptiedTab.filtered sampleLower).length = 10 ∧ emptiedTab.displayed sampleLower = [] := by
  decide +kernel

end DineFlow
