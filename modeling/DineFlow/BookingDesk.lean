import DineFlow.BookingsTab
import DineFlow.Receipts

namespace DineFlow
open Atomic Relational
set_option autoImplicit true

/-- The row of a booking: its restaurant, and the user that the request comes from, if any. -/
def Books (pf : Platform) (r : Request) (input : CreateBookingInput) (restaurant : Uuid)
    (user : Option Uuid) : Prop :=
  Uuid.parse input.restaurantId = some restaurant ∧ r.WritesFor pf user

theorem BookingRow.storable_date {b : BookingRow} (h : b.wellFormed t = true) :
    Storable b.date := by
  simp only [wellFormed, fits, Bool.and_eq_true, decide_eq_true_eq] at h
  exact h.2.1.1.1.2.1

theorem createBooking_follows {P : BookingRow → Prop} {r : Request} {input : CreateBookingInput}
    (hcaller : r.Passes pf caller)
    (hP : ∀ restaurant user, Books pf r input restaurant user →
      P (newBooking r.env input restaurant user).stored.asked) :
    (createBooking r.env input (caller.bind Caller.id)).Follows V
      (Pool.ClaimStep (fun w => w.db.ledger.bookings) BookingRow.id P)
      (fun g b => g = some b.asked ∧ ∃ restaurant user, Books pf r input restaurant user ∧
        Storable input.date ∧ b = (newBooking r.env input restaurant user).stored) none := by
  refine Prog.follows_exec (fun w => .grow (List.prefix_refl _)) _ (fun w res h => ?_)
    fun _ hz => by cases hz
  obtain ⟨res', hres', rfl⟩ := map_ok h
  have hinsert := mapError_ok hres'
  rw [insertBooking] at hinsert
  split at hinsert
  · rename_i restaurant user hrestaurant huser
    obtain ⟨db, hdb, rfl⟩ := map_ok hinsert
    have hbooks : Books pf r input restaurant user :=
      ⟨parseUuid_ok_iff.1 hrestaurant, .of_parse hcaller huser⟩
    obtain ⟨⟨hfresh, hformed⟩, ht⟩ := Db.insertBooking_ok_iff.1 hdb
    refine ⟨_, .claim (hP restaurant user hbooks) (fun b hb => ?_) ?_, rfl, restaurant, user,
      hbooks, BookingRow.storable_date hformed, rfl⟩
    · obtain ⟨b', hb', rfl⟩ := List.mem_map.1 hb
      exact fresh_of_hasKey hfresh b' hb'
    · dsimp only
      rw [Db.ledger, ht]
      exact List.map_append
  all_goals cases hinsert

/-- A request for a table answers with the booking that it has put on record. -/
def bookingReceipts (pf : Platform) :
    Receipt pf (fun w => w.db.ledger.bookings) BookingRow.id where
  gives
    | .createBooking _ => true
    | _ => false
  makes
    | (r, .createBooking input), b => ∃ restaurant user, Books pf r input restaurant user ∧
        b = (newBooking r.env input restaurant user).stored.asked
    | _, _ => False
  answers
    | (r, .createBooking input), b, v => ∃ restaurant user, Books pf r input restaurant user ∧
        Storable input.date ∧ b = (newBooking r.env input restaurant user).stored.asked ∧
        v = .booking (newBooking r.env input restaurant user).stored
    | _, _, _ => False
  follows := by
    intro r op P hgives hP
    cases op
    case createBooking input =>
      have hguards := Prog.Within.follows (V := fun _ => True)
        (G := Pool.ClaimStep (fun w => w.db.ledger.bookings) BookingRow.id P) (g := none)
        ((guards_keeps pf (Operation.route (.createBooking input)) r).within
          (R := fun w w' => w'.db = w.db) fun _ => rfl)
        (guards_subject pf r (Operation.route (.createBooking input)))
        fun w w' h => .grow (by rw [h])
      refine hguards.bind fun g caller hg => ?_
      rw [hg.1]
      refine (createBooking_follows hg.2 fun restaurant user hbooks =>
        hP _ ⟨restaurant, user, hbooks, rfl⟩).bind fun g b hb => ?_
      obtain ⟨rfl, restaurant, user, hbooks, hdate, rfl⟩ := hb
      exact ⟨_, rfl, restaurant, user, hbooks, hdate, rfl, rfl⟩
    all_goals cases hgives

theorem count_bookingsByRestaurant (hb : b ∈ w.db.bookings)
    (hr : Uuid.parse restaurantId = some k) (hrestaurant : b.restaurantId = k)
    (hdate : b.date = date) (hstorable : Storable date) (plan : RowOrder) :
    ∃ rows, (bookingsByRestaurant plan restaurantId (some date)).run noFault w = (.ok rows, w) ∧
      rows.count b = 1 := by
  have hgiven : ∀ d ∈ given (some date), Storable d :=
    storable_given_iff.1 fun d hd => Option.some.inj hd ▸ hstorable
  refine ⟨plan.arrange (w.db.bookings.filter fun b =>
    b.restaurantId = k && (given (some date)).all fun d => b.date = d), ?_, ?_⟩
  · rw [bookingsByRestaurant, select, Prog.run_query, noFault, parseUuid_ok_iff.2 hr,
      optTextParam_ok_iff.2 ⟨hgiven, rfl⟩]
    rfl
  · rw [(plan.arrange_perm _).count_eq]
    apply List.count_eq_one_of_mem
    · exact List.Nodup.of_map BookingRow.id (w.db.valid.bookingIds.filter _)
    · refine List.mem_filter.2 ⟨hb, ?_⟩
      rw [Bool.and_eq_true]
      refine ⟨decide_eq_true hrestaurant, ?_⟩
      rw [given]
      by_cases he : date = ""
      · simp [he]
      · simp [he, hdate]

theorem mem_myBookings (hb : b ∈ w.db.bookings) (plan : RowOrder) (k : Uuid) :
    ∃ rows, (myBookings plan (some k.text)).run noFault w = (.ok rows, w) ∧
      (b ∈ rows ↔ b.userId = some k) := by
  refine ⟨plan.arrange (w.db.bookings.filter fun b => (some k).isSome && b.userId = some k),
    ?_, ?_⟩
  · rw [myBookings, select, Prog.run_query, noFault, parseOptUuid, parseUuid_text]
    rfl
  · rw [(plan.arrange_perm _).mem_iff, List.mem_filter]
    simp [hb]

/-- A booking that has been answered is never lost: whatever happens later, the desk finds it
once among those of its restaurant and its day as it is stored, and of all users its own and no
other finds it. -/
theorem bookings_stand (pf : Platform) (calls : List (Request × Operation)) (ops : List SocketOp)
    (w : World) (turns later : List (Nat × Bool)) (i : Nat) (r : Request)
    (input : CreateBookingInput) (v : Response)
    (hi : calls[i]? = some (r, .createBooking input))
    (hv : (runs Pool.turn (serveLive pf calls ops w) turns).threads[i]? = some (.ret v))
    (plan : RowOrder) :
    let w' := (runs Pool.turn (serveLive pf calls ops w) (turns ++ later)).state
    ∃ restaurant user, Books pf r input restaurant user ∧
      v = .booking (newBooking r.env input restaurant user).stored ∧
      ∃ b ∈ w'.db.bookings, b.asked = (newBooking r.env input restaurant user).stored.asked ∧
        (∃ rows, (bookingsByRestaurant plan input.restaurantId
          (some (cutVarchar 20 input.date))).run noFault w' = (.ok rows, w') ∧
            rows.count b = 1) ∧
        ∀ k : Uuid, ∃ rows, (myBookings plan (some k.text)).run noFault w' = (.ok rows, w') ∧
          (b ∈ rows ↔ user = some k) := by
  intro w'
  obtain ⟨x, ⟨restaurant, user, hbooks, hstorable, rfl, rfl⟩, hstored⟩ :=
    (bookingReceipts pf).on_record kept_bookings ops w turns later hi rfl hv
  obtain ⟨b, hb, hasked⟩ := List.mem_map.1 hstored
  have hrestaurant : b.asked.restaurantId = restaurant := by rw [hasked]; rfl
  have hdate : b.asked.date = cutVarchar 20 input.date := by rw [hasked]; rfl
  have huser : b.asked.userId = user := by rw [hasked]; rfl
  refine ⟨restaurant, user, hbooks, rfl, b, hb, hasked,
    count_bookingsByRestaurant hb hbooks.1 hrestaurant hdate
      (hstorable.cutVarchar 20) plan, fun k => ?_⟩
  obtain ⟨rows, hrun, hmem⟩ := mem_myBookings hb plan k
  refine ⟨rows, hrun, hmem.trans ?_⟩
  rw [← huser]
  rfl

/-- A guest books a table, and the answer comes. -/
theorem bookings_stand_sample :
    let run := runs Pool.turn
      (serveLive samplePlatform [(openRequest, .createBooking sampleRequest)] [] sampleWorld)
      [(0, false)]
    ∃ b ∈ run.state.db.bookings, ∃ rows, (bookingsByRestaurant .stored sampleRequest.restaurantId
      (some sampleRequest.date)).run noFault run.state = (.ok rows, run.state) ∧
        rows.count b = 1 := by
  intro run
  have hreturned : ∃ v, run.threads[0]? = some (.ret v) := ⟨_, rfl⟩
  obtain ⟨v, hv⟩ := hreturned
  obtain ⟨_, _, _, _, b, hb, _, hrows, _⟩ := bookings_stand samplePlatform
    [(openRequest, .createBooking sampleRequest)] [] sampleWorld [(0, false)] [] 0 _ _ v rfl hv
    .stored
  exact ⟨b, hb, hrows⟩

end DineFlow
