import DineFlow.Callers

namespace DineFlow
open Atomic Relational
set_option autoImplicit true

theorem run_handle_plain (pf : Platform) (r : Request) (h : Operation.route op = plainRoute)
    (w : World) : (handle pf r op).run noFault w =
      match callerOf pf r w.db with
      | .ok c => (op.resolve pf r (some c)).run noFault w
      | .error e => (.error e, w) := by
  rw [handle, h, guards, Prog.bind_eq, Prog.bind_eq, Prog.bind_assoc, gqlAuthGuard, Prog.bind_eq,
    Prog.bind_assoc, Prog.run_bind_ok (run_authenticate pf r w)]
  cases callerOf pf r w.db <;> rfl

/-- The two operations that are documented for staff. -/
inductive BookingOp where
  | list (restaurantId : String) (date : Option String)
  | setStatus (bookingId status : String)

def BookingOp.op : BookingOp → Operation
  | .list restaurantId date => .bookings restaurantId date
  | .setStatus bookingId status => .updateBookingStatus bookingId status

/-- The database has nothing to give: the id is no uuid or the date is no text that it reads, or
there is no booking to update, or the status does not fit its column. -/
def BookingOp.Refused (db : Db) : BookingOp → Prop
  | .list restaurantId date => Uuid.parse restaurantId = none ∨ ∃ d ∈ given date, ¬Storable d
  | .setStatus bookingId status => ∀ u, Uuid.parse bookingId = some u →
      hasKey BookingRow.id db.bookings u = false ∨ ¬FitsVarchar 20 status

/-- A request gets data or changes a booking only if it comes from a member of staff. -/
def StaffOnly (pf : Platform) (r : Request) (b : BookingOp) (w : World) : Prop :=
  (∃ v, ((handle pf r b.op).run noFault w).1 = .ok v) ∨
      ((handle pf r b.op).run noFault w).2.db.bookings ≠ w.db.bookings →
    ∃ u ∈ w.db.users, callerOf pf r w.db = .ok (.user u) ∧ u.role.isStaff = true

theorem writeBookingStatus_refused (env : Env)
    (h : (BookingOp.setStatus bookingId status).Refused db) :
    (∃ e, writeBookingStatus env bookingId status db = .error e) ∨
      ∃ db', writeBookingStatus env bookingId status db = .ok (none, db') ∧
        db'.bookings = db.bookings := by
  rw [writeBookingStatus, parseUuid]
  cases hu : Uuid.parse bookingId with
  | none => exact .inl ⟨_, rfl⟩
  | some u =>
    dsimp only
    rw [Db.updateBooking]
    by_cases hstorable : Storable status
    swap
    · rw [if_pos hstorable]
      exact .inl ⟨_, rfl⟩
    rw [if_neg (not_not.2 hstorable)]
    cases hk : hasKey BookingRow.id db.bookings u with
    | true =>
      rcases h u hu with hno | hlong
      · rw [hk] at hno
        cases hno
      · rw [if_pos (by simpa using hlong)]
        exact .inl ⟨_, rfl⟩
    | false =>
      have hfresh := fresh_of_hasKey hk
      rw [if_neg (by simp)]
      refine .inr ⟨_, congrArg Except.ok (Prod.ext ?_ rfl), updateWhere_absent hfresh _⟩
      dsimp only
      rw [updateWhere_absent hfresh]
      exact List.find?_eq_none.2 fun b hb => by simpa using hfresh b hb

theorem writeBookingStatus_accepted (env : Env)
    (h : ¬(BookingOp.setStatus bookingId status).Refused db) :
    ∃ row db', writeBookingStatus env bookingId status db = .ok (some row, db') := by
  simp only [BookingOp.Refused, not_forall, not_or, not_not, Bool.not_eq_false] at h
  obtain ⟨u, hu, hk, hfit⟩ := h
  obtain ⟨b, hb, hid⟩ := hasKey_iff.1 hk
  have hid' : ∀ b, (BookingRow.setStatus status env.now b).id = b.id := fun _ => rfl
  obtain ⟨b', hb', he⟩ : ∃ b' ∈ updateWhere BookingRow.id u (BookingRow.setStatus status env.now)
      db.bookings, b'.id = b.id := exists_mem_updateWhere hid' u hb
  obtain ⟨row, hrow⟩ := lookup_isSome ⟨b', hb', he.trans hid⟩
  rw [writeBookingStatus, parseUuid, hu]
  dsimp only
  rw [Db.updateBooking, if_neg (not_not.2 hfit.1), if_neg (by simp [hfit])]
  exact ⟨row, _, congrArg Except.ok (Prod.ext hrow rfl)⟩

theorem resolve_refused (pf : Platform) (r : Request) (h : BookingOp.Refused w.db b)
    (c : Option Caller) : ∃ e w', (b.op.resolve pf r c).run noFault w = (.error e, w') ∧
      w'.db.bookings = w.db.bookings := by
  cases b with
  | list restaurantId date =>
    change ∃ e w', ((bookingsByRestaurant r.plan restaurantId date).bind _).run noFault w = _ ∧ _
    rw [bookingsByRestaurant, run_select_bind]
    cases hp : parseUuid restaurantId with
    | error e => exact ⟨_, _, rfl, rfl⟩
    | ok u =>
      have hdate : optTextParam (given date) = .error .nullCharacter := by
        obtain ⟨d, hd, hbad⟩ := h.resolve_left (by simp [parseUuid_ok_iff.1 hp])
        rw [hd, optTextParam, textParam, if_neg hbad]
        rfl
      rw [hdate]
      exact ⟨_, _, rfl, rfl⟩
  | setStatus bookingId status =>
    change ∃ e w', ((updateBookingStatus r.env bookingId status).bind _).run noFault w = _ ∧ _
    rw [updateBookingStatus, Prog.bind_eq, Prog.bind_assoc, run_dbWrite_bind]
    rcases writeBookingStatus_refused r.env h with ⟨e, he⟩ | ⟨db', he, hb⟩
    · rw [he]
      exact ⟨_, _, rfl, rfl⟩
    · rw [he]
      exact ⟨_, _, rfl, hb⟩

theorem resolve_accepted (pf : Platform) (r : Request) (h : ¬BookingOp.Refused w.db b)
    (c : Option Caller) : ∃ v w', (b.op.resolve pf r c).run noFault w = (.ok v, w') := by
  cases b with
  | list restaurantId date =>
    rw [BookingOp.Refused, not_or, not_exists] at h
    obtain ⟨u, hu⟩ := Option.ne_none_iff_exists'.1 h.1
    have hdate : optTextParam (given date) = .ok (given date) :=
      optTextParam_ok_iff.2 ⟨fun d hd => not_not.1 fun hbad => h.2 d ⟨hd, hbad⟩, rfl⟩
    change ∃ v w', ((bookingsByRestaurant r.plan restaurantId date).bind _).run noFault w = _
    rw [bookingsByRestaurant, run_select_bind, parseUuid_ok_iff.2 hu, hdate]
    exact ⟨_, _, rfl⟩
  | setStatus bookingId status =>
    obtain ⟨row, db', he⟩ := writeBookingStatus_accepted r.env h
    change ∃ v w', ((updateBookingStatus r.env bookingId status).bind _).run noFault w = _
    rw [updateBookingStatus, Prog.bind_eq, Prog.bind_assoc, run_dbWrite_bind, he]
    exact ⟨_, _, rfl⟩

/-- Only the strategies stand before the two operations: whoever they let through is served,
unless the database has nothing to give. -/
theorem bookingAccess_iff (pf : Platform) (r : Request) (b : BookingOp) (w : World) :
    StaffOnly pf r b w ↔
      (∀ c, callerOf pf r w.db = .ok c → ∃ u, c = .user u ∧ u.role.isStaff = true) ∨
        b.Refused w.db := by
  rw [StaffOnly, run_handle_plain pf r (by cases b <;> rfl)]
  cases hc : callerOf pf r w.db with
  | error e => simp
  | ok c =>
    by_cases hb : b.Refused w.db
    · obtain ⟨e, w', he, hsame⟩ := resolve_refused pf r hb (some c)
      simp [he, hsame, hb]
    · obtain ⟨v, w', he⟩ := resolve_accepted pf r hb (some c)
      dsimp only
      rw [he]
      constructor
      · intro h
        obtain ⟨u, _, hu, hstaff⟩ := h (.inl ⟨v, rfl⟩)
        refine .inl fun c' hc' => ⟨u, ?_, hstaff⟩
        cases hc'
        cases hu
        rfl
      · rintro (h | h) -
        · obtain ⟨u, rfl, hstaff⟩ := h c rfl
          exact ⟨u, callerOf_user_mem hc, rfl, hstaff⟩
        · exact absurd h hb

def guestRequest : Request where
  tokenCookie := none
  authorization := none
  guestCookie := some "payload.signature"
  guestHeader := none
  env := sampleEnv
  plan := .stored

/-- The sample restaurant with one booking. -/
def bookedTables : Tables :=
  { sampleTables with
    bookings := [⟨sampleId 6, sampleId 1, none, some "guest@dineflow.com", none, none, "2025-01-01",
      "19:00", 2, "PENDING", none, none, some 0, some 0⟩] }

theorem bookedTables_valid : bookedTables.Valid := by
  constructor <;> simp [bookedTables, sampleTables, UniqueKey, Refs, FitsNumeric]

def bookedWorld : World := ⟨⟨bookedTables, bookedTables_valid⟩, Redis.empty, Gateway.empty⟩

/-- A guest cancels somebody else's booking. -/
theorem bookingAccess_fails :
    ¬StaffOnly samplePlatform guestRequest (.setStatus (sampleId 6).text "CANCELLED")
      bookedWorld := by
  intro h
  have hcaller : callerOf samplePlatform guestRequest bookedWorld.db =
      .ok (.guest "g" (sampleId 2).text) := by
    decide +kernel
  have hserved : ∃ v, ((handle samplePlatform guestRequest
      (.updateBookingStatus (sampleId 6).text "CANCELLED")).run noFault bookedWorld).1 = .ok v := by
    rw [run_handle_plain _ _ rfl, hcaller]
    exact ⟨_, rfl⟩
  obtain ⟨u, _, hu, _⟩ := h (.inl hserved)
  rw [hcaller] at hu
  cases hu

end DineFlow
