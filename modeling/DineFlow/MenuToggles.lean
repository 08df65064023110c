import DineFlow.CartThreads
import DineFlow.Interference
import DineFlow.MenuEdits

namespace DineFlow
open Atomic Relational CartPhase
set_option autoImplicit true

/-- Whether the dish can be ordered, as the database has it; `none` if there is no such dish. -/
def availability (itemId : String) (db : Db) : Option Bool :=
  match itemById itemId db with
  | .ok row => row.map MenuItemRow.isAvailable
  | .error _ => none

/-- A value after `n` flips. -/
def flipped (n : Nat) (b : Bool) : Bool := b ^^ decide (n % 2 = 1)

theorem flipped_zero (b : Bool) : flipped 0 b = b := by
  cases b <;> rfl

theorem flipped_succ (n : Nat) (b : Bool) : flipped (n + 1) b = !flipped n b := by
  rw [flipped, flipped]
  rcases Nat.mod_two_eq_zero_or_one n with h | h
  · have hs : (n + 1) % 2 = 1 := by omega
    simp [h, hs]
  · have hs : (n + 1) % 2 = 0 := by omega
    simp [h, hs]

/-- The UPDATE of a toggle that read `row`, and what follows it. -/
def writeToggle (itemId : String) (row : MenuItemRow) : Api MenuItem := do
  let updated ← dbWrite .menuWrite (patchMenuItem itemId { isAvailable := some !row.isAvailable })
  invalidateMenuCache row.restaurantId.text
  answerRow updated

def checkToggle (itemId userId : String) (row : MenuItemRow) : Api MenuItem := do
  verifyKitchenOrManagerPermission userId
  writeToggle itemId row

theorem availability_patch (h : patchMenuItem itemId { isAvailable := some b } db = .ok r) :
    availability itemId r.2 = (availability itemId db).map fun _ => b := by
  rw [availability, availability, itemById, itemById]
  rw [patchMenuItem] at h
  cases hu : parseUuid itemId with
  | error e =>
    rw [hu] at h
    cases h
  | ok u =>
    rw [hu] at h
    obtain ⟨db', hi, rfl⟩ := map_ok h
    dsimp only [Except.map]
    rw [(Db.updateMenuItem_ok_iff.1 hi).2]
    dsimp only
    rw [lookup_updateWhere (by exact fun _ => rfl), if_pos rfl, Option.map_map, Option.map_map]
    rfl

theorem answerRow_keeps (row : Option MenuItemRow) : (answerRow row).Keeps World.db := by
  cases row <;> trivial

theorem afterToggle_keeps (restaurantId : String) (row : Option MenuItemRow) :
    ((invalidateMenuCache restaurantId).bind fun _ => answerRow row).Keeps World.db :=
  (invalidateMenuCache_keeps restaurantId).bind fun _ => answerRow_keeps row

/-- Where a toggle stands between two of its statements. -/
inductive TogglePhase where
  | read (userId : String)
  | check (userId : String) (row : MenuItemRow)
  | write (row : MenuItemRow)
  | written (p : Api MenuItem) (keeps : p.Keeps World.db)
  | failed (e : ApiError)

namespace TogglePhase

def prog (itemId : String) : TogglePhase → Api MenuItem
  | .read userId => toggleAvailability itemId userId
  | .check userId row => checkToggle itemId userId row
  | .write row => writeToggle itemId row
  | .written p _ => p
  | .failed e => .throw e

/-- The row that the call has read and is going to use. -/
def row? : TogglePhase → Option MenuItemRow
  | .check _ row | .write row => some row
  | _ => none

def hasWritten : TogglePhase → Bool
  | .written _ _ => true
  | _ => false

end TogglePhase

/-- One statement of a toggle: the phase and the world it takes the call to. -/
inductive ToggleTurn (itemId : String) :
    TogglePhase → World → Site → TogglePhase → World → Prop
  | found (h : itemById itemId w.db = .ok (some row)) :
      ToggleTurn itemId (.read userId) w .menuItemRow (.check userId row) w
  | cleared : ToggleTurn itemId (.check userId row) w .menuRole (.write row) w
  | stored (h : patchMenuItem itemId { isAvailable := some !row.isAvailable } w.db = .ok r)
      (hp : Prog.Keeps World.db p) :
      ToggleTurn itemId (.write row) w .menuWrite (.written p hp) { w with db := r.2 }
  | refused (hph : ph.hasWritten = false) (e : ApiError) : ToggleTurn itemId ph w site (.failed e) w
  | rest (hp : Prog.Keeps World.db p) (hp' : Prog.Keeps World.db p') (hdb : w'.db = w.db) :
      ToggleTurn itemId (.written p hp) w site (.written p' hp') w'

section Phases

variable {itemId : String} {w : World}

theorem TogglePhase.read_turn
    (h : Prog.next (toggleAvailability itemId userId) = some (site, act)) :
    ∃ ph', ToggleTurn itemId (.read userId) w site ph' (act w).2 ∧ (act w).1 = ph'.prog itemId := by
  rw [toggleAvailability, existingItem, Prog.bind_eq, Prog.bind_eq, Prog.bind_assoc,
    next_select_bind] at h
  cases h
  dsimp only
  cases hr : itemById itemId w.db with
  | error e => exact ⟨.failed _, .refused rfl _, rfl⟩
  | ok row =>
    cases row with
    | none => exact ⟨.failed _, .refused rfl _, rfl⟩
    | some row => exact ⟨.check userId row, .found hr, rfl⟩

theorem TogglePhase.check_turn
    (h : Prog.next (checkToggle itemId userId row) = some (site, act)) :
    ∃ ph', ToggleTurn itemId (.check userId row) w site ph' (act w).2 ∧
      (act w).1 = ph'.prog itemId := by
  rw [checkToggle, verifyKitchenOrManagerPermission, verifyRole, Prog.bind_eq, Prog.bind_eq,
    Prog.bind_assoc, next_select_bind] at h
  cases h
  dsimp only
  cases userById userId w.db with
  | error e => exact ⟨.failed _, .refused rfl _, rfl⟩
  | ok user =>
    cases user with
    | none => exact ⟨.failed _, .refused rfl _, rfl⟩
    | some u =>
      dsimp only
      split
      · exact ⟨.write row, .cleared, rfl⟩
      · exact ⟨.failed _, .refused rfl _, rfl⟩

theorem TogglePhase.write_turn (h : Prog.next (writeToggle itemId row) = some (site, act)) :
    ∃ ph', ToggleTurn itemId (.write row) w site ph' (act w).2 ∧ (act w).1 = ph'.prog itemId := by
  rw [writeToggle, Prog.bind_eq, next_dbWrite_bind] at h
  cases h
  dsimp only
  cases hr : patchMenuItem itemId { isAvailable := some !row.isAvailable } w.db with
  | error e => exact ⟨.failed _, .refused rfl _, rfl⟩
  | ok r => exact ⟨.written _ (afterToggle_keeps _ _), .stored hr _, rfl⟩

theorem TogglePhase.written_turn {p : Api MenuItem} (hp : p.Keeps World.db) (fails : Bool)
    (h : (if fails then Prog.failing else Prog.next) p = some (site, act)) :
    ∃ ph', ToggleTurn itemId (.written p hp) w site ph' (act w).2 ∧
      (act w).1 = ph'.prog itemId := by
  cases p with
  | ret => cases fails <;> cases h
  | throw => cases fails <;> cases h
  | stmt i u k z =>
    obtain ⟨hu, hk, hz⟩ := id hp
    cases fails with
    | true =>
      cases h
      exact ⟨.written z hz, .rest hp hz rfl, rfl⟩
    | false =>
      cases h
      exact ⟨.written (k w) (hk w), .rest hp (hk w) (hu w), rfl⟩

/-- What a statement of a toggle can do. -/
theorem TogglePhase.turn_cases (ph : TogglePhase) (fails : Bool)
    (h : (if fails then Prog.failing else Prog.next) (ph.prog itemId) = some (site, act)) :
    ∃ ph', ToggleTurn itemId ph w site ph' (act w).2 ∧ (act w).1 = ph'.prog itemId := by
  cases ph with
  | written p hp => exact written_turn hp fails h
  | failed e => cases fails <;> cases h
  | read userId =>
    cases fails with
    | false => exact read_turn h
    | true =>
      cases h
      exact ⟨.failed _, .refused rfl _, rfl⟩
  | check userId row =>
    cases fails with
    | false => exact check_turn h
    | true =>
      cases h
      exact ⟨.failed _, .refused rfl _, rfl⟩
  | write row =>
    cases fails with
    | false => exact write_turn h
    | true =>
      cases h
      exact ⟨.failed _, .refused rfl _, rfl⟩

end Phases

/-- Several toggles of one dish that have just come in, one for each user. -/
def togglesPool (itemId : String) (users : List String) (w : World) :
    Pool (Api MenuItem) Site World :=
  ⟨w, users.map (toggleAvailability itemId), []⟩

/-- Whether a call has ended with its dish. -/
def hasReturned (t : Api MenuItem) : Bool :=
  match t.result with
  | some (.ok _) => true
  | _ => false

/-- A toggle executes its UPDATE only if no other one has since it read the dish. -/
def ReadIsFresh (p : Pool (Api MenuItem) Site World) (t : Nat × Bool) : Prop :=
  p.nextSite Prog.next t.1 = some .menuWrite →
    Pool.Quiet p.log .menuItemRow (· = .menuWrite) t.1

instance ReadIsFresh.decide (p : Pool (Api MenuItem) Site World) (t : Nat × Bool) :
    Decidable (ReadIsFresh p t) :=
  inferInstanceAs (Decidable (p.nextSite Prog.next t.1 = some .menuWrite → _))

/-- A call that has read the dish still knows its availability, unless another one has written. -/
def SawAvailability (itemId : String) (p : Pool (Api MenuItem) Site World) (i : Nat)
    (row : MenuItemRow) : Prop :=
  (i, .menuItemRow) ∈ p.log ∧ (Pool.Quiet p.log .menuItemRow (· = .menuWrite) i →
    availability itemId p.state.db = some row.isAvailable)

/-- Along a run: the availability has been flipped once by every call that has written. -/
structure Flips (itemId : String) (w : World) (phs : List TogglePhase)
    (p : Pool (Api MenuItem) Site World) : Prop where
  threads : p.threads = phs.map (TogglePhase.prog itemId)
  value : availability itemId p.state.db =
    (availability itemId w.db).map (flipped (phs.countP TogglePhase.hasWritten))
  saw : ∀ (i : Nat) ph row, phs[i]? = some ph → ph.row? = some row → SawAvailability itemId p i row

theorem ToggleTurn.availability (h : ToggleTurn itemId ph w site ph' w') (hs : site ≠ .menuWrite) :
    availability itemId w'.db = availability itemId w.db := by
  cases h with
  | found => rfl
  | cleared => rfl
  | stored => exact absurd rfl hs
  | refused => rfl
  | rest _ _ hdb => rw [hdb]

theorem ToggleTurn.saw (h : ToggleTurn itemId ph p.state site ph' w') (hrow : ph'.row? = some row)
    (hp : ∀ row, ph.row? = some row → SawAvailability itemId p i row) :
    SawAvailability itemId ⟨w', ts, p.log ++ [(i, site)]⟩ i row := by
  cases h with
  | found h =>
    cases hrow
    refine ⟨List.mem_append_right _ List.mem_cons_self, fun _ => ?_⟩
    rw [DineFlow.availability, h]
    rfl
  | cleared =>
    cases hrow
    obtain ⟨hlog, hsaw⟩ := hp row rfl
    exact ⟨List.mem_append_left _ hlog, fun hq => hsaw hq.of_snoc⟩
  | stored => cases hrow
  | refused => cases hrow
  | rest => cases hrow

theorem SawAvailability.other (h : SawAvailability itemId p j row) (hij : i ≠ j)
    (hturn : ToggleTurn itemId ph p.state site ph' w') :
    SawAvailability itemId ⟨w', ts, p.log ++ [(i, site)]⟩ j row := by
  refine ⟨List.mem_append_left _ h.1, fun hq => ?_⟩
  rw [hturn.availability (hq.last h.1 hij)]
  exact h.2 hq.of_snoc

theorem ToggleTurn.value (h : ToggleTurn itemId ph p.state site ph' w') (hi : phs[i]? = some ph)
    (hp : Flips itemId w phs p)
    (hfresh : site = .menuWrite → Pool.Quiet p.log .menuItemRow (· = .menuWrite) i) :
    DineFlow.availability itemId w'.db = (DineFlow.availability itemId w.db).map
      (flipped ((phs.set i ph').countP TogglePhase.hasWritten)) := by
  obtain ⟨hlt, he⟩ := List.getElem?_eq_some_iff.1 hi
  rw [List.countP_set hlt, he]
  cases h with
  | found => exact hp.value
  | cleared => exact hp.value
  | refused hph =>
    rw [hph]
    exact hp.value
  | rest _ _ hdb =>
    have hpos : 0 < phs.countP TogglePhase.hasWritten :=
      List.countP_pos_iff.2 ⟨_, List.mem_of_getElem? hi, rfl⟩
    have hcount : phs.countP TogglePhase.hasWritten - 1 + 1 =
        phs.countP TogglePhase.hasWritten := Nat.sub_add_cancel hpos
    rw [hdb]
    simp only [TogglePhase.hasWritten, if_true, hcount]
    exact hp.value
  | stored h hq =>
    have hold := (hp.saw i _ _ hi rfl).2 (hfresh rfl)
    have hnew := availability_patch h
    -- the value that was read is the one that is stored, so the UPDATE is a flip
    rw [hnew, hold]
    have hval := hp.value
    rw [hold] at hval
    obtain ⟨b, hb, hbv⟩ := Option.map_eq_some_iff.1 hval.symm
    simp only [hb, TogglePhase.hasWritten, Option.map_some, Bool.false_eq_true, if_false, if_true,
      Nat.sub_zero, flipped_succ, hbv]

theorem Flips.turn (h : Flips itemId w phs p) (hok : ReadIsFresh p t) :
    ∃ phs', phs'.length = phs.length ∧ Flips itemId w phs' (p.turn t) := by
  obtain ⟨i, fails⟩ := t
  obtain he | ⟨q, site, act, hq, hn, -, he⟩ :=
    Pool.step_cases (if fails then Prog.failing else Prog.next) p i
  · rw [Pool.turn, he]
    exact ⟨phs, rfl, h⟩
  · have hsite : p.nextSite Prog.next i = some site := by
      rw [Pool.nextSite, hq]
      exact Prog.nextSite_of_turn hn
    rw [h.threads, List.getElem?_map] at hq
    obtain ⟨ph, hph, rfl⟩ := Option.map_eq_some_iff.1 hq
    obtain ⟨ph', hturn, hprog⟩ := ph.turn_cases (w := p.state) fails hn
    rw [Pool.turn, he, hprog]
    refine ⟨phs.set i ph', List.length_set, ?_, ?_, ?_⟩
    · rw [h.threads, List.map_set]
    · exact hturn.value hph h fun hw => hok (hw ▸ hsite)
    · intro j phj row hj hrow
      rcases Pool.of_getElem?_set hj with ⟨rfl, rfl⟩ | ⟨hij, hj⟩
      · exact hturn.saw hrow fun row => h.saw i ph row hph
      · exact (h.saw j phj row hj hrow).other hij hturn

theorem flips_start (itemId : String) (users : List String) (w : World) :
    Flips itemId w (users.map .read) (togglesPool itemId users w) where
  threads := by
    rw [List.map_map]
    rfl
  value := by
    have hnone : (users.map TogglePhase.read).countP TogglePhase.hasWritten = 0 := by
      rw [List.countP_map, List.countP_eq_zero]
      exact fun _ _ h => by cases h
    have hid : flipped 0 = id := funext flipped_zero
    rw [hnone, hid, Option.map_id]
    rfl
  saw := by
    intro i ph row hi hrow
    rw [List.getElem?_map] at hi
    obtain ⟨userId, -, rfl⟩ := Option.map_eq_some_iff.1 hi
    cases hrow

theorem flips_runs (h : Guarded Pool.turn ReadIsFresh p ts) (hp : Flips itemId w phs p) :
    ∃ phs', phs'.length = phs.length ∧ Flips itemId w phs' (runs Pool.turn p ts) := by
  induction ts generalizing p phs with
  | nil => exact ⟨phs, rfl, hp⟩
  | cons t ts ih =>
    obtain ⟨phs₁, hl₁, hp₁⟩ := hp.turn h.1
    obtain ⟨phs₂, hl₂, hp₂⟩ := ih h.2 hp₁
    exact ⟨phs₂, hl₂.trans hl₁, hp₂⟩

theorem TogglePhase.hasWritten_of_returned {ph : TogglePhase}
    (h : hasReturned (ph.prog itemId) = true) : ph.hasWritten = true := by
  cases ph with
  | read => cases h
  | check => cases h
  | write => cases h
  | written => rfl
  | failed => cases h

/-- Toggles that do not overlap between their read and their write flip the availability once
each. -/
theorem toggles_parity (itemId : String) (users : List String) (w : World)
    (ts : List (Nat × Bool))
    (hfresh : Guarded Pool.turn ReadIsFresh (togglesPool itemId users w) ts)
    (hok : ∀ t ∈ (runs Pool.turn (togglesPool itemId users w) ts).threads, hasReturned t = true) :
    availability itemId (runs Pool.turn (togglesPool itemId users w) ts).state.db =
      (availability itemId w.db).map (flipped users.length) := by
  obtain ⟨phs, hlength, h⟩ := flips_runs hfresh (flips_start itemId users w)
  have hall : ∀ ph ∈ phs, ph.hasWritten = true := by
    intro ph hph
    have hmem := List.mem_map_of_mem (f := TogglePhase.prog itemId) hph
    rw [← h.threads] at hmem
    exact TogglePhase.hasWritten_of_returned (hok _ hmem)
  rw [h.value, List.countP_eq_length.2 hall, hlength, List.length_map]

/-- The dish of the sample database, toggled by its manager twice. -/
def sampleToggles : Pool (Api MenuItem) Site World :=
  togglesPool (sampleId 4).text [(sampleId 5).text, (sampleId 5).text] sampleWorld

theorem toggles_parity_sample :
    Guarded Pool.turn ReadIsFresh sampleToggles
      [(0, false), (0, false), (0, false), (1, false), (1, false), (1, false), (0, false),
        (1, false)] ∧
    availability (sampleId 4).text (runs Pool.turn sampleToggles
      [(0, false), (0, false), (0, false), (1, false), (1, false), (1, false), (0, false),
        (1, false)]).state.db =
      (availability (sampleId 4).text sampleWorld.db).map (flipped 2) := by
  have hfresh : Guarded Pool.turn ReadIsFresh sampleToggles
      [(0, false), (0, false), (0, false), (1, false), (1, false), (1, false), (0, false),
        (1, false)] := by decide +kernel
  exact ⟨hfresh, toggles_parity _ _ _ _ hfresh (by decide +kernel)⟩

/-- Both calls read the dish before either writes: it is switched off and stays off. -/
theorem toggles_collide :
    (runs Pool.turn sampleToggles [(0, false), (1, false), (0, false), (0, false), (0, false),
      (1, false), (1, false), (1, false)]).threads.map hasReturned = [true, true] ∧
    availability (sampleId 4).text sampleWorld.db = some true ∧
    availability (sampleId 4).text (runs Pool.turn sampleToggles
      [(0, false), (1, false), (0, false), (0, false), (0, false), (1, false), (1, false),
        (1, false)]).state.db = some false ∧
    (availability (sampleId 4).text sampleWorld.db).map (flipped 2) = some true := by
  decide +kernel

end DineFlow
