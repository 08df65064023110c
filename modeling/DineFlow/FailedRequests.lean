import DineFlow.Effects
import DineFlow.Erasure

namespace DineFlow
open Atomic Relational
set_option autoImplicit true

/-- The operations that write at most once and are not refused after that. A placement writes
several rows, a status update and the changes of the menu can fail once they have written. -/
def Operation.writesOnce : Operation → Bool
  | .placeOrder _ | .updateOrderStatus _ _ | .createMenuItem _ | .updateMenuItem _
  | .deleteMenuItem _ | .toggleMenuItemAvailability _ => false
  | _ => true

theorem allOrNothing_of_keeps {p : Api α} {g : α → Api β} (h : p.Keeps id)
    (hg : ∀ a, (g a).AllOrNothing Eq) : (p.bind g).AllOrNothing Eq :=
  Prog.Within.bind_allOrNothing (h.within fun _ => rfl) hg

theorem setCachedObject_sure (site : Site) (now : Nat) (key : String) (v : Cached)
    (ttl : Option Nat) : (setCachedObject site now key v ttl).Sure :=
  ⟨fun _ => trivial, trivial⟩

theorem storeCart_allOrNothing (env : Env) (key : String) (guestId : Option String)
    (cart : Except ApiError Cart) : (storeCart env key guestId cart).AllOrNothing Eq := by
  refine allOrNothing_of_keeps (Prog.within_ofExcept _ cart) fun cart => ?_
  refine allOrNothing_of_keeps (calculateCartTotalAmount_keeps cart) fun total => ?_
  refine Prog.Sure.allOrNothing ?_
  exact (setCachedObject_sure _ _ _ _ _).bind fun _ => trivial

theorem addToCart_allOrNothing (env : Env) (input : AddToCartInput)
    (userId guestId : Option String) :
    (addToCart env input userId guestId).AllOrNothing Eq := by
  refine allOrNothing_of_keeps (Prog.within_ofExcept _ _) fun key => ?_
  refine allOrNothing_of_keeps (keeps_select _ _) fun row => ?_
  cases row with
  | none => trivial
  | some row =>
    exact allOrNothing_of_keeps (keeps_getCachedObject _ _) fun cached =>
      storeCart_allOrNothing _ _ _ _

theorem removeFromCart_allOrNothing (env : Env) (menuItemId : String)
    (userId guestId : Option String) :
    (removeFromCart env menuItemId userId guestId).AllOrNothing Eq := by
  refine allOrNothing_of_keeps (Prog.within_ofExcept _ _) fun key => ?_
  exact allOrNothing_of_keeps (keeps_getCachedObject _ _) fun cached =>
    storeCart_allOrNothing _ _ _ _

theorem getMenuByTableId_allOrNothing (env : Env) (plan : RowOrder) (tableId : String) :
    (getMenuByTableId env plan tableId).AllOrNothing Eq := by
  refine allOrNothing_of_keeps (keeps_getCachedObject _ _) fun cached => ?_
  cases cached with
  | some c => exact allOrNothing_of_keeps (Prog.within_ofExcept _ _) fun _ => trivial
  | none =>
    refine allOrNothing_of_keeps (loadMenu_keeps plan tableId) fun m => ?_
    refine Prog.Sure.allOrNothing ?_
    exact (setCachedObject_sure _ _ _ _ _).bind fun _ => trivial

theorem findByTable_allOrNothing (env : Env) (plan : RowOrder) (tableId : String) :
    (findByTable env plan tableId).AllOrNothing Eq := by
  refine allOrNothing_of_keeps (keeps_getCachedObject _ _) fun cached => ?_
  cases cached with
  | some c => exact allOrNothing_of_keeps (Prog.within_ofExcept _ _) fun _ => trivial
  | none =>
    refine allOrNothing_of_keeps (loadItems_keeps plan tableId) fun rows => ?_
    refine Prog.Sure.allOrNothing ?_
    exact (setCachedObject_sure _ _ _ _ _).bind fun _ => trivial

theorem register_allOrNothing (pf : Platform) (env : Env) (input : RegisterInput) :
    (register pf env input).AllOrNothing Eq := by
  refine allOrNothing_of_keeps (Prog.keeps_query _ _ _ _) fun existing => ?_
  cases existing with
  | some u => trivial
  | none => exact Prog.allOrNothing_exec (fun _ => rfl) _ _ _

theorem Db.eq_of_tables {db db' : Db} (h : db'.toTables = db.toTables) : db = db' := by
  cases db
  cases db'
  cases h
  rfl

theorem allOrNothing_update {act : Db → Except DbError (Option ρ × Db)}
    (h : ∀ db r, act db = .ok r → r.1 = none → r.2.toTables = db.toTables) (e : ApiError) :
    (do let updated ← dbWrite site act
        orElse updated e : Api ρ).AllOrNothing Eq := by
  refine Prog.allOrNothing_exec_bind (fun _ => rfl) _ (fun w r hr => ?_) fun _ hz => by cases hz
  obtain ⟨r', hr', rfl⟩ := map_ok hr
  have hnext : (orElse r'.1 e).Sure ∨ r'.1 = none := by
    cases r'.1 with
    | some row => exact .inl trivial
    | none => exact .inr rfl
  rcases hnext with hsure | hnone
  · exact .inr hsure
  · refine .inl ⟨?_, Prog.Within.allOrNothing (within_orElse _ _)⟩
    rw [← Db.eq_of_tables (h _ _ (mapError_ok hr') hnone)]

theorem updateWhere_unmet [DecidableEq κ] {key : ρ → κ} {g : ρ → ρ}
    (hg : ∀ r, key (g r) = key r) (h : lookup key k (updateWhere key k g rows) = none) :
    updateWhere key k g rows = rows := by
  rw [lookup_updateWhere hg, if_pos rfl, Option.map_eq_none_iff] at h
  apply updateWhere_absent
  intro r hr
  simpa using List.find?_eq_none.1 h r hr

theorem updateProfile_allOrNothing (env : Env) (userId : Option String)
    (input : UpdateProfileInput) : (updateProfile env userId input).AllOrNothing Eq := by
  apply allOrNothing_update
  intro db r h hnone
  unfold writeProfile at h
  split at h
  · cases h
    rfl
  · split at h
    · cases h
    · rename_i k _
      split at h
      · cases h
      · obtain ⟨db', hdb, rfl⟩ := map_ok h
        have ht := Db.updateUser_ok hdb
        dsimp only at hnone ⊢
        rw [ht] at hnone ⊢
        rw [updateWhere_unmet (ProfilePatch.apply_id _) hnone]

theorem updateBookingStatus_allOrNothing (env : Env) (bookingId status : String) :
    (updateBookingStatus env bookingId status).AllOrNothing Eq := by
  apply allOrNothing_update
  intro db r h hnone
  rw [writeBookingStatus] at h
  split at h
  · cases h
  · rename_i k _
    obtain ⟨db', hdb, rfl⟩ := map_ok h
    have ht := Db.updateBooking_ok hdb
    dsimp only at hnone ⊢
    rw [ht] at hnone ⊢
    rw [updateWhere_unmet (g := BookingRow.setStatus status env.now) (fun _ => rfl) hnone]

/-- A resolver of these operations that throws has changed nothing. -/
theorem resolve_allOrNothing (pf : Platform) (r : Request) (caller : Option Caller)
    {op : Operation} (hop : op.writesOnce = true) :
    (op.resolve pf r caller).AllOrNothing Eq := by
  have hstep := op.resolve_step pf r caller
  have hread (h : (op.resolve pf r caller).Within ReadStep) :
      (op.resolve pf r caller).AllOrNothing Eq := by
    refine Prog.Within.allOrNothing (h.mono fun w w' hs => ?_)
    cases hs
    rfl
  cases op
  case placeOrder | updateOrderStatus | createMenuItem | updateMenuItem | deleteMenuItem
    | toggleMenuItemAvailability => cases hop
  case register input =>
    exact (register_allOrNothing pf r.env input).bind_sure fun _ => trivial
  case updateProfile input =>
    exact (updateProfile_allOrNothing _ _ _).bind_sure fun _ => trivial
  case createBooking input =>
    exact (Prog.allOrNothing_exec (fun _ => rfl) _ _ _).bind_sure fun _ => trivial
  case updateBookingStatus bookingId status =>
    exact (updateBookingStatus_allOrNothing _ _ _).bind_sure fun _ => trivial
  case addToCart input => exact (addToCart_allOrNothing _ _ _ _).bind_sure fun _ => trivial
  case removeFromCart menuItemId =>
    exact (removeFromCart_allOrNothing _ _ _ _).bind_sure fun _ => trivial
  case clearCart =>
    refine Prog.AllOrNothing.bind_sure ?_ fun _ => trivial
    exact allOrNothing_of_keeps (Prog.within_ofExcept _ _) fun key =>
      Prog.allOrNothing_exec (fun _ => rfl) _ _ _
  case menu tableId => exact (getMenuByTableId_allOrNothing _ _ _).bind_sure fun _ => trivial
  case menuItemsByTable tableId => exact (findByTable_allOrNothing _ _ _).bind_sure fun _ => trivial
  all_goals exact hread hstep

theorem handle_allOrNothing (pf : Platform) (r : Request) {op : Operation}
    (hop : op.writesOnce = true) : (handle pf r op).AllOrNothing Eq :=
  allOrNothing_of_keeps (guards_keeps pf op.route r) fun caller =>
    resolve_allOrNothing pf r caller hop

/-- The request with this index writes at most once, and has ended with an error. -/
def failedAt (calls : List (Request × Operation)) (p : Pool (Api Response) Site World) (i : Nat) :
    Bool :=
  (calls[i]?.any fun c => c.2.writesOnce) && p.threads[i]?.any Prog.threw

/-- However requests interleave, any of those that write at most once and have failed are as if they
had never been made: without their turns the others get the same answers, and all is left the
same. -/
theorem failed_requests_leave_no_trace (pf : Platform) (calls : List (Request × Operation))
    (ops : List SocketOp) (w : World) (turns : List (Nat × Bool)) (dropped : Nat → Bool) :
    let p := runs Pool.turn (serveLive pf calls ops w) turns
    let gone := fun i => dropped i && failedAt calls p i
    let q := runs Pool.turn (serveLive pf calls ops w) (turns.filter fun t => !gone t.1)
    p.state = q.state ∧ ∀ i, gone i = false → p.threads[i]? = q.threads[i]? := by
  intro p gone q
  suffices halike : Pool.Alike Eq (fun i => !gone i) p q from
    ⟨halike.state, fun i hi => halike.threads i (by rw [hi]; rfl)⟩
  refine Pool.runs_erase (E := Eq) (fun _ _ => Eq.symm) (fun _ _ _ => Eq.trans) turns
    ⟨rfl, fun _ _ => rfl⟩ (fun _ t _ _ => Prog.blind_eq t) fun i t hi ht => ?_
  have hgone : gone i = true := by simpa using hi
  have hfailed : failedAt calls p i = true := (Bool.and_eq_true _ _ ▸ hgone).2
  rw [failedAt, Bool.and_eq_true] at hfailed
  obtain ⟨hcall, hthrow⟩ := hfailed
  refine .inr ⟨?_, ?_⟩
  · cases hc : calls[i]? with
    | none =>
      rw [hc] at hcall
      cases hcall
    | some c =>
      rw [hc] at hcall
      have hthread : (serveLive pf calls ops w).threads[i]? = some (handle pf c.1 c.2) := by
        rw [serveLive, List.getElem?_append_left, List.getElem?_map, hc]
        · rfl
        · rw [List.length_map]
          exact (List.getElem?_eq_some_iff.1 hc).1
      rw [hthread] at ht
      cases ht
      exact handle_allOrNothing pf c.1 hcall
  · obtain ⟨x, hx, hthrew⟩ := (Option.any_eq_true _ _).1 hthrow
    obtain ⟨e, rfl⟩ := Prog.eq_throw_of_threw hthrew
    exact ⟨e, hx⟩

end DineFlow
