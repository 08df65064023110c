import DineFlow.ApiSteps
import DineFlow.CartKeys
import DineFlow.StaffRows

namespace DineFlow
open Atomic Relational
set_option autoImplicit true

def userCartKey (userId : String) : String := "user:cart:" ++ userId

/-- No cart of a user has a time to live. -/
def Lasting (redis : Redis) : Prop :=
  ∀ userId e, redis.get (userCartKey userId) = some e → e.expiresAt = none

theorem Lasting.filter (h : Lasting redis) (keep : String → Bool) :
    Lasting ⟨redis.entries.filter fun p => keep p.1⟩ := by
  intro userId e he
  rw [Redis.get_filter] at he
  split at he
  · exact h userId e he
  · cases he

theorem Lasting.set (h : Lasting redis) (hk : ∀ userId, key = userCartKey userId → t = none)
    (v : Cached) : Lasting (redis.set key ⟨v, t⟩) := by
  intro userId e he
  by_cases hu : userCartKey userId = key
  · rw [hu, Redis.get_set_same] at he
    cases he
    exact hk userId hu.symm
  · rw [Redis.get_set_other _ _ hu] at he
    exact h userId e he

theorem Lasting.get_pass (h : Lasting redis) (now : Nat) (userId : String) :
    (redis.pass now).get (userCartKey userId) = redis.get (userCartKey userId) := by
  rw [Redis.get_pass]
  cases he : redis.get (userCartKey userId) with
  | none => rfl
  | some e =>
    rw [Option.filter_some, if_pos]
    rw [Entry.live, h userId e he]
    rfl

theorem Lasting.pass (h : Lasting redis) (now : Nat) : Lasting (redis.pass now) := by
  intro userId e he
  rw [h.get_pass] at he
  exact h userId e he

theorem userCartKey_not_menu (userId : String) : ¬IsMenuKey (userCartKey userId) := by
  rintro ⟨t, h⟩
  have hl := congrArg String.toList h
  rw [userCartKey, String.toList_append, String.toList_append] at hl
  exact absurd (List.cons.inj hl).1 (by decide)

/-- What a step has to keep. -/
def LastingMove (w w' : World) : Prop := Lasting w.redis → Lasting w'.redis

theorem LastingMove.refl (w : World) : LastingMove w w := id

theorem LastingMove.trans (h : LastingMove w w') (h' : LastingMove w' w'') : LastingMove w w'' :=
  fun hw => h' (h hw)

theorem lastingMove_set (hplain : given userId = none ∨ given guestId = none) (now : Nat)
    (w : World) (v : Cached) (hk : cartKey userId guestId = some key) :
    LastingMove w
      { w with redis := w.redis.set key ⟨v, (cartTtl guestId).map (expiry now)⟩ } := by
  refine fun hw => hw.set ?_ v
  rintro user rfl
  rw [cartTtl]
  rcases hplain with hu | hg
  · rw [cartKey, hu] at hk
    cases hg : given guestId with
    | none => rfl
    | some g =>
      rw [hg] at hk
      exact absurd (Option.some.inj hk).symm (userKey_ne_guestKey _ _)
  · rw [hg]
    rfl

theorem MenuStep.lasting (h : MenuStep w w') : LastingMove w w' := by
  cases h with
  | drop keys => exact fun hw => hw.filter fun k => k ∉ keys
  | refl => exact .refl w
  | change => exact .refl w

theorem PlaceStep.lasting (h : PlaceStep w w') : LastingMove w w' := by
  cases h with
  | clear key => exact fun hw => hw.filter fun k => k ≠ key
  | refl => exact .refl w
  | order => exact .refl w
  | line => exact .refl w
  | emit => exact .refl w

theorem FillStep.lasting (h : FillStep w w') : LastingMove w w' := by
  cases h with
  | refl => exact .refl w
  | fill hkey v hv t =>
    refine fun hw => hw.set ?_ v
    rintro userId rfl
    exact absurd hkey (userCartKey_not_menu userId)

def Operation.EditsCart : Operation → Prop
  | .addToCart _ | .removeFromCart _ => True
  | _ => False

/-- Whatever the operation is, it gives no time to live to a user's cart, unless it stores one in
a request that also names a guest. -/
theorem Operation.resolve_lasting (pf : Platform) (r : Request) (caller : Option Caller)
    (op : Operation)
    (h : op.EditsCart → given (caller.bind Caller.id) = none ∨ given r.guestId = none) :
    (op.resolve pf r caller).Within LastingMove := by
  have hstep (hop : ∀ w w', op.Step w w' → LastingMove w w') :
      (op.resolve pf r caller).Within LastingMove :=
    (op.resolve_step pf r caller).mono hop
  cases op
  case addToCart input =>
    exact (addToCart_within .refl r.env input fun w _ v hk =>
      lastingMove_set (h trivial) _ w v hk).bind fun _ => trivial
  case removeFromCart menuItemId =>
    exact (removeFromCart_within .refl r.env menuItemId fun w _ v hk =>
      lastingMove_set (h trivial) _ w v hk).bind fun _ => trivial
  case clearCart =>
    exact (clearCart_within .refl fun w key _ hw => hw.filter fun k => k ≠ key).bind
      fun _ => trivial
  case createMenuItem | updateMenuItem | deleteMenuItem | toggleMenuItemAvailability =>
    exact hstep fun _ _ => MenuStep.lasting
  case placeOrder => exact hstep fun _ _ => PlaceStep.lasting
  case menu | menuItemsByTable => exact hstep fun _ _ => FillStep.lasting
  all_goals
    refine hstep fun w w' hs => ?_
    cases hs <;> exact .refl _

/-- What happens: a request, with the statements that fail in it, or time goes on. -/
inductive TimedEvent where
  | request (r : Request) (op : Operation) (fault : Site → Bool)
  | pass (now : Nat)

def TimedEvent.step (pf : Platform) (w : World) : TimedEvent → World
  | .request r op fault => ((handle pf r op).run fault w).2
  | .pass now => { w with redis := w.redis.pass now }

/-- A request that changes the cart of a user carries no guest token. -/
def TimedEvent.Plain (pf : Platform) : TimedEvent → Prop
  | .request r op _ => op.EditsCart → (r.subject pf).isSome → given r.guestId = none
  | .pass _ => True

theorem TimedEvent.step_lasting {e : TimedEvent} (he : e.Plain pf) (hw : Lasting w.redis) :
    Lasting (TimedEvent.step pf w e).redis := by
  cases e with
  | pass now => exact hw.pass now
  | request r op fault =>
    have hreads := (guards_keeps pf op.route r).within LastingMove.refl
    have hhandle : (handle pf r op).Within LastingMove := by
      refine hreads.bind_returns (guards_subject pf r op.route) fun caller hcaller => ?_
      refine op.resolve_lasting pf r caller fun hop => ?_
      cases caller with
      | none => exact .inl rfl
      | some c =>
        cases c with
        | guest => exact .inl rfl
        | user u => exact .inr (he hop (by rw [hcaller u rfl]; rfl))
    exact hhandle.run .refl .trans fault w hw

/-- In a run whose requests are a user's or a guest's, but not both, no cart of a user ever has a
time to live, and time takes nothing from it. -/
theorem userCarts_last (pf : Platform) (w : World) (hw : Lasting w.redis)
    (events : List TimedEvent) (h : ∀ e ∈ events, e.Plain pf) :
    let redis := (runs (TimedEvent.step pf) w events).redis
    Lasting redis ∧ ∀ now userId,
      (redis.pass now).get (userCartKey userId) = redis.get (userCartKey userId) := by
  have hlast : Lasting (runs (TimedEvent.step pf) w events).redis :=
    runs_keep_of (I := fun w : World => Lasting w.redis) h hw
      fun _ _ hw he => TimedEvent.step_lasting he hw
  exact ⟨hlast, fun now userId => hlast.get_pass now userId⟩

/-- The manager puts a dish into the cart, from a device that has a guest token or not. -/
def addFromDevice (guestId : Option String) : TimedEvent :=
  .request (fromDevice (sampleId 5) guestId) (.addToCart ⟨(sampleId 4).text, 1, none⟩) noFault

/-- The manager comes back to the cart after an hour. -/
def addAndReturn : List TimedEvent := [addFromDevice none, .pass 3600000, addFromDevice none]

theorem userCarts_last_sample :
    (runs (TimedEvent.step trustingPlatform) sampleWorld addAndReturn).redis.entries.length = 1 ∧
      Lasting (runs (TimedEvent.step trustingPlatform) sampleWorld addAndReturn).redis := by
  refine ⟨by decide +kernel, (userCarts_last trustingPlatform sampleWorld ?_ addAndReturn ?_).1⟩
  · intro userId e he
    cases he
  · exact List.forall_mem_cons.2 ⟨fun _ _ => rfl, List.forall_mem_cons.2 ⟨trivial,
      List.forall_mem_singleton.2 fun _ _ => rfl⟩⟩

/-- With a guest token in the same request, the cart of the user gets the time to live of a
guest's cart. -/
theorem userCart_expires :
    Lasting sampleWorld.redis ∧
      ¬Lasting (runs (TimedEvent.step trustingPlatform) sampleWorld
        [addFromDevice (some "g")]).redis := by
  constructor
  · intro userId e he
    cases he
  intro h
  have hget : ((runs (TimedEvent.step trustingPlatform) sampleWorld
      [addFromDevice (some "g")]).redis.get (userCartKey (sampleId 5).text)).map Entry.expiresAt =
        some (some 900000) := by
    decide +kernel
  obtain ⟨e, he, ht⟩ := Option.map_eq_some_iff.1 hget
  rw [h _ e he] at ht
  cases ht

end DineFlow
