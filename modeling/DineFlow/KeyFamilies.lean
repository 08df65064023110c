import DineFlow.CartKeys
import DineFlow.ServiceRules

namespace DineFlow
open Atomic Relational
set_option autoImplicit true

/-- The functions that build keys of Redis, each from one string. -/
inductive KeyFamily where
  | userCart
  | guestCart
  | menu
  | items
  deriving DecidableEq, Repr

def KeyFamily.key : KeyFamily → String → String
  | .userCart => fun userId => "user:cart:" ++ userId
  | .guestCart => fun guestId => "guest:cart:" ++ guestId
  | .menu => menuKey
  | .items => itemsKey

/-- The family and the argument of the key that `getCartKey` builds. -/
def cartProducer (userId guestId : Option String) : Option (KeyFamily × String) :=
  match given userId, given guestId with
  | some u, _ => some (.userCart, u)
  | none, some g => some (.guestCart, g)
  | none, none => none

/-- The key that an operation stores a value under, as the caller of the request has it. -/
def Operation.producer (r : Request) (caller : Option Caller) :
    Operation → Option (KeyFamily × String)
  | .menu tableId => some (.menu, tableId)
  | .menuItemsByTable tableId => some (.items, tableId)
  | .addToCart _ | .removeFromCart _ => cartProducer (caller.bind Caller.id) r.guestId
  | _ => none

/-- The request stores values of the family, and for this argument. -/
def Serves (pf : Platform) (c : Request × Operation) (f : KeyFamily) (a : String) : Prop :=
  ∃ caller, (∀ u, caller = some (Caller.user u) → c.1.subject pf = some u.id) ∧
    c.2.producer c.1 caller = some (f, a)

/-- What is in Redis afterwards was there, or was put there under a key that `P` allows. -/
def Puts (P : KeyFamily → String → Prop) (w w' : World) : Prop :=
  ∀ key e, w'.redis.get key = some e →
    w.redis.get key = some e ∨ ∃ f a, P f a ∧ key = f.key a

section Steps

variable {P : KeyFamily → String → Prop}

theorem Puts.refl (w : World) : Puts P w w := fun _ _ h => .inl h

theorem Puts.set (hP : P f a) (w : World) (e : Entry) :
    Puts P w { w with redis := w.redis.set (KeyFamily.key f a) e } := by
  intro key e' he
  by_cases hkey : key = f.key a
  · exact .inr ⟨f, a, hP, hkey⟩
  · rw [Redis.get_set_other _ _ hkey] at he
    exact .inl he

theorem Puts.del (w : World) (key : String) : Puts P w { w with redis := w.redis.del key } := by
  intro k e he
  by_cases hkey : k = key
  · rw [hkey, Redis.get_del_same] at he
    cases he
  · rw [Redis.get_del_other _ hkey] at he
    exact .inl he

theorem Puts.delKeys (w : World) (keys : List String) :
    Puts P w { w with redis := w.redis.delKeys keys } := by
  intro k e he
  rw [Redis.get_delKeys] at he
  split at he
  · cases he
  · exact .inl he

end Steps

/-- What the call with index `i` can put into Redis; the others of the pool only drop keys. -/
def ServesAt (pf : Platform) (calls : List (Request × Operation)) (i : Nat) (f : KeyFamily)
    (a : String) : Prop :=
  ∃ c, calls[i]? = some c ∧ Serves pf c f a

/-- The entry under the key was put there by a call of the key's own function for the key's own
argument, and has been there since. -/
def WrittenFor (pf : Platform) (calls : List (Request × Operation))
    (p : Pool (Api Response) Site World) (turns : List (Nat × Bool)) (f : KeyFamily) (a : String)
    (e : Entry) : Prop :=
  ∃ before turn after, turns = before ++ turn :: after ∧ ServesAt pf calls turn.1 f a ∧
    (runs Pool.turn p before).state.redis.get (f.key a) ≠ some e ∧
    ∀ later, later <+: after →
      (runs Pool.turn p (before ++ turn :: later)).state.redis.get (f.key a) = some e

theorem WrittenFor.snoc (h : WrittenFor pf calls p turns f a e)
    (he : (runs Pool.turn p (turns ++ [t])).state.redis.get (f.key a) = some e) :
    WrittenFor pf calls p (turns ++ [t]) f a e := by
  obtain ⟨before, turn, after, rfl, hserves, hbefore, hsince⟩ := h
  refine ⟨before, turn, after ++ [t], by simp, hserves, hbefore, fun later hl => ?_⟩
  rcases List.prefix_concat_iff.1 hl with rfl | hl
  · rw [List.append_assoc, List.cons_append] at he
    exact he
  · exact hsince later hl

end DineFlow
