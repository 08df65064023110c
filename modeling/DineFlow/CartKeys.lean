import DineFlow.OrderService

namespace DineFlow
set_option autoImplicit true

theorem append_cancel {s t t' : String} (h : s ++ t = s ++ t') : t = t' := by
  have hl := congrArg String.toList h
  rw [String.toList_append, String.toList_append, List.append_cancel_left_eq] at hl
  exact String.toList_inj.1 hl

theorem given_text (u : Uuid) : given (some u.text) = some u.text := by
  have hl : u.text ≠ "" := by
    intro h
    have hc := congrArg String.toList h
    rw [Uuid.text, String.toList_ofList] at hc
    have hn := congrArg List.length hc
    rw [Uuid.length_chars] at hn
    cases hn
  simp [given, hl]

theorem given_eq_some (h : given s = some t) : s = some t :=
  (Option.filter_eq_some_iff.1 h).1

theorem userKey_ne_guestKey (u g : String) : "user:cart:" ++ u ≠ "guest:cart:" ++ g := by
  intro h
  have hl := congrArg String.toList h
  rw [String.toList_append, String.toList_append] at hl
  exact absurd (List.cons.inj hl).1 (by decide)

/-- Sessions share a cart if they are of one user, or of no user and one guest id. -/
theorem cartKey_eq_iff : cartKey userId guestId = cartKey userId' guestId' ↔
    given userId = given userId' ∧ (given userId = none → given guestId = given guestId') := by
  rw [cartKey, cartKey]
  cases given userId with
  | some u =>
    cases given userId' with
    | some u' =>
      constructor
      · intro h
        rw [append_cancel (Option.some.inj h)]
        exact ⟨rfl, fun hn => by cases hn⟩
      · intro h
        rw [Option.some.inj h.1]
    | none =>
      cases given guestId' with
      | none => simp
      | some g => simp [userKey_ne_guestKey]
  | none =>
    cases given userId' with
    | some u' =>
      cases given guestId with
      | none => simp
      | some g => simp [(userKey_ne_guestKey u' g).symm]
    | none =>
      cases given guestId with
      | none => cases given guestId' <;> simp
      | some g =>
        cases given guestId' with
        | none => simp
        | some g' =>
          constructor
          · intro h
            exact ⟨rfl, fun _ => congrArg some (append_cancel (Option.some.inj h))⟩
          · intro h
            rw [Option.some.inj (h.2 rfl)]

theorem cartKey_guest (h : cartKey userId guestId = some ("guest:cart:" ++ t)) :
    guestId = some t := by
  rw [cartKey] at h
  split at h
  · exact absurd (Option.some.inj h) (userKey_ne_guestKey _ _)
  · rename_i g _ hg
    rw [append_cancel (Option.some.inj h)] at hg
    exact given_eq_some hg
  · cases h

end DineFlow
