import DineFlow.AuthService

namespace DineFlow
set_option autoImplicit true

theorem jsonChar_hexChar : ∀ d, jsonChar (hexChar d) = [hexChar d] := by decide

theorem Quad.json_chars (q : Quad) : q.chars.flatMap jsonChar = q.chars := by
  simp [Quad.chars, jsonChar_hexChar]

theorem Uuid.json_text (u : Uuid) : jsonString u.text = '"' :: (u.chars ++ ['"']) := by
  have hyphen : jsonChar '-' = ['-'] := rfl
  rw [jsonString, Uuid.text, String.toList_ofList, Uuid.chars]
  simp only [List.flatMap_append, List.flatMap_cons, Quad.json_chars, hyphen,
    List.singleton_append]

theorem payload_sessionId (h : GuestTokenPayload.json ⟨u.text, t, i, e⟩ =
    GuestTokenPayload.json ⟨Uuid.text v, t', i', e'⟩) : u = v := by
  have hl := String.ofList_inj.1 h
  rw [List.append_cancel_left_eq, Uuid.json_text, Uuid.json_text] at hl
  have hc := (List.append_inj hl rfl).1
  have huv := (List.append_inj (List.cons.inj hc).2 rfl).1
  apply Uuid.text_injective
  rw [Uuid.text, Uuid.text, huv]

theorem base64_injective (h : base64 s = base64 t) : s = t := by
  have hb := Base64.encode_injective h
  exact String.toByteArray_inj.1 (ByteArray.ext (Array.toList_inj.1 hb))

theorem dot_not_mem_base64 (s : String) : '.' ∉ base64 s :=
  Base64.not_mem_encode rfl (by decide) _

theorem takeWhile_dot (h : '.' ∉ cs) (cs' : List Char) :
    (cs ++ '.' :: cs').takeWhile (· ≠ '.') = cs := by
  rw [List.takeWhile_append_of_pos]
  · simp
  · intro c hc
    have hne : c ≠ '.' := fun he => h (he ▸ hc)
    simpa using hne

theorem generateGuestToken_session (h : (generateGuestToken pf env tableId).token =
    (generateGuestToken pf env' tableId').token) : env.uuid 0 = env'.uuid 0 := by
  have hl := congrArg (List.takeWhile (· ≠ '.')) (String.ofList_inj.1 h)
  rw [takeWhile_dot (dot_not_mem_base64 _), takeWhile_dot (dot_not_mem_base64 _)] at hl
  exact payload_sessionId (base64_injective hl)

theorem generateGuestToken_given (pf : Platform) (env : Env) (tableId : String) :
    given (some (generateGuestToken pf env tableId).token) =
      some (generateGuestToken pf env tableId).token := by
  rw [given, Option.filter_some, if_pos]
  rw [decide_eq_true_eq]
  intro he
  have hl := congrArg String.toList he
  rw [generateGuestToken, String.toList_ofList] at hl
  simp at hl

end DineFlow
