import DineFlow.TokenText

namespace DineFlow.TokenText
open Json Utf16
set_option autoImplicit true

theorem hexDigits_control (h : n < 32) : '\\' :: 'u' :: hexDigits n =
    ['\\', 'u', '0', '0', hexChar (Fin.ofNat 16 (n / 16)), hexChar (Fin.ofNat 16 n)] := by
  have hall : ∀ n : Fin 32, '\\' :: 'u' :: hexDigits n.val =
      ['\\', 'u', '0', '0', hexChar (Fin.ofNat 16 (n.val / 16)), hexChar (Fin.ofNat 16 n.val)] := by
    decide
  exact hall ⟨n, h⟩

theorem escape_char (c : Char) : escape (.char c) = jsonChar c := by
  rw [escape]
  cases hfind : shortEscapes.find? fun e => e.1 = c with
  | some e =>
    have hmatch := List.find?_some hfind
    have hc : e.1 = c := of_decide_eq_true hmatch
    have hall : ∀ e ∈ shortEscapes, jsonChar e.1 = ['\\', e.2] := by decide
    rw [← hc, hall e (List.mem_of_find?_eq_some hfind)]
  | none =>
    have hnone : ∀ e ∈ shortEscapes, c ≠ e.1 := fun e he hc =>
      List.find?_eq_none.1 hfind e he (decide_eq_true hc.symm)
    simp only [shortEscapes, List.forall_mem_cons] at hnone
    obtain ⟨hquote, hbackslash, hb, hf, hn, hr, ht, _⟩ := hnone
    rw [jsonChar, if_neg hquote, if_neg hbackslash, if_neg hb, if_neg hf, if_neg hn, if_neg hr,
      if_neg ht]
    dsimp only
    split
    · rename_i hcontrol
      exact hexDigits_control hcontrol
    · rfl

theorem quote_asUnits (s : String) : quote (asUnits s.toList) = jsonString s := by
  rw [quote, asUnits, points_units, List.flatMap_map, jsonString]
  simp only [escape_char]

theorem decimal_natCast (n : Nat) : decimal n = Nat.toDigits 10 n := by
  rw [decimal, if_neg (by omega), Int.natAbs_natCast]

section Platform

variable (num : Numbers) (hmac : List UInt8 → Digest)

/-- The payload of a session as a value. -/
def payloadValue (p : GuestTokenPayload) : Value num.Number :=
  .obj [(key "sessionId", .str (asUnits p.sessionId.toList)),
    (key "tableId", .str (asUnits p.tableId.toList)), (key "iat", .num (num.ofInt p.iat)),
    (key "exp", .num (num.ofInt p.exp))]

def InRange (p : GuestTokenPayload) : Prop := p.iat ≤ 2 ^ 53 ∧ p.exp ≤ 2 ^ 53

theorem four_members (hk : l = '{' :: (k ++ [':'])) (hk₁ : l₁ = ',' :: (k₁ ++ [':']))
    (hk₂ : l₂ = ',' :: (k₂ ++ [':'])) (hk₃ : l₃ = ',' :: (k₃ ++ [':'])) :
    '{' :: (commas [k ++ ':' :: t, k₁ ++ ':' :: t₁, k₂ ++ ':' :: t₂, k₃ ++ ':' :: t₃] ++ ['}']) =
      l ++ (t ++ (l₁ ++ (t₁ ++ (l₂ ++ (t₂ ++ (l₃ ++ (t₃ ++ ['}']))))))) := by
  subst hk hk₁ hk₂ hk₃
  simp [commas]

theorem stringify_payloadValue (h : InRange p) :
    stringify num.format.print (payloadValue num p) = p.json.toList := by
  have hnum {n : Nat} (hn : n ≤ 2 ^ 53) : num.format.print (num.ofInt n) = Nat.toDigits 10 n := by
    rw [num.print_ofInt n (le_of_eq_of_le (Int.natAbs_natCast n) hn), decimal_natCast]
  have htext : stringify num.format.print (payloadValue num p) =
      '{' :: (commas [jsonString "sessionId" ++ ':' :: jsonString p.sessionId,
        jsonString "tableId" ++ ':' :: jsonString p.tableId,
        jsonString "iat" ++ ':' :: Nat.toDigits 10 p.iat,
        jsonString "exp" ++ ':' :: Nat.toDigits 10 p.exp] ++ ['}']) := by
    simp only [payloadValue, stringify, memberTexts, memberText, key, quote_asUnits, hnum h.1,
      hnum h.2]
  exact htext.trans ((four_members (by decide) (by decide) (by decide) (by decide)).trans
    String.toList_ofList.symm)

/-- The platform reads and signs tokens as the language does. -/
structure Agrees (pf : Platform) : Prop where
  hmac : ∀ s, pf.hmac s = String.ofList (hmac (Utf8.encode s.toList)).hex
  readPayload : ∀ s p, pf.readPayload s = some p ↔
    InRange p ∧ parse num.format.read (decodedText (asUnits s.toList)) = some (payloadValue num p)

theorem encode_toList (s : String) : Utf8.encode s.toList = s.toByteArray.data.toList := by
  rw [← String.utf8Encode_toList, List.utf8Encode.eq_1, Utf8.encode]
  simp

theorem Agrees.signature (h : Agrees num hmac pf) (hp : InRange p) :
    TokenText.signature num hmac (payloadValue num p) = (pf.hmac p.json).toList := by
  rw [h.hmac, String.toList_ofList, TokenText.signature, stringify_payloadValue num hp]

theorem guestPayload_eq (sessionId tableId : String) (iat : Second) {n : Nat}
    (hiat : iat.value = n) :
    InRange ⟨sessionId, tableId, n, n + 15 * 60⟩ ∧
      guestPayload num (asUnits sessionId.toList) (asUnits tableId.toList) iat =
        payloadValue num ⟨sessionId, tableId, n, n + 15 * 60⟩ := by
  have hrange := iat.inRange
  rw [hiat, Int.natAbs_natCast] at hrange
  refine ⟨⟨?_, ?_⟩, ?_⟩
  · exact Nat.le_trans hrange (by decide)
  · exact Nat.le_trans (Nat.add_le_add_right hrange (15 * 60)) (by decide)
  · rw [guestPayload, payloadValue, hiat, Int.natCast_add]
    rfl

theorem Agrees.token (h : Agrees num hmac pf) (hp : InRange p) :
    Base64.encode (Utf8.encode (stringify num.format.print (payloadValue num p))) ++
        '.' :: TokenText.signature num hmac (payloadValue num p) =
      base64 p.json ++ '.' :: (pf.hmac p.json).toList := by
  have hencode : Base64.encode (Utf8.encode p.json.toList) = base64 p.json :=
    congrArg Base64.encode (encode_toList p.json)
  rw [stringify_payloadValue num hp, h.signature num hmac hp, hencode]

/-- The tokens that the service hands out are those of the language. -/
theorem Agrees.generate (h : Agrees num hmac pf) (env : Env) (tableId : String) (iat : Second)
    (hiat : iat.value = env.seconds) :
    (generateGuestToken num hmac (asUnits (env.uuid 0).text.toList) (asUnits tableId.toList)
        iat).token = asUnits (DineFlow.generateGuestToken pf env tableId).token.toList := by
  obtain ⟨hp, hvalue⟩ := guestPayload_eq num (env.uuid 0).text tableId iat hiat
  have htoken := h.token num hmac hp
  rw [← hvalue] at htoken
  exact congrArg asUnits (htoken.trans String.toList_ofList.symm)

theorem dot_not_mem_units (h : c ≠ '.') : (46 : UInt16) ∉ units c := by
  have hvalid : c.toNat.isValidChar := c.valid
  simp only [Nat.isValidChar] at hvalid
  have hunit {n : Nat} (hn : n < 65536) (he : (46 : UInt16) = UInt16.ofNat n) : 46 = n :=
    (congrArg UInt16.toNat he).trans (UInt16.toNat_ofNat_of_lt hn)
  intro hmem
  rw [units] at hmem
  split at hmem
  · rename_i hlt
    have hdot : 46 = c.toNat := hunit hlt (List.mem_singleton.1 hmem)
    exact h (by rw [← Char.ofNat_toNat c, ← hdot])
  · simp only [List.mem_cons, List.not_mem_nil, or_false] at hmem
    rcases hmem with he | he
    · have hhigh := hunit (by omega) he
      omega
    · have hlow := hunit (by omega) he
      omega

theorem split_asUnits (cs : List Char) :
    (asUnits cs).takeWhile (· ≠ 46) = asUnits (cs.takeWhile (· ≠ '.')) ∧
      ((asUnits cs).dropWhile (· ≠ 46)).drop 1 = asUnits ((cs.dropWhile (· ≠ '.')).drop 1) := by
  induction cs with
  | nil => exact ⟨rfl, rfl⟩
  | cons c cs ih =>
    have hcons : asUnits (c :: cs) = units c ++ asUnits cs := List.flatMap_cons
    by_cases hc : c = '.'
    · subst hc
      exact ⟨rfl, rfl⟩
    · have hall : ∀ u ∈ units c, decide (u ≠ 46) = true := fun u hu =>
        decide_eq_true fun he => dot_not_mem_units hc (he ▸ hu)
      have htake : (c :: cs).takeWhile (· ≠ '.') = c :: cs.takeWhile (· ≠ '.') :=
        List.takeWhile_cons_of_pos (decide_eq_true hc)
      have hdrop : (c :: cs).dropWhile (· ≠ '.') = cs.dropWhile (· ≠ '.') :=
        List.dropWhile_cons_of_pos (decide_eq_true hc)
      rw [hcons, List.takeWhile_append_of_pos hall, List.dropWhile_append_of_pos hall, ih.1, ih.2,
        htake, hdrop]
      exact ⟨rfl, rfl⟩

theorem segments_asUnits (t : String) :
    segments (asUnits t.toList) = (asUnits (splitToken t).1, asUnits (splitToken t).2) := by
  obtain ⟨hfirst, hrest⟩ := split_asUnits t.toList
  rw [segments, splitToken, hfirst, hrest, (split_asUnits _).1]

theorem asUnits_injective (h : asUnits cs = asUnits cs') : cs = cs' := by
  have hpoints : cs.map Point.char = cs'.map Point.char := by
    rw [← points_units, ← points_units, ← asUnits, ← asUnits, h]
  exact (List.map_inj_right fun c c' he => Point.char.inj he).1 hpoints

theorem asUnits_eq_nil : asUnits cs = [] ↔ cs = [] :=
  ⟨fun h => asUnits_injective h, fun h => h ▸ rfl⟩

theorem verifyGuestToken_ok_iff : DineFlow.verifyGuestToken pf now t = .ok p ↔
    (splitToken t).1 ≠ [] ∧ (splitToken t).2 ≠ [] ∧
      pf.readPayload (String.ofList (splitToken t).1) = some p ∧ now ≤ p.exp ∧
      (splitToken t).2 = (pf.hmac p.json).toList := by
  rw [DineFlow.verifyGuestToken]
  generalize splitToken t = parts
  obtain ⟨encoded, signed⟩ := parts
  dsimp only
  split
  · rename_i hempty
    refine ⟨fun h => (by cases h), fun h => (hempty.elim h.1 h.2.1).elim⟩
  rename_i hgiven
  rw [not_or] at hgiven
  cases pf.readPayload (String.ofList encoded) with
  | none => simp
  | some q =>
    dsimp only
    by_cases hexpired : q.exp < now
    · rw [if_pos hexpired]
      refine ⟨fun h => (by cases h), fun h => ?_⟩
      cases h.2.2.1
      exact absurd h.2.2.2.1 (Nat.not_le.2 hexpired)
    rw [if_neg hexpired]
    by_cases hsigned : String.ofList signed = pf.hmac q.json
    · have htext : signed = (pf.hmac q.json).toList := by rw [← hsigned, String.toList_ofList]
      rw [hsigned, if_neg (fun h => h rfl), if_neg (fun h => h rfl)]
      constructor
      · intro h
        cases h
        exact ⟨hgiven.1, hgiven.2, rfl, Nat.not_lt.1 hexpired, htext⟩
      · intro h
        cases h.2.2.1
        rfl
    · rw [if_pos hsigned]
      constructor
      · intro h
        split at h <;> cases h
      · intro h
        cases h.2.2.1
        rw [h.2.2.2.2, String.ofList_toList] at hsigned
        exact absurd rfl hsigned

theorem Agrees.signed (h : Agrees num hmac pf) (hp : InRange p) :
    bytesOf (asUnits cs) = Utf8.encode (TokenText.signature num hmac (payloadValue num p)) ↔
      cs = (pf.hmac p.json).toList := by
  rw [bytesOf_asUnits, h.signature num hmac hp]
  refine ⟨fun he => ?_, congrArg Utf8.encode⟩
  have hdecoded := congrArg Utf8.decode he
  rwa [Utf8.decode_encode, Utf8.decode_encode] at hdecoded

theorem payloadValue_expires (hp : InRange p) (now : Nat) :
    (∃ exp, expOf (payloadValue num p) = .ok exp ∧ smallerThan num now exp = .ok false) ↔
      now ≤ p.exp := by
  have hexp : expOf (payloadValue num p) = .ok (some (.num (num.ofInt p.exp))) := rfl
  have hsmaller : smallerThan num now (some (.num (num.ofInt p.exp))) =
      .ok (decide ((p.exp : Int) < now)) :=
    congrArg Except.ok (num.smaller_ofInt _ _ (le_of_eq_of_le (Int.natAbs_natCast _) hp.2))
  constructor
  · rintro ⟨exp, he, hs⟩
    cases hexp.symm.trans he
    have hnot := of_decide_eq_false (Except.ok.inj (hsmaller.symm.trans hs))
    omega
  · intro hnow
    refine ⟨_, hexp, hsmaller.trans (congrArg Except.ok (decide_eq_false ?_))⟩
    omega

/-- A token is accepted for a session by the service exactly if the language accepts it. -/
theorem Agrees.verify (h : Agrees num hmac pf) :
    DineFlow.verifyGuestToken pf now t = .ok p ↔
      InRange p ∧ verifyGuestToken num hmac now (asUnits t.toList) = .ok (payloadValue num p) := by
  rw [verifyGuestToken_ok_iff, verify_ok_iff, segments_asUnits, h.readPayload,
    String.toList_ofList]
  dsimp only
  constructor
  · rintro ⟨hfirst, hlast, ⟨hp, hread⟩, hnow, hsigned⟩
    exact ⟨hp, mt asUnits_eq_nil.1 hfirst, mt asUnits_eq_nil.1 hlast, hread,
      (h.signed num hmac hp).2 hsigned, (payloadValue_expires num hp now).2 hnow⟩
  · rintro ⟨hp, hfirst, hlast, hread, hsigned, hexp⟩
    exact ⟨mt asUnits_eq_nil.2 hfirst, mt asUnits_eq_nil.2 hlast, ⟨hp, hread⟩,
      (payloadValue_expires num hp now).1 hexp, (h.signed num hmac hp).1 hsigned⟩

theorem Agrees.accepted (h : Agrees num hmac pf) (env : Env) (tableId : String)
    (hclock : env.seconds ≤ 8640000000000) (now : Nat) :
    DineFlow.verifyGuestToken pf now (DineFlow.generateGuestToken pf env tableId).token =
        .ok ⟨(env.uuid 0).text, tableId, env.seconds, env.seconds + 15 * 60⟩ ↔
      now ≤ env.seconds + 15 * 60 := by
  let iat : Second := ⟨env.seconds, le_of_eq_of_le (Int.natAbs_natCast _) hclock⟩
  obtain ⟨hp, hvalue⟩ := guestPayload_eq num (env.uuid 0).text tableId iat rfl
  have hnow : (now : Int) ≤ iat.value + 15 * 60 ↔ now ≤ env.seconds + 15 * 60 := by
    change (now : Int) ≤ (env.seconds : Int) + 15 * 60 ↔ _
    omega
  rw [h.verify num hmac, ← h.generate num hmac env tableId iat rfl, verify_generated, ← hvalue,
    ← hnow]
  constructor
  · rintro ⟨_, haccepted⟩
    by_contra hexpired
    rw [if_neg hexpired] at haccepted
    cases haccepted
  · intro hvalid
    exact ⟨hp, if_pos hvalid⟩

theorem ofInt_injective {m n : Nat} (hm : m ≤ 2 ^ 53) (hn : n ≤ 2 ^ 53)
    (h : num.ofInt m = num.ofInt n) : m = n := by
  have hsmaller (second : Int) : decide ((m : Int) < second) = decide ((n : Int) < second) := by
    rw [← num.smaller_ofInt m second (le_of_eq_of_le (Int.natAbs_natCast m) hm), h,
      num.smaller_ofInt n second (le_of_eq_of_le (Int.natAbs_natCast n) hn)]
  have hle := decide_eq_decide.1 (hsmaller m)
  have hge := decide_eq_decide.1 (hsmaller n)
  omega

theorem payloadValue_injective (hp : InRange p) (hq : InRange q)
    (h : payloadValue num p = payloadValue num q) : p = q := by
  obtain ⟨sessionId, tableId, iat, exp⟩ := p
  obtain ⟨sessionId', tableId', iat', exp'⟩ := q
  simp only [payloadValue, Value.obj.injEq, List.cons.injEq, Prod.mk.injEq, Value.str.injEq,
    Value.num.injEq, true_and, and_true] at h
  obtain ⟨hsession, htable, hiat, hexp⟩ := h
  have hiat := ofInt_injective num hp.1 hq.1 hiat
  have hexp := ofInt_injective num hp.2 hq.2 hexp
  have hsession := String.toList_inj.1 (asUnits_injective hsession)
  have htable := String.toList_inj.1 (asUnits_injective htable)
  dsimp only at hiat hexp
  rw [hsession, htable, hiat, hexp]

open Classical in
/-- Every platform can be given the tokens of the language. -/
theorem exists_agrees (pf : Platform) :
    ∃ hmac' readPayload',
      Agrees num hmac { pf with hmac := hmac', readPayload := readPayload' } := by
  let reads (s : String) (p : GuestTokenPayload) : Prop :=
    InRange p ∧ parse num.format.read (decodedText (asUnits s.toList)) = some (payloadValue num p)
  refine ⟨fun s => String.ofList (hmac (Utf8.encode s.toList)).hex,
    fun s => if h : ∃ p, reads s p then some h.choose else none, fun s => rfl, fun s p => ?_⟩
  change (if h : ∃ p, reads s p then some h.choose else none) = some p ↔ reads s p
  constructor
  · intro h
    split at h
    · rename_i hreads
      cases h
      exact hreads.choose_spec
    · cases h
  · intro h
    have hreads : ∃ p, reads s p := ⟨p, h⟩
    have hchosen := hreads.choose_spec
    rw [dif_pos hreads]
    exact congrArg some (payloadValue_injective num hchosen.1 h.1
      (Option.some.inj (hchosen.2.symm.trans h.2)))

end Platform

end DineFlow.TokenText
