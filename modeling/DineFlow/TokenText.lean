import DineFlow.GuestTokens
import DineFlow.JsonRoundTrip
import DineFlow.Utf8

namespace DineFlow.TokenText
open Json Utf16
set_option autoImplicit true

/-- The numbers of the language, as far as a token meets them: how JSON reads and prints them, and
how a value compares with a second. Whole numbers are exact where those of a double are. -/
structure Numbers where
  Number : Type
  format : NumberFormat Number
  ofInt : Int → Number
  smaller : Number → Int → Bool
  textSmaller : List UInt16 → Int → Bool
  objectSmaller : Value Number → Int → Option Bool
  print_ofInt : ∀ n : Int, n.natAbs ≤ 2 ^ 53 → format.print (ofInt n) = decimal n
  read_decimal : ∀ n : Int, n.natAbs ≤ 2 ^ 53 → format.read (decimal n) = ofInt n
  smaller_ofInt : ∀ n second : Int, n.natAbs ≤ 2 ^ 53 →
    smaller (ofInt n) second = decide (n < second)

/-- A second that the clock of the language can tell. -/
structure Second where
  value : Int
  inRange : value.natAbs ≤ 8640000000000

/-- A keyed hash of 256 bits, in hexadecimal digits. -/
structure Digest where
  digits : List (Fin 16)
  length_digits : digits.length = 64

def Digest.hex (d : Digest) : List Char := d.digits.map hexChar

/-- A text as the language stores it. -/
def asUnits (cs : List Char) : List UInt16 := cs.flatMap units

def key (name : String) : List UInt16 := asUnits name.toList

structure IssuedToken where
  token : List UInt16
  sessionId : List UInt16
  -- in milliseconds
  expiresAt : Int

inductive Thrown where
  | unauthorized (message : String)
  | syntaxError
  | typeError
  | rangeError

section Tokens

variable (num : Numbers) (hmac : List UInt8 → Digest)

def signature (payload : Value num.Number) : List Char :=
  (hmac (Utf8.encode (stringify num.format.print payload))).hex

def guestPayload (sessionId tableId : List UInt16) (iat : Second) : Value num.Number :=
  .obj [(key "sessionId", .str sessionId), (key "tableId", .str tableId),
    (key "iat", .num (num.ofInt iat.value)), (key "exp", .num (num.ofInt (iat.value + 15 * 60)))]

def generateGuestToken (sessionId tableId : List UInt16) (iat : Second) : IssuedToken :=
  let payload := guestPayload num sessionId tableId iat
  let text := Base64.encode (Utf8.encode (stringify num.format.print payload))
  ⟨asUnits (text ++ '.' :: signature num hmac payload), sessionId, (iat.value + 15 * 60) * 1000⟩

/-- The first two of the parts that the dots of a token separate. -/
def segments (token : List UInt16) : List UInt16 × List UInt16 :=
  (token.takeWhile (· ≠ 46), ((token.dropWhile (· ≠ 46)).drop 1).takeWhile (· ≠ 46))

def replaced : Point → Char
  | .char c => c
  | .lone _ => Utf8.replacement

/-- `Buffer.from` of a text: a surrogate outside a pair is replaced. -/
def bytesOf (s : List UInt16) : List UInt8 := Utf8.encode ((points s).map replaced)

/-- `Buffer.from(s, 'base64').toString()` -/
def decodedText (s : List UInt16) : List Char :=
  Utf8.decode (Base64.decode (s.map fun u => Char.ofNat u.toNat))

/-- `payload.exp`, where `none` is undefined. -/
def expOf : Value ν → Except Thrown (Option (Value ν))
  | .null => .error .typeError
  | .obj ms => .ok ((ms.find? fun m => m.1 = key "exp").map Prod.snd)
  | _ => .ok none

/-- `exp < second`; an object may have no primitive value. -/
def smallerThan (second : Int) : Option (Value num.Number) → Except Thrown Bool
  | none => .ok false
  | some .null => .ok (decide (0 < second))
  | some (.bool b) => .ok (decide ((if b then 1 else 0) < second))
  | some (.num x) => .ok (num.smaller x second)
  | some (.str s) => .ok (num.textSmaller s second)
  | some v =>
    match num.objectSmaller v second with
    | some b => .ok b
    | none => .error .typeError

def timingSafeEqual (a b : List UInt8) : Except Thrown Bool :=
  if a.length ≠ b.length then .error .rangeError else .ok (decide (a = b))

/-- The check of the payload that a token carries. -/
def checkPayload (now : Int) (signed : List UInt16) (payload : Value num.Number) :
    Except Thrown (Value num.Number) :=
  match expOf payload with
  | .error e => .error e
  | .ok exp =>
    match smallerThan num now exp with
    | .error e => .error e
    | .ok true => .error (.unauthorized "Guest token expired")
    | .ok false =>
      match timingSafeEqual (bytesOf signed) (Utf8.encode (signature num hmac payload)) with
      | .error e => .error e
      | .ok false => .error (.unauthorized "Invalid guest token signature")
      | .ok true => .ok payload

/-- The block that is tried. -/
def tryVerify (now : Int) (token : List UInt16) : Except Thrown (Value num.Number) :=
  let (encodedPayload, signed) := segments token
  if encodedPayload = [] ∨ signed = [] then .error (.unauthorized "Invalid guest token format")
  else
    match parse num.format.read (decodedText encodedPayload) with
    | none => .error .syntaxError
    | some payload => checkPayload num hmac now signed payload

def verifyGuestToken (now : Int) (token : List UInt16) : Except ApiError (Value num.Number) :=
  match tryVerify num hmac now token with
  | .ok payload => .ok payload
  | .error (.unauthorized message) => .error (.unauthorized message)
  | .error _ => .error (.unauthorized "Invalid guest token")

end Tokens

/-- Characters that are one code unit each. -/
def Ascii (cs : List Char) : Prop := ∀ c ∈ cs, c.toNat < 128

theorem units_ascii (h : c.toNat < 128) : units c = [UInt16.ofNat c.toNat] :=
  if_pos (Nat.lt_trans h (by decide))

theorem toNat_unit (h : n < 128) : (UInt16.ofNat n).toNat = n :=
  UInt16.toNat_ofNat_of_lt (Nat.lt_trans h (by decide))

theorem asUnits_append (cs cs' : List Char) : asUnits (cs ++ cs') = asUnits cs ++ asUnits cs' :=
  List.flatMap_append

theorem asUnits_ascii (h : Ascii cs) : asUnits cs = cs.map fun c => UInt16.ofNat c.toNat := by
  induction cs with
  | nil => rfl
  | cons c cs ih =>
    obtain ⟨hc, hcs⟩ := List.forall_mem_cons.1 h
    rw [asUnits, List.flatMap_cons, units_ascii hc, ← asUnits, ih hcs]
    rfl

theorem chars_asUnits (h : Ascii cs) : ((asUnits cs).map fun u => Char.ofNat u.toNat) = cs := by
  rw [asUnits_ascii h, List.map_map]
  refine (List.map_congr_left fun c hc => ?_).trans (List.map_id cs)
  change Char.ofNat (UInt16.ofNat c.toNat).toNat = c
  rw [toNat_unit (h c hc), Char.ofNat_toNat]

theorem dot_not_mem (h : Ascii cs) (hdot : '.' ∉ cs) : (46 : UInt16) ∉ asUnits cs := by
  rw [asUnits_ascii h]
  intro hmem
  obtain ⟨c, hc, he⟩ := List.mem_map.1 hmem
  have hnat : c.toNat = 46 := (toNat_unit (h c hc)).symm.trans (congrArg UInt16.toNat he)
  have hchar : c = '.' := by rw [← Char.ofNat_toNat c, hnat]
  exact hdot (hchar ▸ hc)

theorem takeWhile_before (h : (46 : UInt16) ∉ us) (vs : List UInt16) :
    (us ++ 46 :: vs).takeWhile (· ≠ 46) = us ∧ (us ++ 46 :: vs).dropWhile (· ≠ 46) = 46 :: vs := by
  have hall : ∀ u ∈ us, decide (u ≠ 46) = true := fun u hu =>
    decide_eq_true fun he => h (he ▸ hu)
  rw [List.takeWhile_append_of_pos hall, List.dropWhile_append_of_pos hall]
  exact ⟨List.append_nil us, rfl⟩

theorem segments_token (ha : Ascii as) (hb : Ascii bs) (hdota : '.' ∉ as) (hdotb : '.' ∉ bs) :
    segments (asUnits (as ++ '.' :: bs)) = (asUnits as, asUnits bs) := by
  have hunits : asUnits (as ++ '.' :: bs) = asUnits as ++ 46 :: asUnits bs := asUnits_append _ _
  have hlast : (asUnits bs).takeWhile (· ≠ 46) = asUnits bs :=
    List.takeWhile_eq_self_iff.2 fun u hu => decide_eq_true fun he => dot_not_mem hb hdotb (he ▸ hu)
  obtain ⟨htake, hdrop⟩ := takeWhile_before (dot_not_mem ha hdota) (asUnits bs)
  rw [segments, hunits, htake, hdrop, List.drop_succ_cons, List.drop_zero, hlast]

theorem ascii_encode (bs : List UInt8) : Ascii (Base64.encode bs) := by
  intro c hc
  rcases List.mem_append.1 hc with hc | hc
  · obtain ⟨n, hn, rfl⟩ := List.mem_map.1 hc
    have hall : ∀ n : Fin 64, (Base64.symbol n).toNat < 128 := by decide
    exact hall ⟨n, Base64.toSextets_lt bs n hn⟩
  · unfold Base64.padding at hc
    split at hc <;> simp at hc <;> subst hc <;> decide

theorem Digest.ascii_hex (d : Digest) : Ascii d.hex := by
  intro c hc
  obtain ⟨x, _, rfl⟩ := List.mem_map.1 hc
  have hall : ∀ x, (hexChar x).toNat < 128 := by decide
  exact hall x

theorem Digest.dot_not_mem_hex (d : Digest) : '.' ∉ d.hex := by
  intro hc
  obtain ⟨x, _, he⟩ := List.mem_map.1 hc
  have hall : ∀ x, hexChar x ≠ '.' := by decide
  exact hall x he

theorem bytesOf_asUnits (cs : List Char) : bytesOf (asUnits cs) = Utf8.encode cs := by
  rw [bytesOf, asUnits, points_units, List.map_map]
  exact congrArg Utf8.encode (List.map_id cs)

theorem points_of_replaced {ps : List Point} (h : Ascii cs) (hps : ps.map replaced = cs) :
    ps = cs.map .char := by
  subst hps
  rw [List.map_map]
  refine (List.map_id ps).symm.trans (List.map_congr_left fun p hp => ?_)
  cases p with
  | char c => rfl
  | lone u =>
    have hlarge : ¬Utf8.replacement.toNat < 128 := by decide
    exact absurd (h _ (List.mem_map_of_mem hp)) hlarge

theorem eq_of_bytesOf (h : Ascii cs) (hb : bytesOf s = Utf8.encode cs) : s = asUnits cs := by
  have hchars := congrArg Utf8.decode hb
  rw [bytesOf, Utf8.decode_encode, Utf8.decode_encode] at hchars
  rw [← units_points s, points_of_replaced h hchars, List.flatMap_map]
  rfl

section Verification

variable (num : Numbers) (hmac : List UInt8 → Digest)

theorem Second.exact (iat : Second) : (iat.value + 15 * 60).natAbs ≤ 2 ^ 53 := by
  have hrange := iat.inRange
  omega

theorem guestPayload_canonical (sessionId tableId : List UInt16) (iat : Second) :
    Canonical num.format (guestPayload num sessionId tableId iat) := by
  have hexact (n : Int) (hn : n.natAbs ≤ 2 ^ 53) : num.format.Exact (num.ofInt n) :=
    .of_decimal (num.print_ofInt n hn) (num.read_decimal n hn)
  have hiat : iat.value.natAbs ≤ 2 ^ 53 := Nat.le_trans iat.inRange (by decide)
  refine .obj ?_ ?_
  · simp only [List.forall_mem_cons]
    exact ⟨.str _, .str _, .num (hexact _ hiat), .num (hexact _ iat.exact), by simp⟩
  · rfl

theorem expOf_guestPayload (sessionId tableId : List UInt16) (iat : Second) :
    expOf (guestPayload num sessionId tableId iat) =
      .ok (some (.num (num.ofInt (iat.value + 15 * 60)))) := rfl

theorem stringify_ne_nil (h : Canonical num.format v) :
    Base64.encode (Utf8.encode (stringify num.format.print v)) ≠ [] := by
  intro he
  have hbytes := congrArg Base64.decode he
  rw [Base64.decode_encode] at hbytes
  have htext := congrArg Utf8.decode hbytes
  rw [Utf8.decode_encode] at htext
  exact h.opens.ne_nil htext

theorem asUnits_ne_nil (h : Ascii cs) (hne : cs ≠ []) : asUnits cs ≠ [] := by
  rw [asUnits_ascii h]
  exact fun he => hne (List.map_eq_nil_iff.1 he)

theorem Digest.hex_ne_nil (d : Digest) : d.hex ≠ [] := by
  intro he
  have hlength := congrArg List.length he
  rw [Digest.hex, List.length_map, d.length_digits] at hlength
  cases hlength

theorem tryVerify_signed (h : Canonical num.format v) (now : Int) :
    tryVerify num hmac now (asUnits (Base64.encode (Utf8.encode (stringify num.format.print v)) ++
      '.' :: signature num hmac v)) =
        checkPayload num hmac now (asUnits (signature num hmac v)) v := by
  have hascii := ascii_encode (Utf8.encode (stringify num.format.print v))
  have hdot : '.' ∉ Base64.encode (Utf8.encode (stringify num.format.print v)) :=
    Base64.not_mem_encode rfl (by decide) _
  have hsigned : Ascii (signature num hmac v) := Digest.ascii_hex _
  rw [tryVerify, segments_token hascii hsigned hdot (Digest.dot_not_mem_hex _)]
  dsimp only
  rw [if_neg, decodedText, chars_asUnits hascii, Base64.decode_encode, Utf8.decode_encode,
    h.parse_stringify]
  rintro (he | he)
  · exact asUnits_ne_nil hascii (stringify_ne_nil num h) he
  · exact asUnits_ne_nil hsigned (Digest.hex_ne_nil _) he

theorem timingSafeEqual_ok_iff : timingSafeEqual a b = .ok true ↔ a = b := by
  rw [timingSafeEqual]
  split
  · rename_i hne
    exact ⟨fun h => (by cases h), fun h => absurd (congrArg List.length h) hne⟩
  · simp

theorem checkPayload_ok_iff : checkPayload num hmac now signed p = .ok q ↔
    p = q ∧ bytesOf signed = Utf8.encode (signature num hmac p) ∧
      ∃ exp, expOf p = .ok exp ∧ smallerThan num now exp = .ok false := by
  rw [checkPayload, ← timingSafeEqual_ok_iff]
  generalize timingSafeEqual _ _ = same
  cases expOf p with
  | error e => simp
  | ok exp =>
    dsimp only
    cases hsmaller : smallerThan num now exp with
    | error e => simp [hsmaller]
    | ok expired =>
      cases expired with
      | true => simp [hsmaller]
      | false =>
        cases same with
        | error e => simp
        | ok b => cases b <;> simp [hsmaller]

theorem verify_generated (sessionId tableId : List UInt16) (iat : Second) (now : Int) :
    verifyGuestToken num hmac now (generateGuestToken num hmac sessionId tableId iat).token =
      if now ≤ iat.value + 15 * 60 then .ok (guestPayload num sessionId tableId iat)
      else .error (.unauthorized "Guest token expired") := by
  have hcanonical := guestPayload_canonical num sessionId tableId iat
  have hsmaller : smallerThan num now (some (.num (num.ofInt (iat.value + 15 * 60)))) =
      .ok (decide (iat.value + 15 * 60 < now)) :=
    congrArg Except.ok (num.smaller_ofInt _ now iat.exact)
  have hsame : timingSafeEqual
      (bytesOf (asUnits (signature num hmac (guestPayload num sessionId tableId iat))))
      (Utf8.encode (signature num hmac (guestPayload num sessionId tableId iat))) = .ok true :=
    timingSafeEqual_ok_iff.2 (bytesOf_asUnits _)
  rw [verifyGuestToken, generateGuestToken, tryVerify_signed num hmac hcanonical, checkPayload,
    expOf_guestPayload]
  dsimp only
  rw [hsmaller]
  by_cases hnow : now ≤ iat.value + 15 * 60
  · rw [decide_eq_false (Int.not_lt.2 hnow), if_pos hnow, hsame]
  · rw [decide_eq_true (Int.not_le.1 hnow), if_neg hnow]

/-- A token is accepted exactly if its payload can be read, is signed, and has not expired. -/
theorem verify_ok_iff : verifyGuestToken num hmac now token = .ok p ↔
    (segments token).1 ≠ [] ∧ (segments token).2 ≠ [] ∧
      parse num.format.read (decodedText (segments token).1) = some p ∧
      bytesOf (segments token).2 = Utf8.encode (signature num hmac p) ∧
      ∃ exp, expOf p = .ok exp ∧ smallerThan num now exp = .ok false := by
  have hcaught : verifyGuestToken num hmac now token = .ok p ↔
      tryVerify num hmac now token = .ok p := by
    rw [verifyGuestToken]
    cases tryVerify num hmac now token with
    | ok q => simp
    | error e => cases e <;> simp
  rw [hcaught, tryVerify]
  dsimp only
  split
  · rename_i hempty
    refine ⟨fun h => (by cases h), fun h => ?_⟩
    exact (hempty.elim h.1 h.2.1).elim
  · rename_i hgiven
    rw [not_or] at hgiven
    cases parse num.format.read (decodedText (segments token).1) with
    | none => simp
    | some q =>
      dsimp only
      rw [checkPayload_ok_iff]
      constructor
      · rintro ⟨rfl, hsigned, hexp⟩
        exact ⟨hgiven.1, hgiven.2, rfl, hsigned, hexp⟩
      · rintro ⟨_, _, hq, hsigned, hexp⟩
        cases hq
        exact ⟨rfl, hsigned, hexp⟩

theorem verify_error (h : verifyGuestToken num hmac now token = .error e) :
    ∃ message, e = .unauthorized message := by
  rw [verifyGuestToken] at h
  split at h
  · cases h
  · cases h
    exact ⟨_, rfl⟩
  · cases h
    exact ⟨_, rfl⟩

/-- A guest token is good for its payload until it expires, and nothing but a payload that is signed
and has not expired is ever accepted: any other text is refused as unauthorized. -/
theorem guestToken_verified (now : Int) :
    (∀ (sessionId tableId : List UInt16) (iat : Second),
      verifyGuestToken num hmac now (generateGuestToken num hmac sessionId tableId iat).token =
        if now ≤ iat.value + 15 * 60 then .ok (guestPayload num sessionId tableId iat)
        else .error (.unauthorized "Guest token expired")) ∧
    ∀ token : List UInt16,
      (∃ message, verifyGuestToken num hmac now token = .error (.unauthorized message)) ∨
        ∃ p, verifyGuestToken num hmac now token = .ok p ∧
          (segments token).2 = asUnits (hmac (Utf8.encode (stringify num.format.print p))).hex ∧
          ∃ exp, expOf p = .ok exp ∧ smallerThan num now exp = .ok false := by
  refine ⟨fun sessionId tableId iat => verify_generated num hmac sessionId tableId iat now,
    fun token => ?_⟩
  cases hverify : verifyGuestToken num hmac now token with
  | error e =>
    obtain ⟨message, rfl⟩ := verify_error num hmac hverify
    exact .inl ⟨message, rfl⟩
  | ok p =>
    obtain ⟨_, _, _, hbytes, hexp⟩ := (verify_ok_iff num hmac).1 hverify
    exact .inr ⟨p, rfl, eq_of_bytesOf (Digest.ascii_hex _) hbytes, hexp⟩

end Verification

/-- The whole number that a decimal text stands for. -/
def wholeOf : List Char → Int
  | '-' :: ds => -(Nat.ofDigitChars 10 ds 0)
  | ds => Nat.ofDigitChars 10 ds 0

theorem wholeOf_decimal (n : Int) : wholeOf (decimal n) = n := by
  rw [decimal]
  split
  · rw [wholeOf, Nat.ofDigitChars_ten_toDigits]
    omega
  · have hsign : '-' ∉ Nat.toDigits 10 n.natAbs := fun hmem => by
      cases isDigit_digits hmem
    have hwhole : wholeOf (Nat.toDigits 10 n.natAbs) =
        Nat.ofDigitChars 10 (Nat.toDigits 10 n.natAbs) 0 := by
      generalize Nat.toDigits 10 n.natAbs = ds at hsign
      cases ds with
      | nil => rfl
      | cons d ds =>
        rw [wholeOf.eq_2]
        rintro ds' he
        exact hsign ((List.cons.inj he).1 ▸ List.mem_cons_self)
    rw [hwhole, Nat.ofDigitChars_ten_toDigits]
    omega

/-- Numbers that are kept as they are written, and compared as whole numbers. -/
def writtenNumbers : Numbers where
  Number := List Char
  format := ⟨id, id⟩
  ofInt := decimal
  smaller x second := decide (wholeOf x < second)
  textSmaller _ _ := false
  objectSmaller _ _ := none
  print_ofInt _ _ := rfl
  read_decimal _ _ := rfl
  smaller_ofInt n second _ := congrArg (fun m => decide (m < second)) (wholeOf_decimal n)

/-- A hash that ignores what it is given. -/
def constantDigest : Digest := ⟨List.replicate 64 0, List.length_replicate⟩

example : (verifyGuestToken writtenNumbers (fun _ => constantDigest) 900
    (generateGuestToken writtenNumbers (fun _ => constantDigest) (key "g") (key "t")
      ⟨0, Nat.zero_le _⟩).token).toBool = true := by decide +kernel

end DineFlow.TokenText
