import Mathlib

namespace Utf8
set_option autoImplicit true

def replacement : Char := '\uFFFD'

/-- Where a decoder stands: the bytes it still needs for a character, the range that the next of
them has to be in, and the bits it has read of it. -/
structure State where
  needed : Nat
  lower : Nat
  upper : Nat
  point : Nat
  deriving DecidableEq

def start : State := ⟨0, 0x80, 0xBF, 0⟩

/-- The first byte of a character. -/
def first (b : Nat) : List Char × State :=
  if b ≤ 0x7F then ([Char.ofNat b], start)
  else if 0xC2 ≤ b ∧ b ≤ 0xDF then ([], ⟨1, 0x80, 0xBF, b % 0x20⟩)
  else if 0xE0 ≤ b ∧ b ≤ 0xEF then
    ([], ⟨2, if b = 0xE0 then 0xA0 else 0x80, if b = 0xED then 0x9F else 0xBF, b % 0x10⟩)
  else if 0xF0 ≤ b ∧ b ≤ 0xF4 then
    ([], ⟨3, if b = 0xF0 then 0x90 else 0x80, if b = 0xF4 then 0x8F else 0xBF, b % 0x08⟩)
  else ([replacement], start)

/-- A byte that cannot go on with the character ends it, and is read again as a first byte. -/
def step (st : State) (b : Nat) : List Char × State :=
  if st.needed = 0 then first b
  else if st.lower ≤ b ∧ b ≤ st.upper then
    if st.needed = 1 then ([Char.ofNat (st.point * 0x40 + b % 0x40)], start)
    else ([], ⟨st.needed - 1, 0x80, 0xBF, st.point * 0x40 + b % 0x40⟩)
  else (replacement :: (first b).1, (first b).2)

def decodeFrom : State → List UInt8 → List Char
  | st, [] => if st.needed = 0 then [] else [replacement]
  | st, b :: bs => (step st b.toNat).1 ++ decodeFrom (step st b.toNat).2 bs

/-- The text of a sequence of bytes, with replacement characters for what is not UTF-8. -/
def decode (bs : List UInt8) : List Char := decodeFrom start bs

def encode (cs : List Char) : List UInt8 := cs.flatMap String.utf8EncodeChar

theorem step_start (b : Nat) : step start b = first b := rfl

theorem step_more (h : lower ≤ b ∧ b ≤ upper) (n point : Nat) :
    step ⟨n + 2, lower, upper, point⟩ b = ([], ⟨n + 1, 0x80, 0xBF, point * 0x40 + b % 0x40⟩) := by
  rw [step, if_neg (Nat.succ_ne_zero _), if_pos h, if_neg (by simp)]
  rfl

theorem step_last (h : lower ≤ b ∧ b ≤ upper) (point : Nat) :
    step ⟨1, lower, upper, point⟩ b = ([Char.ofNat (point * 0x40 + b % 0x40)], start) := by
  rw [step, if_neg Nat.one_ne_zero, if_pos h, if_pos rfl]

theorem decodeFrom_cons (hb : b < 256) (h : step st b = (cs, st')) (bs : List UInt8) :
    decodeFrom st (UInt8.ofNat b :: bs) = cs ++ decodeFrom st' bs := by
  have hbyte : (UInt8.ofNat b).toNat = b := UInt8.toNat_ofNat_of_lt hb
  rw [decodeFrom, hbyte, h]

theorem decodeFrom_two (hn : 0x80 ≤ n ∧ n ≤ 0x7FF) (bs : List UInt8) :
    decodeFrom start (UInt8.ofNat (n / 64 % 32 + 192) :: UInt8.ofNat (n % 64 + 128) :: bs) =
      Char.ofNat n :: decodeFrom start bs := by
  have hfirst : step start (n / 64 % 32 + 192) = ([], ⟨1, 0x80, 0xBF, n / 64⟩) := by
    rw [step_start, first, if_neg (by omega), if_pos (by omega)]
    have hpoint : (n / 64 % 32 + 192) % 0x20 = n / 64 := by omega
    rw [hpoint]
  have hpoint : n / 64 * 0x40 + (n % 64 + 128) % 0x40 = n := by omega
  rw [decodeFrom_cons (by omega) hfirst, decodeFrom_cons (by omega) (step_last (by omega) _),
    hpoint]
  rfl

theorem decodeFrom_three (hn : 0x800 ≤ n ∧ n ≤ 0xFFFF) (hvalid : n < 0xD800 ∨ 0xDFFF < n)
    (bs : List UInt8) :
    decodeFrom start (UInt8.ofNat (n / 4096 % 16 + 224) :: UInt8.ofNat (n / 64 % 64 + 128) ::
      UInt8.ofNat (n % 64 + 128) :: bs) = Char.ofNat n :: decodeFrom start bs := by
  have hfirst : ∃ lower upper,
      step start (n / 4096 % 16 + 224) = ([], ⟨2, lower, upper, n / 4096⟩) ∧
      lower ≤ n / 64 % 64 + 128 ∧ n / 64 % 64 + 128 ≤ upper := by
    have hpoint : (n / 4096 % 16 + 224) % 0x10 = n / 4096 := by omega
    rw [step_start, first, if_neg (by omega), if_neg (by omega), if_pos (by omega), hpoint]
    refine ⟨_, _, rfl, ?_, ?_⟩
    · split <;> omega
    · split <;> omega
  obtain ⟨lower, upper, hfirst, hrange⟩ := hfirst
  have hpoint :
      (n / 4096 * 0x40 + (n / 64 % 64 + 128) % 0x40) * 0x40 + (n % 64 + 128) % 0x40 = n := by
    omega
  rw [decodeFrom_cons (by omega) hfirst, decodeFrom_cons (by omega) (step_more hrange 0 _),
    decodeFrom_cons (by omega) (step_last (by omega) _), hpoint]
  rfl

theorem decodeFrom_four (hn : 0x10000 ≤ n ∧ n < 0x110000) (bs : List UInt8) :
    decodeFrom start (UInt8.ofNat (n / 262144 % 8 + 240) :: UInt8.ofNat (n / 4096 % 64 + 128) ::
      UInt8.ofNat (n / 64 % 64 + 128) :: UInt8.ofNat (n % 64 + 128) :: bs) =
        Char.ofNat n :: decodeFrom start bs := by
  have hfirst : ∃ lower upper,
      step start (n / 262144 % 8 + 240) = ([], ⟨3, lower, upper, n / 262144⟩) ∧
      lower ≤ n / 4096 % 64 + 128 ∧ n / 4096 % 64 + 128 ≤ upper := by
    have hpoint : (n / 262144 % 8 + 240) % 0x08 = n / 262144 := by omega
    rw [step_start, first, if_neg (by omega), if_neg (by omega), if_neg (by omega),
      if_pos (by omega), hpoint]
    refine ⟨_, _, rfl, ?_, ?_⟩
    · split <;> omega
    · split <;> omega
  obtain ⟨lower, upper, hfirst, hrange⟩ := hfirst
  have hpoint : ((n / 262144 * 0x40 + (n / 4096 % 64 + 128) % 0x40) * 0x40 +
      (n / 64 % 64 + 128) % 0x40) * 0x40 + (n % 64 + 128) % 0x40 = n := by omega
  rw [decodeFrom_cons (by omega) hfirst, decodeFrom_cons (by omega) (step_more hrange 1 _),
    decodeFrom_cons (by omega) (step_more (by omega) 0 _),
    decodeFrom_cons (by omega) (step_last (by omega) _), hpoint]
  rfl

theorem decodeFrom_encodeChar (c : Char) (bs : List UInt8) :
    decodeFrom start (String.utf8EncodeChar c ++ bs) = c :: decodeFrom start bs := by
  have hvalid : c.toNat.isValidChar := c.valid
  simp only [Nat.isValidChar] at hvalid
  have hnat : c.val.toNat = c.toNat := rfl
  have hchar := Char.ofNat_toNat c
  rw [String.utf8EncodeChar.eq_1, hnat]
  generalize c.toNat = n at hvalid hchar
  rw [← hchar]
  split
  · rename_i h
    have hfirst : step start n = ([Char.ofNat n], start) := by rw [step_start, first, if_pos h]
    exact decodeFrom_cons (by omega) hfirst bs
  · split
    · exact decodeFrom_two (by omega) bs
    · split
      · exact decodeFrom_three (by omega) (by omega) bs
      · exact decodeFrom_four (by omega) bs

theorem decode_encode (cs : List Char) : decode (encode cs) = cs := by
  induction cs with
  | nil => rfl
  | cons c cs ih =>
    rw [decode, encode, List.flatMap_cons, decodeFrom_encodeChar]
    exact congrArg _ ih

end Utf8
