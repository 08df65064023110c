import Mathlib

namespace Base64
set_option autoImplicit true

/-- The six-bit groups of a byte sequence, without padding. -/
def toSextets : List UInt8 → List Nat
  | a :: b :: c :: rest =>
    a.toNat / 4 :: (a.toNat % 4 * 16 + b.toNat / 16) :: (b.toNat % 16 * 4 + c.toNat / 64) ::
      c.toNat % 64 :: toSextets rest
  | [a, b] => [a.toNat / 4, a.toNat % 4 * 16 + b.toNat / 16, b.toNat % 16 * 4]
  | [a] => [a.toNat / 4, a.toNat % 4 * 16]
  | [] => []

/-- The whole bytes held by a sequence of six-bit groups. -/
def ofSextets : List Nat → List UInt8
  | w :: x :: y :: z :: rest =>
    UInt8.ofNat (w * 4 + x / 16) :: UInt8.ofNat (x % 16 * 16 + y / 4) ::
      UInt8.ofNat (y % 4 * 64 + z) :: ofSextets rest
  | [w, x, y] => [UInt8.ofNat (w * 4 + x / 16), UInt8.ofNat (x % 16 * 16 + y / 4)]
  | [w, x] => [UInt8.ofNat (w * 4 + x / 16)]
  | _ => []

theorem ofNat_eq_of_toNat {n : Nat} {a : UInt8} (h : n = a.toNat) : UInt8.ofNat n = a := by
  rw [h, UInt8.ofNat_toNat]

theorem ofSextets_toSextets (bs : List UInt8) : ofSextets (toSextets bs) = bs := by
  induction bs using toSextets.induct with
  | case1 a b c rest ih =>
    have ha := a.toNat_lt
    have hb := b.toNat_lt
    have hc := c.toNat_lt
    rw [toSextets, ofSextets, ih]
    congr 1
    · exact ofNat_eq_of_toNat (by omega)
    · congr 1
      · exact ofNat_eq_of_toNat (by omega)
      · congr 1
        exact ofNat_eq_of_toNat (by omega)
  | case2 a b =>
    have ha := a.toNat_lt
    have hb := b.toNat_lt
    rw [toSextets, ofSextets]
    congr 1
    · exact ofNat_eq_of_toNat (by omega)
    · congr 1
      exact ofNat_eq_of_toNat (by omega)
  | case3 a =>
    have ha := a.toNat_lt
    rw [toSextets, ofSextets]
    congr 1
    exact ofNat_eq_of_toNat (by omega)
  | case4 => rfl

theorem toSextets_lt (bs : List UInt8) : ∀ n ∈ toSextets bs, n < 64 := by
  induction bs using toSextets.induct with
  | case1 a b c rest ih =>
    have ha := a.toNat_lt
    have hb := b.toNat_lt
    have hc := c.toNat_lt
    intro n hn
    simp only [toSextets, List.mem_cons] at hn
    rcases hn with hn | hn | hn | hn | hn
    · omega
    · omega
    · omega
    · omega
    · exact ih n hn
  | case2 a b =>
    have ha := a.toNat_lt
    have hb := b.toNat_lt
    intro n hn
    simp only [toSextets, List.mem_cons, List.not_mem_nil, or_false] at hn
    rcases hn with hn | hn | hn <;> omega
  | case3 a =>
    have ha := a.toNat_lt
    intro n hn
    simp only [toSextets, List.mem_cons, List.not_mem_nil, or_false] at hn
    rcases hn with hn | hn <;> omega
  | case4 =>
    intro n hn
    cases hn

def alphabet : List Char :=
  ['A', 'B', 'C', 'D', 'E', 'F', 'G', 'H', 'I', 'J', 'K', 'L', 'M', 'N', 'O', 'P',
   'Q', 'R', 'S', 'T', 'U', 'V', 'W', 'X', 'Y', 'Z', 'a', 'b', 'c', 'd', 'e', 'f',
   'g', 'h', 'i', 'j', 'k', 'l', 'm', 'n', 'o', 'p', 'q', 'r', 's', 't', 'u', 'v',
   'w', 'x', 'y', 'z', '0', '1', '2', '3', '4', '5', '6', '7', '8', '9', '+', '/']

def symbol (n : Nat) : Char := alphabet.getD n '='

def value (c : Char) : Option Nat :=
  let i := alphabet.idxOf c
  if i < 64 then some i else none

theorem value_symbol (h : n < 64) : value (symbol n) = some n := by
  have hall : ∀ n : Fin 64, value (symbol n) = some n.val := by decide
  exact hall ⟨n, h⟩

/-- The padding that completes the last block of four characters. -/
def padding (n : Nat) : List Char :=
  match n % 3 with
  | 1 => ['=', '=']
  | 2 => ['=']
  | _ => []

def encode (bs : List UInt8) : List Char := (toSextets bs).map symbol ++ padding bs.length

theorem filterMap_value_padding (n : Nat) : (padding n).filterMap value = [] := by
  unfold padding
  split <;> decide

theorem filterMap_symbol {read : Char → Option Nat} (hread : ∀ n < 64, read (symbol n) = some n)
    {ns : List Nat} (h : ∀ n ∈ ns, n < 64) : (ns.map symbol).filterMap read = ns := by
  induction ns with
  | nil => rfl
  | cons n ns ih =>
    rw [List.map_cons, List.filterMap_cons, hread n (h n List.mem_cons_self)]
    simp only [ih fun m hm => h m (List.mem_cons_of_mem n hm)]

theorem filterMap_value_encode (bs : List UInt8) :
    (encode bs).filterMap value = toSextets bs := by
  rw [encode, List.filterMap_append, filterMap_value_padding, List.append_nil]
  exact filterMap_symbol (fun n hn => value_symbol hn) (toSextets_lt bs)

theorem encode_injective : Function.Injective encode := by
  intro xs ys h
  have hs := congrArg (fun cs => ofSextets (cs.filterMap value)) h
  simpa only [filterMap_value_encode, ofSextets_toSextets] using hs

theorem not_mem_encode (hv : value c = none) (hp : c ≠ '=') (bs : List UInt8) :
    c ∉ encode bs := by
  intro h
  rcases List.mem_append.1 h with h | h
  · obtain ⟨n, hn, rfl⟩ := List.mem_map.1 h
    rw [value_symbol (toSextets_lt bs n hn)] at hv
    cases hv
  · unfold padding at h
    split at h <;> simp [hp] at h

/-- What a lenient decoder takes a character for; the alphabet for URLs is known to it too. -/
def lenientValue (c : Char) : Option Nat :=
  if c = '-' then some 62 else if c = '_' then some 63 else value c

/-- The bytes of a text up to its padding; what is not in an alphabet is skipped. -/
def decode (cs : List Char) : List UInt8 :=
  ofSextets ((cs.takeWhile fun c => c ≠ '=').filterMap lenientValue)

theorem symbol_read : ∀ n < 64, symbol n ≠ '=' ∧ lenientValue (symbol n) = some n := by
  have hall : ∀ n : Fin 64, symbol n ≠ '=' ∧ lenientValue (symbol n) = some n.val := by decide
  exact fun n hn => hall ⟨n, hn⟩

theorem decode_encode (bs : List UInt8) : decode (encode bs) = bs := by
  have hsymbols : ∀ c ∈ (toSextets bs).map symbol, decide (c ≠ '=') = true := by
    intro c hc
    obtain ⟨n, hn, rfl⟩ := List.mem_map.1 hc
    exact decide_eq_true (symbol_read n (toSextets_lt bs n hn)).1
  have hpadding : (padding bs.length).takeWhile (fun c => c ≠ '=') = [] := by
    unfold padding
    split <;> rfl
  rw [decode, encode, List.takeWhile_append_of_pos hsymbols, hpadding, List.append_nil,
    filterMap_symbol (fun n hn => (symbol_read n hn).2) (toSextets_lt bs), ofSextets_toSextets]

end Base64
