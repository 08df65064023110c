import Mathlib

namespace Utf16
set_option autoImplicit true

/-- The code units of a character. -/
def units (c : Char) : List UInt16 :=
  if c.toNat < 0x10000 then [UInt16.ofNat c.toNat]
  else [UInt16.ofNat (0xD800 + (c.toNat - 0x10000) / 0x400),
    UInt16.ofNat (0xDC00 + (c.toNat - 0x10000) % 0x400)]

def isHigh (u : UInt16) : Bool := 0xD800 ≤ u.toNat && u.toNat < 0xDC00

def isLow (u : UInt16) : Bool := 0xDC00 ≤ u.toNat && u.toNat < 0xE000

/-- What a sequence of code units consists of: characters, and surrogates outside a pair. -/
inductive Point where
  | char (c : Char)
  | lone (u : UInt16)
  deriving DecidableEq

def Point.units : Point → List UInt16
  | .char c => Utf16.units c
  | .lone u => [u]

/-- A code unit that is not part of a pair. -/
def single (u : UInt16) : Point :=
  if isHigh u || isLow u then .lone u else .char (Char.ofNat u.toNat)

/-- The character that a pair of surrogates stands for. -/
def paired (hi lo : UInt16) : Char :=
  Char.ofNat (0x10000 + (hi.toNat - 0xD800) * 0x400 + (lo.toNat - 0xDC00))

def points : List UInt16 → List Point
  | [] => []
  | [u] => [single u]
  | u :: v :: us =>
    if isHigh u && isLow v then .char (paired u v) :: points us else single u :: points (v :: us)

theorem toNat_ofNat (h : n.isValidChar) : (Char.ofNat n).toNat = n := by
  rw [Char.ofNat, dif_pos h]
  rfl

theorem units_single (u : UInt16) : (single u).units = [u] := by
  have hlt := u.toNat_lt
  rw [single]
  split
  · rfl
  · rename_i h
    simp only [isHigh, isLow, Bool.or_eq_true, Bool.and_eq_true, decide_eq_true_eq, not_or] at h
    have hvalid : u.toNat.isValidChar := by
      simp only [Nat.isValidChar]
      omega
    rw [Point.units, units, toNat_ofNat hvalid, if_pos hlt, UInt16.ofNat_toNat]

theorem units_paired (hu : isHigh u = true) (hv : isLow v = true) :
    units (paired u v) = [u, v] := by
  simp only [isHigh, isLow, Bool.and_eq_true, decide_eq_true_eq] at hu hv
  rw [units, paired]
  generalize hn : 0x10000 + (u.toNat - 0xD800) * 0x400 + (v.toNat - 0xDC00) = n
  have hvalid : n.isValidChar := by
    simp only [Nat.isValidChar]
    omega
  have hhigh : 0xD800 + (n - 0x10000) / 0x400 = u.toNat := by omega
  have hlow : 0xDC00 + (n - 0x10000) % 0x400 = v.toNat := by omega
  rw [toNat_ofNat hvalid, if_neg (by omega), hhigh, hlow, UInt16.ofNat_toNat, UInt16.ofNat_toNat]

/-- Nothing is lost in the points of a sequence. -/
theorem units_points (us : List UInt16) : (points us).flatMap Point.units = us := by
  induction us using points.induct with
  | case1 => rfl
  | case2 u => rw [points, List.flatMap_singleton, units_single]
  | case3 u v us h ih =>
    rw [points, if_pos h, List.flatMap_cons, ih]
    rw [Bool.and_eq_true] at h
    rw [Point.units, units_paired h.1 h.2]
    rfl
  | case4 u v us h ih =>
    rw [points, if_neg h, List.flatMap_cons, ih, units_single]
    rfl

theorem points_cons (h : isHigh u = false) (us : List UInt16) :
    points (u :: us) = single u :: points us := by
  cases us with
  | nil => rfl
  | cons v us => rw [points, h, Bool.false_and, if_neg Bool.false_ne_true]

theorem points_units_append (c : Char) (us : List UInt16) :
    points (units c ++ us) = .char c :: points us := by
  have hvalid : c.toNat.isValidChar := c.valid
  simp only [Nat.isValidChar] at hvalid
  rw [units]
  split
  · rename_i hlt
    have hunit : (UInt16.ofNat c.toNat).toNat = c.toNat := UInt16.toNat_ofNat_of_lt hlt
    have hhigh : isHigh (UInt16.ofNat c.toNat) = false := by
      simp only [isHigh, hunit, Bool.and_eq_false_iff, decide_eq_false_iff_not]
      omega
    have hlow : isLow (UInt16.ofNat c.toNat) = false := by
      simp only [isLow, hunit, Bool.and_eq_false_iff, decide_eq_false_iff_not]
      omega
    rw [List.singleton_append, points_cons hhigh, single, hhigh, hlow, hunit, Char.ofNat_toNat]
    rfl
  · rename_i hle
    generalize hhi : 0xD800 + (c.toNat - 0x10000) / 0x400 = hi
    generalize hlo : 0xDC00 + (c.toNat - 0x10000) % 0x400 = lo
    have hhiNat : (UInt16.ofNat hi).toNat = hi :=
      UInt16.toNat_ofNat_of_lt (by change _ < 65536; omega)
    have hloNat : (UInt16.ofNat lo).toNat = lo :=
      UInt16.toNat_ofNat_of_lt (by change _ < 65536; omega)
    have hpair : (isHigh (UInt16.ofNat hi) && isLow (UInt16.ofNat lo)) = true := by
      simp only [isHigh, isLow, hhiNat, hloNat, Bool.and_eq_true, decide_eq_true_eq]
      omega
    have hchar : 0x10000 + (hi - 0xD800) * 0x400 + (lo - 0xDC00) = c.toNat := by omega
    change points (UInt16.ofNat hi :: UInt16.ofNat lo :: us) = _
    rw [points, if_pos hpair, paired, hhiNat, hloNat, hchar, Char.ofNat_toNat]

/-- A text is the sequence of its characters. -/
theorem points_units (cs : List Char) : points (cs.flatMap units) = cs.map .char := by
  induction cs with
  | nil => rfl
  | cons c cs ih => rw [List.flatMap_cons, points_units_append, ih, List.map_cons]

end Utf16
