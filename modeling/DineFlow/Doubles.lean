import Mathlib

namespace Doubles
set_option autoImplicit true

/-- The nearest integer, and of two that are equally near the even one. -/
def nearest (x : Rat) : Int :=
  if x - x.floor < 1 / 2 then x.floor
  else if 1 / 2 < x - x.floor then x.floor + 1
  else if x.floor % 2 = 0 then x.floor
  else x.floor + 1

/-- The last place of a number with 53 significant bits. -/
def ulp (x : Rat) : Rat := 2 ^ (Int.log 2 |x| - 52)

/-- The double that is nearest to a number, for numbers that are neither so large nor so small
that the exponent of a double does not reach them. -/
def round (x : Rat) : Rat := nearest (x / ulp x) * ulp x

theorem nearest_intCast (n : Int) : nearest n = n := by
  have hfloor : (n : Rat).floor = n := Rat.floor_intCast n
  rw [nearest, hfloor, sub_self, if_pos one_half_pos]

theorem floor_le_nearest (x : Rat) : x.floor ≤ nearest x := by
  rw [nearest]
  split
  · exact le_rfl
  · split
    · exact Int.le_add_one le_rfl
    · split
      · exact le_rfl
      · exact Int.le_add_one le_rfl

theorem floor_nonneg (h : 0 ≤ x) : 0 ≤ Rat.floor x := Rat.le_floor_iff.2 (by exact_mod_cast h)

theorem nearest_nonneg (h : 0 ≤ x) : 0 ≤ nearest x := (floor_nonneg h).trans (floor_le_nearest x)

theorem ulp_pos (x : Rat) : 0 < ulp x := zpow_pos (by decide) _

theorem round_nonneg (h : 0 ≤ x) : 0 ≤ round x := by
  have hquotient : 0 ≤ x / ulp x := div_nonneg h (ulp_pos x).le
  exact mul_nonneg (by exact_mod_cast nearest_nonneg hquotient) (ulp_pos x).le

theorem round_of_multiple {m : Int} (h : x = m * ulp x) : round x = x := by
  have hquotient : x / ulp x = m := by
    rw [div_eq_iff (ulp_pos x).ne', ← h]
  rw [round, hquotient, nearest_intCast, ← h]

theorem log_nonneg {n : Int} (h : n ≠ 0) : 0 ≤ Int.log 2 |(n : Rat)| := by
  have hone : (1 : Rat) ≤ |(n : Rat)| := by exact_mod_cast Int.one_le_abs h
  rw [Int.log_of_one_le_right 2 hone]
  exact Int.natCast_nonneg _

theorem log_le {n : Int} (hn : n ≠ 0) (h : n.natAbs ≤ 2 ^ 53) : Int.log 2 |(n : Rat)| ≤ 53 := by
  have hpos : 0 < |(n : Rat)| := abs_pos.2 (by exact_mod_cast hn)
  have hlow : (2 : Rat) ^ Int.log 2 |(n : Rat)| ≤ |(n : Rat)| := by
    exact_mod_cast Int.zpow_log_le_self (b := 2) (by decide) hpos
  have hhigh : |(n : Rat)| ≤ 2 ^ (53 : Int) := by
    rw [← Int.cast_abs, Int.abs_eq_natAbs]
    exact_mod_cast h
  exact (zpow_le_zpow_iff_right₀ (by decide)).1 (hlow.trans hhigh)

theorem multiple_of_log_le {n : Int} {e : Nat} (he : Int.log 2 |(n : Rat)| = e) (hle : e ≤ 52) :
    (n : Rat) = (n * 2 ^ (52 - e) : Int) * ulp n := by
  have hpow : (2 : Rat) ^ (52 - e) * 2 ^ ((e : Int) - 52) = 1 := by
    have hsum : ((52 : Nat) : Int) - e + (e - 52) = 0 := by omega
    rw [← zpow_natCast, ← zpow_add₀ (by decide), Nat.cast_sub hle, hsum, zpow_zero]
  rw [ulp, he, Int.cast_mul, Int.cast_pow, mul_assoc]
  exact (mul_one (n : Rat)).symm.trans (congrArg ((n : Rat) * ·) hpow.symm)

theorem multiple_of_full {n : Int} (hlog : Int.log 2 |(n : Rat)| = 53) (h : n.natAbs = 2 ^ 53) :
    (n : Rat) = (n / 2 : Int) * ulp n := by
  have hulp : ulp (n : Rat) = 2 := by
    rw [ulp, hlog]
    rfl
  have heven : n = n / 2 * 2 := by omega
  rw [hulp]
  exact_mod_cast heven

/-- Whole numbers are doubles up to the 53 bits that a double has. -/
theorem round_intCast {n : Int} (h : n.natAbs ≤ 2 ^ 53) : round n = n := by
  by_cases hn : n = 0
  · rw [hn, Int.cast_zero, round, zero_div, ← Int.cast_zero, nearest_intCast, Int.cast_zero,
      zero_mul]
  · obtain ⟨e, he⟩ := Int.eq_ofNat_of_zero_le (log_nonneg hn)
    have hle := log_le hn h
    rcases Nat.lt_or_ge 52 e with hlarge | hsmall
    · have hlog : Int.log 2 |(n : Rat)| = 53 := by omega
      have hpos : 0 < |(n : Rat)| := abs_pos.2 (by exact_mod_cast hn)
      have hlow : (2 : Rat) ^ (53 : Int) ≤ |(n : Rat)| := by
        rw [← hlog]
        exact_mod_cast Int.zpow_log_le_self (b := 2) (by decide) hpos
      rw [← Int.cast_abs, Int.abs_eq_natAbs] at hlow
      have hfull : 2 ^ 53 ≤ n.natAbs := by exact_mod_cast hlow
      exact round_of_multiple (multiple_of_full hlog (le_antisymm h hfull))
    · exact round_of_multiple (multiple_of_log_le he hsmall)

theorem one_le_round (h : 1 ≤ x) : 1 ≤ round x := by
  have habs : |x| = x := abs_of_nonneg (zero_le_one.trans h)
  have hlow : (2 : Rat) ^ Int.log 2 |x| ≤ x := by
    have hself := Int.zpow_log_le_self (b := 2) (by decide) (zero_lt_one.trans_le h)
    rw [habs]
    exact_mod_cast hself
  have hone : (1 : Rat) ≤ 2 ^ Int.log 2 |x| := by
    rw [habs, Int.log_of_one_le_right 2 h, zpow_natCast]
    exact one_le_pow₀ (by decide)
  have hbits : ((2 ^ 52 : Int) : Rat) * ulp x = 2 ^ Int.log 2 |x| := by
    have hsum : ((52 : Nat) : Int) + (Int.log 2 |x| - 52) = Int.log 2 |x| := by omega
    rw [ulp, Int.cast_pow, ← zpow_natCast, Int.cast_ofNat, ← zpow_add₀ (by decide), hsum]
  have hquotient : 2 ^ 52 ≤ nearest (x / ulp x) := by
    refine le_trans (Rat.le_floor_iff.2 ?_) (floor_le_nearest _)
    rw [le_div_iff₀ (ulp_pos x), hbits]
    exact hlow
  calc (1 : Rat) ≤ 2 ^ Int.log 2 |x| := hone
    _ = (2 ^ 52 : Int) * ulp x := hbits.symm
    _ ≤ nearest (x / ulp x) * ulp x :=
      mul_le_mul_of_nonneg_right (Int.cast_le.2 hquotient) (ulp_pos x).le

/-- The sum of two doubles that are whole numbers. It is one itself. -/
def addWhole (m n : Int) : Int := (round (m + n : Int)).floor

theorem addWhole_eq {m n : Int} (h : (m + n).natAbs ≤ 2 ^ 53) : addWhole m n = m + n := by
  rw [addWhole, round_intCast h, Rat.floor_intCast]

theorem one_le_addWhole {m n : Int} (h : 1 ≤ m + n) : 1 ≤ addWhole m n := by
  have hsum : (1 : Rat) ≤ (m + n : Int) := by exact_mod_cast h
  exact Rat.le_floor_iff.2 (by exact_mod_cast one_le_round hsum)

/-- The decimal of `k` digits that is read as the number, if there is one: the nearest, or else one
of the two around the number. -/
def decimal (k : Nat) (x : Rat) : Option Rat :=
  let place : Rat := 10 ^ (Int.log 10 |x| + 1 - k)
  let low := (x / place).floor * place
  [nearest (x / place) * place, low, low + place].find? fun d => round d = x

/-- The decimal that a double is printed as: of those that are read as it, one with the fewest
digits. Seventeen are always enough. -/
def print (x : Rat) : Rat := ((List.range' 1 17).findSome? fun k => decimal k x).getD x

theorem decimal_nonneg (h : 0 ≤ x) (hd : decimal k x = some d) : 0 ≤ d := by
  have hplace : (0 : Rat) < 10 ^ (Int.log 10 |x| + 1 - (k : Int)) := zpow_pos (by decide) _
  have hquotient := div_nonneg h hplace.le
  have hmem := List.mem_of_find?_eq_some hd
  have hnear := mul_nonneg (Int.cast_nonneg (R := Rat) (nearest_nonneg hquotient)) hplace.le
  have hlow := mul_nonneg (Int.cast_nonneg (R := Rat) (floor_nonneg hquotient)) hplace.le
  simp only [List.mem_cons, List.not_mem_nil, or_false] at hmem
  rcases hmem with rfl | rfl | rfl
  · exact hnear
  · exact hlow
  · exact add_nonneg hlow hplace.le

theorem print_nonneg (h : 0 ≤ x) : 0 ≤ print x := by
  rw [print]
  cases hfound : (List.range' 1 17).findSome? fun k => decimal k x with
  | none => exact h
  | some d =>
    obtain ⟨k, _, hk⟩ := List.exists_of_findSome?_eq_some hfound
    exact decimal_nonneg h hk

end Doubles
