import DineFlow.Doubles

namespace DineFlow
set_option autoImplicit true

/-- A decimal as a `numeric(10,2)` column stores it: two places, ties away from zero. -/
def toCents (price : Rat) : Int :=
  if 0 ≤ price then (price * 100 + 1 / 2).floor else -(-price * 100 + 1 / 2).floor

/-- How the server adds up what dishes cost. Of prices in cents and their quantities, in the order
of the items, it makes a number, and the column of the total stores that number in cents. -/
structure Arithmetic where
  total : List (Int × Int) → Rat
  cents : List (Int × Int) → Int
  cents_nonneg : ∀ items, (∀ i ∈ items, 0 ≤ i.1 ∧ 0 ≤ i.2) → 0 ≤ cents items

def exactTotal (items : List (Int × Int)) : Int := (items.map fun i => i.1 * i.2).sum

theorem exactTotal_nonneg (items : List (Int × Int)) (h : ∀ i ∈ items, 0 ≤ i.1 ∧ 0 ≤ i.2) :
    0 ≤ exactTotal items := by
  apply List.sum_nonneg
  intro x hx
  obtain ⟨i, hi, rfl⟩ := List.mem_map.1 hx
  exact mul_nonneg (h i hi).1 (h i hi).2

/-- Decimals that are added exactly. -/
def Arithmetic.exact : Arithmetic where
  total items := exactTotal items / 100
  cents := exactTotal
  cents_nonneg := exactTotal_nonneg

/-- The sum as the language has it: each price, each product and each sum is rounded to a double. -/
def doubleTotal (items : List (Int × Int)) : Rat :=
  items.foldl (fun total i => Doubles.round
    (total + Doubles.round (Doubles.round (i.1 / 100) * i.2))) 0

theorem doubleTotal_nonneg (items : List (Int × Int)) (h : ∀ i ∈ items, 0 ≤ i.1 ∧ 0 ≤ i.2) :
    0 ≤ doubleTotal items := by
  have hsum (total : Rat) (htotal : 0 ≤ total) : 0 ≤ items.foldl (fun total i => Doubles.round
      (total + Doubles.round (Doubles.round (i.1 / 100) * i.2))) total := by
    induction items generalizing total with
    | nil => exact htotal
    | cons i items ih =>
      obtain ⟨hi, hitems⟩ := List.forall_mem_cons.1 h
      have hprice : (0 : Rat) ≤ Doubles.round (i.1 / 100) :=
        Doubles.round_nonneg (div_nonneg (Int.cast_nonneg hi.1) (by decide))
      have hproduct := Doubles.round_nonneg (mul_nonneg hprice (Int.cast_nonneg hi.2))
      exact ih hitems _ (Doubles.round_nonneg (add_nonneg htotal hproduct))
  exact hsum 0 le_rfl

theorem toCents_nonneg (h : 0 ≤ x) : 0 ≤ toCents x := by
  rw [toCents, if_pos h]
  exact Doubles.floor_nonneg (add_nonneg (mul_nonneg h (by decide)) one_half_pos.le)

theorem doubleCents_nonneg (items : List (Int × Int)) (h : ∀ i ∈ items, 0 ≤ i.1 ∧ 0 ≤ i.2) :
    0 ≤ toCents (Doubles.print (doubleTotal items)) :=
  toCents_nonneg (Doubles.print_nonneg (doubleTotal_nonneg items h))

/-- Doubles; the column gets the decimal that the total is printed as. -/
def Arithmetic.double : Arithmetic where
  total := doubleTotal
  cents items := toCents (Doubles.print (doubleTotal items))
  cents_nonneg := doubleCents_nonneg

/-- Added up in doubles, amounts that cancel out can come to a total that is out of range. -/
example : Arithmetic.double.cents [(9999999999, 2147483647), (9999999999, -2147483646)] =
    10000000000 := by decide +kernel

end DineFlow
