import Mathlib.Algebra.Order.Ring.Int

/-!
# Arithmetic on 64-bit words

A sum or difference of two words is the exact one if that fits the word.
-/

namespace MediaServer.Lib

/-- The integer is the value of an `int64`. -/
def Fits (z : Int) : Prop := -2 ^ 63 ≤ z ∧ z < 2 ^ 63

instance (z : Int) : Decidable (Fits z) :=
  inferInstanceAs (Decidable (_ ∧ _))

variable {a b : Int64} {z : Int}

theorem fits_toInt (a : Int64) : Fits a.toInt :=
  ⟨a.le_toInt, a.toInt_lt⟩

theorem Fits.bmod (h : Fits z) : z.bmod (2 ^ 64) = z := by
  obtain ⟨hlow, hhigh⟩ := h
  refine Int.bmod_eq_of_le ?_ ?_
  · omega
  · omega

theorem toInt_sub_of_fits (h : Fits (a.toInt - b.toInt)) :
    (a - b).toInt = a.toInt - b.toInt := by
  rw [Int64.toInt_sub, h.bmod]

theorem toInt_add_of_fits (h : Fits (a.toInt + b.toInt)) :
    (a + b).toInt = a.toInt + b.toInt := by
  rw [Int64.toInt_add, h.bmod]

end MediaServer.Lib
