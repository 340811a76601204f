import Mathlib.Algebra.Order.Ring.Int
import Mathlib.Data.List.Basic

/-!
# Fields and numbers in a text

The parts of Go's `strings` and `strconv` that read a text: `FieldsFunc`, which
cuts it at every run of separators, and `Atoi`. Both see a text as its
characters.
-/

namespace MediaServer.Lib

/-- The characters up to the next separator, and the fields after it. -/
def fieldsAux (sep : Char → Bool) : List Char → List Char × List (List Char)
  | [] => ([], [])
  | c :: cs =>
      let (word, fields) := fieldsAux sep cs
      if sep c then ([], if word = [] then fields else word :: fields)
      else (c :: word, fields)

/-- `strings.FieldsFunc`: the maximal runs of characters that are no
separators. -/
def fieldsFunc (sep : Char → Bool) (s : String) : List String :=
  let (word, fields) := fieldsAux sep s.toList
  (if word = [] then fields else word :: fields).map String.ofList

/-- The number that a text of decimal digits stands for. -/
def decimal (cs : List Char) : Option Nat :=
  if cs ≠ [] ∧ cs.all Char.isDigit then
    some (cs.foldl (fun n c => 10 * n + (c.toNat - '0'.toNat)) 0)
  else none

/-- What an `int` of 64 bits holds. -/
def fitsInt (n : Int) : Bool := -2 ^ 63 ≤ n ∧ n < 2 ^ 63

/-- `strconv.Atoi`: an optional sign and decimal digits. The error is `none`,
be it of the form or of the range. -/
def atoi (s : String) : Option Int :=
  let n : Option Int := match s.toList with
    | '-' :: cs => (decimal cs).map fun n => -(n : Int)
    | '+' :: cs => (decimal cs).map fun n => (n : Int)
    | cs => (decimal cs).map fun n => (n : Int)
  n.filter fitsInt

theorem decimal_cons {c : Char} {cs : List Char} {n : Nat}
    (h : decimal (c :: cs) = some n) : c.isDigit = true := by
  unfold decimal at h
  split at h
  · next hd => exact (List.all_cons ▸ hd.2 |> Bool.and_eq_true_iff.mp).1
  · cases h

/-- Digits without a sign are read as what they stand for. -/
theorem atoi_of_decimal {s : String} {n : Nat} (h : decimal s.toList = some n)
    (hn : n < 2 ^ 63) : atoi s = some (n : Int) := by
  have hfits : fitsInt n = true := by
    simp only [fitsInt, decide_eq_true_eq]
    omega
  unfold atoi
  split
  · next hs => rw [hs] at h; cases decimal_cons h
  · next hs => rw [hs] at h; cases decimal_cons h
  · simp [h, hfits]

example : fieldsFunc (fun c => c = ':' ∨ c = ' ') "12  cname:a b" =
    ["12", "cname", "a", "b"] := by decide

example : [atoi "42", atoi "-7", atoi "+", atoi "4x"] =
    [some 42, some (-7), none, none] := by decide

end MediaServer.Lib
