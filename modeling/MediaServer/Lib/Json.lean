import Mathlib.Algebra.Order.Ring.Int
import Mathlib.Data.List.Sort
import Mathlib.Data.Rat.Defs

/-!
# JSON values and how Go prints them

A JSON document is taken as its tree. A number has its value and the text that
`%v` prints for the `float64` it is read as. An object may list a name twice;
read into a Go map, the last one counts.

`sprint` is `fmt.Sprintf("%v", …)` of the value that `json.Unmarshal` builds
for the tree: a string prints as itself, without quotes, and a map prints its
entries sorted by name. So the text of an object holds the texts of its
members and is longer than each of them.
-/

namespace MediaServer.Lib

inductive Json where
  | null
  | bool (b : Bool)
  | num (v : ℚ) (text : String)
  | str (s : String)
  | arr (elems : List Json)
  | obj (fields : List (String × Json))

/-- Of the members with one name, the last. -/
def lastWins {α : Type*} : List (String × α) → List (String × α)
  | [] => []
  | f :: fields =>
      if f.1 ∈ fields.map Prod.fst then lastWins fields
      else f :: lastWins fields

/-- The value that counts for a name, if there is one. -/
def member {α : Type*} (fields : List (String × α)) (name : String) :
    Option α :=
  (lastWins fields).lookup name

/-- The texts with a blank between every two. -/
def spaced : List String → String
  | [] => ""
  | [s] => s
  | s :: texts => s ++ " " ++ spaced texts

/-- The entries of a map, printed. -/
def sprintMap (entries : List (String × String)) : String :=
  "map[" ++ spaced (((lastWins entries).insertionSort fun e f => e.1 ≤ f.1).map
    fun e => e.1 ++ ":" ++ e.2) ++ "]"

namespace Json

mutual

def sprint : Json → String
  | null => "<nil>"
  | bool b => if b then "true" else "false"
  | num _ text => text
  | str s => s
  | arr elems => "[" ++ spaced (sprintElems elems) ++ "]"
  | obj fields => sprintMap (sprintFields fields)

def sprintElems : List Json → List String
  | [] => []
  | j :: elems => j.sprint :: sprintElems elems

def sprintFields : List (String × Json) → List (String × String)
  | [] => []
  | (k, j) :: fields => (k, j.sprint) :: sprintFields fields

end

def isNum : Json → Bool
  | num _ _ => true
  | _ => false

/-- An integer. -/
def int (n : Int) : Json := .num n (toString n)

/-- What a pointer holds; `nil` is `null`. -/
def ptr {α : Type*} (f : α → Json) : Option α → Json
  | none => .null
  | some a => f a

end Json

/-! ## The text of an object -/

theorem length_le_spaced {s : String} {texts : List String}
    (h : s ∈ texts) : s.length ≤ (spaced texts).length := by
  fun_induction spaced texts with
  | case1 => cases h
  | case2 t => rw [List.mem_singleton.mp h]
  | case3 t texts hne ih =>
      simp only [String.length_append]
      rcases List.mem_cons.mp h with rfl | hmem
      · omega
      · have := ih hmem
        omega

theorem length_lt_sprintMap {k s : String} {entries : List (String × String)}
    (h : (k, s) ∈ lastWins entries) :
    s.length < (sprintMap entries).length := by
  have hmem : k ++ ":" ++ s ∈ ((lastWins entries).insertionSort
      fun e f => e.1 ≤ f.1).map fun e => e.1 ++ ":" ++ e.2 :=
    List.mem_map.mpr ⟨(k, s), (List.mem_insertionSort _).mpr h, rfl⟩
  have hle := length_le_spaced hmem
  have hmap : "map[".length = 4 := rfl
  simp only [sprintMap, String.length_append] at hle ⊢
  omega

theorem lastWins_map {α β : Type*} (f : α → β) (fields : List (String × α)) :
    lastWins (fields.map fun e => (e.1, f e.2)) =
      (lastWins fields).map fun e => (e.1, f e.2) := by
  induction fields with
  | nil => rfl
  | cons e fields ih =>
      have hkeys : (fields.map fun e => (e.1, f e.2)).map Prod.fst =
          fields.map Prod.fst := by rw [List.map_map]; rfl
      rw [List.map_cons, lastWins, hkeys, lastWins, ih]
      split
      · rfl
      · rfl

namespace Json

theorem sprintFields_eq (fields : List (String × Json)) :
    sprintFields fields = fields.map fun e => (e.1, e.2.sprint) := by
  induction fields with
  | nil => rw [sprintFields, List.map_nil]
  | cons e fields ih => rw [sprintFields, List.map_cons, ih]

/-- An object prints longer than each member that counts. -/
theorem length_member_lt {k : String} {j : Json}
    {fields : List (String × Json)} (h : (k, j) ∈ lastWins fields) :
    j.sprint.length < (obj fields).sprint.length := by
  rw [sprint, sprintFields_eq]
  refine length_lt_sprintMap (k := k) ?_
  rw [lastWins_map]
  exact List.mem_map.mpr ⟨(k, j), h, rfl⟩

end Json

end MediaServer.Lib
