import Mathlib.Data.List.Basic

/-!
# The last word of a log

Entries of a log say something about a subject or nothing. `latest f l` is
the last thing said, where `f` reads an entry. A log only grows at its end, so
the last word is that of the new part, or the old one if the new part is
silent.
-/

namespace MediaServer.Lib

variable {α β : Type} {f : α → Option β} {l l' : List α} {b : β}

def latest (f : α → Option β) (l : List α) : Option β :=
  (l.filterMap f).getLast?

theorem latest_append (f : α → Option β) (l l' : List α) :
    latest f (l ++ l') = (latest f l').or (latest f l) := by
  rw [latest, List.filterMap_append, List.getLast?_append, latest, latest]

theorem mem_of_latest (h : latest f l = some b) : ∃ a ∈ l, f a = some b :=
  List.mem_filterMap.mp (List.mem_of_getLast? h)

theorem latest_silent (h : ∀ a ∈ l', f a = none) :
    latest f (l ++ l') = latest f l := by
  have hnil : l'.filterMap f = [] := List.filterMap_eq_nil_iff.mpr h
  rw [latest, List.filterMap_append, hnil, List.append_nil, latest]

/-- The new part says one thing, and says it at least once. -/
theorem latest_said (hall : ∀ a ∈ l', ∀ c, f a = some c → c = b)
    (hsome : ∃ a ∈ l', f a = some b) : latest f (l ++ l') = some b := by
  obtain ⟨a, ha, hb⟩ := hsome
  have hmem : b ∈ l'.filterMap f := List.mem_filterMap.mpr ⟨a, ha, hb⟩
  have hlast : latest f l' = some b := by
    rw [latest, List.getLast?_eq_getLast_of_ne_nil (List.ne_nil_of_mem hmem)]
    congr 1
    obtain ⟨a', ha', hc⟩ := List.mem_filterMap.mp
      (List.getLast_mem (List.ne_nil_of_mem hmem))
    exact hall a' ha' _ hc
  rw [latest_append, hlast, Option.some_or]

end MediaServer.Lib
