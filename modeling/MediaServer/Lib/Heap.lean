import Mathlib.Algebra.Order.Ring.Int
import Mathlib.Data.List.AList
import Mathlib.Data.List.Infix

/-!
# Objects behind references, and maps in the shape of Go's

A program that hands pointers around is modelled with one heap per type of
object. A heap is a total function from references to cells together with the
next free reference: reading needs no proof that the reference is valid, and
the two writes, `alloc` and `modify`, each change exactly one cell. The `simp`
lemmas below say which one, so later files never unfold a heap.

Maps are Mathlib's `AList`: a list of entries without duplicate keys, which is
what a `range` loop needs and what a function would not give.
-/

namespace MediaServer.Lib

/-- One type of heap object: the cells, and the reference the next `new`
will hand out. -/
structure Heap (α : Type) where
  next : Nat
  cell : Nat → α

namespace Heap

variable {α : Type}

def empty [Inhabited α] : Heap α := ⟨0, fun _ => default⟩

/-- A new object at the next free reference. -/
def alloc (h : Heap α) (a : α) : Heap α :=
  ⟨h.next + 1, fun i => if i = h.next then a else h.cell i⟩

def modify (h : Heap α) (i : Nat) (f : α → α) : Heap α :=
  ⟨h.next, fun j => if j = i then f (h.cell i) else h.cell j⟩

@[simp] theorem alloc_next (h : Heap α) (a : α) :
    (h.alloc a).next = h.next + 1 := rfl

@[simp] theorem alloc_cell_next (h : Heap α) (a : α) :
    (h.alloc a).cell h.next = a := by simp [alloc]

theorem alloc_cell_of_ne (h : Heap α) (a : α) {i : Nat} (hi : i ≠ h.next) :
    (h.alloc a).cell i = h.cell i := by simp [alloc, hi]

theorem alloc_cell (h : Heap α) (a : α) (i : Nat) :
    (h.alloc a).cell i = if i = h.next then a else h.cell i := rfl

@[simp] theorem modify_next (h : Heap α) (i : Nat) (f : α → α) :
    (h.modify i f).next = h.next := rfl

@[simp] theorem modify_cell_self (h : Heap α) (i : Nat) (f : α → α) :
    (h.modify i f).cell i = f (h.cell i) := by simp [modify]

theorem modify_cell_of_ne (h : Heap α) {i j : Nat} (f : α → α) (hj : j ≠ i) :
    (h.modify i f).cell j = h.cell j := by simp [modify, hj]

theorem modify_cell (h : Heap α) (i j : Nat) (f : α → α) :
    (h.modify i f).cell j = if j = i then f (h.cell j) else h.cell j := by
  by_cases hj : j = i
  · subst hj; simp
  · simp [modify_cell_of_ne, hj]

/-- A field that the write does not touch reads the same in every cell. -/
theorem modify_cell_field {β : Type} (h : Heap α) (i j : Nat) (f : α → α)
    (get : α → β) (hf : ∀ a, get (f a) = get a) :
    get ((h.modify i f).cell j) = get (h.cell j) := by
  rw [modify_cell]
  split
  · exact hf _
  · rfl

end Heap

/-- Go's `map[string]T`. -/
abbrev GoMap (β : Type) := AList (fun _ : String => β)

namespace GoMap

variable {β : Type}

theorem lookup_insert_eq (m : GoMap β) (k k' : String) (b : β) :
    (m.insert k b).lookup k' = if k' = k then some b else m.lookup k' := by
  by_cases h : k' = k
  · subst h; simp
  · simp [AList.lookup_insert_ne h, h]

theorem lookup_erase_eq (m : GoMap β) (k k' : String) :
    (m.erase k).lookup k' = if k' = k then none else m.lookup k' := by
  by_cases h : k' = k
  · subst h; simp
  · simp [AList.lookup_erase_ne h, h]

theorem lookup_of_erase {m : GoMap β} {k k' : String} {b : β}
    (h : (m.erase k).lookup k' = some b) : m.lookup k' = some b := by
  rw [lookup_erase_eq] at h
  split at h
  · cases h
  · exact h

/-- What a `range` loop visits is what a lookup finds. -/
theorem mem_entries {m : GoMap β} {k : String} {b : β} :
    ⟨k, b⟩ ∈ m.entries ↔ m.lookup k = some b := by
  rw [← AList.mem_lookup_iff]
  exact Option.mem_def

/-- A loop over a map collects nothing twice, if what it collects from an entry
tells the key. -/
theorem nodup_flatMap {γ : Type} {m : GoMap β} {f : (_ : String) × β → List γ}
    (key : γ → String) (hkey : ∀ e ∈ m.entries, ∀ c ∈ f e, key c = e.1)
    (hf : ∀ e ∈ m.entries, (f e).Nodup) : (m.entries.flatMap f).Nodup := by
  refine List.nodup_flatMap.mpr ⟨hf, ?_⟩
  refine (List.nodupKeys_iff_pairwise.mp m.nodupKeys).imp_of_mem ?_
  intro e e' he he' hne c hc hc'
  exact hne ((hkey e he c hc).symm.trans (hkey e' he' c hc'))

end GoMap

end MediaServer.Lib
