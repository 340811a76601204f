import MediaServer.Lib.Rest
import MediaServer.Lib.RwLock
import MediaServer.Lib.Threads
import Mathlib.Data.List.MinMax

/-!
# Goroutines that take their mutexes in order

Any number of goroutines run, each with the list of operations on read/write
mutexes that is still before it. The mutexes are Go's: a writer first claims
the mutex, which it can do when no other writer has claimed or holds it; from
then on no reader gets in, and the writer has the mutex once those inside have
left. So readers can wait for a writer that is itself only waiting.

If every goroutine takes mutexes by increasing rank, none of this leads to a
deadlock: among those that wait, take one that waits for a mutex of the
highest rank. Somebody holds it, and waits in turn, for a mutex of higher rank
still.
-/

namespace MediaServer.Lib

variable {μ : Type} [DecidableEq μ]

/-- A goroutine: what it holds (with the flag set for writing), what is before
it, and whether it has claimed the mutex that comes next. -/
structure Locker (μ : Type) where
  held : List (μ × Bool)
  todo : List (LockOp μ)
  claims : Bool

namespace Locker

/-- The goroutine has claimed `m`. -/
def Claims (t : Locker μ) (m : μ) : Bool :=
  t.claims && match t.todo with
    | .lock k :: _ => k = m
    | _ => false

/-- No writer has claimed `m` or holds it. -/
def Open (ts : List (Locker μ)) (m : μ) : Bool :=
  ts.all fun t => !t.Claims m && !t.held.contains (m, true)

/-- Nobody holds `m`. -/
def Free (ts : List (Locker μ)) (m : μ) : Bool :=
  ts.all fun t => !t.held.contains (m, true) && !t.held.contains (m, false)

/-- The next operation of a goroutine among the others, if it can go on. -/
def advance (ts : List (Locker μ)) (t : Locker μ) : Option (Locker μ) :=
  match t.todo with
  | [] => none
  | .lock m :: ops =>
      if t.claims then
        if Free ts m then some ⟨(m, true) :: t.held, ops, false⟩ else none
      else if Open ts m then some { t with claims := true }
      else none
  | .rlock m :: ops =>
      if Open ts m then some ⟨(m, false) :: t.held, ops, false⟩ else none
  | .unlock m :: ops => some ⟨t.held.erase (m, true), ops, false⟩
  | .runlock m :: ops => some ⟨t.held.erase (m, false), ops, false⟩

/-- Goroutine `i` goes on. -/
def step (i : Nat) (ts : List (Locker μ)) : Option (List (Locker μ)) :=
  match ts[i]? with
  | none => none
  | some t => (advance ts t).map fun t' => ts.set i t'

/-- A call that has yet to begin. -/
def start (ops : List (LockOp μ)) : Locker μ := ⟨[], ops, false⟩

end Locker

/-- From what is held, the operations take mutexes by increasing rank, unlock
what is held, and leave nothing. -/
def Climbs (rank : μ → Nat) : List (μ × Bool) → List (LockOp μ) → Prop
  | held, [] => held = []
  | held, .lock m :: ops =>
      (∀ h ∈ held, rank h.1 < rank m) ∧ Climbs rank ((m, true) :: held) ops
  | held, .rlock m :: ops =>
      (∀ h ∈ held, rank h.1 < rank m) ∧ Climbs rank ((m, false) :: held) ops
  | held, .unlock m :: ops =>
      (m, true) ∈ held ∧ Climbs rank (held.erase (m, true)) ops
  | held, .runlock m :: ops =>
      (m, false) ∈ held ∧ Climbs rank (held.erase (m, false)) ops

variable {rank : μ → Nat} {ts ts' : List (Locker μ)} {t t' : Locker μ}

namespace Locker

theorem step_cases {i : Nat} (h : step i ts = some ts') :
    ∃ t t', ts[i]? = some t ∧ advance ts t = some t' ∧ ts' = ts.set i t' := by
  unfold step at h
  split at h
  · cases h
  · next t ht =>
      obtain ⟨t', hadv, rfl⟩ := Option.map_eq_some_iff.mp h
      exact ⟨t, t', ht, hadv, rfl⟩

end Locker

end MediaServer.Lib
