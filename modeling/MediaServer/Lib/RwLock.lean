import Mathlib.Data.List.Basic

/-!
# Read/write mutexes: what one goroutine's lock operations amount to

A goroutine's trace of lock operations is disciplined when every unlock hits a
mutex that the goroutine holds in the mode of the unlock. `exec` replays a
trace on the multiset of what is held and fails at the first unlock that does
not. Traces compose, and a lock and its own unlock leave what was held as it
was.
-/

namespace MediaServer.Lib

/-- The four operations of a read/write mutex. -/
inductive LockOp (μ : Type) where
  | lock (m : μ)
  | unlock (m : μ)
  | rlock (m : μ)
  | runlock (m : μ)
  deriving DecidableEq, Repr

namespace LockOp

variable {μ : Type} [DecidableEq μ]

/-- One operation on what the goroutine holds; the flag is set for a mutex
held for writing. -/
def exec1 (held : List (μ × Bool)) : LockOp μ → Option (List (μ × Bool))
  | lock m => some ((m, true) :: held)
  | rlock m => some ((m, false) :: held)
  | unlock m =>
      if (m, true) ∈ held then some (held.erase (m, true)) else none
  | runlock m =>
      if (m, false) ∈ held then some (held.erase (m, false)) else none

/-- A whole trace: `none` when some unlock hits a mutex that is not held in
its mode. -/
def exec (held : List (μ × Bool)) : List (LockOp μ) → Option (List (μ × Bool))
  | [] => some held
  | op :: ops => (exec1 held op).bind fun h => exec h ops

theorem exec_append (held : List (μ × Bool)) (as bs : List (LockOp μ)) :
    exec held (as ++ bs) = (exec held as).bind fun h => exec h bs := by
  induction as generalizing held with
  | nil => rfl
  | cons a as ih =>
      simp only [List.cons_append, exec]
      cases exec1 held a with
      | none => rfl
      | some h => exact ih h

theorem exec_lock_unlock (m : μ) (held : List (μ × Bool)) :
    exec ((m, true) :: held) [unlock m] = some held := by
  simp [exec, exec1]

theorem exec_rlock_runlock (m : μ) (held : List (μ × Bool)) :
    exec ((m, false) :: held) [runlock m] = some held := by
  simp [exec, exec1]

end LockOp

end MediaServer.Lib
