import MediaServer.Lib.Threads
import MediaServer.Ref.Session

/-!
# How a stand-in session asks for its stream

The session that stands for a user of another pod asks that pod for the stream
with a `fakesubscribe` message, and starts a goroutine that checks on the
result after ten seconds and asks again if there is none, three times at most.
Asking again means to end the goroutine first: `FakePublisherReConnect` has a
value sent on `exitChan`, from a goroutine of its own, and waits for the
session's `waitGroup`. `DoLeave` does the same, and a failed connection starts
a series of its own.

`Session.lean` runs these calls one at a time. Here they are threads, and the
check goroutines take the values from `exitChan` and see their timers fire
whenever they like. The values carry no address: any check goroutine takes any
of them. Whether the stream is there when a timer fires is left open.
-/

namespace MediaServer.Ref

open MediaServer.Lib

/-- The session: its check goroutines, which `waitGroup` counts, the senders
that wait on `exitChan`, the `fakesubscribe` messages sent, how often
`OnIceFailed` was called, and how far `DoLeave` has come. -/
structure Standin where
  checks : List Check
  tokens : Nat
  sent : List (String × String)
  failures : Nat
  leaving : Bool
  returned : Bool

/-- Where a call stands. `first` marks the `FakeSubscribe` that the handler of
`fakepublish` calls. -/
inductive RetryPc where
  | fakeSubscribe (sid pid : String) (curtime : Nat) (first : Bool)
  | startCheck (sid pid : String) (curtime : Nat) (first : Bool)
  | reconnect (sid pid : String) (curtime : Nat)
  | wait (sid pid : String) (curtime : Nat)
  | doLeave
  | leaveWait
  | leaveReturn
  deriving DecidableEq

/-- `curtime -= 1` on a `uint32`. -/
def decr32 (n : Nat) : Nat := (n + (2 ^ 32 - 1)) % 2 ^ 32

namespace Standin

/-- One block. `waitGroup.Wait` returns at once if no check goroutine is
there; who has to wait is released by the last of them. -/
def exec (k : RetryPc) (w : Standin) : Option (Standin × Option RetryPc) :=
  match k with
  | .fakeSubscribe sid pid n first =>
      some ({ w with sent := w.sent ++ [(sid, pid)] },
        some (.startCheck sid pid n first))
  | .startCheck sid pid n _ =>
      some ({ w with checks := w.checks ++ [⟨sid, pid, n, false⟩] }, none)
  | .reconnect sid pid n =>
      some ({ w with tokens := w.tokens + 1 },
        some (if w.checks = [] then .fakeSubscribe sid pid n false
          else .wait sid pid n))
  | .wait _ _ _ => none
  | .doLeave =>
      some ({ w with tokens := w.tokens + 1, leaving := true },
        some (if w.checks = [] then .leaveReturn else .leaveWait))
  | .leaveWait => none
  | .leaveReturn => some ({ w with returned := true }, none)

end Standin

/-- Where a thread goes when `waitGroup.Wait` returns. -/
def RetryPc.release : RetryPc → RetryPc
  | .wait sid pid n => .fakeSubscribe sid pid n false
  | .leaveWait => .leaveReturn
  | k => k

abbrev RetrySched := Threads Standin RetryPc

/-- A connection of the session's publishers fails, `DoLeave` is called, the
timer of a check goroutine fires while the stream is ready or not, a check
goroutine takes a value from `exitChan`, or a thread runs its next block. -/
inductive RetrySched.Act where
  | onIceFailed (sid pid : String)
  | doLeave
  | timer (i : Nat) (ready : Bool)
  | exit (i : Nat)
  | turn (i : Nat)

namespace RetrySched

/-- The session has been created, and its `FakeSubscribe` is called. -/
def init (sid pid : String) : RetrySched :=
  ⟨⟨[], 0, [], 0, false, false⟩,
    [.fakeSubscribe sid pid clusterReconnectionMaxtimes true]⟩

def setChecks (t : RetrySched) (l : List Check) : RetrySched :=
  { t with shared := { t.shared with checks := l } }

/-- The timer of a check goroutine has fired, for the only time. -/
def timer (i : Nat) (ready : Bool) (t : RetrySched) : Option RetrySched :=
  match t.shared.checks[i]? with
  | none => none
  | some c =>
      if c.fired then none
      else if ready then
        some (t.setChecks (t.shared.checks.set i { c with fired := true }))
      else if 0 < c.curtime then
        some ((t.setChecks (t.shared.checks.set i
          { c with curtime := decr32 c.curtime, fired := true })).start
            (.reconnect c.sid c.pid (decr32 c.curtime)))
      else some (t.setChecks (t.shared.checks.set i { c with fired := true }))

/-- A check goroutine takes a value from `exitChan` and returns. -/
def exit (i : Nat) (t : RetrySched) : Option RetrySched :=
  if i < t.shared.checks.length ∧ 0 < t.shared.tokens then
    let w := { t.shared with
      checks := t.shared.checks.eraseIdx i, tokens := t.shared.tokens - 1 }
    some ⟨w, if w.checks = [] then t.threads.map RetryPc.release
      else t.threads⟩
  else none

def step (a : Act) (t : RetrySched) : Option RetrySched :=
  match a with
  | .onIceFailed sid pid =>
      some ({ t with shared := { t.shared with
        failures := t.shared.failures + 1 } }.start
          (.reconnect sid pid clusterReconnectionMaxtimes))
  | .doLeave =>
      if t.shared.leaving ∨ .doLeave ∈ t.threads then none
      else some (t.start .doLeave)
  | .timer i ready => t.timer i ready
  | .exit i => t.exit i
  | .turn i => t.turn Standin.exec i

end RetrySched

/-! ## Sessions of both kinds

`DoLeave` sends its value on `exitChan` whatever the session is. The session
of a user of this pod calls neither `FakeSubscribe`, which only the handler of
`fakepublish` does, nor `FakePublisherReConnect`. -/

structure SessionSched where
  origin : Bool
  calls : RetrySched

namespace SessionSched

/-- `CreateSession` has returned and, unless the session is an origin one,
`FakeSubscribe` is called. -/
def init (origin : Bool) (sid pid : String) : SessionSched :=
  ⟨origin, if origin then ⟨⟨[], 0, [], 0, false, false⟩, []⟩
    else RetrySched.init sid pid⟩

def step (a : RetrySched.Act) (w : SessionSched) : Option SessionSched :=
  match a with
  | .onIceFailed sid pid =>
      if w.origin then some w
      else (RetrySched.step (.onIceFailed sid pid) w.calls).map
        fun t => { w with calls := t }
  | a => (RetrySched.step a w.calls).map fun t => { w with calls := t }

end SessionSched

end MediaServer.Ref
