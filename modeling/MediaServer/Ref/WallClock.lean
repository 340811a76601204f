import MediaServer.Lib.Trans

/-!
# The keyframe filter and the wall clock (`keyframerequestfilter.go`)

`Keyframe.lean` runs the filter with unbounded times and a clock that never
goes back. In the source a time is the `int64` of `time.Now().UnixNano()`,
which follows the clock of the system wherever that is set, and a difference
of two times wraps around. Here `TryRequestKeyframe` and `requestKeyframeNow`
compute with these words, each call with a reading of its own.

The timer is kept as the duration it was last set for. Go's timers do not look
at the wall clock, so it may fire between any two calls.
-/

namespace MediaServer.Ref

open MediaServer.Lib

/-- The fields of `KeyframeFilter`, the duration a timer is running for, and
the `requestKeyframeNow` that have not run. -/
structure ClockFilter where
  tick : Bool
  cached : Bool
  lasttime : Int64
  timer : Bool
  armed : Option Int64
  sendRequestKeyframe : Bool
  spawned : Nat
  fatal : Bool
  deriving DecidableEq, Repr

namespace ClockFilter

/-- `filter.minInterval.Nanoseconds()`. -/
def minInterval : Int64 := 2000000000

def maxInterval : Int64 := 30000000000

def create (tick : Bool) : ClockFilter where
  tick := tick
  cached := false
  lasttime := 0
  timer := false
  armed := none
  sendRequestKeyframe := false
  spawned := 0
  fatal := false

/-- `startDelayTimer`, and `Reset` of a timer that is there. -/
def setTimer (d : Int64) (f : ClockFilter) : ClockFilter :=
  { f with timer := true, armed := some d }

def startup (f : ClockFilter) : ClockFilter :=
  let f := { f with sendRequestKeyframe := true }
  if f.tick then f.setTimer maxInterval else f

def shutdown (f : ClockFilter) : ClockFilter :=
  let f := if f.timer then
      { f with sendRequestKeyframe := false, timer := false, armed := none }
    else f
  { f with cached := false, lasttime := 0 }

def refreshMaxIntervalTimer (d : Int64) (f : ClockFilter) : ClockFilter :=
  if f.sendRequestKeyframe then f.setTimer d else f

/-- The test of `TryRequestKeyframe`, in `int64`. -/
def due (f : ClockFilter) (curr : Int64) : Bool :=
  curr - f.lasttime ≥ minInterval

/-- The duration that is handed to `refreshMaxIntervalTimer`. -/
def delay (f : ClockFilter) (curr : Int64) : Int64 :=
  minInterval - curr + f.lasttime

def tryRequestKeyframe (curr : Int64) (f : ClockFilter) : ClockFilter :=
  if f.cached then f
  else if f.due curr then { f with spawned := f.spawned + 1 }
  else { f with cached := true }.refreshMaxIntervalTimer (f.delay curr)

/-- `requestKeyframeNow`; the call of a callback that is nil is a panic. -/
def requestKeyframeNow (curr : Int64) (f : ClockFilter) : ClockFilter :=
  if !f.sendRequestKeyframe then { f with fatal := true }
  else
    let f := { f with lasttime := curr, cached := false }
    if f.tick then f.refreshMaxIntervalTimer maxInterval else f

inductive Act where
  | startup
  | shutdown
  | tryRequestKeyframe (curr : Int64)
  | expire
  | requestKeyframeNow (curr : Int64)
  deriving DecidableEq

/-- A call, each with what the clock shows then, or the timer that fires. -/
def step (a : Act) (f : ClockFilter) : Option ClockFilter :=
  if f.fatal then none
  else
    match a with
    | .startup => some f.startup
    | .shutdown => some f.shutdown
    | .tryRequestKeyframe curr => some (f.tryRequestKeyframe curr)
    | .expire =>
        if f.armed.isSome then
          some { f with armed := none, spawned := f.spawned + 1 }
        else none
    | .requestKeyframeNow curr =>
        if 0 < f.spawned then
          some ({ f with spawned := f.spawned - 1 }.requestKeyframeNow curr)
        else none

end ClockFilter

end MediaServer.Ref
