import MediaServer.Lib.Heap
import MediaServer.Lib.Threads
import MediaServer.Ref.Session

/-!
# The keyframe filter (`keyframerequestfilter.go`)

A publisher is asked for a keyframe at most every two seconds. A request that
comes earlier is remembered (`cached`) and a timer set for the end of the
interval; on a publisher of this pod the same timer asks for one every thirty
seconds (`tick`).

Nothing is sent where it is decided. `TryRequestKeyframe` and the goroutine of
`startDelayTimer`, which waits for the timer, only start a goroutine
`requestKeyframeNow`, and this one sends and sets `lasttime` when it gets its
turn. So besides the fields of the source the filter here has what is under
way: the timers that were ever created, the goroutines that wait for one
(`loops`, with the timer whose channel they look at once they have reached
their `select`), the senders on `exitChan` (`tokens`) and the
`requestKeyframeNow` that have not run (`spawned`). `sends` lists when
`sendRequestKeyframe` was called.

The mutex makes `TryRequestKeyframe` and `requestKeyframeNow` one block each.
A block reads the clock once, and the clock never goes back.
-/

namespace MediaServer.Ref

open MediaServer.Lib

/-- `time.Timer`: when it fires, if it is set, and whether its channel, which
holds one value, has one. -/
structure Timer where
  deadline : Option Int
  ready : Bool

instance : Inhabited Timer := ⟨⟨none, false⟩⟩

namespace Timer

def due (now : Int) (t : Timer) : Bool :=
  match t.deadline with
  | some d => d ≤ now
  | none => false

/-- The timer fires; a channel that is full stays as it is. -/
def expire (_ : Timer) : Timer := ⟨none, true⟩

/-- `Reset`; a value in the channel is not taken back. -/
def reset (d : Int) (t : Timer) : Timer := { t with deadline := some d }

def receive (t : Timer) : Timer := { t with ready := false }

end Timer

/-- Seconds in nanoseconds, the unit of all times here. -/
def sec (n : Nat) : Int := n * 10 ^ 9

def minInterval : Int := sec 2

def maxInterval : Int := sec 30

structure KeyframeFilter where
  tick : Bool
  cached : Bool
  lasttime : Int
  timer : Option Nat
  sendRequestKeyframe : Bool
  timers : Heap Timer
  loops : List (Option Nat)
  tokens : Nat
  spawned : Nat
  sends : List Int
  now : Int
  fatal : Bool

def createKeyframeFilter (tick : Bool) (now : Int) : KeyframeFilter where
  tick := tick
  cached := false
  lasttime := 0
  timer := none
  sendRequestKeyframe := false
  timers := Heap.empty
  loops := []
  tokens := 0
  spawned := 0
  sends := []
  now := now
  fatal := false

namespace KeyframeFilter

def startDelayTimer (d : Int) (f : KeyframeFilter) : KeyframeFilter :=
  { f with
    timer := some f.timers.next
    timers := f.timers.alloc ⟨some (f.now + d), false⟩
    loops := f.loops ++ [none] }

def setSend (f : KeyframeFilter) : KeyframeFilter :=
  { f with sendRequestKeyframe := true }

/-- The second half of `Startup`. -/
def startTicking (f : KeyframeFilter) : KeyframeFilter :=
  if f.tick then f.startDelayTimer maxInterval else f

def startup (f : KeyframeFilter) : KeyframeFilter := f.setSend.startTicking

def refreshMaxIntervalTimer (d : Int) (f : KeyframeFilter) : KeyframeFilter :=
  if !f.sendRequestKeyframe then f
  else
    match f.timer with
    | none => f.startDelayTimer d
    | some i => { f with timers := f.timers.modify i (Timer.reset (f.now + d)) }

def tryRequestKeyframe (f : KeyframeFilter) : KeyframeFilter :=
  if f.cached then f
  else if f.now - f.lasttime ≥ minInterval then
    { f with spawned := f.spawned + 1 }
  else
    { f with cached := true }.refreshMaxIntervalTimer
      (minInterval - f.now + f.lasttime)

/-- `requestKeyframeNow`; the call of a callback that is nil is a panic. -/
def requestKeyframeNow (f : KeyframeFilter) : KeyframeFilter :=
  if !f.sendRequestKeyframe then { f with fatal := true }
  else
    let f := { f with
      sends := f.sends ++ [f.now], lasttime := f.now, cached := false }
    if f.tick then f.refreshMaxIntervalTimer maxInterval else f

end KeyframeFilter

/-- What happens to a filter: a request, a timer that fires, and the turns of
its goroutines. A goroutine that waits for the timer comes to its `select`,
takes a value from the timer's channel or a token from `exitChan`. -/
inductive FilterAct where
  | tryRequestKeyframe
  | expire (i : Nat)
  | select (l : Nat)
  | receive (l : Nat)
  | exit (l : Nat)
  | requestKeyframeNow
  deriving DecidableEq

namespace KeyframeFilter

/-- The goroutine reads `filter.timer`, which it takes to be there. -/
def select (l : Nat) (f : KeyframeFilter) : KeyframeFilter :=
  match f.timer with
  | some i => { f with loops := f.loops.set l (some i) }
  | none => { f with fatal := true }

def act (f : KeyframeFilter) : FilterAct → Option KeyframeFilter
  | .tryRequestKeyframe => some f.tryRequestKeyframe
  | .expire i =>
      if (f.timers.cell i).due f.now then
        some { f with timers := f.timers.modify i Timer.expire }
      else none
  | .select l =>
      match f.loops[l]? with
      | some none => some (f.select l)
      | _ => none
  | .receive l =>
      match f.loops[l]? with
      | some (some i) =>
          if (f.timers.cell i).ready then
            some { f with
              timers := f.timers.modify i Timer.receive
              loops := f.loops.set l none
              spawned := f.spawned + 1 }
          else none
      | _ => none
  | .exit l =>
      match f.loops[l]? with
      | some (some _) =>
          if 0 < f.tokens then
            some { f with loops := f.loops.eraseIdx l, tokens := f.tokens - 1 }
          else none
      | _ => none
  | .requestKeyframeNow =>
      if 0 < f.spawned then
        some { f with spawned := f.spawned - 1 }.requestKeyframeNow
      else none

/-- What an action does, and what it needs. -/
inductive Acts (f : KeyframeFilter) : FilterAct → KeyframeFilter → Prop where
  | tryRequestKeyframe : Acts f .tryRequestKeyframe f.tryRequestKeyframe
  | expire (i : Nat) (due : (f.timers.cell i).due f.now = true) :
      Acts f (.expire i) { f with timers := f.timers.modify i Timer.expire }
  | select (l : Nat) (free : f.loops[l]? = some none) :
      Acts f (.select l) (f.select l)
  | receive (l i : Nat) (waits : f.loops[l]? = some (some i))
      (ready : (f.timers.cell i).ready = true) :
      Acts f (.receive l) { f with
        timers := f.timers.modify i Timer.receive
        loops := f.loops.set l none
        spawned := f.spawned + 1 }
  | exit (l i : Nat) (waits : f.loops[l]? = some (some i))
      (token : 0 < f.tokens) :
      Acts f (.exit l)
        { f with loops := f.loops.eraseIdx l, tokens := f.tokens - 1 }
  | requestKeyframeNow (spawned : 0 < f.spawned) :
      Acts f .requestKeyframeNow
        { f with spawned := f.spawned - 1 }.requestKeyframeNow

theorem act_cases {f g : KeyframeFilter} {b : FilterAct}
    (h : f.act b = some g) : Acts f b g := by
  cases b with
  | tryRequestKeyframe => cases h; exact .tryRequestKeyframe
  | expire i =>
      obtain ⟨hdue, h⟩ := Option.ite_none_right_eq_some.mp h
      cases h
      exact .expire i hdue
  | select l =>
      simp only [act] at h
      split at h
      · next hl => cases h; exact .select l hl
      · cases h
  | receive l =>
      simp only [act] at h
      split at h
      · next i hl =>
          obtain ⟨hready, h⟩ := Option.ite_none_right_eq_some.mp h
          cases h
          exact .receive l i hl hready
      · cases h
  | exit l =>
      simp only [act] at h
      split at h
      · next i hl =>
          obtain ⟨htoken, h⟩ := Option.ite_none_right_eq_some.mp h
          cases h
          exact .exit l i hl htoken
      · cases h
  | requestKeyframeNow =>
      obtain ⟨hspawned, h⟩ := Option.ite_none_right_eq_some.mp h
      cases h
      exact .requestKeyframeNow hspawned

/-- The clock goes on to the time of the action. -/
def advance (now : Int) (f : KeyframeFilter) : KeyframeFilter :=
  { f with now := now }

def step (a : Int × FilterAct) (f : KeyframeFilter) : Option KeyframeFilter :=
  if f.fatal ∨ a.1 < f.now then none else (f.advance a.1).act a.2

/-- As `CreateKeyframeFilter` makes the filter and `Shutdown` leaves it. Calls
of `requestKeyframeNow` may still be to run, timers be set that nobody waits
for, and senders on `exitChan` never have been heard. -/
structure Down (f : KeyframeFilter) : Prop where
  timer : f.timer = none
  loops : f.loops = []
  cached : f.cached = false

/-- `Startup`, with the requests counted from here. -/
def started (f : KeyframeFilter) : KeyframeFilter :=
  { f with sends := [] }.startup

end KeyframeFilter

/-! ## The filter of a publisher

`Startup` is called by the callback that reports a connection, `Shutdown` by
the other three and by `Destroy`, and `TryRequestKeyframe` by
`RequestKeyframe` of the peer. None of them takes the mutex around what it
does to `sendRequestKeyframe` and `timer`, so they are threads here. -/

/-- The peer and its filter. `up` says that `Startup` has begun and no
`Shutdown` since; `down` that a `Shutdown` has returned and no `Startup` has
begun since. -/
structure FilterPeer where
  peer : Peer
  filter : KeyframeFilter
  up : Bool
  down : Bool

/-- Where a call stands. Those of `Shutdown` say whether `Destroy` made it. -/
inductive FilterPc where
  | ice (st : IceState)
  | startup
  | startTicking
  | shutdown (destroys : Bool)
  | clearSend (destroys : Bool)
  | sendToken (destroys : Bool)
  | wait (destroys : Bool)
  | dropTimer (destroys : Bool)
  | clearCache (destroys : Bool)
  | close
  | requestKeyframe
  | tryRequestKeyframe
  deriving DecidableEq

/-- The flags that the callback of a publisher sets. -/
def Peer.iceFlags (st : IceState) (q : Peer) : Peer :=
  match st with
  | .connected => { q with isReady := true, shouldNotify := true }
  | _ => { q with isReady := false }

namespace FilterPeer

def create (s : SessRef) (sid pid : String) (isFake : Bool) (now : Int) :
    FilterPeer where
  peer := createPublishPeer s sid pid isFake
  filter := createKeyframeFilter (!isFake) now
  up := false
  down := false

def setFilter (w : FilterPeer) (f : KeyframeFilter → KeyframeFilter) :
    FilterPeer :=
  { w with filter := f w.filter }

/-- One block. A thread in `waitGroup.Wait` has to wait. -/
def exec (k : FilterPc) (w : FilterPeer) :
    Option (FilterPeer × Option FilterPc) :=
  match k with
  | .ice st =>
      if 0 < w.peer.closed then some (w, none)
      else some ({ w with peer := w.peer.iceFlags st },
        some (if st = .connected then .startup else .shutdown false))
  | .startup =>
      some ({ w.setFilter KeyframeFilter.setSend with
        up := true, down := false }, some .startTicking)
  | .startTicking => some (w.setFilter KeyframeFilter.startTicking, none)
  | .shutdown d =>
      some ({ w with up := false },
        some (if w.filter.timer = none then .clearCache d else .clearSend d))
  | .clearSend d =>
      some (w.setFilter fun f => { f with sendRequestKeyframe := false },
        some (.sendToken d))
  | .sendToken d =>
      some (w.setFilter fun f => { f with tokens := f.tokens + 1 },
        some (if w.filter.loops = [] then .dropTimer d else .wait d))
  | .wait _ => none
  | .dropTimer d =>
      some (w.setFilter fun f => { f with timer := none },
        some (.clearCache d))
  | .clearCache d =>
      some ({ w.setFilter fun f => { f with cached := false, lasttime := 0 }
        with down := true }, if d then some .close else none)
  | .close =>
      some ({ w with peer := { w.peer with closed := w.peer.closed + 1 } },
        none)
  | .requestKeyframe =>
      some (w, if w.peer.isReady then some .tryRequestKeyframe else none)
  | .tryRequestKeyframe =>
      some (w.setFilter KeyframeFilter.tryRequestKeyframe, none)

end FilterPeer

abbrev FilterSched := Threads FilterPeer FilterPc

/-- A callback, a `Destroy` or a `RequestKeyframe` begins, a thread runs its
next block, a timer fires or a goroutine of the filter takes its turn. -/
inductive FilterSched.Act where
  | ice (st : IceState)
  | destroy
  | requestKeyframe
  | turn (now : Int) (i : Nat)
  | filter (a : Int × FilterAct)

namespace FilterSched

def init (w : FilterPeer) : FilterSched := ⟨w, []⟩

/-- `waitGroup.Wait` returns in all threads at once when the last goroutine is
gone. -/
def wake (t : FilterSched) : FilterSched :=
  if t.shared.filter.loops = [] then
    { t with threads := t.threads.map fun
      | .wait d => .dropTimer d
      | k => k }
  else t

def setFilter (t : FilterSched) (f : KeyframeFilter) : FilterSched :=
  { t with shared := { t.shared with filter := f } }

def step (a : Act) (t : FilterSched) : Option FilterSched :=
  let f := t.shared.filter
  if f.fatal then none
  else
    match a with
    | .ice st => some (t.start (.ice st))
    | .destroy => some (t.start (.shutdown true))
    | .requestKeyframe => some (t.start .requestKeyframe)
    | .turn now i =>
        if now < f.now then none
        else (t.setFilter (f.advance now)).turn FilterPeer.exec i
    | .filter a =>
        if a.2 = .tryRequestKeyframe then none
        else (f.step a).map fun f => (t.setFilter f).wake

end FilterSched

/-! ## States that are delivered one at a time -/

/-- `webrtc.ICEConnectionState`. -/
inductive ConnectionState where
  | new
  | checking
  | connected
  | completed
  | disconnected
  | failed
  | closed
  deriving DecidableEq, Repr

/-- The callback compares with four of the states. -/
def ConnectionState.reported : ConnectionState → Option IceState
  | .connected => some .connected
  | .disconnected => some .disconnected
  | .failed => some .failed
  | .closed => some .closed
  | .new | .checking | .completed => none

/-- The place is in a callback, or in a `Destroy`. -/
def FilterPc.calling : FilterPc → Bool
  | .requestKeyframe | .tryRequestKeyframe => false
  | _ => true

/-- A publisher whose connection reports one state after the other. -/
structure IceFeed where
  sched : FilterSched
  last : Option ConnectionState

inductive IceFeed.Act where
  | state (c : ConnectionState)
  | requestKeyframe
  | turn (now : Int) (i : Nat)
  | filter (a : Int × FilterAct)

namespace IceFeed

def init (w : FilterPeer) : IceFeed := ⟨FilterSched.init w, none⟩

/-- A state is reported when it is not the one before and the callback for
that has returned. -/
def step (a : Act) (w : IceFeed) : Option IceFeed :=
  match a with
  | .state c =>
      if w.sched.shared.filter.fatal ∨ w.last = some c ∨
          w.sched.threads.any FilterPc.calling then none
      else
        match c.reported with
        | some st => some ⟨w.sched.start (.ice st), some c⟩
        | none => some { w with last := some c }
  | .requestKeyframe =>
      (FilterSched.step .requestKeyframe w.sched).map ({ w with sched := · })
  | .turn now i =>
      (FilterSched.step (.turn now i) w.sched).map ({ w with sched := · })
  | .filter a =>
      (FilterSched.step (.filter a) w.sched).map ({ w with sched := · })

end IceFeed

end MediaServer.Ref
