import MediaServer.Ref.Pair
import MediaServer.Ref.Sched

/-!
# A pod whose releases and callbacks are threads

`Pod.step` runs every input to its end. Here the calls that follow a change of
an ICE connection run block by block, as in `Sched.lean`: the callback itself,
which sets the flags of the peer before it calls into the session, the release
of a publisher that it spawned, and `stoppush`. All other inputs are steps of
the pod, taken between two blocks.

A pod that has a session with its `pubsmux` locked for good still takes all
inputs here; the code would not come back from some of them.
-/

namespace MediaServer.Ref

open MediaServer.Lib

/-- The thread that an input starts, if it is one of these calls. The room's
`OnPublisherPeerFailed` looks the session up before it calls it. -/
def Pod.begins (a : Input) (p : Pod) : Option (Pod × Option Pc) :=
  match a with
  | .ice x st =>
      if x < p.peerHeap.next then some (p, some (.ice x st)) else none
  | .go i =>
      match p.pending[i]? with
      | some (.onPublisherPeerFailed r u pid _)
      | some (.onPublisherPeerClosed r u pid _) =>
          some ({ p with pending := p.pending.eraseIdx i },
            ((p.room r).sessions.lookup u).map fun s =>
              .start s (.releasePublisher pid))
      | _ => none
  | .message m =>
      if command m = some .stopPush ∧ p.regist then
        (p.seat (getValue m .roomId) (getValue m .sessID)).map fun s =>
          (p, some (.start s (.message m)))
      else none
  | _ => none

/-- An input arrives, or a thread runs its next block. -/
inductive CallSched.Act where
  | input (a : Env × Input)
  | turn (i : Nat) (env : Env) (waiting : Bool)

namespace CallSched

def step (a : Act) (t : Sched) : Option Sched :=
  let p := t.shared.pod
  if p.fatal then none
  else
    match a with
    | .input a =>
        match p.begins a.2 with
        | some (q, some k) => some ((t.setPod q).start k)
        | some (q, none) => some (t.setPod q)
        | none => (Pod.step a p).map t.setPod
    | .turn i env waiting => t.turn (Locked.exec env waiting) i

end CallSched

end MediaServer.Ref
