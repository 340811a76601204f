import MediaServer.Ref.Roommgr

/-!
# Two pods and the messages between them

A user's stream is known on other pods through messages: `createroom` asks for
the streams of a room, `fakepublish` announces one and `fakeunpublish` takes
it back, and `fakesubscribe`, `fakeoffer` and `fakeanswer` connect a
stand-in's publisher to the original. Here two pods run, each one call at a
time, and what a call of one of them sends to the other is appended to a queue
that is delivered in order. A broadcast also comes back to its sender, which
ignores what carries its own pod id; that copy is left out.
-/

namespace MediaServer.Ref

open MediaServer.Lib

/-- The session that messages for user `uid` of room `rid` reach. -/
def Pod.seat (p : Pod) (rid uid : String) : Option SessRef :=
  (p.rooms.lookup rid).bind fun r => (p.room r).sessions.lookup uid

/-- The peer ids under which that session has publishers with the property
`f`. -/
def Pod.published (p : Pod) (rid uid : String) (f : Peer → Bool) :
    List String :=
  match p.seat rid uid with
  | some s => ((p.sess s).publishers.entries.filter fun e =>
      f (p.peer e.2)).map Sigma.fst
  | none => []

/-- The message that an event sends to the pod `uuid`, if it does. -/
def Event.crossTo (uuid : String) : Event → Option JsonParser
  | .broadcastCrossCluster m => some m
  | .toPod key m => if key = uuid then some m else none
  | .toCrossClusterPod key m => if key = uuid then some m else none
  | _ => none

/-- What a call that led from `p` to `q` sent to the pod `uuid`. -/
def sentTo (uuid : String) (p q : Pod) : List JsonParser :=
  (newEvents p q).filterMap (Event.crossTo uuid)

structure Pair where
  a : Pod
  b : Pod
  toA : List JsonParser
  toB : List JsonParser

namespace Pair

inductive Act where
  | onA (env : Env) (a : Input)
  | onB (env : Env) (a : Input)
  | recvA (env : Env)
  | recvB (env : Env)

def init (confA confB : Config) : Pair :=
  ⟨Pod.createRoomMgr confA, Pod.createRoomMgr confB, [], []⟩

def movedA (t : Pair) (q : Pod) : Pair :=
  { t with a := q, toB := t.toB ++ sentTo t.b.conf.uuid t.a q }

def movedB (t : Pair) (q : Pod) : Pair :=
  { t with b := q, toA := t.toA ++ sentTo t.a.conf.uuid t.b q }

/-- Something happens to one of the pods, or one of them handles the next
message from the other. -/
def step : Act → Pair → Option Pair
  | .onA env a, t => (Pod.step (env, a) t.a).map t.movedA
  | .onB env a, t => (Pod.step (env, a) t.b).map t.movedB
  | .recvA env, t =>
      match t.toA with
      | [] => none
      | m :: rest =>
          (Pod.step (env, .message m) t.a).map
            (movedA { t with toA := rest })
  | .recvB env, t =>
      match t.toB with
      | [] => none
      | m :: rest =>
          (Pod.step (env, .message m) t.b).map
            (movedB { t with toB := rest })

end Pair

end MediaServer.Ref
