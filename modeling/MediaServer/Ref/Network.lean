import MediaServer.Ref.Pair

/-!
# Any number of pods

The pods of a deployment and the messages between them. A message to one pod
goes to whoever has the id that it is addressed to, and a broadcast to
everybody, its sender included. Messages on the way may overtake each other
and may be lost.

The actions of the network itself are the delivery or loss of a message and
the turn of a call that some pod has started; everything else (a client's
message, a ticker, a callback of pion, a timer) comes from outside.
-/

namespace MediaServer.Ref

open MediaServer.Lib

structure Network where
  pods : List Pod
  wire : List (Nat × JsonParser)

namespace Network

inductive Act where
  | input (i : Nat) (env : Env) (a : Input)
  | deliver (env : Env) (k : Nat)
  | lose (k : Nat)

def init (confs : List Config) : Network :=
  ⟨confs.map Pod.createRoomMgr, []⟩

/-- What a call that led from `p` to `q` puts on the way. -/
def letters (pods : List Pod) (p q : Pod) : List (Nat × JsonParser) :=
  pods.zipIdx.flatMap fun t =>
    (sentTo t.1.conf.uuid p q).map fun m => (t.2, m)

/-- Something happens to pod `i`. -/
def act (i : Nat) (a : Env × Input) (t : Network) : Option Network :=
  match t.pods[i]? with
  | none => none
  | some p => (Pod.step a p).map fun q =>
      ⟨t.pods.set i q, t.wire ++ letters t.pods p q⟩

def step : Act → Network → Option Network
  | .input i env a, t => t.act i (env, a)
  | .deliver env k, t =>
      match t.wire[k]? with
      | none => none
      | some l =>
          act l.1 (env, .message l.2) { t with wire := t.wire.eraseIdx k }
  | .lose k, t =>
      if k < t.wire.length then some { t with wire := t.wire.eraseIdx k }
      else none

/-- Nobody outside is involved. -/
def Act.Inner : Act → Prop
  | .input _ _ (.go _) | .deliver _ _ | .lose _ => True
  | _ => False

/-- The networks that a deployment of pods with these configurations can
become. -/
def Reachable (confs : List Config) (t : Network) : Prop :=
  ∃ as, run step as (init confs) = some t

end Network

end MediaServer.Ref
