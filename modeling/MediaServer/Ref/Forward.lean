import MediaServer.Ref.Roommgr

/-!
# Application data across pods

What arrives on the data channel of a peer goes to the peer's room, and the
room asks every peer of every session to deliver it, except those that have
the user id and the peer id of the peer it came from. At the other end of a
real peer's channel is a client. A fake subscriber and the fake publisher it
serves are the two ends of one channel between pods: what one of them is asked
to deliver arrives at the other, and its pod passes it on in turn. The message
carries nothing by which a pod could tell that it has seen it before.

`Cluster` is a number of pods that share a room, with the channels between
them; `Net` is the state of one application message that travels through it.
-/

namespace MediaServer.Ref

open MediaServer.Lib

/-- The peers that the loops of `room.OnReceivedAppData` and
`session.BroadcastAppData` visit, in their order. -/
def Pod.members (p : Pod) (r : RoomRef) : List PeerRef :=
  (p.room r).sessions.entries.flatMap fun e =>
    (p.sess e.2).publishers.entries.map Sigma.snd ++
      (p.sess e.2).subscribers.entries.map Sigma.snd

/-- The peers that were asked to deliver application data. -/
def asked (tr : List Event) : List PeerRef :=
  tr.filterMap fun
    | .deliverApp y _ => some y
    | _ => none

/-- A peer of one of the pods. -/
abbrev Port (ι : Type) := ι × PeerRef

variable {ι : Type}

/-- The fake subscriber `x` sends to the fake publisher `y`: `fakesubscribe`
was addressed to the pod that announced the stream and carries the asking
pod's id, which becomes the user id of the subscriber. A pod ignores what it
announced itself. -/
def Serves (pod : ι → Pod) (room : ι → RoomRef) (x y : Port ι) : Prop :=
  let sub := (pod x.1).peer x.2
  let pub := (pod y.1).peer y.2
  x.1 ≠ y.1 ∧ x.2 ∈ (pod x.1).members (room x.1) ∧
    y.2 ∈ (pod y.1).members (room y.1) ∧
    sub.role = .subscriber ∧ sub.isFake = true ∧
    sub.userid = (pod y.1).conf.uuid ∧ sub.remoteuserid = pub.userid ∧
    pub.role = .publisher ∧ pub.isFake = true ∧
    ((pod y.1).sess pub.parent).podid = (pod x.1).conf.uuid ∧
    pub.peerid = sub.peerid

instance [DecidableEq ι] (pod : ι → Pod) (room : ι → RoomRef)
    (x y : Port ι) : Decidable (Serves pod room x y) := by
  unfold Serves; infer_instance

/-- Pods that share the room `rid`, each in a state it can reach, and the data
channels between them, one end each. -/
structure Cluster (ι : Type) where
  rid : String
  conf : ι → Config
  pod : ι → Pod
  room : ι → RoomRef
  wires : List (Port ι × Port ι)
  reach : ∀ i, Pod.Reachable (conf i) (pod i)
  alive : ∀ i, (pod i).fatal = false
  shared : ∀ i, (pod i).rooms.lookup rid = some (room i)
  serves : ∀ w ∈ wires, Serves pod room w.1 w.2
  subs : (wires.map Prod.fst).Nodup
  pubs : (wires.map Prod.snd).Nodup

namespace Cluster

variable [DecidableEq ι]

/-- The other end of the channel of a fake peer. -/
def far (c : Cluster ι) (x : Port ι) : Option (Port ι) :=
  c.wires.findSome? fun w =>
    if w.1 = x then some w.2 else if w.2 = x then some w.1 else none

/-- The peer `x` is in the room. -/
def Member (c : Cluster ι) (x : Port ι) : Prop :=
  x.2 ∈ (c.pod x.1).members (c.room x.1)

/-- The client of user `u` is at the other end of the channel of `x`. -/
def OfClient (c : Cluster ι) (u : String) (x : Port ι) : Prop :=
  ((c.pod x.1).peer x.2).isFake = false ∧ ((c.pod x.1).peer x.2).userid = u

end Cluster

/-- The pods while one application message travels, and the peers at which a
copy of it is about to arrive. -/
structure Net (ι : Type) where
  pod : ι → Pod
  flight : List (Port ι)

/-- A client has sent the message on the channel of the peer `o`. -/
def Cluster.inject (c : Cluster ι) (o : Port ι) : Net ι := ⟨c.pod, [o]⟩

/-- The peers of pod `i` that have been asked to deliver the message. -/
def Net.asked (c : Cluster ι) (t : Net ι) (i : ι) : List PeerRef :=
  Ref.asked (newEvents (c.pod i) (t.pod i))

variable [DecidableEq ι]

/-- The `k`-th copy arrives and its pod passes it on. A peer whose channel was
never created does not send. -/
def Net.step (c : Cluster ι) (buff : List UInt8) (k : Nat) (t : Net ι) :
    Option (Net ι) :=
  match t.flight[k]? with
  | none => none
  | some x =>
      let p := t.pod x.1
      let q := p.onAppMessage x.2 buff
      some ⟨Function.update t.pod x.1 q,
        t.flight.eraseIdx k ++ (Ref.asked (newEvents p q)).filterMap fun y =>
          if (q.peer y).dataChannel then c.far (x.1, y) else none⟩

end MediaServer.Ref
