import MediaServer.Lib.Heap
import MediaServer.Lib.RwLock
import MediaServer.Ref.Message

/-!
# The objects of one media server pod

One heap each for the rooms, the sessions and the peers that were ever
created, and the room manager's own fields. Objects are never reclaimed: a
session that left its room, or a peer that was destroyed, stays in its heap,
because a goroutine may still hold the pointer.

What a handler does to the outside goes to `log`, in program order: the calls
that send a message (to a client over MQTT, to the load balancer, to one pod,
to every pod), the media and data-channel deliveries, every `Destroy`, and
every operation on one of the server's mutexes. A `go` statement only appends
to `pending`; when such a call runs is the scheduler's choice.

A panic, or a fatal error of the runtime, ends the process. `fatal` records
it: nothing is logged after that, and no machine takes a step from a pod that
has it set.
-/

namespace MediaServer.Ref

open MediaServer.Lib

abbrev RoomRef := Nat
abbrev SessRef := Nat
abbrev PeerRef := Nat

/-- `role: 1` and `role: 2` of `peer.go`. -/
inductive Role where
  | publisher
  | subscriber
  deriving DecidableEq, Repr

/-- A session description as the server uses it: the text it forwards, and
the kinds of its media sections. -/
structure Sdp where
  text : String
  media : List String
  deriving DecidableEq, Repr

/-- `peer`. The fields from `localDesc` to `iceCandidates` stand for the state
of the `PeerConnection`: the current local description, whether the local
offer still waits for its answer, and the candidates passed to
`AddICECandidate`. `closed` counts the executions of `Destroy`, which sets the
connection to nil. -/
structure Peer where
  userid : String
  remoteuserid : String
  peerid : String
  role : Role
  isFake : Bool
  parent : SessRef
  publishersdp : Option Sdp
  localDesc : Option Sdp
  haveLocalOffer : Bool
  iceCandidates : List String
  setedRemoteDesc : Bool
  candidateCaches : List String
  dataChannel : Bool
  isReady : Bool
  shouldNotify : Bool
  closed : Nat

instance : Inhabited Peer :=
  ⟨⟨"", "", "", .publisher, false, 0, none, none, false, [], false, [], false,
    false, false, 0⟩⟩

/-- A goroutine started by `FakeSubscribe` to check on its result. -/
structure Check where
  sid : String
  pid : String
  curtime : Nat
  fired : Bool
  deriving DecidableEq, Repr

/-- `session`. `checks` are the goroutines its `waitGroup` counts. -/
structure Session where
  userid : String
  username : String
  clusterid : String
  podid : String
  origin : Bool
  publishers : GoMap PeerRef
  subscribers : GoMap PeerRef
  parent : RoomRef
  alivetime : Int
  checks : List Check

instance : Inhabited Session :=
  ⟨⟨"", "", "", "", false, ∅, ∅, 0, 0, []⟩⟩

/-- `room`. -/
structure Room where
  roomid : String
  sessions : GoMap SessRef

instance : Inhabited Room := ⟨⟨"", ∅⟩⟩

/-- The fields of `Config` that the room layer reads. -/
structure Config where
  mqttTopic : String
  maxpull : Nat
  clusterid : String
  uuid : String
  sn : Nat

/-- The mutexes: `pubsmux` and `subsmux` of a session, `sessionsLock` of a
room, `roomsLock` of the manager. -/
inductive Mutex where
  | pubs (s : SessRef)
  | subs (s : SessRef)
  | sessions (r : RoomRef)
  | rooms
  deriving DecidableEq, Repr

/-- What a handler does to the outside, one call each. -/
inductive Event where
  | sync (op : LockOp Mutex)
  | toClient (topic : String) (m : JsonParser)
  | toLB (m : JsonParser)
  | toPod (key : String) (m : JsonParser)
  | toCrossClusterPod (key : String) (m : JsonParser)
  | broadcastCrossCluster (m : JsonParser)
  | destroy (x : PeerRef)
  | deliverAudio (x : PeerRef) (buff : List UInt8)
  | deliverVideo (x : PeerRef) (buff : List UInt8)
  | deliverApp (x : PeerRef) (buff : List UInt8)
  deriving DecidableEq

/-- A call that a `go` statement has started and that has not run yet. The
releases also name the peer they were spawned for; the code does not look at
it. -/
inductive Goroutine where
  | releaseRoom (rid : String)
  | kickoutFromRoom (r : RoomRef) (sid : String)
  | checkKeepAlive (s : SessRef)
  | handleSubscriberLeaved (s : SessRef) (sid : String)
  | onPublisherReady (r : RoomRef) (sid name pid : String)
  | onPublisherPeerFailed (r : RoomRef) (sid pid : String) (cause : PeerRef)
  | onPublisherPeerClosed (r : RoomRef) (sid pid : String) (cause : PeerRef)
  | onSubscriberPeerFailed (r : RoomRef) (sid ssid pid : String)
      (cause : PeerRef)
  | onSubscriberPeerClosed (r : RoomRef) (sid ssid pid : String)
      (cause : PeerRef)
  | releaseSubscriberPeer (s : SessRef) (sid ssid pid : String)
      (cause : PeerRef)
  | fakePublisherReConnect (s : SessRef) (sid pid : String) (curtime : Nat)
  | requestKeyframe (x : PeerRef)
  deriving DecidableEq, Repr

/-- One pod: the room manager with every object it ever created. `loops` are
the live `StartRegistToLB` goroutines and `stops` the handlers that wait in
their send on `stopRegist`. -/
structure Pod where
  conf : Config
  regist : Bool
  loops : Nat
  stops : Nat
  rooms : GoMap RoomRef
  roomHeap : Heap Room
  sessHeap : Heap Session
  peerHeap : Heap Peer
  pending : List Goroutine
  log : List Event
  fatal : Bool

/-- What one handler call draws from its surroundings: the clock, whether
pion creates the peer connection, whether it accepts what the handler asks of
it afterwards, and the description it generates. -/
structure Env where
  now : Int
  createOk : Bool
  pionOk : Bool
  sdp : Sdp

/-- Surroundings in which pion accepts everything. -/
def Env.calm : Env := ⟨0, true, true, ⟨"v=0", ["audio", "video"]⟩⟩

/-- A pod that needs no registration with the load balancer. -/
def Config.standalone (uuid : String) : Config := ⟨"ms", 8, "c1", uuid, 0⟩

namespace Pod

/-- `CreateRoomMgr`. -/
def createRoomMgr (conf : Config) : Pod where
  conf := conf
  regist := false
  loops := 0
  stops := 0
  rooms := ∅
  roomHeap := Heap.empty
  sessHeap := Heap.empty
  peerHeap := Heap.empty
  pending := []
  log := []
  fatal := false

def room (p : Pod) (r : RoomRef) : Room := p.roomHeap.cell r

def sess (p : Pod) (s : SessRef) : Session := p.sessHeap.cell s

def peer (p : Pod) (x : PeerRef) : Peer := p.peerHeap.cell x

def setRoom (p : Pod) (r : RoomRef) (f : Room → Room) : Pod :=
  { p with roomHeap := p.roomHeap.modify r f }

def setSess (p : Pod) (s : SessRef) (f : Session → Session) : Pod :=
  { p with sessHeap := p.sessHeap.modify s f }

def setPeer (p : Pod) (x : PeerRef) (f : Peer → Peer) : Pod :=
  { p with peerHeap := p.peerHeap.modify x f }

def allocRoom (p : Pod) (a : Room) : Pod :=
  { p with roomHeap := p.roomHeap.alloc a }

def allocSess (p : Pod) (a : Session) : Pod :=
  { p with sessHeap := p.sessHeap.alloc a }

def allocPeer (p : Pod) (a : Peer) : Pod :=
  { p with peerHeap := p.peerHeap.alloc a }

/-- Nothing happens any more once the process is gone. -/
def emit (p : Pod) (e : Event) : Pod :=
  if p.fatal then p else { p with log := p.log ++ [e] }

/-- A panic or a fatal error of the runtime. -/
def throw (p : Pod) : Pod := { p with fatal := true }

/-- The `go` statement. -/
def go (p : Pod) (g : Goroutine) : Pod :=
  { p with pending := p.pending ++ [g] }

def lock (p : Pod) (m : Mutex) : Pod := p.emit (.sync (.lock m))

def unlock (p : Pod) (m : Mutex) : Pod := p.emit (.sync (.unlock m))

def rlock (p : Pod) (m : Mutex) : Pod := p.emit (.sync (.rlock m))

def runlock (p : Pod) (m : Mutex) : Pod := p.emit (.sync (.runlock m))

/-- `Config.GetSn`, an atomic add on a `uint64`. -/
def getSn (p : Pod) : Pod :=
  { p with conf := { p.conf with sn := (p.conf.sn + 1) % 2 ^ 64 } }

end Pod

/-- The events of a call that led from `p` to `q`. -/
def newEvents (p q : Pod) : List Event := q.log.drop p.log.length

end MediaServer.Ref
