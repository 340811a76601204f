import MediaServer.Lib.Trans
import MediaServer.Ref.Room

/-!
# The room manager (`roommgr.go`) and a pod run one call at a time

`roommgr.HandleMessage` finds or creates the room and calls into it. Here it
runs to its end without interruption, as does every ICE callback and every
goroutine that was spawned; what stays open is in which order the spawned
calls run, and how they are mixed with further messages. `Input` lists what
can happen to a pod and `Pod.step` is the machine.
-/

namespace MediaServer.Ref

open MediaServer.Lib

namespace Pod

def notifyServiceNotAvailable (cmd sid : String) (p : Pod) : Pod :=
  p.emit (.toClient sid
    [(.cmd, .str cmd),
      (.sessID, .str sid),
      (.code, .int codeNotAvailable),
      (.desc, .str descNotAvailable)])

/-! ## Registration

A `pod_regist` reply with code 0 is taken when it names a cluster, or when one
is configured already; the handler then sets `regist` and sends on
`stopRegist`. The same lines stand in both branches of the handler. -/

def registAccepts (m : JsonParser) (p : Pod) : Bool :=
  getIntValue m .code = some 0 ∧
    (getValue m .clusterId ≠ "" ∨ p.conf.clusterid ≠ "")

def registSet (m : JsonParser) (p : Pod) : Pod :=
  let clusterid := getValue m .clusterId
  { p with
    conf := { p.conf with
      clusterid := if clusterid ≠ "" then clusterid else p.conf.clusterid }
    regist := true }

def handlePodRegist (m : JsonParser) (p : Pod) : Pod :=
  if getIntValue m .code = none then p.throw
  else if p.registAccepts m then
    { p.registSet m with stops := p.stops + 1 }
  else p

/-- `regist_now`: the load balancer was restarted. -/
def handlePodRegistNow (p : Pod) : Pod :=
  if p.regist then { p with regist := false, loops := p.loops + 1 } else p

/-- One turn of `StartRegistToLB` on its ticker. -/
def registTick (env : Env) (p : Pod) : Pod :=
  if p.regist then { p with loops := p.loops - 1 }
  else
    let p := p.getSn
    p.emit (.toLB
      [(.cmd, .str Cmd.podRegist.text),
        (.clusterId, .str p.conf.clusterid),
        (.podId, .str p.conf.uuid),
        (.resource, .int p.conf.maxpull),
        (.sn, .int p.conf.sn),
        (.timestamp, .int env.now)])

/-- `SetSendMessageHandler`; the tickers it starts are inputs of their own. -/
def setSendMessageHandler (p : Pod) : Pod :=
  if p.conf.mqttTopic.utf8ByteSize = 36 then { p with loops := p.loops + 1 }
  else { p with regist := true }

/-! ## Rooms -/

def storeRoom (rid : String) (r : RoomRef) (p : Pod) : Pod :=
  { p with rooms := p.rooms.insert rid r }

def eraseRoom (rid : String) (p : Pod) : Pod :=
  { p with rooms := p.rooms.erase rid }

def insertRoom (rid : String) (p : Pod) : Pod :=
  (((p.allocRoom (createRoom rid)).lock .rooms).storeRoom rid
    p.roomHeap.next).unlock .rooms

def broadcastRoomCreated (env : Env) (m : JsonParser) (p : Pod) : Pod :=
  let p := p.getSn
  p.emit (.broadcastCrossCluster
    [(.cmd, .str Cmd.roomCreated.text),
      (.clusterId, .str p.conf.clusterid),
      (.podId, .str p.conf.uuid),
      (.roomId, .str (getValue m .roomId)),
      (.sessID, .str (getValue m .sessID)),
      (.sn, .int p.conf.sn),
      (.timestamp, .int env.now)])

def releaseRoom (rid : String) (p : Pod) : Pod :=
  let p := p.lock .rooms
  (match p.rooms.lookup rid with
    | some r => (p.destroyRoom r).eraseRoom rid
    | none => p).unlock .rooms

/-- The call into the room; a missing one is a nil pointer. -/
def callRoom (env : Env) (r : Option RoomRef) (m : JsonParser) (p : Pod) :
    Pod :=
  match r with
  | some r => p.roomHandleMessage env r m
  | none => p.throw

def mgrLogin (env : Env) (m : JsonParser) (p : Pod) : Pod :=
  let rid := getValue m .roomId
  let p := if p.rooms.lookup rid = none then
      (p.insertRoom rid).broadcastRoomCreated env m
    else p
  let p := (p.rlock .rooms).runlock .rooms
  p.callRoom env (p.rooms.lookup rid) m

/-- What `roommgr.HandleMessage` does with a command other than the two of the
registration and `login`: whether it goes to the room at all, and what is
answered when the room is not there. -/
def forwards (p : Pod) (m : JsonParser) : Bool :=
  match command m with
  | some .heartbeat | some .logout | some .push | some .stopPush | some .sub
  | some .stopSub | some .offer | some .answer | some .candidate
  | some .fakeSubscribe | some .fakeOffer | some .fakeAnswer
  | some .fakeCandidate => true
  | some .roomCreated | some .fakePublish | some .fakeUnpublish =>
      getValue m .podId ≠ p.conf.uuid
  | _ => false

def notFoundRoom (m : JsonParser) (p : Pod) : Pod :=
  match command m with
  | some .heartbeat | some .logout | some .push | some .stopPush | some .sub
  | some .stopSub | some .offer | some .answer | some .candidate =>
      p.notifyNotLogin (getValue m .cmd) (getValue m .sessID)
  | _ => p

def mgrForward (env : Env) (m : JsonParser) (p : Pod) : Pod :=
  if p.forwards m then
    match p.rooms.lookup (getValue m .roomId) with
    | some r => p.roomHandleMessage env r m
    | none => p.notFoundRoom m
  else p

/-- `roommgr.HandleMessage`. -/
def mgrHandleMessage (env : Env) (m : JsonParser) (p : Pod) : Pod :=
  match command m with
  | some .podRegist => p.handlePodRegist m
  | some .podRegistNow => p.handlePodRegistNow
  | some .login =>
      if p.regist then p.mgrLogin env m
      else p.notifyServiceNotAvailable (getValue m .cmd) (getValue m .sessID)
  | _ =>
      if p.regist then p.mgrForward env m
      else p.notifyServiceNotAvailable (getValue m .cmd) (getValue m .sessID)

/-- The keepalive ticker of `SetSendMessageHandler`. -/
def keepaliveTick (p : Pod) : Pod :=
  let p := p.rlock .rooms
  (p.rooms.entries.foldl (fun p e => p.onCheckKeepalive e.2) p).runlock .rooms

/-- A spawned call runs. The keyframe filter behind `RequestKeyframe` shares
no state with the room layer. -/
def runGoroutine (env : Env) (g : Goroutine) (p : Pod) : Pod :=
  match g with
  | .releaseRoom rid => p.releaseRoom rid
  | .kickoutFromRoom r sid => p.kickoutFromRoom env r sid
  | .checkKeepAlive s => p.checkKeepAlive env s
  | .handleSubscriberLeaved s sid => p.handleSubscriberLeaved s sid
  | .onPublisherReady r sid name pid => p.onPublisherReady r sid name pid
  | .onPublisherPeerFailed r sid pid _ => p.onPublisherPeerFailed env r sid pid
  | .onPublisherPeerClosed r sid pid _ => p.onPublisherPeerFailed env r sid pid
  | .onSubscriberPeerFailed r sid ssid pid _ =>
      p.onSubscriberPeerFailed r sid ssid pid
  | .onSubscriberPeerClosed r sid ssid pid _ =>
      p.onSubscriberPeerFailed r sid ssid pid
  | .releaseSubscriberPeer s sid ssid pid _ =>
      p.releaseSubscriberPeer s sid ssid pid
  | .fakePublisherReConnect s sid pid curtime =>
      p.fakePublisherReConnect s sid pid curtime
  | .requestKeyframe _ => p

end Pod

/-- What can happen to a pod: a message from any transport, a ticker, an ICE
callback, a check timer, a data channel that opens, data on a publisher's
tracks or on a data channel, a registration loop that takes a stop, and the
turn of the `i`-th pending call. -/
inductive Input where
  | setSendMessageHandler
  | message (m : JsonParser)
  | keepaliveTick
  | registTick
  | registStop
  | ice (x : PeerRef) (st : IceState)
  | checkTimer (s : SessRef) (i : Nat)
  | dataChannel (x : PeerRef)
  | audio (x : PeerRef) (buff : List UInt8)
  | video (x : PeerRef) (buff : List UInt8)
  | appData (x : PeerRef) (buff : List UInt8)
  | go (i : Nat)

/-- The message of an input, if it is one. -/
def Input.msg? : Input → Option JsonParser
  | .message m => some m
  | _ => none

namespace Pod

/-- `OnDataChannel` of a publisher. -/
def onDataChannel (x : PeerRef) (p : Pod) : Pod :=
  if (p.peer x).role = .publisher then
    p.setPeer x fun q => { q with dataChannel := true }
  else p

/-- The message callback of a data channel, of either role. -/
def onAppMessage (x : PeerRef) (buff : List UInt8) (p : Pod) : Pod :=
  p.onReceivedAppData (p.sess (p.peer x).parent).parent (p.peer x).userid
    (p.peer x).peerid buff

/-- One call, run to its end. -/
def step (a : Env × Input) (p : Pod) : Option Pod :=
  if p.fatal then none
  else
    match a.2 with
    | .setSendMessageHandler => some p.setSendMessageHandler
    | .message m => some (p.mgrHandleMessage a.1 m)
    | .keepaliveTick => some p.keepaliveTick
    | .registTick => if 0 < p.loops then some (p.registTick a.1) else none
    | .registStop =>
        if 0 < p.loops ∧ 0 < p.stops then
          some { p with loops := p.loops - 1, stops := p.stops - 1 }
        else none
    | .ice x st =>
        if x < p.peerHeap.next then some (p.onICEConnectionStateChange x st)
        else none
    | .checkTimer s i => some (p.checkTimer s i)
    | .dataChannel x => some (p.onDataChannel x)
    | .audio x buff =>
        some (p.onReceivedAudioData (p.peer x).parent buff (p.peer x).peerid)
    | .video x buff =>
        some (p.onReceivedVideoData (p.peer x).parent buff (p.peer x).peerid)
    | .appData x buff => some (p.onAppMessage x buff)
    | .go i =>
        match p.pending[i]? with
        | some g =>
            some (runGoroutine a.1 g { p with pending := p.pending.eraseIdx i })
        | none => none

/-- The states a pod reaches when its calls run one at a time. -/
def Reachable (conf : Config) (p : Pod) : Prop :=
  ∃ as, run step as (createRoomMgr conf) = some p

end Pod

end MediaServer.Ref
