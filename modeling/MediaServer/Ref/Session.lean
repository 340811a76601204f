import MediaServer.Ref.Peer

/-!
# Sessions (`session.go`)

A session is one user of one room, either logged in here (`origin`) or the
stand-in for a user of another pod. Its handlers come in blocks: a lookup made
without a lock, then one or more sections under `pubsmux` or `subsmux`. Each
section is a definition of its own, so that the handlers below, which run
their blocks one after the other, and the scheduler of `Sched.lean`, which
may put other goroutines between them, are built from the same parts.
-/

namespace MediaServer.Ref

open MediaServer.Lib

def createSession (r : RoomRef) (id name : String) (now : Int) : Session where
  userid := id
  username := name
  clusterid := ""
  podid := ""
  origin := true
  publishers := ∅
  subscribers := ∅
  parent := r
  alivetime := now
  checks := []

def Session.setFakeSession (sess : Session) (clusterid podid : String) :
    Session :=
  { sess with origin := false, clusterid := clusterid, podid := podid }

/-- The key under which a subscriber is stored. -/
def subKey (sid ssid pid : String) : String := sid ++ ssid ++ pid

namespace Pod

/-! ## Messages a session sends -/

/-- `room.notifyStopPush`: every origin member hears that the stream is gone,
and the other pods do if the stream was published here. -/
def notifyStopPush (r : RoomRef) (origin : Bool) (sid pid : String)
    (p : Pod) : Pod :=
  let p := (p.room r).sessions.entries.foldl (fun p e =>
    if (p.sess e.2).origin then
      p.emit (.toClient (p.sess e.2).userid
        [(.cmd, .str Cmd.unpub.text),
          (.roomId, .str (p.room r).roomid),
          (.sessID, .str sid),
          (.peerID, .str pid)])
    else p) p
  if origin then
    p.emit (.broadcastCrossCluster
      [(.cmd, .str Cmd.fakeUnpublish.text),
        (.clusterId, .str p.conf.clusterid),
        (.podId, .str p.conf.uuid),
        (.roomId, .str (p.room r).roomid),
        (.sessID, .str sid),
        (.peerID, .str pid)])
  else p

/-- The error answers of a session, `notifyNotFoundPublishPeer` and its two
siblings. -/
def notifyPeerError (code : Int) (desc command sid peerid : String)
    (p : Pod) : Pod :=
  p.emit (.toClient sid
    [(.cmd, .str command),
      (.sessID, .str sid),
      (.peerID, .str peerid),
      (.code, .int code),
      (.desc, .str desc)])

def notifyNotFoundPublishPeer (s : SessRef) (command sid peerid : String)
    (p : Pod) : Pod :=
  p.notifyPeerError codeNotFoundPublishPeer
    (descNotFoundPublishPeer ++ ": " ++ (p.sess s).userid ++ ":" ++ peerid)
    command sid peerid

def notifyNotFoundSubscribePeer (s : SessRef) (command sid peerid : String)
    (p : Pod) : Pod :=
  p.notifyPeerError codeNotFoundSubscribePeer
    (descNotFoundSubscribePeer ++ ": " ++ (p.sess s).userid ++ ":" ++ peerid)
    command sid peerid

def notifyCreatePeerFailed (s : SessRef) (command sid peerid : String)
    (p : Pod) : Pod :=
  p.notifyPeerError codeCreatePeerError
    (descCreatePeerError ++ ": " ++ sid ++ "<-" ++ (p.sess s).userid ++ ":"
      ++ peerid)
    command sid peerid

def notifyReleasePublish (env : Env) (s : SessRef) (pid : String)
    (p : Pod) : Pod :=
  let p := p.getSn
  p.emit (.toLB
    [(.cmd, .str Cmd.podReleasePublish.text),
      (.clusterId, .str p.conf.clusterid),
      (.podId, .str p.conf.uuid),
      (.roomId, .str (p.room (p.sess s).parent).roomid),
      (.sessID, .str (p.sess s).userid),
      (.peerID, .str pid),
      (.sn, .int p.conf.sn),
      (.timestamp, .int env.now)])

/-- The announcement of a stream to other pods. -/
def fakePublishMsg (p : Pod) (s : SessRef) (sid pid : String) : JsonParser :=
  [(.cmd, .str Cmd.fakePublish.text),
    (.clusterId, .str p.conf.clusterid),
    (.podId, .str p.conf.uuid),
    (.roomId, .str (p.room (p.sess s).parent).roomid),
    (.sessID, .str sid),
    (.peerID, .str pid),
    (.userName, .str (p.sess s).username)]

/-- `FakeSubscribe`: ask the user's own pod for the stream, and start the
goroutine that checks on the result. -/
def fakeSubscribe (s : SessRef) (sid pid : String) (curtime : Nat)
    (p : Pod) : Pod :=
  (p.emit (.toCrossClusterPod (p.sess s).podid
    [(.cmd, .str Cmd.fakeSubscribe.text),
      (.clusterId, .str p.conf.clusterid),
      (.podId, .str p.conf.uuid),
      (.roomId, .str (p.room (p.sess s).parent).roomid),
      (.sessID, .str sid),
      (.srcSessID, .str sid),
      (.peerID, .str pid)])).setSess s
    fun t => { t with checks := t.checks ++ [⟨sid, pid, curtime, false⟩] }

/-! ## Sections on the publishers -/

/-- `if value.ShouldNotify() { … notifyStopPush … }`. -/
def stopNotify (s : SessRef) (x : PeerRef) (pid : String) (p : Pod) : Pod :=
  if (p.peer x).shouldNotify then
    (p.setPeer x fun q => { q with shouldNotify := false }).notifyStopPush
      (p.sess s).parent (p.sess s).origin (p.sess s).userid pid
  else p

def erasePublisher (s : SessRef) (pid : String) (p : Pod) : Pod :=
  p.setSess s fun t => { t with publishers := t.publishers.erase pid }

/-- Notify, destroy and delete the publisher `x` that was found earlier. -/
def dropPublisher (s : SessRef) (x : PeerRef) (pid : String) (p : Pod) : Pod :=
  ((p.stopNotify s x pid).destroy x).erasePublisher s pid

def replacePublisher (s : SessRef) (x : PeerRef) (pid : String) (p : Pod) :
    Pod :=
  ((p.lock (.pubs s)).dropPublisher s x pid).unlock (.pubs s)

/-- The same section in `stoppush`, which ends with `RUnlock`. The runtime
throws on an `RUnlock` of a mutex that is locked for writing. -/
def stopSection (s : SessRef) (x : PeerRef) (pid : String) (p : Pod) : Pod :=
  ((p.lock (.pubs s)).dropPublisher s x pid).runlock (.pubs s)

def stopPublisher (s : SessRef) (x : PeerRef) (pid : String) (p : Pod) : Pod :=
  (p.stopSection s x pid).throw

def storePublisher (s : SessRef) (pid : String) (x : PeerRef) (p : Pod) : Pod :=
  p.setSess s fun t => { t with publishers := t.publishers.insert pid x }

/-- The new peer becomes reachable; nobody can refer to it before. -/
def insertPublisher (s : SessRef) (pid : String) (q : Peer) (p : Pod) : Pod :=
  (((p.allocPeer q).lock (.pubs s)).storePublisher s pid
    p.peerHeap.next).unlock (.pubs s)

/-- The reading section of `sub` and `fakesubscribe`: the publisher is looked
up again, and its connection dereferenced. -/
def readPublisher (s : SessRef) (pid : String) (p : Pod) : Pod × Option Sdp :=
  let p := p.rlock (.pubs s)
  match (p.sess s).publishers.lookup pid with
  | none => (p.throw, none)
  | some x =>
      if (p.peer x).closed = 0 then
        (p.runlock (.pubs s), (p.peer x).localDesc)
      else (p.throw, none)

/-! ## Sections on the subscribers -/

def eraseSubscriber (s : SessRef) (key : String) (p : Pod) : Pod :=
  p.setSess s fun t => { t with subscribers := t.subscribers.erase key }

def dropSubscriber (s : SessRef) (y : PeerRef) (key : String) (p : Pod) : Pod :=
  (p.destroy y).eraseSubscriber s key

/-- The subscriber is looked up again under the lock; a missing one is a nil
pointer. -/
def replaceSubscriber (s : SessRef) (key : String) (p : Pod) : Pod :=
  let p := p.lock (.subs s)
  match (p.sess s).subscribers.lookup key with
  | none => p.throw
  | some y => (p.dropSubscriber s y key).unlock (.subs s)

def storeSubscriber (s : SessRef) (key : String) (y : PeerRef) (p : Pod) :
    Pod :=
  p.setSess s fun t => { t with subscribers := t.subscribers.insert key y }

def insertSubscriber (s : SessRef) (key : String) (q : Peer) (p : Pod) : Pod :=
  (((p.allocPeer q).lock (.subs s)).storeSubscriber s key
    p.peerHeap.next).unlock (.subs s)

/-! ## Releases -/

/-- First section of `ReleasePublisher`. -/
def releasePubs (s : SessRef) (pid : String) (p : Pod) : Pod :=
  let p := p.lock (.pubs s)
  (match (p.sess s).publishers.lookup pid with
    | some x => p.dropPublisher s x pid
    | none => p).unlock (.pubs s)

/-- One turn of the loop in the second section of `ReleasePublisher`. -/
def releaseSubsOf (s : SessRef) (pid : String) (p : Pod) (y : PeerRef) : Pod :=
  if (p.peer y).peerid = pid then
    p.dropSubscriber s y
      (subKey (p.peer y).userid (p.peer y).remoteuserid (p.peer y).peerid)
  else p

def releaseSubs (s : SessRef) (pid : String) (p : Pod) : Pod :=
  let p := p.lock (.subs s)
  ((p.sess s).subscribers.entries.foldl
    (fun p e => p.releaseSubsOf s pid e.2) p).unlock (.subs s)

def releasePublisher (env : Env) (s : SessRef) (pid : String) (p : Pod) : Pod :=
  ((p.releasePubs s pid).releaseSubs s pid).notifyReleasePublish env s pid

def releaseSubscriberPeer (s : SessRef) (sid ssid pid : String) (p : Pod) :
    Pod :=
  let p := p.lock (.subs s)
  (match (p.sess s).subscribers.lookup (subKey sid ssid pid) with
    | some y => p.dropSubscriber s y (subKey sid ssid pid)
    | none => p).unlock (.subs s)

/-- The list `HandleSubscriberLeaved` collects in its first section. -/
def publisherIds (s : SessRef) (p : Pod) : List String :=
  (p.sess s).publishers.entries.map fun e => (p.peer e.2).peerid

/-- Second section of `HandleSubscriberLeaved`. -/
def leavedSubs (s : SessRef) (sid : String) (lst : List String) (p : Pod) :
    Pod :=
  (lst.foldl (fun p pid =>
    match (p.sess s).subscribers.lookup (subKey sid (p.sess s).userid pid) with
    | some y => p.dropSubscriber s y (subKey sid (p.sess s).userid pid)
    | none => p) (p.lock (.subs s))).unlock (.subs s)

def handleSubscriberLeaved (s : SessRef) (sid : String) (p : Pod) : Pod :=
  ((p.rlock (.pubs s)).runlock (.pubs s)).leavedSubs s sid (p.publisherIds s)

/-! ## Leaving -/

def clearPublishers (s : SessRef) (p : Pod) : Pod :=
  p.setSess s fun t => { t with publishers := ∅ }

def clearSubscribers (s : SessRef) (p : Pod) : Pod :=
  p.setSess s fun t => { t with subscribers := ∅ }

def doLeavePubs (s : SessRef) (p : Pod) : Pod :=
  let p := p.lock (.pubs s)
  (((p.sess s).publishers.entries.foldl (fun p e =>
    (p.stopNotify s e.2 (p.peer e.2).peerid).destroy e.2) p).clearPublishers
      s).unlock (.pubs s)

def doLeaveSubs (s : SessRef) (p : Pod) : Pod :=
  let p := p.lock (.subs s)
  (((p.sess s).subscribers.entries.foldl
    (fun p e => p.destroy e.2) p).clearSubscribers s).unlock (.subs s)

/-- `waitGroup.Wait()` has returned: no check goroutine is left. -/
def waitChecks (s : SessRef) (p : Pod) : Pod :=
  p.setSess s fun t => { t with checks := [] }

/-- `DoLeave`; its result is the session's `origin`. -/
def doLeave (s : SessRef) (p : Pod) : Pod :=
  ((p.doLeavePubs s).doLeaveSubs s).waitChecks s

/-- `FakePublisherReConnect`. -/
def fakePublisherReConnect (s : SessRef) (sid pid : String) (curtime : Nat)
    (p : Pod) : Pod :=
  if (p.sess s).origin then p
  else (p.waitChecks s).fakeSubscribe s sid pid curtime

def setCheck (s : SessRef) (i : Nat) (c : Check) (p : Pod) : Pod :=
  p.setSess s fun t => { t with checks := t.checks.set i c }

/-- The timer of a check goroutine has fired. The goroutine goes on waiting
for its exit token in every case. -/
def checkTimer (s : SessRef) (i : Nat) (p : Pod) : Pod :=
  match (p.sess s).checks[i]? with
  | none => p
  | some c =>
      let ready := match (p.sess s).publishers.lookup c.pid with
        | some x => (p.peer x).isReady
        | none => false
      if c.fired then p
      else if ready then p.setCheck s i { c with fired := true }
      else if 0 < c.curtime then
        (p.setCheck s i { c with curtime := c.curtime - 1, fired := true }).go
          (.fakePublisherReConnect s c.sid c.pid (c.curtime - 1))
      else p.setCheck s i { c with fired := true }

/-! ## The branches of `session.HandleMessage` -/

def answerPush (j : JsonParser) (p : Pod) : Pod :=
  p.emit (.toClient (getValue j .sessID)
    [(.cmd, .str Cmd.push.text),
      (.sessID, .str (getValue j .sessID)),
      (.peerID, .str (getValue j .peerID)),
      (.code, .int 0)])

/-- `publish`. -/
def handlePush (env : Env) (s : SessRef) (j : JsonParser) (p : Pod) : Pod :=
  let userID := getValue j .sessID
  let peerid := getValue j .peerID
  let p := match (p.sess s).publishers.lookup peerid with
    | some x => p.replacePublisher s x peerid
    | none => p
  if env.createOk then
    (p.insertPublisher s peerid
      (createPublishPeer s userID peerid false)).answerPush j
  else p

def answerStopPush (env : Env) (s : SessRef) (j : JsonParser) (p : Pod) :
    Pod :=
  (p.emit (.toClient (getValue j .sessID)
    [(.cmd, .str Cmd.stopPush.text),
      (.sessID, .str (getValue j .sessID)),
      (.peerID, .str (getValue j .peerID)),
      (.code, .int 0)])).notifyReleasePublish env s (getValue j .peerID)

/-- `stoppush`. What follows the throwing unlock is never reached. -/
def handleStopPush (env : Env) (s : SessRef) (j : JsonParser) (p : Pod) :
    Pod :=
  let peerid := getValue j .peerID
  match (p.sess s).publishers.lookup peerid with
  | some x => (p.stopPublisher s x peerid).answerStopPush env s j
  | none => p

/-- `sub` and `fakesubscribe`: they differ in who subscribes (the client or
the asking pod), in the flag of the peer, and in the answers to a missing
publisher and to a failed creation. -/
def subscribe (env : Env) (s : SessRef) (j : JsonParser) (sid : String)
    (isFake : Bool) (notFound failed : Pod → Pod) (p : Pod) : Pod :=
  let ssid := getValue j .srcSessID
  let pid := getValue j .peerID
  let key := subKey sid ssid pid
  if (p.sess s).publishers.lookup pid = none then notFound p
  else
    let (p, sdp) := p.readPublisher s pid
    let p := if (p.sess s).subscribers.lookup key = none then p
      else p.replaceSubscriber s key
    if env.createOk then
      let y := p.peerHeap.next
      (p.insertSubscriber s key
        (createSubscribePeer s sid ssid pid sdp isFake)).peerHandleMessage
          env y j
    else failed p

def handleSub (env : Env) (s : SessRef) (j : JsonParser) (p : Pod) : Pod :=
  p.subscribe env s j (getValue j .sessID) false
    (fun p => p.notifyNotFoundPublishPeer s (getValue j .cmd)
      (getValue j .sessID) (getValue j .peerID))
    (fun p => p.notifyCreatePeerFailed s (getValue j .cmd)
      (getValue j .sessID) (getValue j .peerID))

def handleFakeSub (env : Env) (s : SessRef) (j : JsonParser) (p : Pod) : Pod :=
  p.subscribe env s j (getValue j .podId) true (fun p => p) (fun p => p)

/-- `stopsub`. -/
def handleStopSub (s : SessRef) (j : JsonParser) (p : Pod) : Pod :=
  let sid := getValue j .sessID
  let ssid := getValue j .srcSessID
  let pid := getValue j .peerID
  let p := p.rlock (.subs s)
  (match (p.sess s).subscribers.lookup (subKey sid ssid pid) with
    | some y => p.go (.releaseSubscriberPeer s sid ssid pid y)
    | none => p).runlock (.subs s)

/-- `offer`: a publisher, looked up under the subscribers' mutex. -/
def handleOffer (env : Env) (s : SessRef) (j : JsonParser) (p : Pod) : Pod :=
  let p := p.rlock (.subs s)
  (match (p.sess s).publishers.lookup (getValue j .peerID) with
    | some x => p.peerHandleMessage env x j
    | none => p.notifyNotFoundPublishPeer s (getValue j .cmd)
        (getValue j .sessID) (getValue j .peerID)).runlock (.subs s)

/-- `answer`, `fakeanswer` and `fakecandidate` hand the message to the
subscriber of their key. -/
def toSubscriber (env : Env) (s : SessRef) (j : JsonParser) (sid : String)
    (notFound : Pod → Pod) (p : Pod) : Pod :=
  let p := p.rlock (.subs s)
  (match (p.sess s).subscribers.lookup
      (subKey sid (getValue j .srcSessID) (getValue j .peerID)) with
    | some y => p.peerHandleMessage env y j
    | none => notFound p).runlock (.subs s)

def handleAnswer (env : Env) (s : SessRef) (j : JsonParser) (p : Pod) : Pod :=
  p.toSubscriber env s j (getValue j .sessID) fun p =>
    p.notifyNotFoundSubscribePeer s (getValue j .cmd) (getValue j .sessID)
      (getValue j .peerID)

def handleFakeAnswer (env : Env) (s : SessRef) (j : JsonParser) (p : Pod) :
    Pod :=
  p.toSubscriber env s j (getValue j .podId) fun p => p

def handleFakeCandidate (env : Env) (s : SessRef) (j : JsonParser) (p : Pod) :
    Pod :=
  if !(p.sess s).origin then p
  else p.toSubscriber env s j (getValue j .podId) fun p => p

/-- `createroom`: every publisher of the session is announced to the pod that
asks, over the exchange its cluster id selects. -/
def handleRoomCreated (s : SessRef) (j : JsonParser) (p : Pod) : Pod :=
  (p.sess s).publishers.entries.foldl (fun p e =>
    let msg := p.fakePublishMsg s (p.peer e.2).userid (p.peer e.2).peerid
    if (p.sess s).clusterid = getValue j .clusterId then
      p.emit (.toPod (getValue j .podId) msg)
    else p.emit (.toCrossClusterPod (getValue j .podId) msg)) p

/-- `fakeoffer`. -/
def handleFakeOfferMsg (env : Env) (s : SessRef) (j : JsonParser) (p : Pod) :
    Pod :=
  let userID := getValue j .sessID
  let peerid := getValue j .peerID
  let p := match (p.sess s).publishers.lookup peerid with
    | some x => p.replacePublisher s x peerid
    | none => p
  if env.createOk then
    let y := p.peerHeap.next
    (p.insertPublisher s peerid
      (createPublishPeer s userID peerid true)).peerHandleMessage env y j
  else p

/-- `session.HandleMessage`. -/
def sessionHandleMessage (env : Env) (s : SessRef) (j : JsonParser)
    (p : Pod) : Pod :=
  match command j with
  | some .heartbeat => p.setSess s fun t => { t with alivetime := env.now }
  | some .push => p.handlePush env s j
  | some .stopPush => p.handleStopPush env s j
  | some .sub => p.handleSub env s j
  | some .stopSub => p.handleStopSub s j
  | some .offer => p.handleOffer env s j
  | some .answer => p.handleAnswer env s j
  | some .roomCreated => p.handleRoomCreated s j
  | some .fakePublish =>
      p.fakeSubscribe s (getValue j .sessID) (getValue j .peerID)
        clusterReconnectionMaxtimes
  | some .fakeSubscribe => p.handleFakeSub env s j
  | some .fakeOffer => p.handleFakeOfferMsg env s j
  | some .fakeAnswer => p.handleFakeAnswer env s j
  | some .fakeCandidate => p.handleFakeCandidate env s j
  | _ => p

/-! ## ICE callbacks -/

def onIceReady (role : Role) (s : SessRef) (sid pid : String) (p : Pod) : Pod :=
  match role with
  | .publisher =>
      let p := p.rlock (.pubs s)
      (match (p.sess s).publishers.lookup pid with
        | some _ =>
            let p := p.go (.onPublisherReady (p.sess s).parent sid
              (p.sess s).username pid)
            if (p.sess s).origin then
              p.emit (.broadcastCrossCluster (p.fakePublishMsg s sid pid))
            else p
        | none => p).runlock (.pubs s)
  | .subscriber =>
      match (p.sess s).publishers.lookup pid with
      | some x => p.go (.requestKeyframe x)
      | none => p

def onIceDisconnected (s : SessRef) (pid : String) (p : Pod) : Pod :=
  let p := p.rlock (.pubs s)
  (match (p.sess s).publishers.lookup pid with
    | some x => p.stopNotify s x pid
    | none => p).runlock (.pubs s)

/-- The presence test of `OnIceFailed` and `OnIceClosed` on a publisher, with
the release it spawns. -/
def testPublisher (s : SessRef) (pid : String) (g : Goroutine) (p : Pod) :
    Pod :=
  let p := p.rlock (.pubs s)
  (match (p.sess s).publishers.lookup pid with
    | some _ => p.go g
    | none => p).runlock (.pubs s)

/-- The same test on a subscriber: it looks under the peer id alone. -/
def testSubscriber (s : SessRef) (pid : String) (g : Goroutine) (p : Pod) :
    Pod :=
  let p := p.rlock (.subs s)
  (match (p.sess s).subscribers.lookup pid with
    | some _ => p.go g
    | none => p).runlock (.subs s)

def onIceFailed (x : PeerRef) (p : Pod) : Pod :=
  let q := p.peer x
  let s := q.parent
  let r := (p.sess s).parent
  match q.role with
  | .publisher =>
      let p := p.testPublisher s q.peerid
        (.onPublisherPeerFailed r q.userid q.peerid x)
      if !(p.sess s).origin then
        p.fakePublisherReConnect s q.userid q.peerid clusterReconnectionMaxtimes
      else p
  | .subscriber =>
      p.testSubscriber s q.peerid
        (.onSubscriberPeerFailed r q.userid q.remoteuserid q.peerid x)

def onIceClosed (x : PeerRef) (p : Pod) : Pod :=
  let q := p.peer x
  let s := q.parent
  let r := (p.sess s).parent
  match q.role with
  | .publisher =>
      p.testPublisher s q.peerid
        (.onPublisherPeerClosed r q.userid q.peerid x)
  | .subscriber =>
      p.testSubscriber s q.peerid
        (.onSubscriberPeerClosed r q.userid q.remoteuserid q.peerid x)

end Pod

/-- The ICE connection states that the callbacks look at. -/
inductive IceState where
  | connected
  | disconnected
  | failed
  | closed
  deriving DecidableEq, Repr

namespace Pod

/-- The fields a callback sets before it calls into the session. -/
def setIceFlags (x : PeerRef) (st : IceState) (p : Pod) : Pod :=
  p.setPeer x fun q =>
    match st with
    | .connected => { q with isReady := true, shouldNotify := true }
    | _ => { q with isReady := false }

/-- The call into the session; a subscriber does not report a disconnect. -/
def reportIce (x : PeerRef) (st : IceState) (p : Pod) : Pod :=
  let q := p.peer x
  match st with
  | .connected => p.onIceReady q.role q.parent q.userid q.peerid
  | .disconnected =>
      match q.role with
      | .publisher => p.onIceDisconnected q.parent q.peerid
      | .subscriber => p
  | .failed => p.onIceFailed x
  | .closed => p.onIceClosed x

/-- The callback that `CreatePublishPeer` and `CreateSubscribePeer` register
for changes of the ICE connection state. It does nothing once the connection
is nil. -/
def onICEConnectionStateChange (x : PeerRef) (st : IceState) (p : Pod) : Pod :=
  if 0 < (p.peer x).closed then p
  else (p.setIceFlags x st).reportIce x st

/-! ## Media and application data -/

def onReceivedAudioData (s : SessRef) (buff : List UInt8) (peerid : String)
    (p : Pod) : Pod :=
  let p := p.rlock (.subs s)
  ((p.sess s).subscribers.entries.foldl (fun p e =>
    if peerid.toList <:+: e.1.toList then p.emit (.deliverAudio e.2 buff)
    else p) p).runlock (.subs s)

def onReceivedVideoData (s : SessRef) (buff : List UInt8) (peerid : String)
    (p : Pod) : Pod :=
  let p := p.rlock (.subs s)
  ((p.sess s).subscribers.entries.foldl (fun p e =>
    if peerid.toList <:+: e.1.toList then p.emit (.deliverVideo e.2 buff)
    else p) p).runlock (.subs s)

/-- One of the two loops of `BroadcastAppData`. -/
def deliverAppTo (fromSid fromPid : String) (buff : List UInt8)
    (peers : GoMap PeerRef) (p : Pod) : Pod :=
  peers.entries.foldl (fun p e =>
    if (p.peer e.2).userid ≠ fromSid ∨ (p.peer e.2).peerid ≠ fromPid then
      p.emit (.deliverApp e.2 buff)
    else p) p

def broadcastAppData (s : SessRef) (fromSid fromPid : String)
    (buff : List UInt8) (p : Pod) : Pod :=
  let p := ((p.rlock (.pubs s)).deliverAppTo fromSid fromPid buff
    (p.sess s).publishers).runlock (.pubs s)
  ((p.rlock (.subs s)).deliverAppTo fromSid fromPid buff
    (p.sess s).subscribers).runlock (.subs s)

/-- `CheckKeepAlive`. -/
def checkKeepAlive (env : Env) (s : SessRef) (p : Pod) : Pod :=
  if !(p.sess s).origin then p
  else if env.now - (p.sess s).alivetime > 60 then
    p.go (.kickoutFromRoom (p.sess s).parent (p.sess s).userid)
  else p

end Pod

end MediaServer.Ref
