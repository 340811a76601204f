import MediaServer.Ref.Session

/-!
# Rooms (`room.go`)

A room maps user ids to sessions. Its handlers read that map without the lock
and take `sessionsLock` for the sections that change it; as in `Session.lean`
each section is a definition of its own.
-/

namespace MediaServer.Ref

open MediaServer.Lib

def createRoom (id : String) : Room := ⟨id, ∅⟩

/-- The session that a login or a `fakepublish` creates. -/
def newSession (env : Env) (r : RoomRef) (m : JsonParser) : Session :=
  let t := createSession r (getValue m .sessID) (getValue m .userName) env.now
  if command m = some .login then t
  else t.setFakeSession (getValue m .clusterId) (getValue m .podId)

namespace Pod

/-! ## Messages a room sends -/

def notifyNotLogin (command sid : String) (p : Pod) : Pod :=
  p.emit (.toClient sid
    [(.cmd, .str command),
      (.sessID, .str sid),
      (.code, .int codeNotLogin),
      (.desc, .str descNotLogin)])

def notifyNotFoundPublishSession (command sid ssid : String) (p : Pod) : Pod :=
  p.emit (.toClient sid
    [(.cmd, .str command),
      (.sessID, .str sid),
      (.code, .int codeNotFoundPublishUser),
      (.desc, .str (descNotFoundPublishUser ++ ": " ++ ssid))])

def notifyLeaveRoom (env : Env) (r : RoomRef) (sid : String) (p : Pod) : Pod :=
  let p := p.getSn
  p.emit (.toLB
    [(.cmd, .str Cmd.podLeaveRoom.text),
      (.clusterId, .str p.conf.clusterid),
      (.podId, .str p.conf.uuid),
      (.roomId, .str (p.room r).roomid),
      (.sessID, .str sid),
      (.sn, .int p.conf.sn),
      (.timestamp, .int env.now)])

def pubMsg (p : Pod) (r : RoomRef) (sid name pid : String) : JsonParser :=
  [(.cmd, .str Cmd.pub.text),
    (.roomId, .str (p.room r).roomid),
    (.sessID, .str sid),
    (.userName, .str name),
    (.peerID, .str pid)]

/-- `OnPublisherReady`. -/
def onPublisherReady (r : RoomRef) (sid name pid : String) (p : Pod) : Pod :=
  (p.room r).sessions.entries.foldl (fun p e =>
    if (p.sess e.2).origin then
      p.emit (.toClient (p.sess e.2).userid (p.pubMsg r sid name pid))
    else p) p

/-! ## Sections on the sessions -/

def eraseSession (r : RoomRef) (uid : String) (p : Pod) : Pod :=
  p.setRoom r fun t => { t with sessions := t.sessions.erase uid }

/-- The section of `login` and `fakepublish` that takes out the session found
by the unlocked test; by now it may be a nil pointer. -/
def dropSession (r : RoomRef) (uid : String) (p : Pod) : Pod :=
  let p := p.lock (.sessions r)
  match (p.room r).sessions.lookup uid with
  | none => p.throw
  | some s => ((p.doLeave s).eraseSession r uid).unlock (.sessions r)

def storeSession (r : RoomRef) (uid : String) (s : SessRef) (p : Pod) : Pod :=
  p.setRoom r fun t => { t with sessions := t.sessions.insert uid s }

def insertSession (r : RoomRef) (uid : String) (t : Session) (p : Pod) : Pod :=
  (((p.allocSess t).lock (.sessions r)).storeSession r uid
    p.sessHeap.next).unlock (.sessions r)

/-- The loop of `hasOriginSession`. -/
def hasOrigin (p : Pod) (r : RoomRef) : Bool :=
  (p.room r).sessions.entries.any fun e => (p.sess e.2).origin

/-- The first ready publisher that the loops of `hasPublisher` and
`HasOriginPublisher` come across. -/
def firstReady (p : Pod) (s : SessRef) : Option (String × String) :=
  ((p.sess s).publishers.entries.find? fun e => (p.peer e.2).isReady).map
    fun e => ((p.peer e.2).userid, (p.peer e.2).peerid)

/-- First section of `KickoutFromRoom`. -/
def kickSession (env : Env) (r : RoomRef) (sid : String) (p : Pod) : Pod :=
  let p := p.lock (.sessions r)
  (match (p.room r).sessions.lookup sid with
    | some s =>
        let p := (p.doLeave s).eraseSession r (p.sess s).userid
        if (p.sess s).origin then p.notifyLeaveRoom env r sid else p
    | none => p).unlock (.sessions r)

def spreadLeaved (r : RoomRef) (sid : String) (p : Pod) : Pod :=
  let p := p.rlock (.sessions r)
  ((p.room r).sessions.entries.foldl
    (fun p e => p.go (.handleSubscriberLeaved e.2 sid)) p).runlock (.sessions r)

/-- `if !r.hasOriginSession() { go r.parent.ReleaseRoom(r.roomid) }`. -/
def releaseIfEmpty (r : RoomRef) (p : Pod) : Pod :=
  let p := (p.rlock (.sessions r)).runlock (.sessions r)
  if p.hasOrigin r then p else p.go (.releaseRoom (p.room r).roomid)

def kickoutFromRoom (env : Env) (r : RoomRef) (sid : String) (p : Pod) : Pod :=
  ((p.kickSession env r sid).spreadLeaved r sid).releaseIfEmpty r

def clearSessions (r : RoomRef) (p : Pod) : Pod :=
  p.setRoom r fun t => { t with sessions := ∅ }

/-- `DestroyRoom`. -/
def destroyRoom (r : RoomRef) (p : Pod) : Pod :=
  let p := p.lock (.sessions r)
  (((p.room r).sessions.entries.foldl
    (fun p e => p.doLeave e.2) p).clearSessions r).unlock (.sessions r)

/-! ## The branches of `room.HandleMessage` -/

/-- The streams a newcomer is told about: one of each session. -/
def tellStreams (r : RoomRef) (userID : String) (p : Pod) : Pod :=
  (p.room r).sessions.entries.foldl (fun p e =>
    let p := (p.rlock (.pubs e.2)).runlock (.pubs e.2)
    match p.firstReady e.2 with
    | some (sid, pid) =>
        p.emit (.toClient userID
          (p.pubMsg r sid (p.sess e.2).username pid))
    | none => p) p

def handleLogin (env : Env) (r : RoomRef) (j : JsonParser) (p : Pod) : Pod :=
  let userID := getValue j .sessID
  let p := if (p.room r).sessions.lookup userID = none then p
    else p.dropSession r userID
  let p := p.insertSession r userID
    (createSession r userID (getValue j .userName) env.now)
  (p.emit (.toClient userID
    [(.cmd, .str Cmd.login.text),
      (.sessID, .str userID),
      (.code, .int 0)])).tellStreams r userID

/-- Hand a message to the session of a user, if there is one. -/
def toSession (env : Env) (r : RoomRef) (uid : String) (j : JsonParser)
    (notFound : Pod → Pod) (p : Pod) : Pod :=
  match (p.room r).sessions.lookup uid with
  | some s => p.sessionHandleMessage env s j
  | none => notFound p

/-- `createroom`: the sessions with a ready publisher of their own answer. -/
def answerRoomCreated (env : Env) (r : RoomRef) (j : JsonParser) (p : Pod) :
    Pod :=
  (p.room r).sessions.entries.foldl (fun p e =>
    if (p.sess e.2).origin then
      let p := (p.rlock (.pubs e.2)).runlock (.pubs e.2)
      if (p.firstReady e.2).isSome ∧
          getValue j .sessID ≠ (p.sess e.2).userid then
        p.sessionHandleMessage env e.2 j
      else p
    else p) p

/-- `fakepublish`: a new stand-in takes the place of whatever session the user
had, unless nobody is logged in here any more. -/
def handleFakePublish (env : Env) (r : RoomRef) (j : JsonParser) (p : Pod) :
    Pod :=
  let userID := getValue j .sessID
  let p := if (p.room r).sessions.lookup userID = none then p
    else p.dropSession r userID
  let p := (p.rlock (.sessions r)).runlock (.sessions r)
  if p.hasOrigin r then
    let s := p.sessHeap.next
    (p.insertSession r userID
      ((createSession r userID (getValue j .userName) env.now).setFakeSession
        (getValue j .clusterId) (getValue j .podId))).sessionHandleMessage
          env s j
  else p.go (.releaseRoom (p.room r).roomid)

def handleFakeUnpublish (r : RoomRef) (j : JsonParser) (p : Pod) : Pod :=
  let userID := getValue j .sessID
  let p := p.lock (.sessions r)
  (match (p.room r).sessions.lookup userID with
    | some s =>
        if (p.sess s).podid = getValue j .podId then
          (p.doLeave s).eraseSession r userID
        else p
    | none => p).unlock (.sessions r)

/-- `room.HandleMessage`. -/
def roomHandleMessage (env : Env) (r : RoomRef) (j : JsonParser) (p : Pod) :
    Pod :=
  let userID := getValue j .sessID
  let remoteUserID := getValue j .srcSessID
  match command j with
  | some .login => p.handleLogin env r j
  | some .heartbeat | some .push | some .offer | some .stopPush =>
      p.toSession env r userID j fun p => p.notifyNotLogin (getValue j .cmd) userID
  | some .logout => p.kickoutFromRoom env r userID
  | some .sub | some .stopSub | some .answer =>
      p.toSession env r remoteUserID j fun p =>
        p.notifyNotFoundPublishSession (getValue j .cmd) userID remoteUserID
  | some .candidate =>
      p.toSession env r (if remoteUserID ≠ "" then remoteUserID else userID) j
        fun p => p
  | some .roomCreated => p.answerRoomCreated env r j
  | some .fakePublish => p.handleFakePublish env r j
  | some .fakeUnpublish => p.handleFakeUnpublish r j
  | some .fakeSubscribe => p.toSession env r remoteUserID j fun p => p
  | some .fakeOffer | some .fakeAnswer | some .fakeCandidate =>
      p.toSession env r userID j fun p => p
  | _ => p

/-! ## Spawned calls -/

/-- `OnPublisherPeerFailed`, and `OnPublisherPeerClosed` word for word. -/
def onPublisherPeerFailed (env : Env) (r : RoomRef) (sid pid : String)
    (p : Pod) : Pod :=
  match (p.room r).sessions.lookup sid with
  | some s => p.releasePublisher env s pid
  | none => p

/-- `OnSubscriberPeerFailed`, and `OnSubscriberPeerClosed` word for word. -/
def onSubscriberPeerFailed (r : RoomRef) (sid ssid pid : String) (p : Pod) :
    Pod :=
  match (p.room r).sessions.lookup ssid with
  | some s => p.releaseSubscriberPeer s sid ssid pid
  | none => p

def onCheckKeepalive (r : RoomRef) (p : Pod) : Pod :=
  let p := p.rlock (.sessions r)
  ((p.room r).sessions.entries.foldl
    (fun p e => p.go (.checkKeepAlive e.2)) p).runlock (.sessions r)

/-- `room.OnReceivedAppData`. -/
def onReceivedAppData (r : RoomRef) (fromSid fromPid : String)
    (buff : List UInt8) (p : Pod) : Pod :=
  let p := p.rlock (.sessions r)
  ((p.room r).sessions.entries.foldl
    (fun p e => p.broadcastAppData e.2 fromSid fromPid buff) p).runlock
      (.sessions r)

end Pod

end MediaServer.Ref
