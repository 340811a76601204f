import MediaServer.Lib.Threads
import MediaServer.Ref.Roommgr

/-!
# Sessions under a scheduler

The calls on a session as threads. A block is a test made without a lock, or
one section under `pubsmux` or `subsmux`; between two blocks of a call any
other thread may run, so what a test found may be gone when the next section
acts on it. `Pc` lists the places where a call can stand, with the values it
carries from one block to the next. The blocks are the definitions of
`Session.lean`, and which calls arrive, on which session and when, is left
open.

The section of `stoppush` ends with `RUnlock`. If no reader is waiting for
`pubsmux` the runtime throws; if one is, its counters add up and the mutex
just stays locked. `stuck` are the sessions to which that happened: nobody
gets their `pubsmux` again.
-/

namespace MediaServer.Ref

open MediaServer.Lib

/-- The calls that create, replace or destroy peers. -/
inductive Op where
  | message (j : JsonParser)
  | releasePublisher (pid : String)
  | releaseSubscriberPeer (sid ssid pid : String)
  | handleSubscriberLeaved (sid : String)
  | doLeave

/-- Where a call stands: what its next block is. -/
inductive Pc where
  | start (s : SessRef) (op : Op)
  | replacePub (s : SessRef) (j : JsonParser) (x : PeerRef)
  | insertPub (s : SessRef) (j : JsonParser)
  | answerPub (j : JsonParser) (x : PeerRef)
  | stopPub (s : SessRef) (j : JsonParser) (x : PeerRef)
  | answerStop (s : SessRef) (j : JsonParser)
  | readPub (s : SessRef) (j : JsonParser)
  | testSub (s : SessRef) (j : JsonParser) (sdp : Option Sdp)
  | replaceSub (s : SessRef) (j : JsonParser) (sdp : Option Sdp)
  | insertSub (s : SessRef) (j : JsonParser) (sdp : Option Sdp)
  | offerSub (j : JsonParser) (y : PeerRef)
  | releaseSubs (s : SessRef) (pid : String)
  | leavedSubs (s : SessRef) (sid : String) (lst : List String)
  | leaveSubs (s : SessRef)
  | leaveWait (s : SessRef)
  | ice (x : PeerRef) (st : IceState)
  | reportIce (x : PeerRef) (st : IceState)

/-- Who subscribes: the client, or the pod that asks for the stream. -/
def subscriberId (j : JsonParser) : String :=
  match command j with
  | some .fakeSubscribe => getValue j .podId
  | _ => getValue j .sessID

def subscriberKey (j : JsonParser) : String :=
  subKey (subscriberId j) (getValue j .srcSessID) (getValue j .peerID)

namespace Pc

/-- The first block of `session.HandleMessage`. The branches that have one
block only, and the refusal of `sub`, run to their end. -/
def startMessage (env : Env) (s : SessRef) (j : JsonParser) (p : Pod) :
    Pod × Option Pc :=
  let found := (p.sess s).publishers.lookup (getValue j .peerID)
  match command j with
  | some .push | some .fakeOffer =>
      match found with
      | some x => (p, some (.replacePub s j x))
      | none => (p, some (.insertPub s j))
  | some .stopPush =>
      match found with
      | some x => (p, some (.stopPub s j x))
      | none => (p, none)
  | some .sub | some .fakeSubscribe =>
      if found = none then (p.sessionHandleMessage env s j, none)
      else (p, some (.readPub s j))
  | _ => (p.sessionHandleMessage env s j, none)

/-- One block: its effect on the pod, and where the call stands then. -/
def exec (env : Env) (p : Pod) : Pc → Pod × Option Pc
  | .start s (.message j) => startMessage env s j p
  | .start s (.releasePublisher pid) =>
      (p.releasePubs s pid, some (.releaseSubs s pid))
  | .start s (.releaseSubscriberPeer sid ssid pid) =>
      (p.releaseSubscriberPeer s sid ssid pid, none)
  | .start s (.handleSubscriberLeaved sid) =>
      ((p.rlock (.pubs s)).runlock (.pubs s),
        some (.leavedSubs s sid (p.publisherIds s)))
  | .start s .doLeave => (p.doLeavePubs s, some (.leaveSubs s))
  | .replacePub s j x =>
      (p.replacePublisher s x (getValue j .peerID), some (.insertPub s j))
  | .insertPub s j =>
      if env.createOk then
        (p.insertPublisher s (getValue j .peerID)
          (createPublishPeer s (getValue j .sessID) (getValue j .peerID)
            (command j = some .fakeOffer)),
          some (.answerPub j p.peerHeap.next))
      else (p, none)
  | .answerPub j x =>
      (if command j = some .fakeOffer then p.peerHandleMessage env x j
        else p.answerPush j, none)
  | .stopPub s j x => (p.stopPublisher s x (getValue j .peerID), none)
  | .answerStop s j => (p.answerStopPush env s j, none)
  | .readPub s j =>
      let r := p.readPublisher s (getValue j .peerID)
      (r.1, some (.testSub s j r.2))
  | .testSub s j sdp =>
      (p, some (if (p.sess s).subscribers.lookup (subscriberKey j) = none then
        .insertSub s j sdp else .replaceSub s j sdp))
  | .replaceSub s j sdp =>
      (p.replaceSubscriber s (subscriberKey j), some (.insertSub s j sdp))
  | .insertSub s j sdp =>
      if env.createOk then
        (p.insertSubscriber s (subscriberKey j)
          (createSubscribePeer s (subscriberId j) (getValue j .srcSessID)
            (getValue j .peerID) sdp (command j = some .fakeSubscribe)),
          some (.offerSub j p.peerHeap.next))
      else
        (if command j = some .fakeSubscribe then p
          else p.notifyCreatePeerFailed s (getValue j .cmd)
            (getValue j .sessID) (getValue j .peerID), none)
  | .offerSub j y => (p.peerHandleMessage env y j, none)
  | .releaseSubs s pid =>
      ((p.releaseSubs s pid).notifyReleasePublish env s pid, none)
  | .leavedSubs s sid lst => (p.leavedSubs s sid lst, none)
  | .leaveSubs s => (p.doLeaveSubs s, some (.leaveWait s))
  | .leaveWait s => (p.waitChecks s, none)
  | .ice x st =>
      if 0 < (p.peer x).closed then (p, none)
      else (p.setIceFlags x st, some (.reportIce x st))
  | .reportIce x st => (p.reportIce x st, none)

/-- The session whose `pubsmux` the next block takes. -/
def pubsmux (p : Pod) : Pc → Option SessRef
  | .start s (.releasePublisher _) | .start s (.handleSubscriberLeaved _)
  | .start s .doLeave | .replacePub s .. | .insertPub s .. | .stopPub s ..
  | .readPub s .. => some s
  | .reportIce x _ =>
      if (p.peer x).role = .publisher then some (p.peer x).parent else none
  | _ => none

end Pc

/-- The pod, and the sessions whose `pubsmux` is locked for good. -/
structure Locked where
  pod : Pod
  stuck : List SessRef

/-- One block of a thread, if it gets its lock. With a reader waiting,
`stoppush` leaves the mutex locked and goes on. -/
def Locked.exec (env : Env) (waiting : Bool) (k : Pc) (l : Locked) :
    Option (Locked × Option Pc) :=
  if ∀ s ∈ k.pubsmux l.pod, s ∉ l.stuck then
    match k, waiting with
    | .stopPub s j x, true =>
        some (⟨l.pod.stopSection s x (getValue j .peerID), s :: l.stuck⟩,
          some (.answerStop s j))
    | k, _ => some (⟨(k.exec env l.pod).1, l.stuck⟩, (k.exec env l.pod).2)
  else none

abbrev Sched := Threads Locked Pc

/-- What can happen: a room opens, a session enters it, a call or a callback
starts, a thread runs its next block. -/
inductive Sched.Act where
  | openRoom (rid : String)
  | login (r : RoomRef) (uid name : String) (now : Int)
  | call (s : SessRef) (op : Op)
  | ice (x : PeerRef) (st : IceState)
  | turn (i : Nat) (env : Env) (waiting : Bool)

namespace Sched

def init (conf : Config) : Sched := ⟨⟨Pod.createRoomMgr conf, []⟩, []⟩

def setPod (t : Sched) (p : Pod) : Sched :=
  { t with shared := { t.shared with pod := p } }

def step (a : Act) (t : Sched) : Option Sched :=
  let p := t.shared.pod
  if p.fatal then none
  else
    match a with
    | .openRoom rid => some (t.setPod (p.insertRoom rid))
    | .login r uid name now =>
        if r < p.roomHeap.next then
          some (t.setPod (p.insertSession r uid (createSession r uid name now)))
        else none
    | .call s op =>
        if s < p.sessHeap.next then some (t.start (.start s op)) else none
    | .ice x st =>
        if x < p.peerHeap.next then some (t.start (.ice x st)) else none
    | .turn i env waiting => t.turn (Locked.exec env waiting) i

end Sched

end MediaServer.Ref
