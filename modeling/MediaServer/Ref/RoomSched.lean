import MediaServer.Ref.MgrSched
import MediaServer.Ref.Sched

/-!
# Rooms under a scheduler

`MgrSched.lean` takes the room manager apart and `Sched.lean` the sessions.
Here the calls on a room are taken apart too, and the three are put together:
a message runs block by block from the room manager through a room to a
session, and every goroutine and callback that changes a map is a thread of
its own.

A block is a test made without a lock, or one section. Where the code calls
`DoLeave` under `sessionsLock` or `roomsLock`, the lock is held over several
blocks. Who holds it is read off the places where the threads stand (`holds`),
and a thread whose next block takes it waits (`takes`).
-/

namespace MediaServer.Ref

open MediaServer.Lib

/-- Why a session leaves, and with that what its call does next, still under
`sessionsLock`. -/
inductive Leave where
  | replace (r : RoomRef) (j : JsonParser)
  | kickout (r : RoomRef) (sid : String) (s : SessRef)
  | unpublish (r : RoomRef) (j : JsonParser)
  | release (rid : String) (r : RoomRef) (rest : List SessRef)
  deriving DecidableEq

/-- Where a call on a room stands. -/
inductive RoomPc where
  | releaseRoom (rid : String)
  | destroyRoom (rid : String) (r : RoomRef)
  | handle (r : RoomRef) (j : JsonParser)
  | drop (r : RoomRef) (j : JsonParser)
  | testOrigin (r : RoomRef) (j : JsonParser)
  | insert (r : RoomRef) (j : JsonParser)
  | greet (r : RoomRef) (j : JsonParser)
  | unpublish (r : RoomRef) (j : JsonParser)
  | kickout (r : RoomRef) (sid : String)
  | spread (r : RoomRef) (sid : String)
  | testEmpty (r : RoomRef)
  | publisherFailed (r : RoomRef) (sid pid : String)
  | subscriberFailed (r : RoomRef) (sid ssid pid : String)
  | left (c : Leave)

/-- Where a thread stands: in the room manager, in a room, in a `DoLeave` that
a room has called, or in a session. -/
inductive ThreadPc where
  | mgr (k : MgrPc)
  | room (k : RoomPc)
  | leave (k : Pc) (c : Leave)
  | sess (k : Pc)

/-- The session that a room hands a message to. -/
def Pod.addressee (p : Pod) (r : RoomRef) (j : JsonParser) : Option SessRef :=
  let userID := getValue j .sessID
  let remoteUserID := getValue j .srcSessID
  match command j with
  | some .heartbeat | some .push | some .offer | some .stopPush
  | some .fakeOffer | some .fakeAnswer | some .fakeCandidate =>
      (p.room r).sessions.lookup userID
  | some .sub | some .stopSub | some .answer | some .fakeSubscribe =>
      (p.room r).sessions.lookup remoteUserID
  | some .candidate =>
      (p.room r).sessions.lookup
        (if remoteUserID ≠ "" then remoteUserID else userID)
  | _ => none

namespace RoomPc

/-- A session starts to leave. -/
def leaving (s : SessRef) (c : Leave) : ThreadPc := .leave (.start s .doLeave) c

/-- The tests of `room.HandleMessage`. What has one block only, and the
answers to users who have no session, run to their end. -/
def startMessage (env : Env) (r : RoomRef) (j : JsonParser) (p : Pod) :
    Pod × Option ThreadPc :=
  let userID := getValue j .sessID
  let found := (p.room r).sessions.lookup userID
  match command j with
  | some .login =>
      (p, some (.room (if found = none then .insert r j else .drop r j)))
  | some .fakePublish =>
      (p, some (.room (if found = none then .testOrigin r j else .drop r j)))
  | some .fakeUnpublish => (p, some (.room (.unpublish r j)))
  | some .logout => (p, some (.room (.kickout r userID)))
  | _ =>
      match p.addressee r j with
      | some s => (p, some (.sess (.start s (.message j))))
      | none => (p.roomHandleMessage env r j, none)

/-- What a call does when the session has left. `DestroyRoom` goes on to the
next session, and the last one takes the room out of the room manager. -/
def afterLeave (env : Env) (p : Pod) : Leave → Pod × Option ThreadPc
  | .replace r j =>
      ((p.eraseSession r (getValue j .sessID)).unlock (.sessions r),
        some (.room (if command j = some .login then .insert r j
          else .testOrigin r j)))
  | .kickout r sid s =>
      let p := p.eraseSession r (p.sess s).userid
      let p := if (p.sess s).origin then p.notifyLeaveRoom env r sid else p
      (p.unlock (.sessions r), some (.room (.spread r sid)))
  | .unpublish r j =>
      ((p.eraseSession r (getValue j .sessID)).unlock (.sessions r), none)
  | .release rid r (s :: rest) => (p, some (leaving s (.release rid r rest)))
  | .release rid r [] =>
      ((((p.clearSessions r).unlock (.sessions r)).eraseRoom rid).unlock
        .rooms, none)

/-- One block: its effect on the pod, and where the thread stands then. -/
def exec (env : Env) (p : Pod) : RoomPc → Pod × Option ThreadPc
  | .releaseRoom rid =>
      let p := p.lock .rooms
      match p.rooms.lookup rid with
      | some r => (p, some (.room (.destroyRoom rid r)))
      | none => (p.unlock .rooms, none)
  | .destroyRoom rid r =>
      (p.lock (.sessions r), some (.room (.left (.release rid r
        ((p.room r).sessions.entries.map fun e => e.2)))))
  | .handle r j => startMessage env r j p
  | .drop r j =>
      let p := p.lock (.sessions r)
      match (p.room r).sessions.lookup (getValue j .sessID) with
      | some s => (p, some (leaving s (.replace r j)))
      | none => (p.throw, none)
  | .testOrigin r j =>
      let p := (p.rlock (.sessions r)).runlock (.sessions r)
      if p.hasOrigin r then (p, some (.room (.insert r j)))
      else (p.go (.releaseRoom (p.room r).roomid), none)
  | .insert r j =>
      (p.insertSession r (getValue j .sessID) (newSession env r j),
        some (if command j = some .login then .room (.greet r j)
          else .sess (.start p.sessHeap.next (.message j))))
  | .greet r j =>
      ((p.emit (.toClient (getValue j .sessID)
        [(.cmd, .str Cmd.login.text),
          (.sessID, .str (getValue j .sessID)),
          (.code, .int 0)])).tellStreams r (getValue j .sessID), none)
  | .unpublish r j =>
      let p := p.lock (.sessions r)
      match (p.room r).sessions.lookup (getValue j .sessID) with
      | some s =>
          if (p.sess s).podid = getValue j .podId then
            (p, some (leaving s (.unpublish r j)))
          else (p.unlock (.sessions r), none)
      | none => (p.unlock (.sessions r), none)
  | .kickout r sid =>
      let p := p.lock (.sessions r)
      match (p.room r).sessions.lookup sid with
      | some s => (p, some (leaving s (.kickout r sid s)))
      | none => (p.unlock (.sessions r), some (.room (.spread r sid)))
  | .spread r sid => (p.spreadLeaved r sid, some (.room (.testEmpty r)))
  | .testEmpty r => (p.releaseIfEmpty r, none)
  | .publisherFailed r sid pid =>
      (p, ((p.room r).sessions.lookup sid).map fun s =>
        .sess (.start s (.releasePublisher pid)))
  | .subscriberFailed r sid ssid pid =>
      (p, ((p.room r).sessions.lookup ssid).map fun s =>
        .sess (.start s (.releaseSubscriberPeer sid ssid pid)))
  | .left c => afterLeave env p c

end RoomPc

/-- The room whose `sessionsLock` a leaving session is held under. -/
def Leave.holds : Leave → List Mutex
  | .replace r _ | .kickout r _ _ | .unpublish r _ => [.sessions r]
  | .release _ r _ => [.rooms, .sessions r]

namespace ThreadPc

/-- The locks that a thread holds where it stands. -/
def holds : ThreadPc → List Mutex
  | .room (.destroyRoom _ _) => [.rooms]
  | .room (.left c) | .leave _ c => c.holds
  | _ => []

/-- The locks that its next block takes. -/
def takes : ThreadPc → List Mutex
  | .mgr (.insertRoom _) | .mgr (.readRoom _) | .room (.releaseRoom _) =>
      [.rooms]
  | .room (.destroyRoom _ r) | .room (.drop r _) | .room (.testOrigin r _)
  | .room (.insert r _) | .room (.unpublish r _) | .room (.kickout r _)
  | .room (.spread r _) | .room (.testEmpty r) => [.sessions r]
  | _ => []

/-- One block. The calls on a session take `pubsmux` as in `Sched.lean`. -/
def exec (env : Env) (waiting : Bool) (l : Locked) :
    ThreadPc → Option (Locked × Option ThreadPc)
  | .mgr (.callRoom m (some r)) => some (l, some (.room (.handle r m)))
  | .mgr k =>
      some (⟨(k.exec env l.pod).1, l.stuck⟩, (k.exec env l.pod).2.map .mgr)
  | .room k => some (⟨(k.exec env l.pod).1, l.stuck⟩, (k.exec env l.pod).2)
  | .leave k c => (l.exec env waiting k).map fun e =>
      (e.1, some (match e.2 with
        | some k' => .leave k' c
        | none => .room (.left c)))
  | .sess k => (l.exec env waiting k).map fun e => (e.1, e.2.map .sess)

end ThreadPc

/-- The thread that a spawned call is, if it changes a map. -/
def Goroutine.thread : Goroutine → Option ThreadPc
  | .releaseRoom rid => some (.room (.releaseRoom rid))
  | .kickoutFromRoom r sid => some (.room (.kickout r sid))
  | .handleSubscriberLeaved s sid =>
      some (.sess (.start s (.handleSubscriberLeaved sid)))
  | .onPublisherPeerFailed r sid pid _
  | .onPublisherPeerClosed r sid pid _ =>
      some (.room (.publisherFailed r sid pid))
  | .onSubscriberPeerFailed r sid ssid pid _
  | .onSubscriberPeerClosed r sid ssid pid _ =>
      some (.room (.subscriberFailed r sid ssid pid))
  | .releaseSubscriberPeer s sid ssid pid _ =>
      some (.sess (.start s (.releaseSubscriberPeer sid ssid pid)))
  | .checkKeepAlive _ | .onPublisherReady .. | .fakePublisherReConnect ..
  | .requestKeyframe _ => none

/-- The thread that an input starts. -/
def Pod.startsThread (a : Input) (p : Pod) : Option (Pod × ThreadPc) :=
  match a with
  | .message m => some (p, .mgr (.start m))
  | .ice x st =>
      if x < p.peerHeap.next then some (p, .sess (.ice x st)) else none
  | .go i =>
      p.pending[i]?.bind fun g => g.thread.map fun k =>
        ({ p with pending := p.pending.eraseIdx i }, k)
  | _ => none

abbrev RoomSched := Threads Locked ThreadPc

/-- An input arrives, or a thread runs its next block. -/
inductive RoomSched.Act where
  | input (a : Env × Input)
  | turn (i : Nat) (env : Env) (waiting : Bool)

namespace RoomSched

def init (conf : Config) : RoomSched := ⟨⟨Pod.createRoomMgr conf, []⟩, []⟩

def setPod (t : RoomSched) (p : Pod) : RoomSched :=
  { t with shared := { t.shared with pod := p } }

/-- The thread waits for a lock that is held. -/
def waits (t : RoomSched) (k : ThreadPc) : Bool :=
  k.takes.any fun m => t.threads.any fun k' => m ∈ k'.holds

def step (a : Act) (t : RoomSched) : Option RoomSched :=
  let p := t.shared.pod
  if p.fatal then none
  else
    match a with
    | .input a =>
        match p.startsThread a.2 with
        | some (q, k) => some ((t.setPod q).start k)
        | none => (Pod.step a p).map t.setPod
    | .turn i env waiting =>
        if (t.threads[i]?).any t.waits then none
        else t.turn (fun k l => k.exec env waiting l) i

end RoomSched

end MediaServer.Ref
