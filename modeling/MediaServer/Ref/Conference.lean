import MediaServer.Ref.Pair
import Mathlib.Data.Set.Insert

/-!
# What a pod is for: a conference

The rooms that exist, who sits in each of them, which streams a user has and
who views them, all by name. There are no references, no locks, no handlers
and no messages on this level: a room is a function from user ids to seats, and
a request changes one room only.

`Pod.conference` reads a conference off the maps of a pod, and `Pod.request`
says which request an input amounts to, if any. A spawned call that holds a
reference amounts to a request only while that reference leads to something
that is still registered under its name.
-/

namespace MediaServer.Ref

open MediaServer.Lib

/-- One user of a room: logged in here, or the stand-in for a user of the pod
`podid`. A stream is known by its peer id; `viewers` says for the key of a
subscriber who it is and which stream it takes. -/
@[ext] structure Seat where
  origin : Bool
  name : String
  clusterid : String
  podid : String
  streams : Set String
  viewers : String → Option (String × String)

/-- A seat as it is taken. -/
def Seat.fresh (origin : Bool) (name clusterid podid : String) : Seat :=
  ⟨origin, name, clusterid, podid, ∅, fun _ => none⟩

abbrev Hall := String → Option Seat

abbrev Conference := String → Option Hall

/-- What can happen to a seat that is taken. -/
inductive Change where
  | leaves
  | retracted (podid : String)
  | publishes (pid : String) (ok : Bool)
  | unpublishes (pid : String)
  | viewed (who v pid : String) (ok : Bool)
  | unviewed (key : String)
  | abandoned (who v : String)
  deriving DecidableEq

namespace Change

open Classical in
/-- The seat afterwards, `none` if it is free. A stream is published anew
whether or not there was one of that name, and if that fails the old one is
gone all the same; so it is with a viewer, for a stream that is there. -/
noncomputable def after (t : Seat) : Change → Option Seat
  | leaves => none
  | retracted podid => if t.podid = podid then none else some t
  | publishes pid ok =>
      some { t with
        streams := if ok then insert pid t.streams else t.streams \ {pid} }
  | unpublishes pid =>
      some { t with
        streams := t.streams \ {pid}
        viewers := fun k => (t.viewers k).filter (·.2 ≠ pid) }
  | viewed who v pid ok =>
      if pid ∈ t.streams then
        some { t with
          viewers := Function.update t.viewers (subKey who v pid)
            (if ok then some (who, pid) else none) }
      else some t
  | unviewed key =>
      some { t with viewers := Function.update t.viewers key none }
  | abandoned who v =>
      some { t with viewers := fun k =>
        if ∃ pid ∈ t.streams, k = subKey who v pid then none
        else t.viewers k }

end Change

/-- What is asked of a conference. -/
inductive ConfRequest where
  | enters (rid u name : String)
  | standsIn (rid u name clusterid podid : String)
  | changes (rid u : String) (c : Change)
  | closes (rid : String)
  deriving DecidableEq

namespace ConfRequest

def room : ConfRequest → String
  | enters rid _ _ | standsIn rid _ _ _ _ | changes rid _ _ | closes rid => rid

/-- Somebody else is logged in here. -/
def Attended (h : Hall) (u : String) : Prop :=
  ∃ v t, v ≠ u ∧ h v = some t ∧ t.origin = true

open Classical in
/-- The room of the request afterwards. A user who enters opens the room if
need be; a stand-in is let in only where somebody else is logged in. -/
noncomputable def hall (o : Option Hall) : ConfRequest → Option Hall
  | enters _ u name =>
      some (Function.update (o.getD fun _ => none) u
        (some (.fresh true name "" "")))
  | standsIn _ u name clusterid podid => o.map fun h =>
      Function.update h u
        (if Attended h u then some (.fresh false name clusterid podid)
        else none)
  | changes _ u c => o.map fun h =>
      Function.update h u ((h u).bind c.after)
  | closes _ => none

noncomputable def apply (c : Conference) (q : ConfRequest) : Conference :=
  Function.update c q.room (q.hall (c q.room))

/-- Nothing is asked, or a request is made. -/
noncomputable def perform (c : Conference) : Option ConfRequest → Conference
  | none => c
  | some q => apply c q

end ConfRequest

/-! ## What is refused -/

open Classical in
/-- The error that a message to a user in a room is answered with; `ok` says
whether a peer can be created for it. -/
noncomputable def Seat.refusal (t : Seat) (ok : Bool) (m : JsonParser) :
    Option Int :=
  match command m with
  | some .sub =>
      if getValue m .peerID ∈ t.streams then
        if ok then none else some codeCreatePeerError
      else some codeNotFoundPublishPeer
  | some .offer =>
      if getValue m .peerID ∈ t.streams then none
      else some codeNotFoundPublishPeer
  | some .answer =>
      if t.viewers (subKey (getValue m .sessID) (getValue m .srcSessID)
          (getValue m .peerID)) = none then
        some codeNotFoundSubscribePeer
      else none
  | _ => none

namespace Conference

/-- The message is for user `u`; `code` says that they are not there. -/
noncomputable def seatRefusal (c : Conference) (ok : Bool) (m : JsonParser)
    (u : String) (code : Int) : Option Int :=
  match c (getValue m .roomId) with
  | none => some codeNotLogin
  | some h =>
      match h u with
      | none => some code
      | some t => t.refusal ok m

/-- Whoever sends or asks about a stream of their own has to be in the room,
and who asks for one of somebody else has to find them there. -/
noncomputable def refusal (c : Conference) (ok : Bool) (m : JsonParser) :
    Option Int :=
  match command m with
  | some .heartbeat | some .push | some .offer | some .stopPush =>
      c.seatRefusal ok m (getValue m .sessID) codeNotLogin
  | some .sub | some .stopSub | some .answer =>
      c.seatRefusal ok m (getValue m .srcSessID) codeNotFoundPublishUser
  | some .logout | some .candidate =>
      match c (getValue m .roomId) with
      | none => some codeNotLogin
      | some _ => none
  | _ => none

end Conference

namespace Pod

/-! ## The conference of a pod -/

def seatView (p : Pod) (s : SessRef) : Seat where
  origin := (p.sess s).origin
  name := (p.sess s).username
  clusterid := (p.sess s).clusterid
  podid := (p.sess s).podid
  streams := {k | (p.sess s).publishers.lookup k ≠ none}
  viewers k := ((p.sess s).subscribers.lookup k).map fun y =>
    ((p.peer y).userid, (p.peer y).peerid)

def hall (p : Pod) (r : RoomRef) : Hall :=
  fun u => ((p.room r).sessions.lookup u).map p.seatView

def conference (p : Pod) : Conference :=
  fun rid => (p.rooms.lookup rid).map p.hall

/-! ## What an input asks for -/

/-- A message to a pod that is registered. -/
def asked (p : Pod) (env : Env) (m : JsonParser) : Option ConfRequest :=
  let rid := getValue m .roomId
  let userID := getValue m .sessID
  let remoteUserID := getValue m .srcSessID
  let pid := getValue m .peerID
  match command m with
  | some .login => some (.enters rid userID (getValue m .userName))
  | some .logout => some (.changes rid userID .leaves)
  | some .push | some .fakeOffer =>
      some (.changes rid userID (.publishes pid env.createOk))
  | some .stopPush => some (.changes rid userID (.publishes pid false))
  | some .sub =>
      some (.changes rid remoteUserID
        (.viewed userID remoteUserID pid env.createOk))
  | some .fakeSubscribe =>
      some (.changes rid remoteUserID
        (.viewed (getValue m .podId) remoteUserID pid env.createOk))
  | some .fakePublish =>
      if getValue m .podId ≠ p.conf.uuid then
        some (.standsIn rid userID (getValue m .userName)
          (getValue m .clusterId) (getValue m .podId))
      else none
  | some .fakeUnpublish =>
      if getValue m .podId ≠ p.conf.uuid then
        some (.changes rid userID (.retracted (getValue m .podId)))
      else none
  | _ => none

/-- The request of a call that holds a room. -/
def inRoom (p : Pod) (r : RoomRef) (u : String) (c : Change) :
    Option ConfRequest :=
  if p.rooms.lookup (p.room r).roomid = some r then
    some (.changes (p.room r).roomid u c)
  else none

/-- The request of a call that holds a session. -/
def atSeat (p : Pod) (s : SessRef) (c : Change) : Option ConfRequest :=
  let rid := (p.room (p.sess s).parent).roomid
  if p.seat rid (p.sess s).userid = some s then
    some (.changes rid (p.sess s).userid c)
  else none

def called (p : Pod) : Goroutine → Option ConfRequest
  | .releaseRoom rid => some (.closes rid)
  | .kickoutFromRoom r sid => p.inRoom r sid .leaves
  | .onPublisherPeerFailed r sid pid _ | .onPublisherPeerClosed r sid pid _ =>
      p.inRoom r sid (.unpublishes pid)
  | .onSubscriberPeerFailed r sid ssid pid _
  | .onSubscriberPeerClosed r sid ssid pid _ =>
      p.inRoom r ssid (.unviewed (subKey sid ssid pid))
  | .releaseSubscriberPeer s sid ssid pid _ =>
      p.atSeat s (.unviewed (subKey sid ssid pid))
  | .handleSubscriberLeaved s sid =>
      p.atSeat s (.abandoned sid (p.sess s).userid)
  | .checkKeepAlive _ | .onPublisherReady _ _ _ _
  | .fakePublisherReConnect _ _ _ _ | .requestKeyframe _ => none

def request (p : Pod) (a : Env × Input) : Option ConfRequest :=
  match a.2 with
  | .message m => if p.regist then p.asked a.1 m else none
  | .go i => p.pending[i]?.bind p.called
  | _ => none

end Pod

/-- The requests of a run, as the pod stands when each input comes. -/
def requests : List (Env × Input) → Pod → List ConfRequest
  | [], _ => []
  | a :: as, p =>
      match Pod.step a p with
      | none => []
      | some q => (p.request a).toList ++ requests as q

end MediaServer.Ref
