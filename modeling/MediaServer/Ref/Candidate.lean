import MediaServer.Lib.Json
import MediaServer.Ref.Peer

/-!
# Candidate messages (`peer.go`, `jsonparse.go`)

A peer sends its own ICE candidates as they are found: to the client it
serves, or, for a connection between pods, to the other pod. The candidate is
pion's `ICECandidateInit`, which `encoding/json` writes as an object of its
own inside the message. `CreateJSONParser` reads a message into a map, and
`GetValue` prints what a field holds.

The filter on the address of a candidate, and its replacement by the address
of a proxy, happen before the candidate becomes an `ICECandidateInit`, and are
left out.
-/

namespace MediaServer.Ref

open MediaServer.Lib

namespace Label

/-- The constants of `definition.go`. -/
def text : Label → String
  | cmd => "cmd"
  | roomId => "roomid"
  | clusterId => "clusterid"
  | podId => "podid"
  | sessID => "userid"
  | userName => "username"
  | srcSessID => "remoteuserid"
  | peerID => "peerid"
  | sdp => "sdp"
  | code => "code"
  | desc => "description"
  | sn => "sn"
  | timestamp => "timestamp"
  | resource => "maxresource"
  | candidate => "candidate"

def all : List Label :=
  [cmd, roomId, clusterId, podId, sessID, userName, srcSessID, peerID, sdp,
    code, desc, sn, timestamp, resource, candidate]

/-- The label of a field that some handler reads. -/
def parse (s : String) : Option Label := all.find? (fun l => l.text = s)

end Label

/-- What the handlers can tell of a value. -/
def toValue : Json → Value
  | .str s => .str s
  | .num v text => .num v text
  | j => .other j.sprint

/-- `CreateJSONParser`: an object is read as a map, `null` as the empty one,
and anything else is an error. -/
def createJSONParser : Json → Option JsonParser
  | .obj fields => some ((lastWins fields).filterMap fun f =>
      (Label.parse f.1).map fun l => (l, toValue f.2))
  | .null => some []
  | _ => none

/-- `webrtc.ICECandidateInit`; a pointer may be `nil`. -/
structure ICECandidateInit where
  candidate : String
  sdpMid : Option String
  sdpMLineIndex : Option UInt16
  usernameFragment : Option String

def ICECandidateInit.marshal (c : ICECandidateInit) : Json :=
  .obj [("candidate", .str c.candidate),
    ("sdpMid", .ptr .str c.sdpMid),
    ("sdpMLineIndex", .ptr (fun n => .int n.toNat) c.sdpMLineIndex),
    ("usernameFragment", .ptr .str c.usernameFragment)]

/-- `fCandiMsg`. -/
structure FCandiMsg where
  cmd : String
  clusterid : String
  podid : String
  roomid : String
  userid : String
  remoteUserid : String
  peerid : String
  ispType : Int
  candidate : ICECandidateInit

def FCandiMsg.marshal (m : FCandiMsg) : Json :=
  .obj [("cmd", .str m.cmd),
    ("clusterid", .str m.clusterid),
    ("podid", .str m.podid),
    ("roomid", .str m.roomid),
    ("userid", .str m.userid),
    ("remoteuserid", .str m.remoteUserid),
    ("peerid", .str m.peerid),
    ("isptype", .int m.ispType),
    ("candidate", m.candidate.marshal)]

/-- `candiMsg`. -/
structure CandiMsg where
  cmd : String
  userid : String
  remoteUserid : String
  peerid : String
  ispType : Int
  candidate : ICECandidateInit

def CandiMsg.marshal (m : CandiMsg) : Json :=
  .obj [("cmd", .str m.cmd),
    ("userid", .str m.userid),
    ("remoteuserid", .str m.remoteUserid),
    ("peerid", .str m.peerid),
    ("isptype", .int m.ispType),
    ("candidate", m.candidate.marshal)]

namespace Pod

/-- The message of `OnICECandidate` on a connection between pods. -/
def fCandiMsg (p : Pod) (x : PeerRef) (c : ICECandidateInit) : FCandiMsg :=
  let owner := match (p.peer x).role with
    | .publisher => (p.peer x).userid
    | .subscriber => (p.peer x).remoteuserid
  { cmd := Cmd.fakeCandidate.text, clusterid := p.conf.clusterid
    podid := p.conf.uuid, roomid := p.roomidOf x, userid := owner
    remoteUserid := owner, peerid := (p.peer x).peerid, ispType := 0
    candidate := c }

/-- The message to a client; that of a publisher has no `RemoteUserid`. -/
def candiMsg (p : Pod) (x : PeerRef) (c : ICECandidateInit) : CandiMsg :=
  { cmd := Cmd.candidate.text, userid := (p.peer x).userid
    remoteUserid := match (p.peer x).role with
      | .publisher => ""
      | .subscriber => (p.peer x).remoteuserid
    peerid := (p.peer x).peerid, ispType := 0, candidate := c }

/-- What `OnICECandidate` sends. -/
def onICECandidate (p : Pod) (x : PeerRef) (c : ICECandidateInit) : Json :=
  if (p.peer x).isFake then (p.fCandiMsg x c).marshal
  else (p.candiMsg x c).marshal

end Pod

end MediaServer.Ref
