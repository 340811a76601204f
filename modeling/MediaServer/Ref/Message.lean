import Mathlib.Data.Rat.Defs

/-!
# Messages (`definition.go`, `jsonparse.go`)

Every message the server reads or writes is a JSON object. A handler never
walks one: it asks for a field by its label and works on the text that
`fmt.Sprintf("%v", …)` prints for whatever the field holds, with the empty
text for a missing field. So a message here is a finite list of labelled
values, and a value is what those reads can tell apart: a string prints as
itself, a number has its `float64` and the text it prints as, and every other
JSON value (a truth value, `null`, an array, an object) only its text.

Commands are an enumeration. The server compares the text of the `cmd` field
with the constants of `definition.go`, which `Cmd.text` lists, and `Cmd.parse`
is that comparison.
-/

namespace MediaServer.Ref

/-- The commands of `definition.go`. -/
inductive Cmd where
  | roomCreated | heartbeat | login | logout | push | stopPush | sub | stopSub
  | offer | answer | candidate | pub | unpub
  | podRegist | podRegistNow | podReleasePublish | podLeaveRoom
  | fakePublish | fakeUnpublish | fakeSubscribe | fakeOffer | fakeAnswer
  | fakeCandidate
  deriving DecidableEq, Repr

namespace Cmd

def text : Cmd → String
  | roomCreated => "createroom"
  | heartbeat => "heartbeat"
  | login => "login"
  | logout => "logout"
  | push => "publish"
  | stopPush => "stoppush"
  | sub => "sub"
  | stopSub => "stopsub"
  | offer => "offer"
  | answer => "answer"
  | candidate => "candidate"
  | pub => "pub"
  | unpub => "unpub"
  | podRegist => "pod_regist"
  | podRegistNow => "regist_now"
  | podReleasePublish => "unpush"
  | podLeaveRoom => "leaveroom"
  | fakePublish => "fakepublish"
  | fakeUnpublish => "fakeunpublish"
  | fakeSubscribe => "fakesubscribe"
  | fakeOffer => "fakeoffer"
  | fakeAnswer => "fakeanswer"
  | fakeCandidate => "fakecandidate"

def all : List Cmd :=
  [roomCreated, heartbeat, login, logout, push, stopPush, sub, stopSub, offer,
    answer, candidate, pub, unpub, podRegist, podRegistNow, podReleasePublish,
    podLeaveRoom, fakePublish, fakeUnpublish, fakeSubscribe, fakeOffer,
    fakeAnswer, fakeCandidate]

/-- The command a text names, if it is one of the server's constants. -/
def parse (s : String) : Option Cmd := all.find? (fun c => c.text = s)

/-- No two commands share a text, so the order of the server's `else if`
chains does not matter. -/
@[simp] theorem parse_text (c : Cmd) : parse c.text = some c := by
  cases c <;> decide

end Cmd

/-- The field names of `definition.go`; `candidate` is read under the
command's own text. -/
inductive Label where
  | cmd | roomId | clusterId | podId | sessID | userName | srcSessID | peerID
  | sdp | code | desc | sn | timestamp | resource | candidate
  deriving DecidableEq, Repr

/-- A JSON value as the handlers see it. -/
inductive Value where
  | str (s : String)
  | num (v : ℚ) (text : String)
  | other (text : String)
  deriving DecidableEq

/-- What `fmt.Sprintf("%v", v)` prints. -/
def Value.sprint : Value → String
  | str s => s
  | num _ t => t
  | other t => t

/-- A Go integer as it stands in an outgoing message. -/
def Value.int (n : Int) : Value := .num n (toString n)

/-- The parsed message, `jsonparser`. -/
abbrev JsonParser := List (Label × Value)

/-- `GetValue`. -/
def getValue (m : JsonParser) (key : Label) : String :=
  match m.lookup key with
  | some v => v.sprint
  | none => ""

/-- `GetIntValue`: `none` is the panic of the type assertion. -/
def getIntValue (m : JsonParser) (key : Label) : Option ℚ :=
  match m.lookup key with
  | some (.num v _) => some v
  | some _ => none
  | none => some 0

/-- The command of a message. -/
def command (m : JsonParser) : Option Cmd := Cmd.parse (getValue m .cmd)

/-- A message as a client, or another pod, builds it. -/
def Cmd.msg (c : Cmd) (fields : List (Label × String)) : JsonParser :=
  (.cmd, .str c.text) :: fields.map fun f => (f.1, .str f.2)

@[simp] theorem command_msg (c : Cmd) (fields : List (Label × String)) :
    command (c.msg fields) = some c := by
  simp [command, Cmd.msg, getValue, Value.sprint]

def codeNotAvailable : Int := 100
def descNotAvailable : String :=
  "service is not available, please try again later"
def codeNotLogin : Int := 101
def descNotLogin : String := "not login, please login first and try again"
def codeNotFoundPublishUser : Int := 102
def descNotFoundPublishUser : String := "not found publish user"
def codeNotFoundPublishPeer : Int := 103
def descNotFoundPublishPeer : String := "not found publish peer"
def codeNotFoundSubscribePeer : Int := 104
def descNotFoundSubscribePeer : String := "not found subscribe peer"
def codeCreatePeerError : Int := 105
def descCreatePeerError : String := "create peer failed"

/-- `CLUSTER_RECONNECTION_MAXTIMES`. -/
def clusterReconnectionMaxtimes : Nat := 3

end MediaServer.Ref
