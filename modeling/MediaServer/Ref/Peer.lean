import MediaServer.Ref.State

/-!
# Peers (`peer.go`)

A peer wraps one pion `PeerConnection`. What pion does with a description is
not modelled; the handlers here keep what the server itself reads back later
(the local description of a publisher, whether an offer is outstanding, the
candidates handed over) and what it sends. Each of them panics when pion
refuses a call, and each of them dereferences the connection, which `Destroy`
has set to nil; both are the `throw` branch.
-/

namespace MediaServer.Ref

open MediaServer.Lib

def createPublishPeer (s : SessRef) (sid pid : String) (isFake : Bool) : Peer :=
  { (default : Peer) with
    userid := sid, remoteuserid := "", peerid := pid, role := .publisher
    isFake := isFake, parent := s }

def createSubscribePeer (s : SessRef) (sid ssid pid : String)
    (publisherSdp : Option Sdp) (isFake : Bool) : Peer :=
  { (default : Peer) with
    userid := sid, remoteuserid := ssid, peerid := pid, role := .subscriber
    isFake := isFake, parent := s, publishersdp := publisherSdp }

namespace Pod

/-- `peer.Destroy`. A second execution closes a closed channel. -/
def destroy (p : Pod) (x : PeerRef) : Pod :=
  let p := (p.emit (.destroy x)).setPeer x
    fun q => { q with closed := q.closed + 1 }
  if 1 < (p.peer x).closed then p.throw else p

/-- The id of the room that the peer's session belongs to. -/
def roomidOf (p : Pod) (x : PeerRef) : String :=
  (p.room (p.sess (p.peer x).parent).parent).roomid

/-- `SetCachedCandidates`: the cache is applied and kept. -/
def setCachedCandidates (p : Pod) (x : PeerRef) : Pod :=
  p.setPeer x fun q =>
    { q with
      setedRemoteDesc := true
      iceCandidates := q.iceCandidates ++ q.candidateCaches }

/-- What `HandleSubscribe` and `HandleFakeSubscribe` share: one track or data
channel per media section of the publisher's description, then the offer. -/
def offerTo (env : Env) (x : PeerRef) (p : Pod) (send : Pod → Pod) : Pod :=
  match (p.peer x).publishersdp with
  | none => p.throw
  | some psdp =>
      if (p.peer x).closed = 0 ∧ env.pionOk then
        send (p.setPeer x fun q =>
          { q with
            dataChannel := q.dataChannel || psdp.media.contains "application"
            haveLocalOffer := true })
      else p.throw

def handleSubscribe (env : Env) (x : PeerRef) (j : JsonParser) (p : Pod) :
    Pod :=
  p.offerTo env x fun p =>
    p.emit (.toClient (getValue j .sessID)
      [(.cmd, .str Cmd.offer.text),
        (.sessID, .str (getValue j .sessID)),
        (.srcSessID, .str (getValue j .srcSessID)),
        (.peerID, .str (getValue j .peerID)),
        (.sdp, .str env.sdp.text)])

def handleFakeSubscribe (env : Env) (x : PeerRef) (j : JsonParser) (p : Pod) :
    Pod :=
  p.offerTo env x fun p =>
    p.emit (.toCrossClusterPod (getValue j .podId)
      [(.cmd, .str Cmd.fakeOffer.text),
        (.clusterId, .str p.conf.clusterid),
        (.podId, .str p.conf.uuid),
        (.roomId, .str (p.roomidOf x)),
        (.sessID, .str (getValue j .sessID)),
        (.peerID, .str (getValue j .peerID)),
        (.sdp, .str env.sdp.text)])

/-- What `HandleRemoteOffer` and `HandleFakeOffer` share: the remote offer is
set, the answer becomes the local description, the cached candidates go in. -/
def answerTo (env : Env) (x : PeerRef) (p : Pod) (send : Pod → Pod) : Pod :=
  if (p.peer x).closed = 0 ∧ env.pionOk then
    send ((p.setPeer x fun q =>
      { q with localDesc := some env.sdp }).setCachedCandidates x)
  else p.throw

def handleRemoteOffer (env : Env) (x : PeerRef) (j : JsonParser) (p : Pod) :
    Pod :=
  p.answerTo env x fun p =>
    p.emit (.toClient (getValue j .sessID)
      [(.cmd, .str Cmd.answer.text),
        (.sessID, .str (getValue j .sessID)),
        (.peerID, .str (getValue j .peerID)),
        (.sdp, .str env.sdp.text),
        (.code, .int 0)])

def handleFakeOffer (env : Env) (x : PeerRef) (j : JsonParser) (p : Pod) :
    Pod :=
  p.answerTo env x fun p =>
    p.emit (.toCrossClusterPod (getValue j .podId)
      [(.cmd, .str Cmd.fakeAnswer.text),
        (.clusterId, .str p.conf.clusterid),
        (.podId, .str p.conf.uuid),
        (.roomId, .str (p.roomidOf x)),
        (.sessID, .str (getValue j .sessID)),
        (.srcSessID, .str (getValue j .sessID)),
        (.peerID, .str (getValue j .peerID)),
        (.sdp, .str env.sdp.text)])

/-- `HandleRemoteAnswer`, and `HandleFakeAnswer` word for word: pion takes an
answer only while the local offer is outstanding. -/
def handleRemoteAnswer (env : Env) (x : PeerRef) (p : Pod) : Pod :=
  if (p.peer x).closed = 0 ∧ (p.peer x).haveLocalOffer ∧ env.pionOk then
    (p.setPeer x fun q => { q with haveLocalOffer := false }).setCachedCandidates x
  else p.throw

def handleRemoteCandidate (env : Env) (x : PeerRef) (j : JsonParser)
    (p : Pod) : Pod :=
  if !(p.peer x).setedRemoteDesc then
    p.setPeer x fun q =>
      { q with
        candidateCaches := q.candidateCaches ++ [getValue j .candidate] }
  else if (p.peer x).closed = 0 ∧ env.pionOk then
    p.setPeer x fun q =>
      { q with iceCandidates := q.iceCandidates ++ [getValue j .candidate] }
  else p.throw

/-- `peer.HandleMessage`. -/
def peerHandleMessage (env : Env) (x : PeerRef) (j : JsonParser) (p : Pod) :
    Pod :=
  match command j with
  | some .sub => p.handleSubscribe env x j
  | some .offer => p.handleRemoteOffer env x j
  | some .answer => p.handleRemoteAnswer env x
  | some .candidate => p.handleRemoteCandidate env x j
  | some .fakeSubscribe => p.handleFakeSubscribe env x j
  | some .fakeOffer => p.handleFakeOffer env x j
  | some .fakeAnswer => p.handleRemoteAnswer env x
  | some .fakeCandidate => p.handleRemoteCandidate env x j
  | _ => p

end Pod

end MediaServer.Ref
