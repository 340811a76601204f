import MediaServer.Lib.Json
import MediaServer.Ref.Rmq
import MediaServer.Ref.Ssrc

/-!
# Telling the proxy about a connection (`peer.go`)

For each local candidate that `OnICECandidate` lets pass, a peer starts a
`CheckIceInfo`, which receives once from `remoteSdpReceived`, reads the two
descriptions and broadcasts an `iceinfo` message to the proxies. Each handler
that sets a remote description (`HandleRemoteOffer`, `HandleRemoteAnswer`,
`HandleFakeOffer` and `HandleFakeAnswer`) starts a goroutine that sends once on
`remoteSdpReceived`. The channel has no buffer: a value goes from one of the
senders to one of the receivers, when both are there.

What pion answers, what becomes of the brokers and when the peer is destroyed
is left open. A description is what `Unmarshal` makes of it.
-/

namespace MediaServer.Ref

open MediaServer.Lib

/-- `MediaDescription.Attribute`. -/
def MediaDescription.attribute (m : MediaDescription) (key : String) :
    Option String :=
  (m.attributes.find? fun a => a.key = key).map Attribute.value

/-- The `ice-ufrag` of the first video section that has one. -/
def videoUfrag : SessionDescription → String
  | [] => ""
  | m :: rest =>
      if m.media = "video" then
        match m.attribute "ice-ufrag" with
        | some ufrag => ufrag
        | none => videoUfrag rest
      else videoUfrag rest

structure IceInfo where
  localIce : String
  remoteIce : String
  localIp : String
  localPort : UInt16
  deriving DecidableEq, Repr

/-- The map that is marshalled, by name. -/
def IceInfo.marshal (m : IceInfo) : Json :=
  .obj [("action", .str "iceinfo"),
    ("local_ice", .str m.localIce),
    ("local_ip", .str m.localIp),
    ("local_port", .int m.localPort.toNat),
    ("protocol", .str "udp"),
    ("remote_ice", .str m.remoteIce)]

/-- A description that pion has, as `Unmarshal` reads it; `none` if it is an
error. -/
abbrev Description := Option SessionDescription

/-- The peer: `conf.Localaddr`, the descriptions that its connection has, and
what it has done so far. `accepted` counts the candidates that passed the
filter, `described` the remote descriptions, and `dropped` the messages that
`BroadcastMessage2Proxy` returned from because its flag was clear. -/
structure IcePeer where
  localaddr : String
  localDescription : Option Description
  remoteDescription : Option Description
  destroyed : Bool
  rmq : Rmq
  accepted : Nat
  described : Nat
  broadcast : List Json
  dropped : Nat
  fatal : Bool

/-- Where a goroutine stands: a `CheckIceInfo` before it has received, with
the descriptions to read, at the test of the flag and at the send; a sender on
`remoteSdpReceived`; and a handler before its `SetLocalDescription`. -/
inductive IcePc where
  | checkIceInfo (ip : String) (port : UInt16)
  | read (ip : String) (port : UInt16)
  | broadcast (m : IceInfo)
  | send (m : IceInfo)
  | sender
  | setLocal (answer : Option Description)
  deriving DecidableEq

namespace IcePeer

def throw (w : IcePeer) : IcePeer := { w with fatal := true }

/-- `SetLocalDescription`; `none` is an error, which the handlers panic on. -/
def setLocalDescription (w : IcePeer) (d : Option Description) : IcePeer :=
  if w.destroyed then w.throw
  else
    match d with
    | none => w.throw
    | some d => { w with localDescription := some d }

/-- The second half of `CheckIceInfo`, up to the message. -/
def iceInfo (w : IcePeer) (ip : String) (port : UInt16) :
    IcePeer × Option IcePc :=
  if w.destroyed then (w.throw, none)
  else
    match w.localDescription, w.remoteDescription with
    | some lDesc, some rDesc =>
        match lDesc, rDesc with
        | some lSdp, some rSdp =>
            (w, some (.broadcast ⟨videoUfrag lSdp, videoUfrag rSdp, ip, port⟩))
        | _, _ => (w.throw, none)
    | _, _ => (w, none)

/-- One block of a goroutine. Who sends or receives on `remoteSdpReceived`
waits for the other. -/
def exec (k : IcePc) (w : IcePeer) : Option (IcePeer × Option IcePc) :=
  match k with
  | .checkIceInfo _ _ | .sender => none
  | .read ip port => some (w.iceInfo ip port)
  | .broadcast m =>
      if (w.rmq.link .cluster).connected then some (w, some (.send m))
      else some ({ w with dropped := w.dropped + 1 }, none)
  | .send m =>
      match w.rmq.slot .excProxyBc with
      | none => some (w.throw, none)
      | some x =>
          if (w.rmq.exc x).loop then
            some ({ w with broadcast := w.broadcast ++ [m.marshal] }, none)
          else none
  | .setLocal answer => some (w.setLocalDescription answer, none)

end IcePeer

abbrev IceSched := Threads IcePeer IcePc

/-- What can happen: pion reports a local candidate; a handler sets a remote
offer, to answer it, or a remote answer, or makes an offer; the peer is
destroyed; the brokers change; a sender and a `CheckIceInfo` meet; a goroutine
runs its next block. An error of pion is `none`. -/
inductive IceSched.Act where
  | candidate (ip : String) (port : UInt16)
  | remoteOffer (offer answer : Option Description)
  | remoteAnswer (answer : Option Description)
  | localOffer (offer : Option Description)
  | destroy
  | rmq (l : Rmq)
  | meet (i j : Nat)
  | turn (i : Nat)

namespace IceSched

def init (localaddr : String) (rmq : Rmq) : IceSched :=
  ⟨⟨localaddr, none, none, false, rmq, 0, 0, [], 0, false⟩, []⟩

def throw (t : IceSched) : IceSched := { t with shared := t.shared.throw }

/-- `SetRemoteDescription`, and the goroutine that tells of it. -/
def setRemoteDescription (t : IceSched) (d : Option Description) : IceSched :=
  if t.shared.destroyed then t.throw
  else
    match d with
    | none => t.throw
    | some d => Threads.start .sender { t with shared := { t.shared with
        remoteDescription := some d
        described := t.shared.described + 1 } }

/-- A value goes from the sender `j` to the receiver `i`. -/
def meet (i j : Nat) (t : IceSched) : Option IceSched :=
  match t.threads[i]?, t.threads[j]? with
  | some (.checkIceInfo ip port), some .sender =>
      some ((t.resume i t.shared (some (.read ip port))).resume j t.shared none)
  | _, _ => none

def step (a : Act) (t : IceSched) : Option IceSched :=
  if t.shared.fatal then none
  else
    match a with
    | .candidate ip port =>
        if t.shared.localaddr ≠ ip then some t
        else some ({ t with shared := { t.shared with
          accepted := t.shared.accepted + 1 } }.start (.checkIceInfo ip port))
    | .remoteOffer offer answer =>
        some ((t.setRemoteDescription offer).start (.setLocal answer))
    | .remoteAnswer answer => some (t.setRemoteDescription answer)
    | .localOffer offer =>
        some { t with shared := t.shared.setLocalDescription offer }
    | .destroy =>
        if t.shared.destroyed then some t.throw
        else some { t with shared := { t.shared with destroyed := true } }
    | .rmq l => some { t with shared := { t.shared with rmq := l } }
    | .meet i j => t.meet i j
    | .turn i => t.turn IcePeer.exec i

end IceSched

end MediaServer.Ref
