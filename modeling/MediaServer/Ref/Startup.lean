import MediaServer.Ref.MgrSched

/-!
# The startup of a pod (`mediaserver.go`)

`main` creates the room manager, starts the two message brokers and MQTT one
after the other, each with `roommgr.HandleMessage` as the receiver, and only
then hands the room manager the function that sends to the clients. A message
can arrive on a transport as soon as it is started, so the calls of
`HandleMessage` are mixed with the rest of `main`.

A room copies the function when it is created, before it is put into the map,
and its sessions and peers take the room's copy. A copy made too early stays
nil. `bare` are the rooms whose copy is nil.
-/

namespace MediaServer.Ref

open MediaServer.Lib

/-- Where messages come from: `rmq`, `crmq` and `mqtt` of `main`. -/
inductive Transport where
  | rmq
  | crmq
  | mqtt
  deriving DecidableEq

/-- What `main` does after `CreateRoomMgr`. `SetSendMessageHandler` stores the
function first, and registers or starts the registration afterwards. -/
inductive MainStep where
  | interClusterStartup
  | crossClusterStartup
  | onReceivedMessage
  | init
  | setHandler
  | register
  deriving DecidableEq

def mainSteps : List MainStep :=
  [.interClusterStartup, .crossClusterStartup, .onReceivedMessage, .init,
    .setHandler, .register]

/-- The room manager while `main` runs: what `main` still has to do, the
transports that deliver messages, and whether `onSendMessageHandler` is set. -/
structure Boot where
  pod : Pod
  main : List MainStep
  started : List Transport
  handler : Bool
  bare : List RoomRef

namespace Boot

def start (tr : Transport) (b : Boot) : Boot :=
  { b with started := tr :: b.started }

/-- One step of `main`. MQTT has its receiver before it connects. -/
def runMain (b : Boot) : MainStep → Boot
  | .interClusterStartup => b.start .rmq
  | .crossClusterStartup => b.start .crmq
  | .onReceivedMessage => b
  | .init => b.start .mqtt
  | .setHandler => { b with handler := true }
  | .register => { b with pod := b.pod.setSendMessageHandler }

/-- `CreateRoom`, with the copy of the function that was made before. -/
def insertRoom (rid : String) (copied : Bool) (b : Boot) : Boot :=
  { b with
    pod := b.pod.insertRoom rid
    bare := if copied then b.bare else b.pod.roomHeap.next :: b.bare }

end Boot

/-- Where a call of `HandleMessage` stands: as in `MgrSched.lean`, and between
the copy of the function and the section that stores the room. -/
inductive BootPc where
  | mgr (k : MgrPc)
  | storeRoom (m : JsonParser) (copied : Bool)
  deriving DecidableEq

def Event.isToClient : Event → Bool
  | .toClient .. => true
  | _ => false

namespace BootPc

/-- One block, if every function it calls is there. -/
def block (env : Env) (b : Boot) : BootPc → Boot × Option BootPc
  | .mgr (.insertRoom m) => (b, some (.storeRoom m b.handler))
  | .storeRoom m copied =>
      (b.insertRoom (getValue m .roomId) copied, some (.mgr (.announce m)))
  | .mgr k =>
      ({ b with pod := (k.exec env b.pod).1 }, (k.exec env b.pod).2.map .mgr)

/-- The block calls `onSendMessageHandler`. -/
def sends (env : Env) (b : Boot) (k : BootPc) : Bool :=
  (newEvents b.pod (k.block env b).1.pod).any Event.isToClient

/-- The function that the block would call is set: the copy of the room that
it calls into, and the room manager's own otherwise. -/
def handlerSet (b : Boot) : BootPc → Bool
  | .mgr (.callRoom _ (some r)) => r ∉ b.bare
  | _ => b.handler

def callsNil (env : Env) (b : Boot) (k : BootPc) : Bool :=
  k.sends env b && !k.handlerSet b

/-- One block: a call of a nil function is a panic. -/
def exec (env : Env) (k : BootPc) (b : Boot) : Boot × Option BootPc :=
  if k.callsNil env b then ({ b with pod := b.pod.throw }, none)
  else k.block env b

end BootPc

abbrev BootSched := Threads Boot BootPc

/-- `main` takes its next step, a message arrives, a call runs its next block,
or something else happens to the pod. -/
inductive BootSched.Act where
  | main
  | receive (tr : Transport) (m : JsonParser)
  | turn (i : Nat) (env : Env)
  | other (a : Env × Input)

/-- The inputs of a pod that are neither messages nor steps of `main`. The
keepalive ticker is started by `SetSendMessageHandler`. -/
def Boot.admits (b : Boot) : Input → Bool
  | .setSendMessageHandler | .message _ => false
  | .keepaliveTick => b.handler
  | _ => true

namespace BootSched

def init (conf : Config) : BootSched :=
  ⟨⟨Pod.createRoomMgr conf, mainSteps, [], false, []⟩, []⟩

def step (a : Act) (t : BootSched) : Option BootSched :=
  let b := t.shared
  if b.pod.fatal then none
  else
    match a with
    | .main =>
        match b.main with
        | [] => none
        | k :: rest =>
            some { t with shared := { b with main := rest }.runMain k }
    | .receive tr m =>
        if tr ∈ b.started then some (t.start (.mgr (.start m))) else none
    | .turn i env => t.turn (fun k b => some (k.exec env b)) i
    | .other a =>
        if b.admits a.2 then
          (Pod.step a b.pod).map fun p =>
            { t with shared := { b with pod := p } }
        else none

end BootSched

end MediaServer.Ref
