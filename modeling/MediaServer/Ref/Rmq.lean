import MediaServer.Lib.Heap
import MediaServer.Lib.Threads

/-!
# The two message brokers (`rmq.go`)

A pod talks to the RabbitMQ of its own cluster and to the one in the center.
Each has a `RabbitMQ` object, and both share the package's globals: one
exchange variable per kind of message and one flag per broker. A connection is
set up step by step (dial, register the exchanges one after the other, set the
flag), and a lost connection is noticed by a goroutine of its own, which
clears the flag, destroys whatever the variables point to and arms a timer for
the next attempt. The six functions that publish look at a flag first and at a
variable afterwards.

Everything that can be overtaken is a block of its own: each registration,
each `destroyEXC`, the test of the flag and the use of the variable. What
AMQP answers is the scheduler's choice. A closed connection tells its
listeners once, and a listener that comes later is told nothing.
-/

namespace MediaServer.Ref

open MediaServer.Lib

/-- `rmq` and `crmq` of `main`. -/
inductive Broker where
  | cluster
  | center
  deriving DecidableEq, Repr

/-- The exchange variables. -/
inductive Slot where
  | excPubDr
  | excProxyBc
  | excClusterBc
  | excCrossClusterDr
  | excCrossClusterBc
  deriving DecidableEq, Repr

/-- The broker whose connect function assigns the variable. -/
def Slot.broker : Slot → Broker
  | excPubDr | excProxyBc | excClusterBc => .cluster
  | excCrossClusterDr | excCrossClusterBc => .center

/-- The variables that `Stop` and `CenterRMQStop` look at, in their order. -/
def Broker.slots : Broker → List Slot
  | cluster => [.excPubDr, .excProxyBc, .excClusterBc]
  | center => [.excCrossClusterDr, .excCrossClusterBc]

theorem Broker.mem_slots {b : Broker} {s : Slot} :
    s ∈ b.slots ↔ s.broker = b := by
  cases b <;> cases s <;> decide

abbrev ExcRef := Nat
abbrev ConnRef := Nat

/-- What an exchange is declared with. -/
structure Declaration where
  exchangeName : String
  exchangeType : String
  queueName : String
  routingKey : String
  feature : String
  deriving DecidableEq, Repr

/-- `QueueExchange`. `loop` says that its goroutine runs, which makes
`msgChan` and takes from `exitChan`; `destroyed` that `destroyEXC` has closed
its channel. -/
structure QueueExchange where
  broker : Broker
  conn : ConnRef
  decl : Declaration
  loop : Bool
  destroyed : Bool

instance : Inhabited QueueExchange :=
  ⟨⟨.cluster, 0, ⟨"", "", "", "", ""⟩, false, false⟩⟩

/-- A call of `RegisterProducer`, with the variable its result is stored in,
or of `RegisterReceiver`. -/
inductive Registration where
  | producer (slot : Slot) (decl : Declaration)
  | receiver (decl : Declaration)
  deriving DecidableEq, Repr

/-- The registrations of `mqConnect` and `centerRMQConnect`. -/
def Broker.registrations (uuid : String) : Broker → List Registration
  | cluster =>
      [.producer .excPubDr ⟨"WB_", "direct", "", "111", "d"⟩,
        .receiver ⟨"WB_broadcast", "fanout", "bc_ms_" ++ uuid,
          "container_broadcast", "d"⟩,
        .receiver ⟨"WB_", "direct", "direct_ms_" ++ uuid, uuid, "d"⟩,
        .producer .excProxyBc ⟨"udpProxy", "fanout", "", "broadcast", "ad"⟩,
        .producer .excClusterBc ⟨"inter-cluster_broadcast", "fanout", "",
          "inter-cluster", "ad"⟩,
        .receiver ⟨"inter-cluster_broadcast", "fanout",
          "inter-cluster_" ++ uuid, "inter-cluster", "ad"⟩]
  | center =>
      [.producer .excCrossClusterDr ⟨"WB_", "direct", "", "", "d"⟩,
        .receiver ⟨"WB_", "direct", "direct_ms_" ++ uuid, uuid, "d"⟩,
        .producer .excCrossClusterBc ⟨"cross-cluster_broadcast", "fanout", "",
          "cross-cluster", "ad"⟩,
        .receiver ⟨"cross-cluster_broadcast", "fanout",
          "cross-cluster_" ++ uuid, "cross-cluster", "ad"⟩]

structure PublishMsg where
  excname : String
  key : String
  msg : String
  deriving DecidableEq, Repr

/-- A call of one of the functions that publish. -/
inductive Publish where
  | publishMessage2LB (msg : String)
  | publishMessage2Pod (key msg : String)
  | broadcastMessage2Proxy (msg : String)
  | broadcastInterClusterMessage (msg : String)
  | publishMessage2CrossClusterPod (key msg : String)
  | broadcastCrossClusterMessage (msg : String)
  deriving DecidableEq, Repr

namespace Publish

/-- The broker whose flag the function tests. -/
def flag : Publish → Broker
  | publishMessage2LB _ | publishMessage2Pod _ _ | broadcastMessage2Proxy _
  | broadcastInterClusterMessage _ | publishMessage2CrossClusterPod _ _ =>
      .cluster
  | broadcastCrossClusterMessage _ => .center

/-- The variable it sends on. -/
def slot : Publish → Slot
  | publishMessage2LB _ | publishMessage2Pod _ _ => .excPubDr
  | broadcastMessage2Proxy _ => .excProxyBc
  | broadcastInterClusterMessage _ => .excClusterBc
  | publishMessage2CrossClusterPod _ _ => .excCrossClusterDr
  | broadcastCrossClusterMessage _ => .excCrossClusterBc

/-- The broker the message is meant for. -/
def target : Publish → Broker
  | publishMessage2LB _ | publishMessage2Pod _ _ | broadcastMessage2Proxy _
  | broadcastInterClusterMessage _ => .cluster
  | publishMessage2CrossClusterPod _ _ | broadcastCrossClusterMessage _ =>
      .center

def msg : Publish → PublishMsg
  | publishMessage2LB m => ⟨"WB_", "111", m⟩
  | publishMessage2Pod key m => ⟨"WB_", key, m⟩
  | broadcastMessage2Proxy m => ⟨"udpProxy", "broadcast", m⟩
  | broadcastInterClusterMessage m =>
      ⟨"inter-cluster_broadcast", "inter-cluster", m⟩
  | publishMessage2CrossClusterPod key m => ⟨"WB_", key, m⟩
  | broadcastCrossClusterMessage m =>
      ⟨"cross-cluster_broadcast", "cross-cluster", m⟩

theorem slot_broker (f : Publish) : f.slot.broker = f.target := by
  cases f <;> rfl

end Publish

/-- One `RabbitMQ` object with the flag of its broker. The goroutines of its
retry timers either wait for their timer or, once that has fired, for an exit
token. -/
structure Link where
  connected : Bool
  conn : Option ConnRef
  exs : List ExcRef
  armed : Nat
  fired : Nat
  tokens : Nat

/-- The goroutine that waits for a connection to close; `none` before it has
called `NotifyClose`. -/
structure Watcher where
  broker : Broker
  conn : Option ConnRef
  deriving DecidableEq

structure Rmq where
  uuid : String
  heap : Heap QueueExchange
  slot : Slot → Option ExcRef
  link : Broker → Link
  conns : Nat
  down : List ConnRef
  watchers : List Watcher
  sent : List (ExcRef × PublishMsg)
  fatal : Bool

/-- What AMQP answers: to a dial, or to the calls of one registration. After
`noChannel` the code goes on with a nil channel. -/
inductive Amqp where
  | ok
  | refused
  | noChannel
  deriving DecidableEq, Repr

/-- Where a goroutine stands. `again` tells the `Stop` of a lost connection
from the one that `main` defers. -/
inductive RmqPc where
  | dial (b : Broker)
  | dialed (b : Broker) (ok : Bool)
  | register (b : Broker) (todo : List Registration)
  | closed (b : Broker)
  | stop (b : Broker) (todo : List Slot) (again : Bool)
  | stopExs (b : Broker) (todo : List ExcRef) (again : Bool)
  | closeConn (b : Broker) (again : Bool)
  | blocked
  | publish (f : Publish)
  | send (f : Publish)
  deriving DecidableEq

namespace Rmq

/-- After `InterClusterStartup` and `CrossClusterStartup`. -/
def startup (uuid : String) : Rmq where
  uuid := uuid
  heap := Heap.empty
  slot _ := none
  link _ := ⟨false, none, [], 1, 0, 0⟩
  conns := 0
  down := []
  watchers := []
  sent := []
  fatal := false

def exc (l : Rmq) (x : ExcRef) : QueueExchange := l.heap.cell x

def setLink (l : Rmq) (b : Broker) (f : Link → Link) : Rmq :=
  { l with link := fun i => if i = b then f (l.link i) else l.link i }

theorem setLink_self (l : Rmq) (b : Broker) (f : Link → Link) :
    (l.setLink b f).link b = f (l.link b) := if_pos rfl

theorem setLink_other {l : Rmq} {b b' : Broker} {f : Link → Link}
    (hb : b ≠ b') : (l.setLink b' f).link b = l.link b := if_neg hb

def throw (l : Rmq) : Rmq := { l with fatal := true }

/-- `lanuchRetryTimer` and `CenterRMQConnectTimer`. -/
def launchRetryTimer (l : Rmq) (b : Broker) : Rmq :=
  l.setLink b fun k => { k with armed := k.armed + 1 }

/-- The dial, and the token that `cancelRetryTimer` sends before it waits. -/
def dial (l : Rmq) (b : Broker) (ok : Bool) : Rmq :=
  let l := if ok then { l with conns := l.conns + 1 } else l
  l.setLink b fun k =>
    { k with
      conn := if ok then some (l.conns - 1) else none
      tokens := k.tokens + 1 }

def createQueueExchange (b : Broker) (c : ConnRef) (d : Declaration)
    (loop : Bool) : QueueExchange := ⟨b, c, d, loop, false⟩

/-- `RegisterProducer` and `RegisterReceiver`. A nil connection and a nil
channel are dereferenced. -/
def register (l : Rmq) (b : Broker) (o : Amqp) (g : Registration) : Rmq :=
  match (l.link b).conn, o with
  | none, _ | some _, .noChannel => l.throw
  | some c, o =>
      let x := l.heap.next
      let loop : Bool := o = .ok
      match g with
      | .producer s d =>
          { l with
            heap := l.heap.alloc (createQueueExchange b c d loop)
            slot := fun i => if i = s then some x else l.slot i }
      | .receiver d =>
          { l with
            heap := l.heap.alloc (createQueueExchange b c d loop) }.setLink b
              fun k => { k with exs := k.exs ++ [x] }

/-- `destroyEXC`: the channel is closed, then the loop is told to exit. -/
def destroyEXC (l : Rmq) (x : ExcRef) : Rmq :=
  { l with
    heap := l.heap.modify x fun e => { e with loop := false, destroyed := true } }

/-- Without a loop nobody takes the exit token. -/
def afterDestroy (l : Rmq) (x : ExcRef) (k : RmqPc) : RmqPc :=
  if (l.exc x).loop then k else .blocked

/-- `r.conn.Close()`, after which the goroutines that listen on the connection
return. -/
def closeConn (l : Rmq) (b : Broker) : Rmq :=
  match (l.link b).conn with
  | none => l.throw
  | some c =>
      { l with
        down := c :: l.down
        watchers := l.watchers.filter (·.conn ≠ some c) }.setLink b
          fun k => { k with conn := none }

/-- `exc_….msgChan <- m`. -/
def send (l : Rmq) (f : Publish) : Option Rmq :=
  match l.slot f.slot with
  | none => some l.throw
  | some x =>
      if (l.exc x).loop then some { l with sent := l.sent ++ [(x, f.msg)] }
      else none

/-- One block of a goroutine. -/
def exec (o : Amqp) (k : RmqPc) (l : Rmq) : Option (Rmq × Option RmqPc) :=
  match k with
  | .dial b => some (l.dial b (o = .ok), some (.dialed b (o = .ok)))
  | .dialed b ok =>
      if (l.link b).armed + (l.link b).fired = 0 then
        if ok then
          some ({ l with watchers := l.watchers ++ [⟨b, none⟩] },
            some (.register b (b.registrations l.uuid)))
        else some (l.launchRetryTimer b, none)
      else none
  | .register b [] =>
      some (l.setLink b fun k => { k with connected := true }, none)
  | .register b (g :: todo) =>
      some (l.register b o g, some (.register b todo))
  | .closed b =>
      some (l.setLink b fun k => { k with connected := false },
        some (.stop b b.slots true))
  | .stop b [] again => some (l, some (.stopExs b (l.link b).exs again))
  | .stop b (s :: todo) again =>
      match l.slot s with
      | none => some (l, some (.stop b todo again))
      | some x =>
          some (l.destroyEXC x,
            some (l.afterDestroy x (.stop b todo again)))
  | .stopExs b [] again =>
      some (l.setLink b fun k => { k with exs := [] },
        some (.closeConn b again))
  | .stopExs b (x :: todo) again =>
      some (l.destroyEXC x,
        some (l.afterDestroy x (.stopExs b todo again)))
  | .closeConn b again =>
      let l := l.closeConn b
      some (if again then l.launchRetryTimer b else l, none)
  | .blocked => none
  | .publish f =>
      some (l, if (l.link f.flag).connected then some (.send f) else none)
  | .send f => (l.send f).map fun l => (l, none)

end Rmq

abbrev RmqSched := Threads Rmq RmqPc

/-- What can happen: a retry timer fires, the goroutine of a timer takes an
exit token, a watcher calls `NotifyClose`, a connection is lost, `main` stops a
broker, a handler publishes, a goroutine runs its next block. -/
inductive RmqSched.Act where
  | fire (b : Broker)
  | exit (b : Broker) (fired : Bool)
  | listen (i : Nat)
  | lose (c : ConnRef)
  | stop (b : Broker)
  | publish (f : Publish)
  | turn (i : Nat) (o : Amqp)

namespace RmqSched

def init (uuid : String) : RmqSched := ⟨Rmq.startup uuid, []⟩

/-- `<-r.exitChan` in the goroutine of a retry timer. -/
def exit (b : Broker) (fired : Bool) (l : Rmq) : Option Rmq :=
  let k := l.link b
  if 0 < k.tokens ∧ 0 < (if fired then k.fired else k.armed) then
    some (l.setLink b fun k =>
      if fired then { k with tokens := k.tokens - 1, fired := k.fired - 1 }
      else { k with tokens := k.tokens - 1, armed := k.armed - 1 })
  else none

/-- The watcher evaluates `r.conn`. If that connection is down already, its
channel is closed at once and the goroutine returns. -/
def listen (i : Nat) (l : Rmq) : Option Rmq :=
  match l.watchers[i]? with
  | some ⟨b, none⟩ =>
      match (l.link b).conn with
      | none => some l.throw
      | some c =>
          if c ∈ l.down then some { l with watchers := l.watchers.eraseIdx i }
          else some { l with watchers := l.watchers.set i ⟨b, some c⟩ }
  | _ => none

/-- The watchers of a connection that is lost receive an error and go on. -/
def lose (c : ConnRef) (t : RmqSched) : Option RmqSched :=
  let l := t.shared
  if c < l.conns ∧ c ∉ l.down then
    some ⟨{ l with
        down := c :: l.down
        watchers := l.watchers.filter (·.conn ≠ some c) },
      t.threads ++ (l.watchers.filter (·.conn = some c)).map
        fun w => .closed w.broker⟩
  else none

def step (a : Act) (t : RmqSched) : Option RmqSched :=
  let l := t.shared
  if l.fatal then none
  else
    match a with
    | .fire b =>
        if 0 < (l.link b).armed then
          some ({ t with shared := l.setLink b fun k =>
            { k with armed := k.armed - 1, fired := k.fired + 1 } }.start
              (.dial b))
        else none
    | .exit b fired => (exit b fired l).map fun l => { t with shared := l }
    | .listen i => (listen i l).map fun l => { t with shared := l }
    | .lose c => t.lose c
    | .stop b => some (t.start (.stop b b.slots false))
    | .publish f => some (t.start (.publish f))
    | .turn i o => t.turn (Rmq.exec o) i

end RmqSched

end MediaServer.Ref
