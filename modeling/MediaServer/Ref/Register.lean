import MediaServer.Ref.Rmq

/-!
# Registering the exchanges, call by call (`rmq.go`)

`Rmq.lean` has one answer for all the AMQP calls of a registration. Here each
of them has its own: `addProducer` and `addReceiver` return early when one
fails, and the caller stores the exchange whatever has become of it. An
exchange is what others need of it: whether `msgChan` was made, and how many
goroutines receive on its channels. `mqConnect` and `centerRMQConnect` run on
their own, from the dial that succeeded to the flag.
-/

namespace MediaServer.Ref

/-- What AMQP answers to the calls of one registration, `true` if there is no
error. -/
structure AmqpCalls where
  channel : Bool
  exchangeDeclare : Bool
  queueDeclare : Bool
  queueBind : Bool
  qos : Bool
  consume : Bool
  deriving DecidableEq, Repr

structure Exchange where
  decl : Declaration
  msgChan : Bool
  loops : Nat
  deriving DecidableEq, Repr

namespace Exchange

/-- `CreateQueueExchange`. -/
def create (d : Declaration) : Exchange := ⟨d, false, 0⟩

/-- The result is `none` where a nil channel is dereferenced. -/
def addProducer (o : AmqpCalls) (ex : Exchange) : Option Exchange :=
  if !o.channel then none
  else if !o.exchangeDeclare then some ex
  else if ex.decl.queueName.length ≠ 0 ∧ !o.queueDeclare then some ex
  else if ex.decl.queueName.length ≠ 0 ∧ !o.queueBind then some ex
  else some { ex with msgChan := true, loops := ex.loops + 1 }

def addReceiver (o : AmqpCalls) (ex : Exchange) : Option Exchange :=
  if !o.channel then none
  else if !o.exchangeDeclare then some ex
  else if !o.queueDeclare then some ex
  else if !o.queueBind then some ex
  -- what `Qos` answers is printed and no more
  else if !o.consume then some ex
  else some { ex with loops := ex.loops + 1 }

/-- `ex.exitChan <- 0` ends one of the loops, or waits for ever. -/
def destroyEXC (ex : Exchange) : Option Exchange :=
  if 0 < ex.loops then some { ex with loops := ex.loops - 1 } else none

/-- `ex.msgChan <- m` returns: nobody receives from a nil channel. -/
def publishes (ex : Exchange) : Bool := ex.msgChan && 0 < ex.loops

end Exchange

/-- The exchange variables, the receivers of each `RabbitMQ` object, and the
flags. -/
structure Registry where
  slot : Slot → Option Exchange
  exs : Broker → List Exchange
  connected : Broker → Bool

namespace Registry

/-- `RegisterProducer`, with its result stored, and `RegisterReceiver`. -/
def register (b : Broker) (o : AmqpCalls) (g : Registration) (r : Registry) :
    Option Registry :=
  match g with
  | .producer s d => ((Exchange.create d).addProducer o).map fun ex =>
      { r with slot := fun i => if i = s then some ex else r.slot i }
  | .receiver d => ((Exchange.create d).addReceiver o).map fun ex =>
      { r with exs := fun i => if i = b then r.exs i ++ [ex] else r.exs i }

/-- The registrations from the `n`-th on. -/
def registerAll (b : Broker) (answers : Nat → AmqpCalls) :
    Nat → List Registration → Registry → Option Registry
  | _, [], r => some r
  | n, g :: todo, r =>
      (r.register b (answers n) g).bind (registerAll b answers (n + 1) todo)

/-- `mqConnect` and `centerRMQConnect`, once the dial has succeeded. -/
def connect (uuid : String) (b : Broker) (answers : Nat → AmqpCalls)
    (r : Registry) : Option Registry :=
  (registerAll b answers 0 (b.registrations uuid) r).map fun r =>
    { r with connected := fun i => if i = b then true else r.connected i }

def destroySlots : List Slot → Registry → Option Registry
  | [], r => some r
  | s :: todo, r =>
      match r.slot s with
      | none => destroySlots todo r
      | some ex => ex.destroyEXC.bind fun ex => destroySlots todo
          { r with slot := fun i => if i = s then some ex else r.slot i }

/-- `Stop` and `CenterRMQStop` as far as the exchanges go; `none` if one of
the sends waits for ever. -/
def stop (b : Broker) (r : Registry) : Option Registry :=
  (destroySlots b.slots r).bind fun r =>
    if (r.exs b).all fun ex => ex.destroyEXC.isSome then
      some { r with exs := fun i => if i = b then [] else r.exs i }
    else none

end Registry

end MediaServer.Ref
