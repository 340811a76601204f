import MediaServer.Lib.Threads
import MediaServer.Ref.Roommgr

/-!
# The room manager under a scheduler

Messages arrive from MQTT and from RabbitMQ on their own goroutines, so
several calls of `roommgr.HandleMessage` can be in progress at once, next to
the tickers and the goroutines that the room layer spawns. Here a call is cut
where it can be overtaken: at the test for the room, which takes no lock, at
each section under `roomsLock`, and at the call into the room. The call into
the room is one block; `Sched.lean` takes it apart.
-/

namespace MediaServer.Ref

open MediaServer.Lib

/-- Where a call of `roommgr.HandleMessage` stands. -/
inductive MgrPc where
  | start (m : JsonParser)
  | insertRoom (m : JsonParser)
  | announce (m : JsonParser)
  | readRoom (m : JsonParser)
  | fetchRoom (m : JsonParser)
  | callRoom (m : JsonParser) (r : Option RoomRef)
  deriving DecidableEq

namespace MgrPc

/-- The tests for registration and for the room. `login` creates a room that
is missing and reads the map again under the lock; the other commands answer
for themselves if there is none, and else look it up a second time. -/
def startMessage (m : JsonParser) (p : Pod) : Pod × Option MgrPc :=
  match command m with
  | some .podRegist => (p.handlePodRegist m, none)
  | some .podRegistNow => (p.handlePodRegistNow, none)
  | some .login =>
      if p.regist then
        (p, some (if p.rooms.lookup (getValue m .roomId) = none then
          .insertRoom m else .readRoom m))
      else
        (p.notifyServiceNotAvailable (getValue m .cmd) (getValue m .sessID),
          none)
  | _ =>
      if p.regist then
        if p.forwards m then
          if p.rooms.lookup (getValue m .roomId) = none then
            (p.notFoundRoom m, none)
          else (p, some (.fetchRoom m))
        else (p, none)
      else
        (p.notifyServiceNotAvailable (getValue m .cmd) (getValue m .sessID),
          none)

def exec (env : Env) (p : Pod) : MgrPc → Pod × Option MgrPc
  | .start m => startMessage m p
  | .insertRoom m => (p.insertRoom (getValue m .roomId), some (.announce m))
  | .announce m => (p.broadcastRoomCreated env m, some (.readRoom m))
  | .readRoom m =>
      ((p.rlock .rooms).runlock .rooms,
        some (.callRoom m (p.rooms.lookup (getValue m .roomId))))
  | .fetchRoom m =>
      (p, some (.callRoom m (p.rooms.lookup (getValue m .roomId))))
  | .callRoom m r => (p.callRoom env r m, none)

end MgrPc

abbrev MgrSched := Threads Pod MgrPc

/-- A message arrives, a call runs its next block, or something else happens
to the pod: a ticker, a callback, the turn of a spawned call. -/
inductive MgrSched.Act where
  | receive (m : JsonParser)
  | turn (i : Nat) (env : Env)
  | other (a : Env × Input)

namespace MgrSched

def init (conf : Config) : MgrSched := ⟨Pod.createRoomMgr conf, []⟩

def step (a : Act) (t : MgrSched) : Option MgrSched :=
  if t.shared.fatal then none
  else
    match a with
    | .receive m => some (t.start (.start m))
    | .turn i env => t.turn (fun k p => some (k.exec env p)) i
    | .other a =>
        if a.2.msg? = none then
          (Pod.step a t.shared).map fun p => { t with shared := p }
        else none

end MgrSched

end MediaServer.Ref
