import MediaServer.Lib.Threads
import MediaServer.Ref.Roommgr

/-!
# Registration under a scheduler

A pod that is run by a load balancer announces itself every five seconds from
a `StartRegistToLB` goroutine until a `pod_regist` reply is handled. The
handler sets `regist` and then sends on `stopRegist`, which has no buffer: it
waits there until a loop takes the value and returns. A loop also returns on
its own when its ticker fires and `regist` is set. `regist_now` clears
`regist` and starts a loop again.

A handler is a thread with two blocks: the test and the write of `regist`, and
the send or the `go` statement. Several loops are only told apart by their
number, `Pod.loops`.
-/

namespace MediaServer.Ref

open MediaServer.Lib

/-- Where a handler of a registration message stands. -/
inductive RegistPc where
  | start (m : JsonParser)
  | send
  | spawn

/-- The pod, and whether `SetSendMessageHandler` has run. -/
structure RegistPod where
  pod : Pod
  started : Bool

/-- One block of a handler. The send takes a loop to be carried out, so a
thread cannot do it alone. -/
def RegistPod.exec (k : RegistPc) (l : RegistPod) :
    Option (RegistPod × Option RegistPc) :=
  let p := l.pod
  match k with
  | .start m =>
      match command m with
      | some .podRegist =>
          if getIntValue m .code = none then
            some ({ l with pod := p.throw }, none)
          else if p.registAccepts m then
            some ({ l with pod := p.registSet m }, some .send)
          else some (l, none)
      | some .podRegistNow =>
          if p.regist then
            some ({ l with pod := { p with regist := false } }, some .spawn)
          else some (l, none)
      | _ => none
  | .send => none
  | .spawn => some ({ l with pod := { p with loops := p.loops + 1 } }, none)

abbrev RegistSched := Threads RegistPod RegistPc

/-- The handler is set, a message arrives, a handler runs its next block, a
loop's ticker fires, or a loop takes the value that thread `i` sends. -/
inductive RegistSched.Act where
  | setSendMessageHandler
  | receive (m : JsonParser)
  | turn (i : Nat)
  | tick (env : Env)
  | stop (i : Nat)

namespace RegistSched

def init (conf : Config) : RegistSched := ⟨⟨Pod.createRoomMgr conf, false⟩, []⟩

def setPod (t : RegistSched) (p : Pod) : RegistSched :=
  { t with shared := { t.shared with pod := p } }

/-- The loop that takes the value and the handler that sent it both return. -/
def stop (i : Nat) (t : RegistSched) : Option RegistSched :=
  let p := t.shared.pod
  match t.threads[i]? with
  | some .send =>
      if 0 < p.loops then
        some (t.resume i
          { t.shared with pod := { p with loops := p.loops - 1 } } none)
      else none
  | _ => none

def step (a : Act) (t : RegistSched) : Option RegistSched :=
  let p := t.shared.pod
  if p.fatal then none
  else
    match a with
    | .setSendMessageHandler =>
        some { t with shared := ⟨p.setSendMessageHandler, true⟩ }
    | .receive m =>
        if command m = some .podRegist ∨ command m = some .podRegistNow then
          some (t.start (.start m))
        else none
    | .turn i => t.turn RegistPod.exec i
    | .tick env =>
        if 0 < p.loops then some (t.setPod (p.registTick env)) else none
    | .stop i => t.stop i

end RegistSched

end MediaServer.Ref
