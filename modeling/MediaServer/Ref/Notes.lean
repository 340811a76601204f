import MediaServer.Ref.State

/-!
# What a pod tells about users and streams

Of everything a pod sends, six messages are about a user or a stream of a
room: `pub` and `unpub` to a client, `unpush` and `leaveroom` to the load
balancer, `fakepublish` and `fakeunpublish` to all other pods. `Event.note`
reads them back from the log by their fields.

A refusal repeats the command of the message it answers, which a client may
have called `pub`; it does not name a room, and the notes do.
-/

namespace MediaServer.Ref

open MediaServer.Lib

inductive Note where
  | pub (topic rid sid pid : String)
  | unpub (topic rid sid pid : String)
  | unpush (rid sid pid : String)
  | leaveRoom (rid sid : String)
  | fakePublish (rid sid pid : String)
  | fakeUnpublish (rid sid pid : String)
  deriving DecidableEq, Repr

/-- The note that a message to a client, to the load balancer or to all pods
makes, if it names a room. -/
def Event.note : Event → Option Note
  | .toClient topic m =>
      if (m.lookup .roomId).isNone then none
      else match command m with
        | some .pub => some (.pub topic (getValue m .roomId)
            (getValue m .sessID) (getValue m .peerID))
        | some .unpub => some (.unpub topic (getValue m .roomId)
            (getValue m .sessID) (getValue m .peerID))
        | _ => none
  | .toLB m =>
      if (m.lookup .roomId).isNone then none
      else match command m with
        | some .podReleasePublish => some (.unpush (getValue m .roomId)
            (getValue m .sessID) (getValue m .peerID))
        | some .podLeaveRoom => some (.leaveRoom (getValue m .roomId)
            (getValue m .sessID))
        | _ => none
  | .broadcastCrossCluster m =>
      match command m with
      | some .fakePublish => some (.fakePublish (getValue m .roomId)
          (getValue m .sessID) (getValue m .peerID))
      | some .fakeUnpublish => some (.fakeUnpublish (getValue m .roomId)
          (getValue m .sessID) (getValue m .peerID))
      | _ => none
  | _ => none

/-- All that the pod has told so far. -/
def Pod.notes (p : Pod) : List Note := p.log.filterMap Event.note

end MediaServer.Ref
