import MediaServer.Proofs.Effects

/-!
# Messages of someone who is not logged in

A room hands `heartbeat`, `publish`, `offer` and `stoppush` to the session
stored under the sender's id, and `sub`, `stopsub` and `answer` to the one
stored under the id of the publishing user. Neither look-up asks whether the
sender is logged in here: the first finds the stand-in of a user of another
pod as well, and the second does not look for the sender at all.

So what protects a room from a stranger is only that there is nothing to find.
`Refused` says what that means for each of the seven commands, and it is
exactly the condition under which a stranger's message leaves the room alone.
-/

namespace MediaServer.Ref

open MediaServer.Lib

variable {p q : Pod} {s : SessRef} {r : RoomRef} {u k : String}
variable {env : Env} {m : JsonParser} {x : PeerRef}

/-- The commands of the clients that a session handles. -/
def Cmd.ofClient : Cmd → Bool
  | .heartbeat | .push | .offer | .stopPush | .sub | .stopSub | .answer => true
  | _ => false

/-- The sender has no origin session in the room. -/
def Stranger (p : Pod) (r : RoomRef) (m : JsonParser) : Prop :=
  ∀ s ∈ (p.room r).sessions.lookup (getValue m .sessID),
    (p.sess s).origin = false

/-- The pod goes on, and the sessions of the room, their publishers and their
subscribers are what they were. -/
structure Untouched (r : RoomRef) (p q : Pod) : Prop where
  fatal : q.fatal = false
  sessions : (q.room r).sessions = (p.room r).sessions
  sess : ∀ u s, (p.room r).sessions.lookup u = some s → q.sess s = p.sess s
  peer : ∀ u s role k x, (p.room r).sessions.lookup u = some s →
    p.entry role s k = some x → q.peer x = p.peer x

/-- So they are after the message is handled, and after the calls that it
spawned have run. -/
def LeavesAlone (env : Env) (r : RoomRef) (m : JsonParser) (p : Pod) : Prop :=
  Untouched r p (p.roomHandleMessage env r m) ∧
    ∀ g ∈ (p.roomHandleMessage env r m).pending.drop p.pending.length,
      Untouched r p ((p.roomHandleMessage env r m).runGoroutine env g)

/-- The session has nothing that the message could change. -/
def HasNothing (p : Pod) (s : SessRef) (m : JsonParser) : Prop :=
  match command m with
  | some .offer | some .stopPush | some .sub =>
      (p.sess s).publishers.lookup (getValue m .peerID) = none
  | some .stopSub | some .answer =>
      (p.sess s).subscribers.lookup (subKey (getValue m .sessID)
        (getValue m .srcSessID) (getValue m .peerID)) = none
  | _ => False

/-- The session that the message is routed to is missing, or has nothing. -/
def Refused (p : Pod) (r : RoomRef) (m : JsonParser) : Prop :=
  ∀ s ∈ (p.room r).sessions.lookup (route m), HasNothing p s m

/-! ## A message that finds nothing -/

theorem Spoke.untouched (h : Spoke p q) (hf : p.fatal = false) :
    Untouched r p q where
  fatal := by rw [h.fatal]; exact hf
  sessions := by rw [h.room]
  sess _ s _ := h.sess s
  peer _ _ _ _ x _ _ := h.peer x

theorem Spoke.leavesAlone (h : Spoke p (p.roomHandleMessage env r m))
    (hf : p.fatal = false) : LeavesAlone env r m p := by
  refine ⟨h.untouched hf, fun g hg => ?_⟩
  rw [h.pending, List.drop_length] at hg
  cases hg

theorem section_spoke {f : Pod → Pod} {mu : Mutex}
    (hf : Spoke (p.rlock mu) (f (p.rlock mu))) :
    Spoke p ((f (p.rlock mu)).runlock mu) :=
  ((p.emit_spoke _).trans hf).trans (Pod.emit_spoke _ _)

/-- The session answers that it has no such peer, or nothing. -/
theorem sessionHandleMessage_spoke (href : HasNothing p s m) :
    Spoke p (p.sessionHandleMessage env s m) := by
  unfold HasNothing at href
  unfold Pod.sessionHandleMessage
  split at href
  · next hc =>
      simp only [hc, Pod.handleOffer, Pod.rlock, Pod.emit_sess, href]
      exact section_spoke (Pod.emit_spoke _ _)
  · next hc =>
      simp only [hc, Pod.handleStopPush, href]
      exact .refl p
  · next hc =>
      simp only [hc, Pod.handleSub, Pod.subscribe, href, if_true]
      exact Pod.emit_spoke _ _
  · next hc =>
      simp only [hc, Pod.handleStopSub, Pod.rlock, Pod.emit_sess, href]
      exact section_spoke (f := fun p => p) (.refl _)
  · next hc =>
      simp only [hc, Pod.handleAnswer, Pod.toSubscriber, Pod.rlock,
        Pod.emit_sess, href]
      exact section_spoke (Pod.emit_spoke _ _)
  · exact href.elim

/-- A client's message goes to the session its route leads to; without one,
the room only answers. -/
theorem roomHandleMessage_ofClient (env : Env)
    (hc : ∃ c ∈ command m, c.ofClient = true) :
    ∃ e, p.roomHandleMessage env r m =
      match (p.room r).sessions.lookup (route m) with
      | some s => p.sessionHandleMessage env s m
      | none => p.emit e := by
  obtain ⟨c, hc, hcl⟩ := hc
  have hc : command m = some c := hc
  cases c with
  | heartbeat | push | offer | stopPush =>
      have hroute : route m = getValue m .sessID := by simp [route, hc]
      rw [hroute]
      simp only [Pod.roomHandleMessage, Pod.toSession, hc]
      exact ⟨_, rfl⟩
  | sub | stopSub | answer =>
      have hroute : route m = getValue m .srcSessID := by simp [route, hc]
      rw [hroute]
      simp only [Pod.roomHandleMessage, Pod.toSession, hc]
      exact ⟨_, rfl⟩
  | _ => cases hcl

theorem Refused.spoke (href : Refused p r m)
    (hc : ∃ c ∈ command m, c.ofClient = true) :
    Spoke p (p.roomHandleMessage env r m) := by
  obtain ⟨e, heq⟩ := roomHandleMessage_ofClient (p := p) (r := r) env hc
  rw [heq]
  split
  · next s hs => exact sessionHandleMessage_spoke (href s hs)
  · exact p.emit_spoke e

/-! ## A message that finds something -/

theorem Untouched.entry {role : Role} (h : Untouched r p q)
    (hs : (p.room r).sessions.lookup u = some s) :
    q.entry role s k = p.entry role s k := by
  rw [Pod.entry, h.sess u s hs, Pod.entry]

/-- An entry that refers to a new peer was not there. -/
theorem not_untouched_of_new (role : Role) (k : String) (hp : Placed p)
    (hs : (p.room r).sessions.lookup u = some s)
    (hnew : q.entry role s k = some p.peerHeap.next) : ¬Untouched r p q := by
  intro h
  rw [h.entry hs] at hnew
  exact Nat.lt_irrefl _ (hp role s k _ hnew).1

/-- Nor is an entry left alone that is gone. -/
theorem not_untouched_of_gone {role : Role}
    (hs : (p.room r).sessions.lookup u = some s)
    (hold : p.entry role s k ≠ none) (hgone : q.entry role s k = none) :
    ¬Untouched r p q := by
  intro h
  rw [h.entry hs] at hgone
  exact hold hgone

theorem heartbeat_touches (hs : (p.room r).sessions.lookup u = some s) :
    ¬Untouched r p (p.setSess s fun t =>
      { t with alivetime := (p.sess s).alivetime + 1 }) := by
  intro h
  have hsess := h.sess u s hs
  rw [Pod.setSess_sess, if_pos rfl] at hsess
  have htime := congrArg Session.alivetime hsess
  dsimp only at htime
  omega

theorem handlePush_touches (hp : PodOk p)
    (hs : (p.room r).sessions.lookup u = some s) :
    ¬Untouched r p (p.handlePush Env.calm s m) := by
  refine not_untouched_of_new .publisher (getValue m .peerID) hp.placed hs ?_
  have hrem := retirePublisher_removes hp.placed s (getValue m .peerID)
  unfold Pod.handlePush
  dsimp only
  rw [if_pos (show Env.calm.createOk = true from rfl), Pod.answerPush,
    (Pod.emit_quiet _ _).entry, Pod.insertPublisher_entry,
    if_pos ⟨rfl, rfl, rfl⟩]
  exact congrArg some hrem.peerNext

theorem handleStopPush_touches (env : Env)
    (hx : (p.sess s).publishers.lookup (getValue m .peerID) = some x) :
    ¬Untouched r p (p.handleStopPush env s m) := by
  intro h
  have hf := h.fatal
  simp only [Pod.handleStopPush, hx, Pod.stopPublisher,
    answerStopPush_throw] at hf
  cases hf

/-- The answer to the offer becomes the local description. -/
theorem handleOffer_touches (hp : Ready p) (hc : command m = some .offer)
    (hs : (p.room r).sessions.lookup u = some s)
    (hx : (p.sess s).publishers.lookup (getValue m .peerID) = some x) :
    ∃ env, ¬Untouched r p (p.handleOffer env s m) := by
  have hopen : (p.peer x).closed = 0 := hp.lives.mapped x ⟨.publisher, s, _, hx⟩
  obtain ⟨sdp, hsdp⟩ : ∃ sdp : Sdp, (p.peer x).localDesc ≠ some sdp := by
    cases hd : (p.peer x).localDesc with
    | none => exact ⟨⟨"", []⟩, nofun⟩
    | some d =>
        refine ⟨⟨d.text, "audio" :: d.media⟩, fun h => ?_⟩
        have hmedia := congrArg (·.media.length) (Option.some.inj h)
        simp at hmedia
  refine ⟨{ Env.calm with sdp := sdp }, fun h => hsdp ?_⟩
  rw [← h.peer u s .publisher _ x hs hx]
  simp only [Pod.handleOffer, Pod.rlock, Pod.emit_sess, hx, Pod.runlock,
    Pod.emit_peer, Pod.peerHandleMessage, hc, Pod.handleRemoteOffer,
    Pod.answerTo, hopen, Env.calm, and_self, if_true,
    Pod.setCachedCandidates, Pod.setPeer_peer]

/-- An outstanding offer is outstanding no longer; without one, pion refuses
the answer and the server is gone. -/
theorem handleAnswer_touches (hp : Ready p) (hc : command m = some .answer)
    (hs : (p.room r).sessions.lookup u = some s)
    (hx : (p.sess s).subscribers.lookup (subKey (getValue m .sessID)
      (getValue m .srcSessID) (getValue m .peerID)) = some x) :
    ¬Untouched r p (p.handleAnswer Env.calm s m) := by
  intro h
  have hopen : (p.peer x).closed = 0 :=
    hp.lives.mapped x ⟨.subscriber, s, _, hx⟩
  cases ho : (p.peer x).haveLocalOffer with
  | true =>
      have hpeer := congrArg (·.haveLocalOffer)
        (h.peer u s .subscriber _ x hs hx)
      simp [Pod.handleAnswer, Pod.toSubscriber, Pod.rlock, hx, Pod.runlock,
        Pod.peerHandleMessage, hc, Pod.handleRemoteAnswer, hopen, ho,
        Env.calm, Pod.setCachedCandidates, Pod.setPeer_peer] at hpeer
  | false =>
      have hf := h.fatal
      simp [Pod.handleAnswer, Pod.toSubscriber, Pod.rlock, hx, Pod.runlock,
        Pod.peerHandleMessage, hc, Pod.handleRemoteAnswer, ho,
        Pod.throw] at hf

theorem handleSub_touches (hp : PodOk p)
    (hs : (p.room r).sessions.lookup u = some s)
    (hx : (p.sess s).publishers.lookup (getValue m .peerID) = some x) :
    ¬Untouched r p (p.handleSub Env.calm s m) := by
  refine not_untouched_of_new .subscriber (subKey (getValue m .sessID)
    (getValue m .srcSessID) (getValue m .peerID)) hp.placed hs ?_
  have hrem := makeWay_removes hp.placed s (getValue m .peerID)
    (subKey (getValue m .sessID) (getValue m .srcSessID) (getValue m .peerID))
  generalize h : p.handleSub Env.calm s m = q
  obtain ⟨hnone, -⟩ | ⟨-, -, rfl⟩ | ⟨-, hfail, -⟩ := Pod.subscribe_cases h
  · exact absurd (hnone.symm.trans hx) nofun
  · rw [(Pod.peerHandleMessage_quiet _ _ m _).entry,
      Pod.insertSubscriber_entry, if_pos ⟨rfl, rfl, rfl⟩, hrem.peerNext]
  · cases hfail

/-- `stopsub` spawns the release of the subscriber, which removes it. -/
theorem handleStopSub_touches (env : Env) (hp : PodOk p)
    (hs : (p.room r).sessions.lookup u = some s)
    (hx : (p.sess s).subscribers.lookup (subKey (getValue m .sessID)
      (getValue m .srcSessID) (getValue m .peerID)) = some x) :
    ∃ g ∈ (p.handleStopSub s m).pending.drop p.pending.length,
      ¬Untouched r p ((p.handleStopSub s m).runGoroutine env g) := by
  have hasks := Pod.handleStopSub_asks s m p
  refine ⟨.releaseSubscriberPeer s (getValue m .sessID)
    (getValue m .srcSessID) (getValue m .peerID) x, ?_, ?_⟩
  · simp [Pod.handleStopSub, Pod.rlock, Pod.runlock, hx, Pod.go]
  · exact not_untouched_of_gone hs
      (by rw [show p.entry .subscriber s _ = _ from hx]
          exact Option.some_ne_none x)
      (Pod.releaseSubscriberPeer_removes (hp.placed.of_asks hasks) _ _ _).free

/-- Whatever a session has for the message can be changed by it. -/
theorem touched_of_found (hp : Ready p)
    (hc : ∃ c ∈ command m, c.ofClient = true)
    (hs : (p.room r).sessions.lookup (route m) = some s)
    (hfound : ¬HasNothing p s m) : ∃ env, ¬LeavesAlone env r m p := by
  have hto : ∀ env, p.roomHandleMessage env r m =
      p.sessionHandleMessage env s m := by
    intro env
    obtain ⟨e, heq⟩ := roomHandleMessage_ofClient (p := p) (r := r) env hc
    rw [heq, hs]
  have hseen : ∀ {β : Type} {o : Option β}, ¬o = none → ∃ b, o = some b :=
    Option.ne_none_iff_exists'.mp
  obtain ⟨c, hc, hcl⟩ := hc
  have hc : command m = some c := hc
  unfold HasNothing at hfound
  unfold LeavesAlone
  simp only [hto, Pod.sessionHandleMessage, hc]
  simp only [hc] at hfound
  cases c with
  | heartbeat =>
      exact ⟨{ Env.calm with now := (p.sess s).alivetime + 1 },
        fun h => heartbeat_touches hs h.1⟩
  | push => exact ⟨Env.calm, fun h => handlePush_touches hp.toPodOk hs h.1⟩
  | offer =>
      obtain ⟨x, hx⟩ := hseen hfound
      obtain ⟨env, henv⟩ := handleOffer_touches hp hc hs hx
      exact ⟨env, fun h => henv h.1⟩
  | stopPush =>
      obtain ⟨x, hx⟩ := hseen hfound
      exact ⟨Env.calm, fun h => handleStopPush_touches _ hx h.1⟩
  | sub =>
      obtain ⟨x, hx⟩ := hseen hfound
      exact ⟨Env.calm, fun h => handleSub_touches hp.toPodOk hs hx h.1⟩
  | stopSub =>
      obtain ⟨x, hx⟩ := hseen hfound
      obtain ⟨g, hg, htouch⟩ := handleStopSub_touches Env.calm hp.toPodOk hs hx
      exact ⟨Env.calm, fun h => htouch (h.2 g hg)⟩
  | answer =>
      obtain ⟨x, hx⟩ := hseen hfound
      exact ⟨Env.calm, fun h => handleAnswer_touches hp hc hs hx h.1⟩
  | _ => cases hcl

/-! ## The condition -/

/-- A client's message from someone who is not logged in leaves a room of a
reachable state alone, whatever pion and the clock do, exactly if the session
it is routed to is missing or has nothing that it could change. -/
theorem leavesAlone_iff_refused {conf : Config} {rid : String}
    (hr : Pod.Reachable conf p) (hf : p.fatal = false)
    (_ : p.rooms.lookup rid = some r)
    (hc : ∃ c ∈ command m, c.ofClient = true) (_ : Stranger p r m) :
    (∀ env, LeavesAlone env r m p) ↔ Refused p r m := by
  constructor
  · intro hall s hs
    by_contra hfound
    obtain ⟨env, htouch⟩ := touched_of_found (reachable_inOrder hr).ready hc hs
      hfound
    exact htouch (hall env)
  · intro href env
    exact (href.spoke hc).leavesAlone hf

/-- A user publishes a stream in the room. -/
def onAir : List (Env × Input) :=
  [(Env.calm, .setSendMessageHandler),
    (Env.calm, .message (Cmd.login.msg [(.roomId, "R"), (.sessID, "w")])),
    (Env.calm, .message (Cmd.push.msg
      [(.roomId, "R"), (.sessID, "w"), (.peerID, "1")])),
    (Env.calm, .message (Cmd.offer.msg
      [(.roomId, "R"), (.sessID, "w"), (.peerID, "1")]))]

/-- Somebody who never logged in subscribes to it. -/
def strangerSubs : JsonParser :=
  Cmd.sub.msg [(.roomId, "R"), (.sessID, "x"), (.srcSessID, "w"),
    (.peerID, "1")]

/-- They get their subscriber. -/
theorem stranger_subscribes :
    ∃ p, Pod.Reachable (Config.standalone "podA") p ∧ p.fatal = false ∧
      p.rooms.lookup "R" = some 0 ∧ Stranger p 0 strangerSubs ∧
      (p.room 0).sessions.lookup "x" = none ∧
      ¬LeavesAlone Env.calm 0 strangerSubs p := by
  have h : (run Pod.step onAir
      (Pod.createRoomMgr (Config.standalone "podA"))).map (fun p =>
        decide (p.fatal = false ∧ p.rooms.lookup "R" = some 0 ∧
          (p.room 0).sessions.lookup "x" = none ∧
          (p.room 0).sessions.lookup "w" = some 0 ∧
          p.entry .subscriber 0 (subKey "x" "w" "1") = none ∧
          (p.roomHandleMessage Env.calm 0 strangerSubs).entry .subscriber 0
            (subKey "x" "w" "1") = some 1)) = some true := by decide
  obtain ⟨p, hp, hfacts⟩ := Option.map_eq_some_iff.mp h
  obtain ⟨hf, hroom, hx, hw, hnone, hsome⟩ := of_decide_eq_true hfacts
  refine ⟨p, ⟨onAir, hp⟩, hf, hroom, fun s hs => ?_, hx, fun hleft => ?_⟩
  · rw [show getValue strangerSubs .sessID = "x" from rfl, hx] at hs
    cases hs
  · rw [hleft.1.entry hw, hnone] at hsome
    cases hsome

/-- Somebody who never logged in tries to publish. -/
def strangerPushes : JsonParser :=
  Cmd.push.msg [(.roomId, "R"), (.sessID, "x"), (.peerID, "1")]

theorem leavesAlone_iff_refused_push :
    ∃ p, Pod.Reachable (Config.standalone "podA") p ∧
      (p.room 0).sessions.lookup "w" = some 0 ∧
      ∀ env, LeavesAlone env 0 strangerPushes p := by
  have h : (run Pod.step onAir
      (Pod.createRoomMgr (Config.standalone "podA"))).map (fun p =>
        decide (p.fatal = false ∧ p.rooms.lookup "R" = some 0 ∧
          (p.room 0).sessions.lookup "x" = none ∧
          (p.room 0).sessions.lookup "w" = some 0)) = some true := by decide
  obtain ⟨p, hp, hfacts⟩ := Option.map_eq_some_iff.mp h
  obtain ⟨hf, hroom, hx, hw⟩ := of_decide_eq_true hfacts
  have hno : ∀ s, s ∉ (p.room 0).sessions.lookup "x" := by
    intro s hs
    rw [hx] at hs
    cases hs
  have hstranger : Stranger p 0 strangerPushes :=
    fun s hs => absurd hs (hno s)
  have href : Refused p 0 strangerPushes := fun s hs => absurd hs (hno s)
  exact ⟨p, ⟨onAir, hp⟩, hw, (leavesAlone_iff_refused ⟨onAir, hp⟩ hf hroom
    ⟨.push, rfl, rfl⟩ hstranger).mpr href⟩

end MediaServer.Ref
