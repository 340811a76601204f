import MediaServer.Proofs.Effects

/-!
# Subscribing before the offer

A publisher stands in its map from `publish` on. It gets a description only
when its `offer` is answered, and a stand-in's publisher when its `fakeoffer`
is. A `sub` or `fakesubscribe` copies the description of the publisher it finds
into the new subscriber, set or not, and the subscriber's first message reads
it: if it comes too early the server is gone.

The run here carries the publishers that were handed an offer. A server that
lives on has answered those, and a description that is set is never taken
back, so a subscription that comes after the offer finds one.
-/

namespace MediaServer.Ref

open MediaServer.Lib

variable {p q : Pod} {s : SessRef} {x : PeerRef} {m : JsonParser}
variable {a : Env × Input} {env : Env}

/-- The message asks for a stream. -/
def subscribes (m : JsonParser) : Bool :=
  command m = some .sub || command m = some .fakeSubscribe

/-- The publisher that the message finds under its peer id. -/
def Pod.publisherFor (p : Pod) (m : JsonParser) : Option PeerRef :=
  if p.regist then
    (p.seat (getValue m .roomId) (route m)).bind fun s =>
      (p.sess s).publishers.lookup (getValue m .peerID)
  else none

/-- The publisher that is handed the offer in the message. For a `fakeoffer` it
is a new one. -/
def Pod.offeredTo (env : Env) (m : JsonParser) (p : Pod) : Option PeerRef :=
  match command m with
  | some .offer => p.publisherFor m
  | some .fakeOffer =>
      if p.regist ∧ env.createOk ∧
          (p.seat (getValue m .roomId) (route m)).isSome then
        some p.peerHeap.next
      else none
  | _ => none

/-- A pod, and the publishers that were handed an offer. -/
structure Talks where
  pod : Pod
  offered : List PeerRef

namespace Talks

def init (conf : Config) : Talks := ⟨Pod.createRoomMgr conf, []⟩

def step (a : Env × Input) (w : Talks) : Option Talks :=
  (Pod.step a w.pod).map fun q =>
    ⟨q, w.offered ++ (a.2.msg?.bind fun m => w.pod.offeredTo a.1 m).toList⟩

/-- A subscription that finds a publisher comes after the publisher's offer. -/
def AfterOffer (w : Talks) (a : Env × Input) : Prop :=
  ∀ m ∈ a.2.msg?, subscribes m = true →
    ∀ x ∈ w.pod.publisherFor m, x ∈ w.offered

instance (w : Talks) (a : Env × Input) : Decidable (w.AfterOffer a) :=
  inferInstanceAs (Decidable (∀ _ ∈ _, _ → _))

/-- A subscription that finds a publisher and can make a peer makes one that
has the publisher's description. -/
def Described (w : Talks) (a : Env × Input) (w' : Talks) : Prop :=
  ∀ m ∈ a.2.msg?, subscribes m = true →
    (w.pod.publisherFor m).isSome = true → a.1.createOk = true →
    (w'.pod.peer w.pod.peerHeap.next).publishersdp ≠ none

end Talks

/-! ## Offers -/

theorem entry_of_publisherFor (h : p.publisherFor m = some x) :
    p.regist = true ∧ ∃ s, p.seat (getValue m .roomId) (route m) = some s ∧
      p.entry .publisher s (getValue m .peerID) = some x := by
  unfold Pod.publisherFor at h
  split at h
  · next hreg => exact ⟨hreg, Option.bind_eq_some_iff.mp h⟩
  · cases h

/-- The answer is set, or the server is gone. -/
theorem answerTo_desc {send : Pod → Pod} (hsend : ∀ p, Spoke p (send p)) :
    (p.answerTo env x send).fatal = true ∨
      ((p.answerTo env x send).peer x).localDesc ≠ none := by
  unfold Pod.answerTo
  split
  · right
    rw [(hsend _).peer, Pod.setCachedCandidates, Pod.setPeer_peer, if_pos rfl,
      Pod.setPeer_peer, if_pos rfl]
    exact nofun
  · exact .inl rfl

theorem peerHandleMessage_desc
    (hc : command m = some .offer ∨ command m = some .fakeOffer) :
    (p.peerHandleMessage env x m).fatal = true ∨
      ((p.peerHandleMessage env x m).peer x).localDesc ≠ none := by
  rcases hc with hc | hc
  · simp only [Pod.peerHandleMessage, hc]
    exact answerTo_desc fun p => p.emit_spoke _
  · simp only [Pod.peerHandleMessage, hc]
    exact answerTo_desc fun p => p.emit_spoke _

theorem handleOffer_desc (hc : command m = some .offer)
    (hx : (p.sess s).publishers.lookup (getValue m .peerID) = some x) :
    (p.handleOffer env s m).fatal = true ∨
      ((p.handleOffer env s m).peer x).localDesc ≠ none := by
  have hlook : ((p.rlock (.subs s)).sess s).publishers.lookup
      (getValue m .peerID) = some x := by
    rw [Pod.rlock, Pod.emit_sess]; exact hx
  simp only [Pod.handleOffer, hlook, Pod.runlock, Pod.emit_fatal, Pod.emit_peer]
  exact peerHandleMessage_desc (.inl hc)

theorem handleFakeOfferMsg_desc (hp : PodOk p) (hok : env.createOk = true)
    (hc : command m = some .fakeOffer) :
    (p.handleFakeOfferMsg env s m).fatal = true ∨
      ((p.handleFakeOfferMsg env s m).peer p.peerHeap.next).localDesc ≠
        none := by
  have hnext := (retirePublisher_removes hp.placed s
    (getValue m .peerID)).peerNext
  unfold Pod.handleFakeOfferMsg
  dsimp only
  rw [if_pos hok, ← hnext]
  exact peerHandleMessage_desc (.inr hc)

theorem handleFakeOfferMsg_next (hp : PodOk p) (hok : env.createOk = true) :
    p.peerHeap.next < (p.handleFakeOfferMsg env s m).peerHeap.next := by
  have hnext := (retirePublisher_removes hp.placed s
    (getValue m .peerID)).peerNext
  unfold Pod.handleFakeOfferMsg
  dsimp only
  rw [if_pos hok, (Pod.peerHandleMessage_quiet _ _ _ _).peerNext, ← hnext,
    Pod.insertPublisher_peerNext]
  exact Nat.lt_succ_self _

/-- Whoever is handed an offer has a description afterwards. -/
theorem step_offered (hp : InOrder p) (hs : Pod.step a p = some q)
    (hm : a.2 = .message m) (hx : p.offeredTo a.1 m = some x) :
    x < q.peerHeap.next ∧
      (q.fatal = true ∨ (q.peer x).localDesc ≠ none) := by
  unfold Pod.offeredTo at hx
  split at hx
  · next hc =>
      obtain ⟨hreg, s, hseat, hentry⟩ := entry_of_publisherFor hx
      have hq := step_routed hs hm hc rfl hreg hseat
      have hlt := (hp.placed _ _ _ _ hentry).1
      refine ⟨Nat.lt_of_lt_of_le hlt (step_after hp hs).peerNext, ?_⟩
      rw [hq]
      simp only [Pod.sessionHandleMessage, hc]
      exact handleOffer_desc hc hentry
  · next hc =>
      split at hx
      · next hfound =>
          cases hx
          obtain ⟨hreg, hok, hseat⟩ := hfound
          obtain ⟨s, hseat⟩ := Option.isSome_iff_exists.mp hseat
          have hq := step_routed hs hm hc rfl hreg hseat
          rw [hq]
          simp only [Pod.sessionHandleMessage, hc]
          exact ⟨handleFakeOfferMsg_next hp.toPodOk hok,
            handleFakeOfferMsg_desc hp.toPodOk hok hc⟩
      · cases hx
  · cases hx

theorem step_desc (hp : InOrder p) (hs : Pod.step a p = some q)
    (hx : x < p.peerHeap.next) (hd : (p.peer x).localDesc ≠ none) :
    (q.peer x).localDesc ≠ none :=
  (step_induction (P := fun t => (t.peer x).localDesc ≠ none) hp hs hd
    fun _ hsound hafter _ hmove ht => hmove.desc hsound.toPodOk
      (Nat.lt_of_lt_of_le hx hafter.peerNext) ht).1

/-! ## Subscriptions -/

/-- The new subscriber gets the description of the publisher. -/
theorem subscribe_publishersdp {sid : String} {isFake : Bool}
    {notFound failed : Pod → Pod} (hp : Ready p) (hok : env.createOk = true)
    (hx : p.entry .publisher s (getValue m .peerID) = some x) :
    ((p.subscribe env s m sid isFake notFound failed).peer
      p.peerHeap.next).publishersdp = (p.peer x).localDesc := by
  have hrem := makeWay_removes hp.placed s (getValue m .peerID)
    (subKey sid (getValue m .srcSessID) (getValue m .peerID))
  rw [← hrem.peerNext]
  generalize h : p.subscribe env s m sid isFake notFound failed = q
  obtain ⟨hnone, -⟩ | ⟨-, -, rfl⟩ | ⟨-, hfail, -⟩ := Pod.subscribe_cases h
  · exact absurd (hnone.symm.trans hx) nofun
  · rw [readPublisher_found hp hx]
    refine (congrArg (·.2.2.2.2.2.2)
      ((Pod.peerHandleMessage_quiet env _ m _).peerIdent _)).trans ?_
    rw [Pod.insertSubscriber_peer, if_pos rfl]
    rfl
  · exact absurd (hfail.symm.trans hok) nofun

theorem step_subscribed (hp : InOrder p) (hs : Pod.step a p = some q)
    (hm : a.2 = .message m) (hsub : subscribes m = true)
    (hok : a.1.createOk = true) (hx : p.publisherFor m = some x) :
    (q.peer p.peerHeap.next).publishersdp = (p.peer x).localDesc := by
  obtain ⟨hreg, s, hseat, hentry⟩ := entry_of_publisherFor hx
  have hc : command m = some .sub ∨ command m = some .fakeSubscribe := by
    simpa [subscribes] using hsub
  rcases hc with hc | hc
  · rw [step_routed hs hm hc rfl hreg hseat]
    simp only [Pod.sessionHandleMessage, hc]
    exact subscribe_publishersdp hp.ready hok hentry
  · rw [step_routed hs hm hc rfl hreg hseat]
    simp only [Pod.sessionHandleMessage, hc]
    exact subscribe_publishersdp hp.ready hok hentry

/-! ## Runs -/

namespace Talks

/-- The invariant: whoever was handed an offer has a description. -/
structure Ok (w : Talks) : Prop where
  inOrder : InOrder w.pod
  known : ∀ x ∈ w.offered, x < w.pod.peerHeap.next
  desc : w.pod.fatal = false → ∀ x ∈ w.offered,
    (w.pod.peer x).localDesc ≠ none

variable {w w' : Talks}

theorem init_ok (conf : Config) : Ok (init conf) :=
  ⟨createRoomMgr_inOrder conf, nofun, fun _ => nofun⟩

theorem step_ok (h : Ok w) (hs : step a w = some w') : Ok w' := by
  obtain ⟨q, hq, rfl⟩ := Option.map_eq_some_iff.mp hs
  have hf := step_fatal hq
  have hnew : ∀ x ∈ (a.2.msg?.bind fun m => w.pod.offeredTo a.1 m).toList,
      x < q.peerHeap.next ∧
        (q.fatal = true ∨ (q.peer x).localDesc ≠ none) := by
    intro x hx
    obtain ⟨m, hm, hx⟩ := Option.bind_eq_some_iff.mp (Option.mem_toList.mp hx)
    exact step_offered h.inOrder hq (Input.msg?_eq_some hm) hx
  refine ⟨step_inOrder h.inOrder hq, fun x hx => ?_, fun hlive x hx => ?_⟩
  · rcases List.mem_append.mp hx with hold | hx
    · exact Nat.lt_of_lt_of_le (h.known x hold)
        (step_after h.inOrder hq).peerNext
    · exact (hnew x hx).1
  · rcases List.mem_append.mp hx with hold | hx
    · exact step_desc h.inOrder hq (h.known x hold) (h.desc hf x hold)
    · refine (hnew x hx).2.resolve_left fun hdead => ?_
      rw [show q.fatal = false from hlive] at hdead
      cases hdead

theorem step_described (h : Ok w) (ha : w.AfterOffer a)
    (hs : step a w = some w') : Described w a w' := by
  obtain ⟨q, hq, rfl⟩ := Option.map_eq_some_iff.mp hs
  intro m hm hsub hfound hok
  obtain ⟨x, hx⟩ := Option.isSome_iff_exists.mp hfound
  rw [step_subscribed h.inOrder hq (Input.msg?_eq_some hm) hsub hok hx]
  exact h.desc (step_fatal hq) x (ha m hm hsub x hx)

/-- Every subscriber has the description of its publisher, in every run in
which the subscriptions come after the offers. -/
theorem described_of_afterOffer {conf : Config} {as : List (Env × Input)}
    (h : Guarded step AfterOffer as (init conf)) :
    AlwaysStep step Described as (init conf) :=
  alwaysStep_of_guarded (P := Ok) (fun a _ _ hok ha hs =>
    ⟨step_ok hok hs, step_described (a := a) hok ha hs⟩) h (init_ok conf)

/-- User `u` publishes stream 1. -/
def pushed : List (Env × Input) :=
  [(Env.calm, .setSendMessageHandler),
    (Env.calm, .message (Cmd.login.msg [(.roomId, "R"), (.sessID, "u")])),
    (Env.calm, .message (Cmd.login.msg [(.roomId, "R"), (.sessID, "v")])),
    (Env.calm, .message (Cmd.push.msg
      [(.roomId, "R"), (.sessID, "u"), (.peerID, "1")]))]

def offersFirst : Env × Input :=
  (Env.calm, .message (Cmd.offer.msg
    [(.roomId, "R"), (.sessID, "u"), (.peerID, "1")]))

def subscribesTo : JsonParser :=
  Cmd.sub.msg [(.roomId, "R"), (.sessID, "v"), (.srcSessID, "u"),
    (.peerID, "1")]

/-- Stream 1 is up and stream 2 is published. Another pod creates the room, and
is told of both. -/
def announced : List (Env × Input) :=
  pushed ++ [offersFirst, (Env.calm, .ice 0 .connected),
    (Env.calm, .message (Cmd.push.msg
      [(.roomId, "R"), (.sessID, "u"), (.peerID, "2")])),
    (Env.calm, .message (Cmd.roomCreated.msg [(.clusterId, "c1"),
      (.podId, "podB"), (.roomId, "R"), (.sessID, "w")]))]

def asksForSecond : JsonParser :=
  Cmd.fakeSubscribe.msg [(.clusterId, "c1"), (.podId, "podB"), (.roomId, "R"),
    (.sessID, "u"), (.srcSessID, "u"), (.peerID, "2")]

/-- The message finds a publisher, and the subscriber that it makes has no
description; with that the server is gone. -/
def crashes (m : JsonParser) (w : Talks) : Bool :=
  subscribes m && (w.pod.publisherFor m).isSome &&
    (step (Env.calm, .message m) w).any fun w' =>
      w'.pod.fatal && (w'.pod.peer w.pod.peerHeap.next).publishersdp.isNone

theorem not_described_of_crashes {w : Talks} (h : w.crashes m = true) :
    ∃ w', step (Env.calm, .message m) w = some w' ∧ w'.pod.fatal = true ∧
      ¬Described w (Env.calm, .message m) w' := by
  simp only [crashes, Bool.and_eq_true, Option.any_eq_true] at h
  obtain ⟨⟨hsub, hfound⟩, w', hs, hfatal, hnone⟩ := h
  refine ⟨w', hs, hfatal, fun hdesc => ?_⟩
  exact hdesc m rfl hsub hfound rfl (Option.isNone_iff_eq_none.mp hnone)

/-- Two early subscriptions: by a user before the publisher's offer, and by a
pod that was told of a stream without one. -/
theorem early_subscriptions_crash :
    (∃ w w', run step pushed (init (Config.standalone "podA")) = some w ∧
      step (Env.calm, .message subscribesTo) w = some w' ∧
      w'.pod.fatal = true ∧
      ¬Described w (Env.calm, .message subscribesTo) w') ∧
    ∃ w w', run step announced (init (Config.standalone "podA")) = some w ∧
      step (Env.calm, .message asksForSecond) w = some w' ∧
      w'.pod.fatal = true ∧
      ¬Described w (Env.calm, .message asksForSecond) w' := by
  have hfirst : (run step pushed (init (Config.standalone "podA"))).map
      (crashes subscribesTo) = some true := by decide
  have hsecond : (run step announced (init (Config.standalone "podA"))).map
      (crashes asksForSecond) = some true := by decide
  obtain ⟨w₁, hw₁, hcrash₁⟩ := Option.map_eq_some_iff.mp hfirst
  obtain ⟨w₂, hw₂, hcrash₂⟩ := Option.map_eq_some_iff.mp hsecond
  obtain ⟨w₁', h₁⟩ := not_described_of_crashes hcrash₁
  obtain ⟨w₂', h₂⟩ := not_described_of_crashes hcrash₂
  exact ⟨⟨w₁, w₁', hw₁, h₁⟩, w₂, w₂', hw₂, h₂⟩

/-- The same subscription after the offer. -/
theorem described_offersFirst :
    let as := pushed ++ [offersFirst, (Env.calm, .message subscribesTo)]
    (run step as (init (Config.standalone "podA"))).map (fun w =>
      (w.pod.fatal, (w.pod.peer 1).publishersdp.isSome)) =
      some (false, true) ∧
    AlwaysStep step Described as (init (Config.standalone "podA")) :=
  ⟨by decide, described_of_afterOffer (by decide)⟩

end Talks

end MediaServer.Ref
