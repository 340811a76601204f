import MediaServer.Proofs.Effects

/-!
# What ends the process

The server has no `recover`: the first panic of a handler is the last thing
the process does. `Pod.crashes` is the list of the inputs at which one
happens, read off the state before the input, and `crashes_exactly` says that
the list is complete: nothing else that a reachable pod takes in ends it, and
everything on the list does. Media packets are left out of it, since writing
them to a track is pion's affair and the write may fail; and so are the
goroutines of the keyframe filter and of `CheckIceInfo`, which are machines of
their own.

Most handlers were shown to be `Calm` on the way to `step_moves`, and a calm
call ends alive. What is left are the few that hand something to pion, the
unlock of `stoppush` and the number in the reply of the load balancer.
-/

namespace MediaServer.Ref

open MediaServer.Lib

variable {p q t : Pod} {s : SessRef} {x : PeerRef} {r : RoomRef}
variable {env : Env} {j m : JsonParser}

/-! ## The list -/

/-- The peer panics at the message. A subscriber needs the description of its
publisher, pion takes an answer only for an outstanding offer, and a candidate
is kept for later until there is a remote description. -/
def Peer.trips (env : Env) (j : JsonParser) (t : Peer) : Bool :=
  match command j with
  | some .sub | some .fakeSubscribe => t.publishersdp.isNone || !env.pionOk
  | some .offer | some .fakeOffer => !env.pionOk
  | some .answer | some .fakeAnswer => !(t.haveLocalOffer && env.pionOk)
  | some .candidate | some .fakeCandidate =>
      t.setedRemoteDesc && !env.pionOk
  | _ => false

namespace Pod

/-- The session panics at the message. -/
def sessCrashes (p : Pod) (env : Env) (s : SessRef) (j : JsonParser) : Bool :=
  let publisher := p.entry .publisher s (getValue j .peerID)
  let subscriber := fun sid => p.entry .subscriber s
    (subKey sid (getValue j .srcSessID) (getValue j .peerID))
  match command j with
  | some .stopPush => publisher.isSome
  | some .sub | some .fakeSubscribe => publisher.any fun x =>
      env.createOk && ((p.peer x).localDesc.isNone || !env.pionOk)
  | some .offer => publisher.any fun x => (p.peer x).trips env j
  | some .fakeOffer => env.createOk && !env.pionOk
  | some .answer => (subscriber (getValue j .sessID)).any fun y =>
      (p.peer y).trips env j
  | some .fakeAnswer => (subscriber (getValue j .podId)).any fun y =>
      (p.peer y).trips env j
  | some .fakeCandidate => (p.sess s).origin &&
      (subscriber (getValue j .podId)).any fun y => (p.peer y).trips env j
  | _ => false

/-- The input, other than a packet, ends the process. -/
def crashes (p : Pod) (env : Env) : Input → Bool
  | .message m =>
      if command m = some .podRegist then (getIntValue m .code).isNone
      else p.regist && (p.seat (getValue m .roomId) (route m)).any fun s =>
        p.sessCrashes env s m
  | _ => false

end Pod

/-! ## How a call ends -/

/-- A call that finds the pod in order ends with the process dead or not. -/
def Fate (dead : Bool) (p q : Pod) : Prop :=
  Ready p → p.fatal = false → q.fatal = dead

/-- A bound that allows every move. -/
def Unbound : Act → Prop := fun _ => True

theorem Unbound.base (c : Option Cmd) : Base Unbound c :=
  ⟨trivial, trivial, fun _ _ => trivial⟩

theorem Unbound.touch (s : SessRef) : Touch Unbound s :=
  ⟨fun _ => trivial, fun _ _ => trivial, fun _ => trivial⟩

theorem Calm.fate {A : Act → Prop} (h : Calm A p q) : Fate false p q :=
  fun hp hf => (h hp hf).2.1

theorem Calm.trans_fate {A : Act → Prop} {dead : Bool} (h : Calm A p q)
    (h' : Fate dead q t) : Fate dead p t := by
  intro hp hf
  obtain ⟨-, hfq, hq⟩ := h hp hf
  exact h' hq hfq

namespace Fate

variable {dead : Bool}

theorem of (h : Ready p → Fate dead p q) : Fate dead p q :=
  fun hp hf => h hp hp hf

theorem still (h : Still p q) : Fate false p q :=
  (Calm.still (A := Unbound) h trivial).fate

/-- pion takes what it is handed, or the caller panics. -/
theorem ite {c : Prop} [Decidable c] (hc : decide c = !dead)
    (hq : q.fatal = p.fatal) : Fate dead p (if c then q else p.throw) := by
  intro _ hf
  cases dead with
  | true =>
      rw [if_neg (of_decide_eq_false hc)]
      rfl
  | false =>
      rw [if_pos (of_decide_eq_true hc), hq]
      exact hf

theorem emit (h : Fate dead p q) (e : Event) : Fate dead p (q.emit e) :=
  fun hp hf => Pod.emit_fatal.trans (h hp hf)

end Fate

/-! ## Peers -/

theorem offerTo_fate {send : Pod → Pod} (hopen : (p.peer x).closed = 0)
    (hsend : ∀ p, (send p).fatal = p.fatal) :
    Fate ((p.peer x).publishersdp.isNone || !env.pionOk) p
      (p.offerTo env x send) := by
  unfold Pod.offerTo
  cases (p.peer x).publishersdp with
  | none => exact fun _ _ => rfl
  | some psdp => exact .ite (by simp [hopen]) (hsend _)

theorem answerTo_fate {send : Pod → Pod} (hopen : (p.peer x).closed = 0)
    (hsend : ∀ p, (send p).fatal = p.fatal) :
    Fate (!env.pionOk) p (p.answerTo env x send) :=
  .ite (by simp [hopen]) (hsend _)

theorem handleRemoteAnswer_fate (hopen : (p.peer x).closed = 0) :
    Fate (!((p.peer x).haveLocalOffer && env.pionOk)) p
      (p.handleRemoteAnswer env x) :=
  .ite (by simp [hopen]) rfl

theorem handleRemoteCandidate_fate (hopen : (p.peer x).closed = 0) :
    Fate ((p.peer x).setedRemoteDesc && !env.pionOk) p
      (p.handleRemoteCandidate env x j) := by
  unfold Pod.handleRemoteCandidate
  cases (p.peer x).setedRemoteDesc with
  | false => exact fun _ hf => hf
  | true => exact .ite (by simp [hopen]) rfl

theorem peerHandleMessage_fate {t : Peer} (hx : p.peer x = t)
    (hopen : t.closed = 0) :
    Fate (t.trips env j) p (p.peerHandleMessage env x j) := by
  have hsend : ∀ (e : Pod → Event) (p : Pod), (p.emit (e p)).fatal = p.fatal :=
    fun _ _ => Pod.emit_fatal
  subst hx
  unfold Peer.trips Pod.peerHandleMessage
  cases command j with
  | none => exact (Calm.refl (A := Unbound) p).fate
  | some c =>
      cases c with
      | sub | fakeSubscribe => exact offerTo_fate hopen (hsend _)
      | offer | fakeOffer => exact answerTo_fate hopen (hsend _)
      | answer | fakeAnswer => exact handleRemoteAnswer_fate hopen
      | candidate | fakeCandidate => exact handleRemoteCandidate_fate hopen
      | _ => exact (Calm.refl (A := Unbound) p).fate

/-! ## Sessions -/

/-- A peer gets the message while the mutex of the subscribers is held. -/
theorem toPeer_fate (hopen : (p.peer x).closed = 0) :
    Fate ((p.peer x).trips env j) p
      (((p.rlock (.subs s)).peerHandleMessage env x j).runlock (.subs s)) :=
  ((Calm.still (A := Unbound) (p.rlock_still (.subs s)) trivial).trans_fate
    (peerHandleMessage_fate Pod.emit_peer hopen)).emit _

theorem handleOffer_fate :
    Fate ((p.entry .publisher s (getValue j .peerID)).any fun x =>
      (p.peer x).trips env j) p (p.handleOffer env s j) := by
  refine .of fun hp => ?_
  have hlook : p.entry .publisher s (getValue j .peerID) =
    ((p.rlock (.subs s)).sess s).publishers.lookup (getValue j .peerID) := by
      rw [Pod.rlock, Pod.emit_sess]
      rfl
  unfold Pod.handleOffer
  dsimp only
  rw [← hlook]
  cases hx : p.entry .publisher s (getValue j .peerID) with
  | none =>
      exact ((Fate.still (p.rlock_still (.subs s))).emit _).emit _
  | some x => exact toPeer_fate (hp.lives.mapped x ⟨_, _, _, hx⟩)

theorem toSubscriber_fate {sid : String} {notFound : Pod → Pod}
    (hn : ∀ p, (notFound p).fatal = p.fatal) :
    Fate ((p.entry .subscriber s (subKey sid (getValue j .srcSessID)
      (getValue j .peerID))).any fun y => (p.peer y).trips env j) p
      (p.toSubscriber env s j sid notFound) := by
  refine .of fun hp => ?_
  have hlook : ∀ k, p.entry .subscriber s k =
      ((p.rlock (.subs s)).sess s).subscribers.lookup k := fun k => by
    rw [Pod.rlock, Pod.emit_sess]
    rfl
  unfold Pod.toSubscriber
  dsimp only
  rw [← hlook]
  cases hy : p.entry .subscriber s (subKey sid (getValue j .srcSessID)
      (getValue j .peerID)) with
  | none =>
      have hfate : Fate false p (notFound (p.rlock (.subs s))) := fun _ hf =>
        ((hn _).trans Pod.emit_fatal).trans hf
      exact hfate.emit _
  | some y => exact toPeer_fate (hp.lives.mapped y ⟨_, _, _, hy⟩)

/-- The unlock at the end of the section is of the wrong kind. -/
theorem handleStopPush_fate :
    Fate (p.entry .publisher s (getValue j .peerID)).isSome p
      (p.handleStopPush env s j) := by
  intro hp hf
  unfold Pod.handleStopPush
  change _ = ((p.sess s).publishers.lookup (getValue j .peerID)).isSome
  dsimp only
  split
  · next x hx =>
      rw [Pod.stopPublisher, answerStopPush_throw, hx]
      rfl
  · next hno =>
      rw [hno]
      exact hf

theorem handleFakeOfferMsg_fate (hseat : Sits p s)
    (hc : command j = some .fakeOffer) :
    Fate (env.createOk && !env.pionOk) p (p.handleFakeOfferMsg env s j) := by
  have hb := Unbound.base (command j)
  have ht := Unbound.touch s
  unfold Pod.handleFakeOfferMsg
  dsimp only
  cases env.createOk with
  | true =>
      have htrips : (createPublishPeer s (getValue j .sessID)
          (getValue j .peerID) true).trips env j = !env.pionOk := by
        simp only [Peer.trips, hc]
      rw [if_pos rfl, Bool.true_and, ← htrips]
      exact (publish_calm hb ht hseat _ _ trivial).trans_fate
        (peerHandleMessage_fate ((Pod.insertPublisher_peer _ _ _).trans
          (if_pos rfl)) rfl)
  | false =>
      rw [if_neg (by simp)]
      exact (retirePublisher_calm hb ht (getValue j .peerID) p).fate

theorem subscribe_fate {sid : String} {isFake : Bool}
    {notFound failed : Pod → Pod} (hseat : Sits p s)
    (hn : ∀ p, (notFound p).fatal = p.fatal)
    (hfail : ∀ p, (failed p).fatal = p.fatal)
    (hc : command j = some .sub ∨ command j = some .fakeSubscribe) :
    Fate ((p.entry .publisher s (getValue j .peerID)).any fun x =>
        env.createOk && ((p.peer x).localDesc.isNone || !env.pionOk)) p
      (p.subscribe env s j sid isFake notFound failed) := by
  generalize h : p.subscribe env s j sid isFake notFound failed = q
  refine .of fun hp => ?_
  have hb := Unbound.base (command j)
  have ht := Unbound.touch s
  have hrem := makeWay_removes hp.placed s (getValue j .peerID)
    (subKey sid (getValue j .srcSessID) (getValue j .peerID))
  change Fate (((p.sess s).publishers.lookup (getValue j .peerID)).any _) p q
  obtain ⟨hno, rfl⟩ | ⟨hpub, hok, rfl⟩ | ⟨hpub, hok, rfl⟩ :=
    Pod.subscribe_cases h
  · rw [hno]
    exact fun _ hf => (hn p).trans hf
  · obtain ⟨x, hx⟩ := Option.ne_none_iff_exists'.mp hpub
    have hread : (p.readPublisher s (getValue j .peerID)).2 =
      (p.peer x).localDesc := by rw [readPublisher_found hp hx]
    rw [hread, hx, hok]
    have htrips : (createSubscribePeer s sid (getValue j .srcSessID)
        (getValue j .peerID) (p.peer x).localDesc isFake).trips env j =
        ((p.peer x).localDesc.isNone || !env.pionOk) := by
      rcases hc with hc | hc
      · simp only [Peer.trips, hc, createSubscribePeer]
      · simp only [Peer.trips, hc, createSubscribePeer]
    rw [Option.any_some, Bool.true_and, ← htrips]
    exact (makeWay_calm hb ht (subKey sid (getValue j .srcSessID)
      (getValue j .peerID)) hpub).trans_fate ((insertEntry_calm (A := Unbound)
        (t := createSubscribePeer s sid (getValue j .srcSessID)
          (getValue j .peerID) (p.peer x).localDesc isFake) trivial
        (hseat.of_sameStore hrem.toSameStore) rfl ⟨rfl, rfl, rfl, rfl⟩
        hrem.free).trans_fate (peerHandleMessage_fate
          ((Pod.insertSubscriber_peer _ _ _).trans (if_pos rfl)) rfl))
  · obtain ⟨x, hx⟩ := Option.ne_none_iff_exists'.mp hpub
    rw [hx, hok]
    exact (makeWay_calm hb ht _ hpub).trans_fate fun _ hf =>
      (hfail _).trans hf

theorem sessionHandleMessage_fate (hseat : Sits p s) :
    Fate (p.sessCrashes env s j) p (p.sessionHandleMessage env s j) := by
  have hb := Unbound.base (command j)
  have ht := Unbound.touch s
  unfold Pod.sessionHandleMessage Pod.sessCrashes
  cases hc : command j with
  | none => exact (Calm.refl (A := Unbound) p).fate
  | some c =>
      cases c with
      | heartbeat => exact fun _ hf => hf
      | push => exact (handlePush_calm hb ht hseat trivial).fate
      | stopPush => exact handleStopPush_fate
      | sub =>
          exact subscribe_fate hseat (fun _ => Pod.emit_fatal)
            (fun _ => Pod.emit_fatal) (.inl hc)
      | stopSub => exact (handleStopSub_calm hb fun _ _ => trivial).fate
      | offer => exact handleOffer_fate
      | answer => exact toSubscriber_fate fun _ => Pod.emit_fatal
      | roomCreated =>
          exact (handleRoomCreated_calm (Unbound.base _) p).fate
      | fakePublish => exact (fakeSubscribe_calm hb _ _ _ p).fate
      | fakeSubscribe =>
          exact subscribe_fate hseat (fun _ => rfl) (fun _ => rfl) (.inr hc)
      | fakeOffer => exact handleFakeOfferMsg_fate hseat hc
      | fakeAnswer => exact toSubscriber_fate fun _ => rfl
      | fakeCandidate =>
          unfold Pod.handleFakeCandidate
          cases ho : (p.sess s).origin with
          | true => exact toSubscriber_fate fun _ => rfl
          | false => exact fun _ hf => hf
      | _ => exact (Calm.refl (A := Unbound) p).fate

/-! ## Rooms and the manager -/

end MediaServer.Ref
