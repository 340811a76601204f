import MediaServer.Proofs.Effects

/-!
# What a call says and what it starts

`Script A n p q` says how a call can get from `p` to `q` as far as anybody
outside can see: it changes objects without a word, sends a message, starts
another call, works on with a mutex in hand, or dies. The mutexes it takes
have rank `n` or more, and one taken while another is held has the higher
rank. `A` bounds the rest: the commands that may go to other pods, whether a
client may be refused something, the calls that may be started, whether
packets may be handed on, and whether a mutex may be given back that is not
held.

Every function of the pod is taken through once; what follows from its script
(which messages are sent and how they are signed, whether mutexes are given
back and in which order they are taken) is then a fact about scripts.
-/

namespace MediaServer.Ref

open MediaServer.Lib

/-- The order in which the mutexes are taken. -/
def Mutex.rank : Mutex → Nat
  | .rooms => 0
  | .sessions _ => 1
  | .pubs _ | .subs _ => 2

/-- What a call may do. -/
structure Scope where
  sends : Cmd → Prop
  refuses : Prop
  starts : Goroutine → Prop
  delivers : Prop
  breaks : Prop

/-- The sender has put its names on the message. -/
def Signed (conf : Config) (m : JsonParser) : Prop :=
  getValue m .podId = conf.uuid ∧ getValue m .clusterId = conf.clusterid

/-- The message reports an error. -/
def Refuses (m : JsonParser) : Prop := getIntValue m .code ≠ some 0

/-- The event is one of those that `A` allows. Operations on mutexes are
accounted for by the sections of a script. -/
def Event.Within (A : Scope) (conf : Config) : Event → Prop
  | .sync _ => False
  | .toClient _ m => Refuses m → A.refuses
  | .toLB m => Signed conf m
  | .toPod _ m | .toCrossClusterPod _ m | .broadcastCrossCluster m =>
      Signed conf m ∧ ∃ c, command m = some c ∧ A.sends c
  | .destroy _ => True
  | .deliverAudio _ _ | .deliverVideo _ _ | .deliverApp _ _ => A.delivers

/-- Nothing shows. A serial number may have been drawn. -/
structure Mute (p q : Pod) : Prop where
  conf : ∃ sn, q.conf = { p.conf with sn := sn }
  pending : q.pending = p.pending
  log : q.log = p.log
  fatal : q.fatal = p.fatal

theorem Mute.refl (p : Pod) : Mute p p := ⟨⟨_, rfl⟩, rfl, rfl, rfl⟩

inductive Script (A : Scope) : Nat → Pod → Pod → Prop where
  | mute {n : Nat} {p q : Pod} (h : Mute p q) : Script A n p q
  | speaks {n : Nat} {p : Pod} {e : Event} (h : e.Within A p.conf) :
      Script A n p (p.emit e)
  | starts {n : Nat} {p : Pod} {g : Goroutine} (h : A.starts g) :
      Script A n p (p.go g)
  | dies {n : Nat} {p : Pod} : Script A n p p.throw
  | trans {n : Nat} {p q t : Pod} (h : Script A n p q) (h' : Script A n q t) :
      Script A n p t
  | writes {n : Nat} {p q : Pod} {m : Mutex} (hm : n ≤ m.rank)
      (h : Script A (m.rank + 1) (p.lock m) q) : Script A n p (q.unlock m)
  | reads {n : Nat} {p q : Pod} {m : Mutex} (hm : n ≤ m.rank)
      (h : Script A (m.rank + 1) (p.rlock m) q) : Script A n p (q.runlock m)
  | falls {n : Nat} {p q : Pod} {op : LockOp Mutex}
      (hop : (∀ held, (LockOp.exec held [op]).isSome) ∨ A.breaks)
      (h : Script A n (p.emit (.sync op)) q) (hq : q.fatal = true) :
      Script A n p q

namespace Script

variable {A B : Scope} {n k : Nat} {p q t : Pod}

theorem refl (p : Pod) : Script A n p p := .mute (.refl p)

theorem mono (h : Script A n p q) (hk : k ≤ n) : Script A k p q := by
  induction h generalizing k with
  | mute h => exact .mute h
  | speaks h => exact .speaks h
  | starts h => exact .starts h
  | dies => exact .dies
  | trans _ _ ih ih' => exact (ih hk).trans (ih' hk)
  | writes hm h _ => exact .writes (hk.trans hm) h
  | reads hm h _ => exact .reads (hk.trans hm) h
  | falls hop _ hq ih => exact .falls hop (ih hk) hq

/-- A loop whose turns keep `I`. -/
theorem foldl_of {α : Type} {f : Pod → α → Pod} {I : Pod → Prop}
    {l : List α} (hf : ∀ q, ∀ a ∈ l, I q → I (f q a) ∧ Script A n q (f q a))
    (hp : I p) : Script A n p (l.foldl f p) := by
  induction l generalizing p with
  | nil => exact .refl p
  | cons a l ih =>
      obtain ⟨hI, hscript⟩ := hf p a List.mem_cons_self hp
      exact hscript.trans
        (ih (fun q b hb => hf q b (List.mem_cons_of_mem a hb)) hI)

theorem foldl {α : Type} {f : Pod → α → Pod} {l : List α}
    (hf : ∀ q, ∀ a ∈ l, Script A n q (f q a)) (p : Pod) :
    Script A n p (l.foldl f p) :=
  foldl_of (I := fun _ => True) (fun q a ha _ => ⟨trivial, hf q a ha⟩) trivial

/-- A mutex taken and given back at once. -/
theorem peeks {m : Mutex} (hm : n ≤ m.rank) (p : Pod) :
    Script A n p ((p.rlock m).runlock m) := .reads hm (.refl _)

/-- A client hears something other than an error. -/
theorem tells {topic : String} {m : JsonParser}
    (hcode : m.lookup .code = none ∨ m.lookup .code = some (.int 0))
    (p : Pod) : Script A n p (p.emit (.toClient topic m)) := by
  refine .speaks fun h => absurd ?_ h
  obtain hnone | hzero := hcode
  · rw [getIntValue, hnone]
  · rw [getIntValue, hzero]
    rfl

theorem refuses {topic : String} {m : JsonParser} (h : A.refuses) (p : Pod) :
    Script A n p (p.emit (.toClient topic m)) := .speaks fun _ => h

end Script

variable {A : Scope} {n : Nat} {p q : Pod} {r : RoomRef} {s : SessRef}
variable {x : PeerRef} {u pid key : String} {env : Env} {j : JsonParser}

theorem setPeer_script (x : PeerRef) (f : Peer → Peer) (p : Pod) :
    Script A n p (p.setPeer x f) := .mute ⟨⟨_, rfl⟩, rfl, rfl, rfl⟩

theorem setSess_script (s : SessRef) (f : Session → Session) (p : Pod) :
    Script A n p (p.setSess s f) := .mute ⟨⟨_, rfl⟩, rfl, rfl, rfl⟩

theorem setRoom_script (r : RoomRef) (f : Room → Room) (p : Pod) :
    Script A n p (p.setRoom r f) := .mute ⟨⟨_, rfl⟩, rfl, rfl, rfl⟩

theorem getSn_script (p : Pod) : Script A n p p.getSn :=
  .mute ⟨⟨_, rfl⟩, rfl, rfl, rfl⟩

/-- A message to other pods, signed by its sender. -/
theorem cross_script {e : Event} {m : JsonParser} {c : Cmd}
    (he : e = .broadcastCrossCluster m ∨
      ∃ k, e = .toPod k m ∨ e = .toCrossClusterPod k m)
    (hc : command m = some c) (hA : A.sends c) (hsign : Signed p.conf m) :
    Script A n p (p.emit e) := by
  obtain rfl | ⟨k, rfl | rfl⟩ := he
  · exact .speaks ⟨hsign, c, hc, hA⟩
  · exact .speaks ⟨hsign, c, hc, hA⟩
  · exact .speaks ⟨hsign, c, hc, hA⟩

/-- The commands that a pod may send to others while it handles a message. An
origin session has no pod id, so a `fakeunpublish` that takes one out has none
either. -/
def replies (m : JsonParser) : List Cmd :=
  match command m with
  | some .login => [.roomCreated, .fakeUnpublish]
  | some .logout | some .push | some .stopPush => [.fakeUnpublish]
  | some .roomCreated => [.fakePublish]
  | some .fakePublish => [.fakeUnpublish, .fakeSubscribe]
  | some .fakeUnpublish =>
      if getValue m .podId = "" then [.fakeUnpublish] else []
  | some .fakeSubscribe => [.fakeOffer]
  | some .fakeOffer => [.fakeUnpublish, .fakeAnswer]
  | _ => []

/-! ## `peer.go` -/

theorem destroy_script (x : PeerRef) (p : Pod) :
    Script A n p (p.destroy x) := by
  have h : Script A n p ((p.emit (.destroy x)).setPeer x
      fun q => { q with closed := q.closed + 1 }) :=
    .trans (.speaks (e := .destroy x) trivial) (setPeer_script x _ _)
  unfold Pod.destroy
  dsimp only
  split
  · exact h.trans .dies
  · exact h

theorem offerTo_script {send : Pod → Pod} (hs : ∀ p, Script A n p (send p))
    (p : Pod) : Script A n p (p.offerTo env x send) := by
  unfold Pod.offerTo
  split
  · exact .dies
  · split
    · exact (setPeer_script x _ p).trans (hs _)
    · exact .dies

theorem answerTo_script {send : Pod → Pod} (hs : ∀ p, Script A n p (send p))
    (p : Pod) : Script A n p (p.answerTo env x send) := by
  unfold Pod.answerTo
  split
  · exact ((setPeer_script x _ p).trans (setPeer_script x _ _)).trans (hs _)
  · exact .dies

theorem handleRemoteAnswer_script (p : Pod) :
    Script A n p (p.handleRemoteAnswer env x) := by
  unfold Pod.handleRemoteAnswer
  split
  · exact (setPeer_script x _ p).trans (setPeer_script x _ _)
  · exact .dies

theorem handleRemoteCandidate_script (p : Pod) :
    Script A n p (p.handleRemoteCandidate env x j) := by
  unfold Pod.handleRemoteCandidate
  split
  · exact setPeer_script x _ p
  · split
    · exact setPeer_script x _ p
    · exact .dies

/-- A stream that another pod asked for is offered to it, and an offer of
another pod is answered. -/
theorem peerHandleMessage_script (hsend : ∀ c ∈ replies j, A.sends c)
    (p : Pod) : Script A n p (p.peerHandleMessage env x j) := by
  unfold Pod.peerHandleMessage
  split
  · exact offerTo_script (Script.tells (.inl rfl)) p
  · exact answerTo_script (Script.tells (.inr rfl)) p
  · exact handleRemoteAnswer_script p
  · exact handleRemoteCandidate_script p
  · next hc =>
      simp only [replies, hc] at hsend
      exact offerTo_script (fun p => cross_script (.inr ⟨_, .inr rfl⟩)
        (command_cons _ _) (hsend _ List.mem_cons_self) ⟨rfl, rfl⟩) p
  · next hc =>
      simp only [replies, hc] at hsend
      exact answerTo_script (fun p => cross_script (.inr ⟨_, .inr rfl⟩)
        (command_cons _ _) (hsend _ (by simp)) ⟨rfl, rfl⟩) p
  · exact handleRemoteAnswer_script p
  · exact handleRemoteCandidate_script p
  · exact .refl p

/-! ## `session.go` -/

theorem notifyStopPush_script {origin : Bool} {sid : String}
    (hA : origin = true → A.sends .fakeUnpublish) (p : Pod) :
    Script A n p (p.notifyStopPush r origin sid pid) := by
  have hloop : ∀ l : List ((_ : String) × SessRef), Script A n p
      (l.foldl (fun p e =>
        if (p.sess e.2).origin then
          p.emit (.toClient (p.sess e.2).userid
            [(.cmd, .str Cmd.unpub.text),
              (.roomId, .str (p.room r).roomid),
              (.sessID, .str sid),
              (.peerID, .str pid)])
        else p) p) := by
    intro l
    refine Script.foldl (fun p e _ => ?_) p
    split
    · exact Script.tells (.inl rfl) p
    · exact .refl p
  unfold Pod.notifyStopPush
  dsimp only
  split
  · next ho =>
      exact (hloop _).trans (cross_script (.inl rfl) (command_cons _ _) (hA ho)
        ⟨rfl, rfl⟩)
  · exact hloop _

theorem notifyReleasePublish_script (p : Pod) :
    Script A n p (p.notifyReleasePublish env s pid) :=
  (getSn_script p).trans (.speaks ⟨rfl, rfl⟩)

theorem fakeSubscribe_script {sid : String} {curtime : Nat}
    (hA : A.sends .fakeSubscribe) (p : Pod) :
    Script A n p (p.fakeSubscribe s sid pid curtime) :=
  (cross_script (.inr ⟨_, .inr rfl⟩) (command_cons _ _) hA
    ⟨rfl, rfl⟩).trans (setSess_script s _ _)

theorem stopNotify_script
    (hA : (p.sess s).origin = true → A.sends .fakeUnpublish) :
    Script A n p (p.stopNotify s x pid) := by
  unfold Pod.stopNotify
  split
  · exact (setPeer_script x _ p).trans (notifyStopPush_script hA _)
  · exact .refl p

theorem dropPublisher_script
    (hA : (p.sess s).origin = true → A.sends .fakeUnpublish) :
    Script A n p (p.dropPublisher s x pid) :=
  ((stopNotify_script hA).trans (destroy_script x _)).trans
    (setSess_script s _ _)

theorem replacePublisher_script
    (hA : (p.sess s).origin = true → A.sends .fakeUnpublish) :
    Script A 2 p (p.replacePublisher s x pid) := by
  refine .writes (Nat.le_refl 2) (dropPublisher_script fun ho => hA ?_)
  rwa [Pod.lock, Pod.emit_sess] at ho

theorem retirePublisher_script
    (hA : (p.sess s).origin = true → A.sends .fakeUnpublish) :
    Script A 2 p (match (p.sess s).publishers.lookup pid with
      | some x => p.replacePublisher s x pid
      | none => p) := by
  split
  · exact replacePublisher_script hA
  · exact .refl p

theorem insertPublisher_script (t : Peer) (p : Pod) :
    Script A 2 p (p.insertPublisher s pid t) :=
  .trans (.mute (q := p.allocPeer t) ⟨⟨_, rfl⟩, rfl, rfl, rfl⟩)
    (.writes (Nat.le_refl 2) (setSess_script s _ _))

theorem readPublisher_script (s : SessRef) (pid : String) (p : Pod) :
    Script A 2 p (p.readPublisher s pid).1 := by
  unfold Pod.readPublisher
  dsimp only
  split
  · exact .falls (.inl fun _ => rfl) .dies rfl
  · split
    · exact .peeks (Nat.le_refl 2) p
    · exact .falls (.inl fun _ => rfl) .dies rfl

theorem dropSubscriber_script (y : PeerRef) (p : Pod) :
    Script A n p (p.dropSubscriber s y key) :=
  (destroy_script y p).trans (setSess_script s _ _)

theorem replaceSubscriber_script (p : Pod) :
    Script A 2 p (p.replaceSubscriber s key) := by
  unfold Pod.replaceSubscriber
  dsimp only
  split
  · exact .falls (.inl fun _ => rfl) .dies rfl
  · exact .writes (Nat.le_refl 2) (dropSubscriber_script _ _)

theorem insertSubscriber_script (t : Peer) (p : Pod) :
    Script A 2 p (p.insertSubscriber s key t) :=
  .trans (.mute (q := p.allocPeer t) ⟨⟨_, rfl⟩, rfl, rfl, rfl⟩)
    (.writes (Nat.le_refl 2) (setSess_script s _ _))

theorem makeWay_script (s : SessRef) (pid key : String) (p : Pod) :
    Script A 2 p (p.makeWay s pid key) := by
  refine (readPublisher_script s pid p).trans ?_
  unfold Pod.makeWay
  dsimp only
  split
  · exact .refl _
  · exact replaceSubscriber_script _

/-! ### Releases and leaving -/

theorem releasePubs_script
    (hA : (p.sess s).origin = true → A.sends .fakeUnpublish) :
    Script A 2 p (p.releasePubs s pid) := by
  unfold Pod.releasePubs
  dsimp only
  refine .writes (Nat.le_refl 2) ?_
  split
  · refine dropPublisher_script fun ho => hA ?_
    rwa [Pod.lock, Pod.emit_sess] at ho
  · exact .refl _

theorem releaseSubs_script (p : Pod) : Script A 2 p (p.releaseSubs s pid) := by
  unfold Pod.releaseSubs
  dsimp only
  refine .writes (Nat.le_refl 2) (Script.foldl (fun q e _ => ?_) _)
  unfold Pod.releaseSubsOf
  split
  · exact dropSubscriber_script _ q
  · exact .refl q

theorem releasePublisher_script
    (hA : (p.sess s).origin = true → A.sends .fakeUnpublish) :
    Script A 2 p (p.releasePublisher env s pid) :=
  ((releasePubs_script hA).trans (releaseSubs_script _)).trans
    (notifyReleasePublish_script _)

theorem releaseSubscriberPeer_script {sid ssid : String} (p : Pod) :
    Script A 2 p (p.releaseSubscriberPeer s sid ssid pid) := by
  unfold Pod.releaseSubscriberPeer
  dsimp only
  refine .writes (Nat.le_refl 2) ?_
  split
  · exact dropSubscriber_script _ _
  · exact .refl _

theorem handleSubscriberLeaved_script {sid : String} (p : Pod) :
    Script A 2 p (p.handleSubscriberLeaved s sid) := by
  refine (Script.peeks (m := .pubs s) (Nat.le_refl 2) p).trans
    (.writes (Nat.le_refl 2) (Script.foldl (fun q k _ => ?_) _))
  split
  · exact dropSubscriber_script _ q
  · exact .refl q

theorem doLeavePubs_script
    (hA : (p.sess s).origin = true → A.sends .fakeUnpublish) :
    Script A 2 p (p.doLeavePubs s) := by
  refine .writes (Nat.le_refl 2) (Script.trans ?_ (setSess_script s _ _))
  -- the loop does not change which kind of session it takes down
  refine Script.foldl_of
    (I := fun q => (q.sess s).origin = true → A.sends .fakeUnpublish)
    (fun q e _ hq => ?_) fun ho => hA ?_
  · have hsame := (q.stopNotify_quiet s e.2
      (q.peer e.2).peerid).toSameStore.trans (Pod.destroy_sameStore _ e.2)
    exact ⟨fun ho => hq ((hsame.origin s).symm.trans ho),
      (stopNotify_script hq).trans (destroy_script _ _)⟩
  · rwa [Pod.lock, Pod.emit_sess] at ho

theorem doLeave_script
    (hA : (p.sess s).origin = true → A.sends .fakeUnpublish) :
    Script A 2 p (p.doLeave s) := by
  have hsubs : ∀ q : Pod, Script A 2 q (q.doLeaveSubs s) := fun q =>
    .writes (Nat.le_refl 2) ((Script.foldl (fun t e _ => destroy_script _ t)
      _).trans (setSess_script s _ _))
  exact ((doLeavePubs_script hA).trans (hsubs _)).trans (setSess_script s _ _)

theorem fakePublisherReConnect_script {sid : String} {curtime : Nat}
    (hA : A.sends .fakeSubscribe) (p : Pod) :
    Script A n p (p.fakePublisherReConnect s sid pid curtime) := by
  unfold Pod.fakePublisherReConnect
  split
  · exact .refl p
  · exact (setSess_script s _ p).trans (fakeSubscribe_script hA _)

/-! ### Handlers -/

theorem handlePush_script
    (hA : (p.sess s).origin = true → A.sends .fakeUnpublish) :
    Script A 2 p (p.handlePush env s j) := by
  have hretire : Script A 2 p
      (match (p.sess s).publishers.lookup (getValue j .peerID) with
        | some x => p.replacePublisher s x (getValue j .peerID)
        | none => p) := retirePublisher_script hA
  unfold Pod.handlePush
  dsimp only
  split
  · exact (hretire.trans (insertPublisher_script _ _)).trans
      (Script.tells (.inr rfl) _)
  · exact hretire

/-- A `stoppush` that finds its stream is gone with the process: it gives its
mutex back in the wrong mode. -/
theorem handleStopPush_script
    (hA : (p.sess s).origin = true → A.sends .fakeUnpublish)
    (hbreak : (p.sess s).publishers.lookup (getValue j .peerID) ≠ none →
      A.breaks) :
    Script A 2 p (p.handleStopPush env s j) := by
  unfold Pod.handleStopPush
  dsimp only
  split
  · next y hy =>
      have hdrop : Script A 2 (p.lock (.pubs s))
          ((p.lock (.pubs s)).dropPublisher s y (getValue j .peerID)) := by
        refine dropPublisher_script fun ho => hA ?_
        rwa [Pod.lock, Pod.emit_sess] at ho
      have hmiss : A.breaks := by
        refine hbreak ?_
        rw [hy]
        exact Option.some_ne_none y
      have hstop : Script A 2 p (p.stopPublisher s y (getValue j .peerID)) :=
        .falls (.inl fun _ => rfl) (hdrop.trans
          (.falls (.inr hmiss) .dies rfl)) rfl
      exact (hstop.trans (Script.tells (.inr rfl) _)).trans
        (notifyReleasePublish_script _)
  · exact .refl p

theorem subscribe_script {sid : String} {isFake : Bool}
    {notFound failed : Pod → Pod}
    (hnf : (p.sess s).publishers.lookup (getValue j .peerID) = none →
      Script A 2 p (notFound p))
    (hf : env.createOk = false → ∀ q, Script A 2 q (failed q))
    (hsend : ∀ c ∈ replies j, A.sends c) :
    Script A 2 p (p.subscribe env s j sid isFake notFound failed) := by
  generalize h : p.subscribe env s j sid isFake notFound failed = q
  obtain ⟨hno, rfl⟩ | ⟨-, -, rfl⟩ | ⟨-, hok, rfl⟩ := Pod.subscribe_cases h
  · exact hnf hno
  · exact ((makeWay_script s _ _ p).trans (insertSubscriber_script _ _)).trans
      (peerHandleMessage_script hsend _)
  · exact (makeWay_script s _ _ p).trans (hf hok _)

theorem handleStopSub_script
    (hA : ∀ sid ssid pid y, A.starts (.releaseSubscriberPeer s sid ssid pid y))
    (p : Pod) : Script A 2 p (p.handleStopSub s j) := by
  unfold Pod.handleStopSub
  dsimp only
  refine .reads (Nat.le_refl 2) ?_
  split
  · exact .starts (hA _ _ _ _)
  · exact .refl _

theorem handleOffer_script (hsend : ∀ c ∈ replies j, A.sends c)
    (hno : (p.sess s).publishers.lookup (getValue j .peerID) = none →
      A.refuses) :
    Script A 2 p (p.handleOffer env s j) := by
  unfold Pod.handleOffer
  dsimp only
  refine .reads (Nat.le_refl 2) ?_
  rw [Pod.rlock, Pod.emit_sess]
  split
  · exact peerHandleMessage_script hsend _
  · next h => exact .refuses (hno h) _

theorem toSubscriber_script {sid : String} {notFound : Pod → Pod}
    (hnf : (p.sess s).subscribers.lookup (subKey sid (getValue j .srcSessID)
      (getValue j .peerID)) = none → ∀ q, Script A 3 q (notFound q))
    (hsend : ∀ c ∈ replies j, A.sends c) :
    Script A 2 p (p.toSubscriber env s j sid notFound) := by
  unfold Pod.toSubscriber
  dsimp only
  refine .reads (Nat.le_refl 2) ?_
  rw [Pod.rlock, Pod.emit_sess]
  split
  · exact peerHandleMessage_script hsend _
  · next h => exact hnf h _

theorem handleRoomCreated_script (hA : A.sends .fakePublish) (p : Pod) :
    Script A n p (p.handleRoomCreated s j) := by
  refine Script.foldl (fun p e _ => ?_) p
  dsimp only
  split
  · exact cross_script (.inr ⟨_, .inl rfl⟩) (command_cons _ _) hA ⟨rfl, rfl⟩
  · exact cross_script (.inr ⟨_, .inr rfl⟩) (command_cons _ _) hA ⟨rfl, rfl⟩

theorem handleFakeOfferMsg_script (hsend : ∀ c ∈ replies j, A.sends c)
    (hun : A.sends .fakeUnpublish) (p : Pod) :
    Script A 2 p (p.handleFakeOfferMsg env s j) := by
  have hretire : Script A 2 p
      (match (p.sess s).publishers.lookup (getValue j .peerID) with
        | some x => p.replacePublisher s x (getValue j .peerID)
        | none => p) := retirePublisher_script fun _ => hun
  unfold Pod.handleFakeOfferMsg
  dsimp only
  split
  · exact (hretire.trans (insertPublisher_script _ _)).trans
      (peerHandleMessage_script hsend _)
  · exact hretire

/-- The error that a session reports to the client. -/
def Pod.sessRefusal (p : Pod) (env : Env) (s : SessRef) (j : JsonParser) :
    Option Int :=
  match command j with
  | some .sub =>
      if (p.sess s).publishers.lookup (getValue j .peerID) = none then
        some codeNotFoundPublishPeer
      else if env.createOk then none else some codeCreatePeerError
  | some .offer =>
      if (p.sess s).publishers.lookup (getValue j .peerID) = none then
        some codeNotFoundPublishPeer
      else none
  | some .answer =>
      if (p.sess s).subscribers.lookup (subKey (getValue j .sessID)
          (getValue j .srcSessID) (getValue j .peerID)) = none then
        some codeNotFoundSubscribePeer
      else none
  | _ => none

theorem sessionHandleMessage_script (hsend : ∀ c ∈ replies j, A.sends c)
    (hrefuse : p.sessRefusal env s j ≠ none → A.refuses)
    (hbreak : command j = some .stopPush →
      (p.sess s).publishers.lookup (getValue j .peerID) ≠ none → A.breaks)
    (hstart : command j = some .stopSub → ∀ sid ssid pid y,
      A.starts (.releaseSubscriberPeer s sid ssid pid y)) :
    Script A 2 p (p.sessionHandleMessage env s j) := by
  cases hc : command j with
  | none =>
      simp only [Pod.sessionHandleMessage, hc]
      exact .refl p
  | some c =>
      have hlist := hsend
      simp only [replies, hc] at hlist
      simp only [Pod.sessRefusal, hc] at hrefuse
      simp only [Pod.sessionHandleMessage, hc]
      cases c with
      | heartbeat => exact setSess_script s _ p
      | push =>
          exact handlePush_script fun _ => hlist _ List.mem_cons_self
      | stopPush =>
          exact handleStopPush_script (fun _ => hlist _ List.mem_cons_self)
            (hbreak hc)
      | sub =>
          refine subscribe_script (fun hno => .refuses (hrefuse ?_) p)
            (fun hok q => .refuses (hrefuse ?_) q) hsend
          · dsimp only
            rw [if_pos hno]
            exact Option.some_ne_none _
          · dsimp only
            rw [hok]
            split
            · exact Option.some_ne_none _
            · exact Option.some_ne_none _
      | stopSub => exact handleStopSub_script (hstart hc) p
      | offer =>
          refine handleOffer_script hsend fun hno => hrefuse ?_
          dsimp only
          rw [if_pos hno]
          exact Option.some_ne_none _
      | answer =>
          refine toSubscriber_script
            (fun hno q => .refuses (hrefuse ?_) q) hsend
          dsimp only
          rw [if_pos hno]
          exact Option.some_ne_none _
      | roomCreated =>
          exact handleRoomCreated_script (hlist _ List.mem_cons_self) p
      | fakePublish =>
          exact fakeSubscribe_script (hlist _ (by simp)) p
      | fakeSubscribe =>
          exact subscribe_script (fun _ => .refl p) (fun _ => Script.refl) hsend
      | fakeOffer =>
          exact handleFakeOfferMsg_script hsend (hlist _ List.mem_cons_self) p
      | fakeAnswer => exact toSubscriber_script (fun _ => Script.refl) hsend
      | fakeCandidate =>
          simp only [Pod.handleFakeCandidate]
          split
          · exact .refl p
          · exact toSubscriber_script (fun _ => Script.refl) hsend
      | login | logout | candidate | pub | unpub | podRegist | podRegistNow
      | podReleasePublish | podLeaveRoom | fakeUnpublish => exact .refl p

/-! ### ICE callbacks and timers -/

/-- The calls that an input starts. -/
inductive Starts (p : Pod) (env : Env) : Input → Goroutine → Prop where
  | emptied {m : JsonParser}
      (hc : command m = some .logout ∨ command m = some .fakePublish) :
      Starts p env (.message m) (.releaseRoom (getValue m .roomId))
  | left {m : JsonParser} {r : RoomRef} {u : String} {s : SessRef}
      (hc : command m = some .logout)
      (hr : p.rooms.lookup (getValue m .roomId) = some r)
      (hs : (p.room r).sessions.lookup u = some s) :
      Starts p env (.message m) (.handleSubscriberLeaved s (getValue m .sessID))
  | stopped {m : JsonParser} {r : RoomRef} {s : SessRef}
      (hc : command m = some .stopSub)
      (hr : p.rooms.lookup (getValue m .roomId) = some r)
      (hs : (p.room r).sessions.lookup (getValue m .srcSessID) = some s)
      (sid ssid pid : String) (y : PeerRef) :
      Starts p env (.message m) (.releaseSubscriberPeer s sid ssid pid y)
  | due {rid : String} {r : RoomRef} {u : String} {s : SessRef}
      (hr : p.rooms.lookup rid = some r)
      (hs : (p.room r).sessions.lookup u = some s) :
      Starts p env .keepaliveTick (.checkKeepAlive s)
  | expired {i : Nat} {s : SessRef}
      (hg : p.pending[i]? = some (.checkKeepAlive s))
      (ho : (p.sess s).origin = true)
      (hnow : env.now - (p.sess s).alivetime > 60) :
      Starts p env (.go i)
        (.kickoutFromRoom (p.sess s).parent (p.sess s).userid)
  | kicked {i : Nat} {r : RoomRef} {u v : String} {s : SessRef}
      (hg : p.pending[i]? = some (.kickoutFromRoom r u))
      (hs : (p.room r).sessions.lookup v = some s) :
      Starts p env (.go i) (.handleSubscriberLeaved s u)
  | vacated {i : Nat} {r : RoomRef} {u : String}
      (hg : p.pending[i]? = some (.kickoutFromRoom r u)) :
      Starts p env (.go i) (.releaseRoom (p.room r).roomid)
  | ready {x : PeerRef} :
      Starts p env (.ice x .connected)
        (.onPublisherReady (p.sess (p.peer x).parent).parent (p.peer x).userid
          (p.sess (p.peer x).parent).username (p.peer x).peerid)
  | wanted {x y : PeerRef}
      (hy : p.entry .publisher (p.peer x).parent (p.peer x).peerid = some y) :
      Starts p env (.ice x .connected) (.requestKeyframe y)
  | pubFailed {x : PeerRef} :
      Starts p env (.ice x .failed)
        (.onPublisherPeerFailed (p.sess (p.peer x).parent).parent
          (p.peer x).userid (p.peer x).peerid x)
  | subFailed {x : PeerRef} :
      Starts p env (.ice x .failed)
        (.onSubscriberPeerFailed (p.sess (p.peer x).parent).parent
          (p.peer x).userid (p.peer x).remoteuserid (p.peer x).peerid x)
  | pubClosed {x : PeerRef} :
      Starts p env (.ice x .closed)
        (.onPublisherPeerClosed (p.sess (p.peer x).parent).parent
          (p.peer x).userid (p.peer x).peerid x)
  | subClosed {x : PeerRef} :
      Starts p env (.ice x .closed)
        (.onSubscriberPeerClosed (p.sess (p.peer x).parent).parent
          (p.peer x).userid (p.peer x).remoteuserid (p.peer x).peerid x)
  | retried {s : SessRef} {i : Nat} (sid pid : String) (curtime : Nat) :
      Starts p env (.checkTimer s i) (.fakePublisherReConnect s sid pid curtime)

/-- The commands that a pod may send to others on a change of the ICE
connection state. -/
def IceState.replies : IceState → List Cmd
  | .connected => [.fakePublish]
  | .disconnected => [.fakeUnpublish]
  | .failed => [.fakeSubscribe]
  | .closed => []

theorem testPublisher_script {g : Goroutine} (s : SessRef) (pid : String)
    (hg : A.starts g) (p : Pod) : Script A 2 p (p.testPublisher s pid g) := by
  unfold Pod.testPublisher
  dsimp only
  refine .reads (Nat.le_refl 2) ?_
  split
  · exact .starts hg
  · exact .refl _

theorem testSubscriber_script {g : Goroutine} (hg : A.starts g) (p : Pod) :
    Script A 2 p (p.testSubscriber s pid g) := by
  unfold Pod.testSubscriber
  dsimp only
  refine .reads (Nat.le_refl 2) ?_
  split
  · exact .starts hg
  · exact .refl _

theorem onIceReady_script {role : Role} {sid : String}
    (hready : A.starts (.onPublisherReady (p.sess s).parent sid
      (p.sess s).username pid))
    (hwant : ∀ y, p.entry .publisher s pid = some y →
      A.starts (.requestKeyframe y))
    (hsend : A.sends .fakePublish) :
    Script A 2 p (p.onIceReady role s sid pid) := by
  cases role with
  | publisher =>
      refine .reads (Nat.le_refl 2) ?_
      split
      · have hgo : Script A 3 (p.rlock (.pubs s)) ((p.rlock (.pubs s)).go
            (.onPublisherReady ((p.rlock (.pubs s)).sess s).parent sid
              ((p.rlock (.pubs s)).sess s).username pid)) := by
          simp only [Pod.rlock, Pod.emit_sess]
          exact .starts hready
        dsimp only
        split
        · exact hgo.trans (cross_script (.inl rfl) (command_cons _ _) hsend
            ⟨rfl, rfl⟩)
        · exact hgo
      · exact .refl _
  | subscriber =>
      unfold Pod.onIceReady
      dsimp only
      split
      · next y hy => exact .starts (hwant y hy)
      · exact .refl p

theorem onIceDisconnected_script (hsend : A.sends .fakeUnpublish) (p : Pod) :
    Script A 2 p (p.onIceDisconnected s pid) := by
  unfold Pod.onIceDisconnected
  dsimp only
  refine .reads (Nat.le_refl 2) ?_
  split
  · exact stopNotify_script fun _ => hsend
  · exact .refl _

theorem onIceFailed_script
    (hstart : ∀ g, Starts p env (.ice x .failed) g → A.starts g)
    (hsend : A.sends .fakeSubscribe) : Script A 2 p (p.onIceFailed x) := by
  unfold Pod.onIceFailed
  dsimp only
  split
  · have htest := testPublisher_script (p.peer x).parent (p.peer x).peerid
      (hstart _ .pubFailed) p
    split
    · exact htest.trans (fakePublisherReConnect_script hsend _)
    · exact htest
  · exact testSubscriber_script (hstart _ .subFailed) p

theorem onIceClosed_script
    (hstart : ∀ g, Starts p env (.ice x .closed) g → A.starts g) :
    Script A 2 p (p.onIceClosed x) := by
  unfold Pod.onIceClosed
  dsimp only
  split
  · exact testPublisher_script _ _ (hstart _ .pubClosed) p
  · exact testSubscriber_script (hstart _ .subClosed) p

/-- The flags of a callback are not what the calls it starts are named by. -/
theorem Starts.of_flags {st : IceState} {g : Goroutine}
    (h : Starts (p.setIceFlags x st) env (.ice x st) g) :
    Starts p env (.ice x st) g := by
  have hident : ((p.setIceFlags x st).peer x).ident = (p.peer x).ident := by
    unfold Pod.setIceFlags
    rw [Pod.setPeer_peer, if_pos rfl]
    cases st with
    | connected => rfl
    | disconnected => rfl
    | failed => rfl
    | closed => rfl
  obtain ⟨hu, hru, hpid, -, -, hpar, -⟩ := Peer.ident_eq hident
  have hsess : ∀ s, (p.setIceFlags x st).sess s = p.sess s := fun _ => rfl
  cases h with
  | ready =>
      rw [hu, hpid, hpar, hsess]
      exact .ready
  | wanted hy =>
      rw [hpid, hpar] at hy
      exact .wanted hy
  | pubFailed =>
      rw [hu, hpid, hpar, hsess]
      exact .pubFailed
  | subFailed =>
      rw [hu, hru, hpid, hpar, hsess]
      exact .subFailed
  | pubClosed =>
      rw [hu, hpid, hpar, hsess]
      exact .pubClosed
  | subClosed =>
      rw [hu, hru, hpid, hpar, hsess]
      exact .subClosed

theorem onICEConnectionStateChange_script {st : IceState}
    (hstart : ∀ g, Starts p env (.ice x st) g → A.starts g)
    (hsend : ∀ c ∈ st.replies, A.sends c) :
    Script A 2 p (p.onICEConnectionStateChange x st) := by
  have hflags : ∀ g, Starts (p.setIceFlags x st) env (.ice x st) g →
      A.starts g := fun g hg => hstart g hg.of_flags
  unfold Pod.onICEConnectionStateChange
  split
  · exact .refl p
  · have hset : Script A 2 p (p.setIceFlags x st) := setPeer_script x _ p
    refine hset.trans ?_
    cases st with
    | connected =>
        exact onIceReady_script (hflags _ .ready)
          (fun y hy => hflags _ (.wanted hy)) (hsend _ List.mem_cons_self)
    | disconnected =>
        simp only [Pod.reportIce]
        split
        · exact onIceDisconnected_script (hsend _ List.mem_cons_self) _
        · exact .refl _
    | failed => exact onIceFailed_script hflags (hsend _ List.mem_cons_self)
    | closed => exact onIceClosed_script hflags

theorem checkTimer_script {i : Nat} (hstart : ∀ sid pid curtime,
      A.starts (.fakePublisherReConnect s sid pid curtime)) (p : Pod) :
    Script A n p (p.checkTimer s i) := by
  unfold Pod.checkTimer
  dsimp only
  repeat' split
  all_goals first
    | exact .refl p
    | exact setSess_script s _ p
    | exact (setSess_script s _ p).trans (.starts (hstart _ _ _))

/-! ### Media -/

/-- The loop of the two calls that hand on a packet, in its section. -/
theorem packet_script {deliver : PeerRef → Event} {buff : List UInt8}
    (hA : A.delivers) (hd : deliver = (Event.deliverAudio · buff) ∨
      deliver = (Event.deliverVideo · buff)) (p : Pod) :
    Script A 2 p ((((p.rlock (.subs s)).sess s).subscribers.entries.foldl
      (fun p e => if pid.toList <:+: e.1.toList then p.emit (deliver e.2)
        else p) (p.rlock (.subs s))).runlock (.subs s)) := by
  refine .reads (Nat.le_refl 2) (Script.foldl (fun q e _ => ?_) _)
  split
  · obtain rfl | rfl := hd
    · exact .speaks hA
    · exact .speaks hA
  · exact .refl q

theorem deliverAppTo_script {sid : String} {buff : List UInt8} (hA : A.delivers)
    (peers : GoMap PeerRef) (p : Pod) :
    Script A n p (p.deliverAppTo sid pid buff peers) := by
  refine Script.foldl (fun q e _ => ?_) p
  split
  · exact .speaks (e := .deliverApp e.2 buff) hA
  · exact .refl q

theorem broadcastAppData_script {sid : String} {buff : List UInt8}
    (hA : A.delivers) (p : Pod) :
    Script A 2 p (p.broadcastAppData s sid pid buff) :=
  .trans (.reads (m := .pubs s) (Nat.le_refl 2) (deliverAppTo_script hA _ _))
    (.reads (m := .subs s) (Nat.le_refl 2) (deliverAppTo_script hA _ _))

end MediaServer.Ref
