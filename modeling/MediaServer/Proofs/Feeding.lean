import MediaServer.Proofs.Interference

/-!
# Who is fed candidates

A candidate for a subscriber is cached until its answer has come, and handed
to pion from then on; the answer hands over the cache, once. Hardly any other
code looks at a subscriber's candidates. `Unfed` says so once per function:
the peers that existed have what they had, and a new subscriber has nothing.
Publishers are not counted.
-/

namespace MediaServer.Ref

open MediaServer.Lib

variable {p q t : Pod} {s : SessRef} {k u : String} {x y z : PeerRef}
variable {m : JsonParser} {env : Env} {r : RoomRef}

/-- Whether a subscriber has its remote description, the cached candidates,
and those that pion was given. -/
def Peer.fed (t : Peer) : Option (Bool × List String × List String) :=
  match t.role with
  | .subscriber => some (t.setedRemoteDesc, t.candidateCaches, t.iceCandidates)
  | .publisher => none

structure Unfed (p q : Pod) : Prop where
  next : p.peerHeap.next ≤ q.peerHeap.next
  old : ∀ x < p.peerHeap.next, (q.peer x).fed = (p.peer x).fed
  new : ∀ x < q.peerHeap.next, p.peerHeap.next ≤ x →
    ∀ f ∈ (q.peer x).fed, f = (false, [], [])

namespace Unfed

/-! ## Primitive operations -/

theorem of_peerHeap (h : q.peerHeap = p.peerHeap) : Unfed p q where
  next := Nat.le_of_eq (by rw [h])
  old x _ := by rw [Pod.peer, h]; rfl
  new x hx hle := absurd (h ▸ hx) (Nat.not_lt.mpr hle)

theorem refl (p : Pod) : Unfed p p := .of_peerHeap rfl

theorem trans (h : Unfed p q) (h' : Unfed q t) : Unfed p t where
  next := h.next.trans h'.next
  old x hx := (h'.old x (Nat.lt_of_lt_of_le hx h.next)).trans (h.old x hx)
  new x hx hle f hf := by
    by_cases hq : x < q.peerHeap.next
    · rw [h'.old x hq] at hf
      exact h.new x hq hle f hf
    · exact h'.new x hx (Nat.not_lt.mp hq) f hf

theorem foldl {α : Type} {f : Pod → α → Pod} (hf : ∀ p a, Unfed p (f p a))
    (l : List α) (p : Pod) : Unfed p (l.foldl f p) := by
  induction l generalizing p with
  | nil => exact .refl p
  | cons a l ih => exact (hf p a).trans (ih (f p a))

theorem emit (p : Pod) (e : Event) : Unfed p (p.emit e) :=
  .of_peerHeap Pod.emit_peerHeap

theorem lock (p : Pod) (mu : Mutex) : Unfed p (p.lock mu) := .emit p _

theorem unlock (p : Pod) (mu : Mutex) : Unfed p (p.unlock mu) := .emit p _

theorem rlock (p : Pod) (mu : Mutex) : Unfed p (p.rlock mu) := .emit p _

theorem runlock (p : Pod) (mu : Mutex) : Unfed p (p.runlock mu) := .emit p _

/-- A section that only reads. -/
theorem readLocked (p : Pod) (mu : Mutex) :
    Unfed p ((p.rlock mu).runlock mu) :=
  (Unfed.rlock p mu).trans (.runlock _ mu)

theorem getSn (p : Pod) : Unfed p p.getSn := .of_peerHeap rfl

theorem go (p : Pod) (g : Goroutine) : Unfed p (p.go g) := .of_peerHeap rfl

theorem throw (p : Pod) : Unfed p p.throw := .of_peerHeap rfl

theorem setSess (p : Pod) (s : SessRef) (f : Session → Session) :
    Unfed p (p.setSess s f) := .of_peerHeap rfl

/-- A write that keeps what the peer was fed. -/
theorem setPeer (p : Pod) {f : Peer → Peer}
    (hf : (f (p.peer x)).fed = (p.peer x).fed) : Unfed p (p.setPeer x f) where
  next := Nat.le_refl _
  old y _ := by
    rw [Pod.setPeer_peer]
    split
    · next hy => rw [hy, hf]
    · rfl
  new y hy hle := absurd hy (Nat.not_lt.mpr hle)

theorem allocPeer (p : Pod) {t : Peer}
    (ht : ∀ f ∈ t.fed, f = (false, [], [])) : Unfed p (p.allocPeer t) where
  next := Nat.le_succ _
  old y hy := by
    rw [Pod.allocPeer, Pod.peer, Heap.alloc_cell_of_ne _ _ (Nat.ne_of_lt hy)]
    rfl
  new y hy hle f hf := by
    obtain rfl : y = p.peerHeap.next :=
      Nat.le_antisymm (Nat.lt_succ_iff.mp hy) hle
    rw [Pod.allocPeer, Pod.peer, Heap.alloc_cell, if_pos rfl] at hf
    exact ht f hf

/-! ## Sections of a session -/

theorem destroy (p : Pod) (x : PeerRef) : Unfed p (p.destroy x) := by
  have hset : Unfed (p.emit (.destroy x)) ((p.emit (.destroy x)).setPeer x
      fun q => { q with closed := q.closed + 1 }) := .setPeer _ rfl
  unfold Pod.destroy
  dsimp only
  split
  · exact ((Unfed.emit p _).trans hset).trans (.throw _)
  · exact (Unfed.emit p _).trans hset

theorem notifyStopPush (r : RoomRef) (origin : Bool) (sid pid : String)
    (p : Pod) : Unfed p (p.notifyStopPush r origin sid pid) := by
  have hloop : ∀ (p : Pod) (e : (_ : String) × SessRef), Unfed p
      (if (p.sess e.2).origin then
        p.emit (.toClient (p.sess e.2).userid
          [(.cmd, .str Cmd.unpub.text),
            (.roomId, .str (p.room r).roomid),
            (.sessID, .str sid),
            (.peerID, .str pid)])
      else p) := by
    intro p e
    split
    · exact .emit p _
    · exact .refl p
  unfold Pod.notifyStopPush
  dsimp only
  split
  · exact (foldl hloop _ p).trans (.emit _ _)
  · exact foldl hloop _ p

theorem stopNotify (s : SessRef) (x : PeerRef) (pid : String) (p : Pod) :
    Unfed p (p.stopNotify s x pid) := by
  unfold Pod.stopNotify
  split
  · exact (Unfed.setPeer p rfl).trans (.notifyStopPush _ _ _ _ _)
  · exact .refl p

theorem dropPublisher (s : SessRef) (x : PeerRef) (pid : String) (p : Pod) :
    Unfed p (p.dropPublisher s x pid) :=
  ((Unfed.stopNotify s x pid p).trans (.destroy _ x)).trans (.setSess _ _ _)

theorem replacePublisher (s : SessRef) (x : PeerRef) (pid : String)
    (p : Pod) : Unfed p (p.replacePublisher s x pid) :=
  ((Unfed.lock p _).trans (.dropPublisher s x pid _)).trans (.unlock _ _)

theorem insertPublisher (s : SessRef) (pid sid : String) (isFake : Bool)
    (p : Pod) : Unfed p
      (p.insertPublisher s pid (createPublishPeer s sid pid isFake)) :=
  (((Unfed.allocPeer p (fun _ h => by cases h)).trans (.lock _ _)).trans
    (.setSess _ _ _)).trans (.unlock _ _)

theorem dropSubscriber (s : SessRef) (y : PeerRef) (k : String) (p : Pod) :
    Unfed p (p.dropSubscriber s y k) :=
  (Unfed.destroy p y).trans (.setSess _ _ _)

theorem replaceSubscriber (s : SessRef) (k : String) (p : Pod) :
    Unfed p (p.replaceSubscriber s k) := by
  unfold Pod.replaceSubscriber
  dsimp only
  split
  · exact (Unfed.lock p _).trans (.throw _)
  · exact ((Unfed.lock p _).trans (.dropSubscriber s _ k _)).trans
      (.unlock _ _)

theorem insertSubscriber (s : SessRef) (k sid ssid pid : String)
    (sdp : Option Sdp) (isFake : Bool) (p : Pod) : Unfed p
      (p.insertSubscriber s k
        (createSubscribePeer s sid ssid pid sdp isFake)) := by
  have hfresh : ∀ f ∈ (createSubscribePeer s sid ssid pid sdp isFake).fed,
      f = (false, [], []) := by
    rintro f ⟨⟩
    rfl
  exact (((Unfed.allocPeer p hfresh).trans (.lock _ _)).trans
    (.setSess _ _ _)).trans (.unlock _ _)

theorem releasePubs (s : SessRef) (pid : String) (p : Pod) :
    Unfed p (p.releasePubs s pid) := by
  refine ((Unfed.lock p (.pubs s)).trans ?_).trans (.unlock _ _)
  split
  · exact .dropPublisher s _ pid _
  · exact .refl _

theorem releaseSubs (s : SessRef) (pid : String) (p : Pod) :
    Unfed p (p.releaseSubs s pid) := by
  refine ((Unfed.lock p _).trans (foldl (fun p e => ?_) _ _)).trans
    (.unlock _ _)
  unfold Pod.releaseSubsOf
  split
  · exact .dropSubscriber s _ _ p
  · exact .refl p

theorem notifyReleasePublish (env : Env) (s : SessRef) (pid : String)
    (p : Pod) : Unfed p (p.notifyReleasePublish env s pid) :=
  (Unfed.getSn p).trans (.emit _ _)

theorem releasePublisher (env : Env) (s : SessRef) (pid : String) (p : Pod) :
    Unfed p (p.releasePublisher env s pid) :=
  ((Unfed.releasePubs s pid p).trans (.releaseSubs s pid _)).trans
    (.notifyReleasePublish env s pid _)

theorem releaseSubscriberPeer (s : SessRef) (sid ssid pid : String)
    (p : Pod) : Unfed p (p.releaseSubscriberPeer s sid ssid pid) := by
  refine ((Unfed.lock p (.subs s)).trans ?_).trans (.unlock _ _)
  split
  · exact .dropSubscriber s _ _ _
  · exact .refl _

theorem handleSubscriberLeaved (s : SessRef) (sid : String) (p : Pod) :
    Unfed p (p.handleSubscriberLeaved s sid) := by
  refine ((Unfed.rlock p _).trans (.runlock _ _)).trans
    (((Unfed.lock _ _).trans (foldl (fun p pid => ?_) _ _)).trans
      (.unlock _ _))
  split
  · exact .dropSubscriber s _ _ p
  · exact .refl p

theorem clearPublishers (s : SessRef) (p : Pod) :
    Unfed p (p.clearPublishers s) := .setSess p _ _

theorem clearSubscribers (s : SessRef) (p : Pod) :
    Unfed p (p.clearSubscribers s) := .setSess p _ _

theorem doLeave (s : SessRef) (p : Pod) : Unfed p (p.doLeave s) := by
  have hloop : ∀ (p : Pod) (e : (_ : String) × PeerRef),
      Unfed p ((p.stopNotify s e.2 (p.peer e.2).peerid).destroy e.2) :=
    fun p e => (Unfed.stopNotify s _ _ p).trans (.destroy _ _)
  have hpubs : Unfed p (p.doLeavePubs s) :=
    (((Unfed.lock p _).trans (foldl hloop _ _)).trans
      (.clearPublishers s _)).trans (.unlock _ _)
  have hsubs : Unfed (p.doLeavePubs s) ((p.doLeavePubs s).doLeaveSubs s) :=
    (((Unfed.lock _ _).trans (foldl (fun p e => .destroy p _) _ _)).trans
      (.clearSubscribers s _)).trans (.unlock _ _)
  exact (hpubs.trans hsubs).trans (.setSess _ _ _)

theorem fakeSubscribe (s : SessRef) (sid pid : String) (n : Nat) (p : Pod) :
    Unfed p (p.fakeSubscribe s sid pid n) :=
  (Unfed.emit p _).trans (.setSess _ _ _)

theorem fakePublisherReConnect (s : SessRef) (sid pid : String) (n : Nat)
    (p : Pod) : Unfed p (p.fakePublisherReConnect s sid pid n) := by
  unfold Pod.fakePublisherReConnect
  split
  · exact .refl p
  · exact (Unfed.setSess p _ _).trans (.fakeSubscribe s sid pid n _)

theorem checkTimer (s : SessRef) (i : Nat) (p : Pod) :
    Unfed p (p.checkTimer s i) := by
  unfold Pod.checkTimer
  dsimp only
  repeat' split
  all_goals first
    | exact .refl p
    | exact .setSess p _ _
    | exact (Unfed.setSess p _ _).trans (.go _ _)

/-! ## Messages to a session -/

/-- A publisher may be given its candidates. -/
theorem answerTo {send : Pod → Pod} (hsend : ∀ p, Unfed p (send p))
    (hrole : (p.peer x).role = .publisher) :
    Unfed p (p.answerTo env x send) := by
  unfold Pod.answerTo
  split
  · refine ((Unfed.setPeer p rfl).trans (.setPeer _ ?_)).trans (hsend _)
    simp only [Peer.fed, Pod.setPeer_peer, if_true, hrole]
  · exact .throw p

theorem offerTo {send : Pod → Pod} (hsend : ∀ p, Unfed p (send p))
    (x : PeerRef) (p : Pod) : Unfed p (p.offerTo env x send) := by
  unfold Pod.offerTo
  split
  · exact .throw p
  · split
    · exact (Unfed.setPeer p rfl).trans (hsend _)
    · exact .throw p

theorem readPublisher (s : SessRef) (pid : String) (p : Pod) :
    Unfed p (p.readPublisher s pid).1 := by
  unfold Pod.readPublisher
  dsimp only
  split
  · exact (Unfed.rlock p _).trans (.throw _)
  · split
    · exact (Unfed.rlock p _).trans (.runlock _ _)
    · exact (Unfed.rlock p _).trans (.throw _)

theorem makeWay (s : SessRef) (pid key : String) (p : Pod) :
    Unfed p (p.makeWay s pid key) := by
  refine (Unfed.readPublisher s pid p).trans ?_
  unfold Pod.makeWay
  dsimp only
  split
  · exact .refl _
  · exact .replaceSubscriber s key _

theorem subscribe {sid : String} {isFake : Bool} {notFound failed : Pod → Pod}
    (hc : command m = some .sub ∨ command m = some .fakeSubscribe)
    (hn : ∀ p, Unfed p (notFound p)) (hf : ∀ p, Unfed p (failed p))
    (p : Pod) : Unfed p (p.subscribe env s m sid isFake notFound failed) := by
  refine Pod.subscribe_frame (R := Unfed) .trans hn hf (makeWay s _)
    (fun key sdp => .insertSubscriber s key _ _ _ sdp _) (fun y p => ?_) p
  rcases hc with hc | hc
  · simp only [Pod.peerHandleMessage, hc]
    exact .offerTo (fun p => .emit p _) _ _
  · simp only [Pod.peerHandleMessage, hc]
    exact .offerTo (fun p => .emit p _) _ _

theorem retirePublisher (s : SessRef) (pid : String) (p : Pod) :
    Unfed p (match (p.sess s).publishers.lookup pid with
      | some x => p.replacePublisher s x pid
      | none => p) := by
  split
  · exact .replacePublisher s _ pid p
  · exact .refl p

/-- The common part of `publish` and `fakeoffer`. -/
theorem publish (s : SessRef) (sid pid : String) (isFake : Bool) (p : Pod) :
    Unfed p ((match (p.sess s).publishers.lookup pid with
      | some x => p.replacePublisher s x pid
      | none => p).insertPublisher s pid
        (createPublishPeer s sid pid isFake)) :=
  (Unfed.retirePublisher s pid p).trans (.insertPublisher s pid sid isFake _)

theorem handlePush (p : Pod) : Unfed p (p.handlePush env s m) := by
  unfold Pod.handlePush
  dsimp only
  split
  · exact (Unfed.publish s _ _ _ p).trans (.emit _ _)
  · exact .retirePublisher s _ p

theorem handleStopPush (p : Pod) : Unfed p (p.handleStopPush env s m) := by
  unfold Pod.handleStopPush
  dsimp only
  split
  · exact ((((Unfed.lock p _).trans (.dropPublisher s _ _ _)).trans
      (.runlock _ _)).trans (.throw _)).trans
      ((Unfed.emit _ _).trans (.notifyReleasePublish env s _ _))
  · exact .refl p

theorem handleOffer (hc : command m = some .offer) (hp : Placed p) :
    Unfed p (p.handleOffer env s m) := by
  refine ((Unfed.rlock p (.subs s)).trans ?_).trans (.runlock _ _)
  split
  · next x hx =>
      rw [Pod.rlock, Pod.emit_sess] at hx
      have hrole := (hp .publisher s _ x hx).2.2.1
      simp only [Pod.peerHandleMessage, hc]
      refine .answerTo (fun p => .emit p _) ?_
      rw [Pod.rlock, Pod.emit_peer]
      exact hrole
  · exact .emit _ _

theorem handleFakeOfferMsg (hc : command m = some .fakeOffer) (p : Pod) :
    Unfed p (p.handleFakeOfferMsg env s m) := by
  unfold Pod.handleFakeOfferMsg
  dsimp only
  split
  · refine (Unfed.publish s (getValue m .sessID) (getValue m .peerID) true
      p).trans ?_
    simp only [Pod.peerHandleMessage, hc]
    refine .answerTo (fun p => .emit p _) ?_
    exact congrArg Peer.role
      ((Pod.insertPublisher_peer _ _ _).trans (if_pos rfl))
  · exact .retirePublisher s _ p

theorem handleStopSub (p : Pod) : Unfed p (p.handleStopSub s m) := by
  refine ((Unfed.rlock p (.subs s)).trans ?_).trans (.runlock _ _)
  split
  · exact .go _ _
  · exact .refl _

theorem handleRoomCreated (p : Pod) : Unfed p (p.handleRoomCreated s m) := by
  refine foldl (fun p e => ?_) _ p
  dsimp only
  split
  · exact .emit p _
  · exact .emit p _

/-- Only answers and candidates of pods are handed to a subscriber. -/
theorem sessionHandleMessage (hp : Placed p)
    (hc : ∀ c, command m = some c →
      c ≠ .answer ∧ c ≠ .fakeAnswer ∧ c ≠ .fakeCandidate) :
    Unfed p (p.sessionHandleMessage env s m) := by
  unfold Pod.sessionHandleMessage
  split
  case h_1 => exact .setSess p _ _
  case h_2 => exact .handlePush p
  case h_3 => exact .handleStopPush p
  case h_4 h =>
      exact .subscribe (.inl h) (fun p => .emit p _) (fun p => .emit p _) p
  case h_5 => exact .handleStopSub p
  case h_6 h => exact .handleOffer h hp
  case h_7 h => exact absurd rfl (hc _ h).1
  case h_8 => exact .handleRoomCreated p
  case h_9 => exact .fakeSubscribe s _ _ _ p
  case h_10 h => exact .subscribe (.inr h) .refl .refl p
  case h_11 h => exact .handleFakeOfferMsg h p
  case h_12 h => exact absurd rfl (hc _ h).2.1
  case h_13 h => exact absurd rfl (hc _ h).2.2
  case h_14 => exact .refl p

/-! ## Callbacks -/

theorem onIceReady (role : Role) (s : SessRef) (sid pid : String) (p : Pod) :
    Unfed p (p.onIceReady role s sid pid) := by
  unfold Pod.onIceReady
  split
  · refine ((Unfed.rlock p (.pubs s)).trans ?_).trans (.runlock _ _)
    split
    · dsimp only
      split
      · exact (Unfed.go _ _).trans (.emit _ _)
      · exact .go _ _
    · exact .refl _
  · split
    · exact .go p _
    · exact .refl p

theorem onIceDisconnected (s : SessRef) (pid : String) (p : Pod) :
    Unfed p (p.onIceDisconnected s pid) := by
  refine ((Unfed.rlock p (.pubs s)).trans ?_).trans (.runlock _ _)
  split
  · exact .stopNotify s _ pid _
  · exact .refl _

theorem testPublisher (s : SessRef) (pid : String) (g : Goroutine) (p : Pod) :
    Unfed p (p.testPublisher s pid g) := by
  refine ((Unfed.rlock p (.pubs s)).trans ?_).trans (.runlock _ _)
  split
  · exact .go _ g
  · exact .refl _

theorem testSubscriber (s : SessRef) (pid : String) (g : Goroutine)
    (p : Pod) : Unfed p (p.testSubscriber s pid g) := by
  refine ((Unfed.rlock p (.subs s)).trans ?_).trans (.runlock _ _)
  split
  · exact .go _ g
  · exact .refl _

theorem onIceFailed (x : PeerRef) (p : Pod) : Unfed p (p.onIceFailed x) := by
  unfold Pod.onIceFailed
  dsimp only
  split
  · split
    · exact (Unfed.testPublisher _ _ _ p).trans
        (.fakePublisherReConnect _ _ _ _ _)
    · exact .testPublisher _ _ _ p
  · exact .testSubscriber _ _ _ p

theorem onIceClosed (x : PeerRef) (p : Pod) : Unfed p (p.onIceClosed x) := by
  unfold Pod.onIceClosed
  dsimp only
  split
  · exact .testPublisher _ _ _ p
  · exact .testSubscriber _ _ _ p

theorem onICEConnectionStateChange (x : PeerRef) (st : IceState) (p : Pod) :
    Unfed p (p.onICEConnectionStateChange x st) := by
  unfold Pod.onICEConnectionStateChange
  split
  · exact .refl p
  · have hflags : Unfed p (p.setIceFlags x st) := by
      refine .setPeer p ?_
      cases st <;> rfl
    refine hflags.trans ?_
    generalize p.setIceFlags x st = p₁
    unfold Pod.reportIce
    dsimp only
    split
    · exact .onIceReady _ _ _ _ p₁
    · split
      · exact .onIceDisconnected _ _ p₁
      · exact .refl p₁
    · exact .onIceFailed x p₁
    · exact .onIceClosed x p₁

theorem onReceivedData {β : Type} {c : β → Prop} [DecidablePred c]
    (f : β → Event) (s : SessRef) (l : List β) (p : Pod) :
    Unfed p ((l.foldl (fun p e => if c e then p.emit (f e) else p)
      (p.rlock (.subs s))).runlock (.subs s)) := by
  refine ((Unfed.rlock p _).trans (foldl (fun p e => ?_) _ _)).trans
    (.runlock _ _)
  split
  · exact .emit p _
  · exact .refl p

theorem deliverAppTo (sid pid : String) (buff : List UInt8)
    (peers : GoMap PeerRef) (p : Pod) :
    Unfed p (p.deliverAppTo sid pid buff peers) := by
  refine foldl (fun p e => ?_) _ p
  split
  · exact .emit p _
  · exact .refl p

theorem onReceivedAppData (r : RoomRef) (sid pid : String)
    (buff : List UInt8) (p : Pod) :
    Unfed p (p.onReceivedAppData r sid pid buff) := by
  refine ((Unfed.rlock p _).trans (foldl (fun p e => ?_) _ _)).trans
    (.runlock _ _)
  exact (((Unfed.rlock p _).trans (.deliverAppTo _ _ _ _ _)).trans
    (.runlock _ _)).trans (((Unfed.rlock _ _).trans
      (.deliverAppTo _ _ _ _ _)).trans (.runlock _ _))

/-! ## Rooms -/

theorem onPublisherReady (r : RoomRef) (sid name pid : String) (p : Pod) :
    Unfed p (p.onPublisherReady r sid name pid) := by
  refine foldl (fun p e => ?_) _ p
  split
  · exact .emit p _
  · exact .refl p

theorem setRoom (p : Pod) (r : RoomRef) (f : Room → Room) :
    Unfed p (p.setRoom r f) := .of_peerHeap rfl

theorem eraseSession (r : RoomRef) (u : String) (p : Pod) :
    Unfed p (p.eraseSession r u) := .setRoom p _ _

theorem dropSession (r : RoomRef) (u : String) (p : Pod) :
    Unfed p (p.dropSession r u) := by
  unfold Pod.dropSession
  dsimp only
  split
  · exact (Unfed.lock p _).trans (.throw _)
  · exact (((Unfed.lock p _).trans (.doLeave _ _)).trans
      (.eraseSession r u _)).trans (.unlock _ _)

theorem dropIfPresent (r : RoomRef) (u : String) (p : Pod) :
    Unfed p (if (p.room r).sessions.lookup u = none then p
      else p.dropSession r u) := by
  split
  · exact .refl p
  · exact .dropSession r u p

theorem insertSession (r : RoomRef) (u : String) (t : Session) (p : Pod) :
    Unfed p (p.insertSession r u t) :=
  .of_peerHeap (insertSession_peerHeap r u t p)

theorem tellStreams (r : RoomRef) (u : String) (p : Pod) :
    Unfed p (p.tellStreams r u) := by
  refine foldl (fun p e => ?_) _ p
  dsimp only
  split
  · exact (Unfed.readLocked p _).trans (.emit _ _)
  · exact .readLocked p _

theorem handleLogin (p : Pod) : Unfed p (p.handleLogin env r m) :=
  (((Unfed.dropIfPresent r _ p).trans (.insertSession r _ _ _)).trans
    (.emit _ _)).trans (.tellStreams r _ _)

theorem kickoutFromRoom (env : Env) (r : RoomRef) (sid : String) (p : Pod) :
    Unfed p (p.kickoutFromRoom env r sid) := by
  have hkick : Unfed p (p.kickSession env r sid) := by
    refine ((Unfed.lock p (.sessions r)).trans ?_).trans (.unlock _ _)
    split
    · dsimp only
      split
      · exact ((Unfed.doLeave _ _).trans (.eraseSession r _ _)).trans
          ((Unfed.getSn _).trans (.emit _ _))
      · exact (Unfed.doLeave _ _).trans (.eraseSession r _ _)
    · exact .refl _
  have hspread : ∀ p : Pod, Unfed p (p.spreadLeaved r sid) := fun p =>
    ((Unfed.rlock p _).trans (foldl (fun p e => .go p _) _ _)).trans
      (.runlock _ _)
  have hempty : ∀ p : Pod, Unfed p (p.releaseIfEmpty r) := by
    intro p
    unfold Pod.releaseIfEmpty
    dsimp only
    split
    · exact .readLocked p _
    · exact (Unfed.readLocked p _).trans (.go _ _)
  exact (hkick.trans (hspread _)).trans (hempty _)

theorem destroyRoom (r : RoomRef) (p : Pod) : Unfed p (p.destroyRoom r) :=
  (((Unfed.lock p _).trans (foldl (fun p _ => .doLeave _ p) _ _)).trans
    (.setRoom _ _ _)).trans (.unlock _ _)

theorem releaseRoom (rid : String) (p : Pod) : Unfed p (p.releaseRoom rid) := by
  refine ((Unfed.lock p .rooms).trans ?_).trans (.unlock _ _)
  split
  · exact (Unfed.destroyRoom _ _).trans (.of_peerHeap rfl)
  · exact .refl _

theorem handleFakeUnpublish (p : Pod) :
    Unfed p (p.handleFakeUnpublish r m) := by
  refine ((Unfed.lock p (.sessions r)).trans ?_).trans (.unlock _ _)
  split
  · split
    · exact (Unfed.doLeave _ _).trans (.eraseSession r _ _)
    · exact .refl _
  · exact .refl _

theorem handleFakePublish (hc : command m = some .fakePublish) (p : Pod) :
    Unfed p (p.handleFakePublish env r m) := by
  unfold Pod.handleFakePublish
  dsimp only
  refine ((Unfed.dropIfPresent r (getValue m .sessID) p).trans
    (.readLocked _ (.sessions r))).trans ?_
  generalize (Pod.runlock (Pod.rlock _ _) _) = p₁
  split
  · simp only [Pod.sessionHandleMessage, hc]
    exact (Unfed.insertSession r _ _ p₁).trans (.fakeSubscribe _ _ _ _ _)
  · exact .go p₁ _

theorem answerRoomCreated (hc : command m = some .roomCreated) (p : Pod) :
    Unfed p (p.answerRoomCreated env r m) := by
  refine foldl (fun p e => ?_) _ p
  split
  · dsimp only
    split
    · simp only [Pod.sessionHandleMessage, hc]
      exact (Unfed.readLocked p _).trans (.handleRoomCreated _)
    · exact .readLocked p _
  · exact .refl p

/-- A room feeds nobody if the session that it hands the message to does
not. Candidates of clients are dropped there. -/
theorem roomHandleMessage
    (h : ∀ s, (p.room r).sessions.lookup (route m) = some s →
      Unfed p (p.sessionHandleMessage env s m)) :
    Unfed p (p.roomHandleMessage env r m) := by
  have hto : ∀ {u : String} {notFound : Pod → Pod},
      (∀ p, Unfed p (notFound p)) → u = route m →
      Unfed p (p.toSession env r u m notFound) := by
    rintro u notFound hn rfl
    unfold Pod.toSession
    split
    · next s hs => exact h s hs
    · exact hn p
  unfold Pod.roomHandleMessage
  dsimp only
  split
  case h_1 => exact .handleLogin p
  case h_6 => exact .kickoutFromRoom env r _ p
  case h_10 hc =>
      unfold Pod.toSession
      split
      · simp only [Pod.sessionHandleMessage, hc]
        exact .refl p
      · exact .refl p
  case h_11 hc => exact .answerRoomCreated hc p
  case h_12 hc => exact .handleFakePublish hc p
  case h_13 => exact .handleFakeUnpublish p
  case h_18 => exact .refl p
  all_goals rename_i hc
  all_goals refine hto (fun p => ?_) (by simp only [route, hc])
  all_goals first
    | exact .emit p _
    | exact .refl p

/-! ## The manager and the machine -/

theorem mgrLogin (hc : command m = some .login) (p : Pod) :
    Unfed p (p.mgrLogin env m) := by
  have hopen : Unfed p (if p.rooms.lookup (getValue m .roomId) = none then
      (p.insertRoom (getValue m .roomId)).broadcastRoomCreated env m
      else p) := by
    split
    · exact ((Unfed.of_peerHeap (insertRoom_peerHeap _ p)).trans
        (.getSn _)).trans (.emit _ _)
    · exact .refl p
  unfold Pod.mgrLogin
  dsimp only
  refine (hopen.trans (.readLocked _ .rooms)).trans ?_
  generalize (Pod.runlock (Pod.rlock _ _) _) = p₁
  unfold Pod.callRoom
  split
  · simp only [Pod.roomHandleMessage, hc]
    exact .handleLogin _
  · exact .throw _

theorem mgrHandleMessage
    (h : p.regist = true → ∀ s, p.seat (getValue m .roomId) (route m) = some s →
      Unfed p (p.sessionHandleMessage env s m)) :
    Unfed p (p.mgrHandleMessage env m) := by
  unfold Pod.mgrHandleMessage
  split
  · unfold Pod.handlePodRegist
    split
    · exact .throw p
    · split
      · exact .of_peerHeap rfl
      · exact .refl p
  · unfold Pod.handlePodRegistNow
    split
    · exact .of_peerHeap rfl
    · exact .refl p
  · next hc =>
      split
      · exact .mgrLogin hc p
      · exact .emit p _
  · split
    · next hreg =>
        unfold Pod.mgrForward
        split
        · split
          · next r hr =>
              exact .roomHandleMessage fun s hs =>
                h hreg s (seat_eq_some.mpr ⟨r, hr, hs⟩)
          · unfold Pod.notFoundRoom
            split
            all_goals first
              | exact .emit p _
              | exact .refl p
        · exact .refl p
    · exact .emit p _

theorem runGoroutine (env : Env) (g : Goroutine) (p : Pod) :
    Unfed p (Pod.runGoroutine env g p) := by
  unfold Pod.runGoroutine
  split
  · exact .releaseRoom _ p
  · exact .kickoutFromRoom env _ _ p
  · unfold Pod.checkKeepAlive
    split
    · exact .refl p
    · split
      · exact .go p _
      · exact .refl p
  · exact .handleSubscriberLeaved _ _ p
  · exact .onPublisherReady _ _ _ _ p
  · unfold Pod.onPublisherPeerFailed
    split
    · exact .releasePublisher env _ _ p
    · exact .refl p
  · unfold Pod.onPublisherPeerFailed
    split
    · exact .releasePublisher env _ _ p
    · exact .refl p
  · unfold Pod.onSubscriberPeerFailed
    split
    · exact .releaseSubscriberPeer _ _ _ _ p
    · exact .refl p
  · unfold Pod.onSubscriberPeerFailed
    split
    · exact .releaseSubscriberPeer _ _ _ _ p
    · exact .refl p
  · exact .releaseSubscriberPeer _ _ _ _ p
  · exact .fakePublisherReConnect _ _ _ _ p
  · exact .refl p

end Unfed

/-- A step feeds nobody unless it is a message, and the session that gets it
feeds someone. -/
theorem step_unfed {a : Env × Input} (hs : Pod.step a p = some q)
    (h : ∀ m, a.2 = .message m → p.regist = true →
      ∀ s, p.seat (getValue m .roomId) (route m) = some s →
        Unfed p (p.sessionHandleMessage a.1 s m)) : Unfed p q := by
  have hf := step_fatal hs
  unfold Pod.step at hs
  rw [if_neg (by simp [hf])] at hs
  split at hs
  · cases hs
    unfold Pod.setSendMessageHandler
    split
    · exact .of_peerHeap rfl
    · exact .of_peerHeap rfl
  · next m hm =>
      cases hs
      exact .mgrHandleMessage (h m hm)
  · cases hs
    refine ((Unfed.rlock p _).trans (Unfed.foldl (fun p e => ?_) _ _)).trans
      (.runlock _ _)
    exact ((Unfed.rlock p _).trans (Unfed.foldl (fun p e => .go p _)
      _ _)).trans (.runlock _ _)
  · split at hs
    · cases hs
      unfold Pod.registTick
      split
      · exact .of_peerHeap rfl
      · exact (Unfed.getSn p).trans (.emit _ _)
    · cases hs
  · split at hs
    · cases hs
      exact .of_peerHeap rfl
    · cases hs
  · split at hs
    · cases hs
      exact .onICEConnectionStateChange _ _ p
    · cases hs
  · cases hs
    exact .checkTimer _ _ p
  · cases hs
    unfold Pod.onDataChannel
    split
    · exact .setPeer p rfl
    · exact .refl p
  · cases hs
    exact .onReceivedData _ _ _ p
  · cases hs
    exact .onReceivedData _ _ _ p
  · cases hs
    exact .onReceivedAppData _ _ _ _ p
  · split at hs
    · cases hs
      next i _ _ g _ =>
        have htaken : Unfed p { p with pending := p.pending.eraseIdx i } :=
          .of_peerHeap rfl
        exact htaken.trans (.runGoroutine _ g _)
    · cases hs

end MediaServer.Ref
