import MediaServer.Proofs.Sent

/-!
# Calls that serve a subscriber

Who subscribes to a stream, answers the offer, or goes away again changes only
subscribers: the rooms, the publishers of every session and the flags of the
peers that were there stay as they are (`SamePubs`). The moves do not show it,
since a move that destroys a peer does not tell its role; so the calls are
read once more. What a `fakesubscribe` sends is also read off here
(`handleFakeSub_sent`).
-/

namespace MediaServer.Ref

open MediaServer.Lib

variable {p q t : Pod} {s : SessRef} {x y : PeerRef} {r : RoomRef}
variable {rid u k pod : String} {env : Env} {m : JsonParser} {a : Env × Input}

structure SamePubs (p q : Pod) : Prop where
  rooms : q.rooms = p.rooms
  roomHeap : q.roomHeap = p.roomHeap
  ident : ∀ s, (q.sess s).ident = (p.sess s).ident
  pubs : ∀ s, (q.sess s).publishers = (p.sess s).publishers
  peerNext : p.peerHeap.next ≤ q.peerHeap.next
  flags : ∀ x, x < p.peerHeap.next →
    (q.peer x).isReady = (p.peer x).isReady ∧
      (q.peer x).shouldNotify = (p.peer x).shouldNotify

namespace SamePubs

theorem refl (p : Pod) : SamePubs p p :=
  ⟨rfl, rfl, fun _ => rfl, fun _ => rfl, Nat.le_refl _, fun _ _ => ⟨rfl, rfl⟩⟩

theorem trans (h : SamePubs p q) (h' : SamePubs q t) : SamePubs p t where
  rooms := h'.rooms.trans h.rooms
  roomHeap := h'.roomHeap.trans h.roomHeap
  ident s := (h'.ident s).trans (h.ident s)
  pubs s := (h'.pubs s).trans (h.pubs s)
  peerNext := Nat.le_trans h.peerNext h'.peerNext
  flags x hx := by
    obtain ⟨hr, hn⟩ := h.flags x hx
    obtain ⟨hr', hn'⟩ := h'.flags x (Nat.lt_of_lt_of_le hx h.peerNext)
    exact ⟨hr'.trans hr, hn'.trans hn⟩

theorem foldl {α : Type} {f : Pod → α → Pod} (hf : ∀ p a, SamePubs p (f p a))
    (l : List α) (p : Pod) : SamePubs p (l.foldl f p) := by
  induction l generalizing p with
  | nil => exact .refl p
  | cons a l ih => exact (hf p a).trans (ih (f p a))

variable (h : SamePubs p q)
include h

theorem entry (s : SessRef) (k : String) :
    q.entry .publisher s k = p.entry .publisher s k :=
  congrArg (AList.lookup k) (h.pubs s)

theorem room (r : RoomRef) : q.room r = p.room r := by
  simp only [Pod.room, h.roomHeap]

theorem seat (rid u : String) : q.seat rid u = p.seat rid u := by
  simp only [Pod.seat, h.rooms, h.room]

theorem parent (s : SessRef) : (q.sess s).parent = (p.sess s).parent :=
  congrArg (·.2.2.2.2.2) (h.ident s)

end SamePubs

theorem Still.samePubs (h : Still p q) : SamePubs p q where
  rooms := h.rooms
  roomHeap := h.roomHeap
  ident := h.ident
  pubs := h.pubs
  peerNext := Nat.le_of_eq h.peerNext.symm
  flags x _ := ⟨h.isReady x, h.shouldNotify x⟩

theorem Spoke.samePubs (h : Spoke p q) : SamePubs p q := by
  obtain ⟨tr, rfl⟩ := h
  exact ⟨rfl, rfl, fun _ => rfl, fun _ => rfl, Nat.le_refl _,
    fun _ _ => ⟨rfl, rfl⟩⟩

/-! ## Single calls -/

namespace Pod

theorem emit_samePubs (p : Pod) (e : Event) : SamePubs p (p.emit e) :=
  (p.emit_spoke e).samePubs

theorem throw_samePubs (p : Pod) : SamePubs p p.throw :=
  { SamePubs.refl p with }

theorem go_samePubs (p : Pod) (g : Goroutine) : SamePubs p (p.go g) :=
  { SamePubs.refl p with }

theorem setPeer_samePubs (p : Pod) (x : PeerRef) {f : Peer → Peer}
    (hf : ∀ t, (f t).isReady = t.isReady ∧
      (f t).shouldNotify = t.shouldNotify) : SamePubs p (p.setPeer x f) :=
  { SamePubs.refl p with
    flags := fun y _ => by
      rw [setPeer_peer]
      split
      · exact hf _
      · exact ⟨rfl, rfl⟩ }

theorem setCachedCandidates_samePubs (p : Pod) (x : PeerRef) :
    SamePubs p (p.setCachedCandidates x) :=
  setPeer_samePubs p x fun _ => ⟨rfl, rfl⟩

/-- A write to the subscribers of a session. -/
theorem setSess_samePubs (p : Pod) (s : SessRef) {f : Session → Session}
    (hf : ∀ t, (f t).ident = t.ident ∧ (f t).publishers = t.publishers) :
    SamePubs p (p.setSess s f) :=
  { SamePubs.refl p with
    ident := fun i => by
      rw [setSess_sess]
      split
      · exact (hf _).1
      · rfl
    pubs := fun i => by
      rw [setSess_sess]
      split
      · exact (hf _).2
      · rfl }

theorem allocPeer_samePubs (p : Pod) (t : Peer) : SamePubs p (p.allocPeer t) :=
  { SamePubs.refl p with
    peerNext := Nat.le_succ _
    flags := fun x hx => by
      rw [show (p.allocPeer t).peer x = p.peer x from
        Heap.alloc_cell_of_ne _ _ (Nat.ne_of_lt hx)]
      exact ⟨rfl, rfl⟩ }

theorem destroy_samePubs (p : Pod) (x : PeerRef) :
    SamePubs p (p.destroy x) := by
  have h := (p.emit_samePubs (.destroy x)).trans (setPeer_samePubs _ x
    (f := fun q => { q with closed := q.closed + 1 }) fun _ => ⟨rfl, rfl⟩)
  unfold destroy
  dsimp only
  split
  · exact h.trans (throw_samePubs _)
  · exact h

theorem dropSubscriber_samePubs (s : SessRef) (y : PeerRef) (key : String)
    (p : Pod) : SamePubs p (p.dropSubscriber s y key) :=
  (p.destroy_samePubs y).trans (setSess_samePubs _ s fun _ => ⟨rfl, rfl⟩)

theorem replaceSubscriber_samePubs (s : SessRef) (key : String) (p : Pod) :
    SamePubs p (p.replaceSubscriber s key) := by
  have hlock := p.emit_samePubs (.sync (.lock (.subs s)))
  unfold replaceSubscriber
  dsimp only
  split
  · exact hlock.trans (throw_samePubs _)
  · exact (hlock.trans (dropSubscriber_samePubs s _ key _)).trans
      (emit_samePubs _ _)

theorem insertSubscriber_samePubs (s : SessRef) (key : String) (t : Peer)
    (p : Pod) : SamePubs p (p.insertSubscriber s key t) := by
  refine .trans ?_ (emit_samePubs _ _)
  refine .trans ?_ (setSess_samePubs _ s fun _ => ⟨rfl, rfl⟩)
  exact (p.allocPeer_samePubs t).trans (emit_samePubs _ _)

theorem readPublisher_samePubs (s : SessRef) (pid : String) (p : Pod) :
    SamePubs p (p.readPublisher s pid).1 := by
  have hlock := p.emit_samePubs (.sync (.rlock (.pubs s)))
  unfold readPublisher
  dsimp only
  split
  · exact hlock.trans (throw_samePubs _)
  · split
    · exact hlock.trans (emit_samePubs _ _)
    · exact hlock.trans (throw_samePubs _)

theorem offerTo_samePubs {send : Pod → Pod} (hsend : ∀ p, SamePubs p (send p))
    (env : Env) (x : PeerRef) (p : Pod) :
    SamePubs p (p.offerTo env x send) := by
  unfold offerTo
  split
  · exact p.throw_samePubs
  · split
    · refine .trans ?_ (hsend _)
      exact setPeer_samePubs p x fun _ => ⟨rfl, rfl⟩
    · exact p.throw_samePubs

theorem answerTo_samePubs {send : Pod → Pod} (hsend : ∀ p, SamePubs p (send p))
    (env : Env) (x : PeerRef) (p : Pod) :
    SamePubs p (p.answerTo env x send) := by
  unfold answerTo
  split
  · refine .trans (.trans ?_ (setCachedCandidates_samePubs _ x)) (hsend _)
    exact setPeer_samePubs p x fun _ => ⟨rfl, rfl⟩
  · exact p.throw_samePubs

theorem handleRemoteAnswer_samePubs (env : Env) (x : PeerRef) (p : Pod) :
    SamePubs p (p.handleRemoteAnswer env x) := by
  unfold handleRemoteAnswer
  split
  · refine .trans ?_ (setCachedCandidates_samePubs _ x)
    exact setPeer_samePubs p x fun _ => ⟨rfl, rfl⟩
  · exact p.throw_samePubs

theorem handleRemoteCandidate_samePubs (env : Env) (x : PeerRef)
    (j : JsonParser) (p : Pod) :
    SamePubs p (p.handleRemoteCandidate env x j) := by
  unfold handleRemoteCandidate
  split
  · exact setPeer_samePubs p x fun _ => ⟨rfl, rfl⟩
  · split
    · exact setPeer_samePubs p x fun _ => ⟨rfl, rfl⟩
    · exact p.throw_samePubs

theorem peerHandleMessage_samePubs (env : Env) (x : PeerRef) (j : JsonParser)
    (p : Pod) : SamePubs p (p.peerHandleMessage env x j) := by
  unfold peerHandleMessage
  split
  · exact offerTo_samePubs (fun p => p.emit_samePubs _) env x p
  · exact answerTo_samePubs (fun p => p.emit_samePubs _) env x p
  · exact handleRemoteAnswer_samePubs env x p
  · exact handleRemoteCandidate_samePubs env x j p
  · exact offerTo_samePubs (fun p => p.emit_samePubs _) env x p
  · exact answerTo_samePubs (fun p => p.emit_samePubs _) env x p
  · exact handleRemoteAnswer_samePubs env x p
  · exact handleRemoteCandidate_samePubs env x j p
  · exact .refl p

theorem makeWay_samePubs (s : SessRef) (pid key : String) (p : Pod) :
    SamePubs p (p.makeWay s pid key) := by
  refine (p.readPublisher_samePubs s pid).trans ?_
  unfold makeWay
  dsimp only
  split
  · exact .refl _
  · exact replaceSubscriber_samePubs s key _

theorem subscribe_samePubs {notFound failed : Pod → Pod}
    (hn : ∀ p, SamePubs p (notFound p)) (hf : ∀ p, SamePubs p (failed p))
    (env : Env) (s : SessRef) (j : JsonParser) (sid : String) (isFake : Bool)
    (p : Pod) :
    SamePubs p (p.subscribe env s j sid isFake notFound failed) :=
  subscribe_frame (R := SamePubs) .trans hn hf (makeWay_samePubs s _)
    (fun key _ => insertSubscriber_samePubs s key _)
    (fun y => peerHandleMessage_samePubs env y j) p

theorem toSubscriber_samePubs {notFound : Pod → Pod}
    (hn : ∀ p, SamePubs p (notFound p)) (env : Env) (s : SessRef)
    (j : JsonParser) (sid : String) (p : Pod) :
    SamePubs p (p.toSubscriber env s j sid notFound) := by
  refine (p.emit_samePubs (.sync (.rlock (.subs s)))).trans
    (SamePubs.trans ?_ (emit_samePubs _ _))
  split
  · exact peerHandleMessage_samePubs env _ j _
  · exact hn _

theorem handleStopSub_samePubs (s : SessRef) (j : JsonParser) (p : Pod) :
    SamePubs p (p.handleStopSub s j) := by
  refine (p.emit_samePubs (.sync (.rlock (.subs s)))).trans
    (SamePubs.trans ?_ (emit_samePubs _ _))
  split
  · exact go_samePubs _ _
  · exact .refl _

theorem releaseSubscriberPeer_samePubs (s : SessRef) (sid ssid pid : String)
    (p : Pod) : SamePubs p (p.releaseSubscriberPeer s sid ssid pid) := by
  refine (p.emit_samePubs (.sync (.lock (.subs s)))).trans
    (SamePubs.trans ?_ (emit_samePubs _ _))
  split
  · exact dropSubscriber_samePubs s _ _ _
  · exact .refl _

theorem onSubscriberPeerFailed_samePubs (r : RoomRef) (sid ssid pid : String)
    (p : Pod) : SamePubs p (p.onSubscriberPeerFailed r sid ssid pid) := by
  unfold onSubscriberPeerFailed
  split
  · exact releaseSubscriberPeer_samePubs _ sid ssid pid p
  · exact .refl p

theorem handleSubscriberLeaved_samePubs (s : SessRef) (sid : String) (p : Pod) :
    SamePubs p (p.handleSubscriberLeaved s sid) := by
  refine ((p.emit_samePubs _).trans (emit_samePubs _ _)).trans
    ((emit_samePubs _ (.sync (.lock (.subs s)))).trans
      (SamePubs.trans (SamePubs.foldl (fun p pid => ?_) _ _)
        (emit_samePubs _ _)))
  split
  · exact dropSubscriber_samePubs s _ _ p
  · exact .refl p

end Pod

/-! ## Steps -/

/-- The commands that are about a subscriber. -/
def Cmd.serves : Cmd → Bool
  | .sub | .stopSub | .answer | .fakeSubscribe | .fakeAnswer
  | .fakeCandidate => true
  | _ => false

theorem sessionHandleMessage_samePubs {c : Cmd} (hc : command m = some c)
    (h : c.serves = true) (env : Env) (s : SessRef) (p : Pod) :
    SamePubs p (p.sessionHandleMessage env s m) := by
  cases c with
  | sub =>
      simp only [Pod.sessionHandleMessage, hc]
      exact Pod.subscribe_samePubs (fun p => p.emit_samePubs _)
        (fun p => p.emit_samePubs _) env s m _ _ p
  | fakeSubscribe =>
      simp only [Pod.sessionHandleMessage, hc]
      exact Pod.subscribe_samePubs .refl .refl env s m _ _ p
  | stopSub =>
      simp only [Pod.sessionHandleMessage, hc]
      exact p.handleStopSub_samePubs s m
  | answer =>
      simp only [Pod.sessionHandleMessage, hc]
      exact Pod.toSubscriber_samePubs (fun p => p.emit_samePubs _) env s m _ p
  | fakeAnswer =>
      simp only [Pod.sessionHandleMessage, hc]
      exact Pod.toSubscriber_samePubs .refl env s m _ p
  | fakeCandidate =>
      simp only [Pod.sessionHandleMessage, hc, Pod.handleFakeCandidate]
      split
      · exact .refl p
      · exact Pod.toSubscriber_samePubs .refl env s m _ p
  | _ => cases h

/-- The spawned calls that are about a subscriber. -/
def Goroutine.serves : Goroutine → Bool
  | .handleSubscriberLeaved .. | .onSubscriberPeerFailed ..
  | .onSubscriberPeerClosed .. | .releaseSubscriberPeer .. => true
  | _ => false

theorem runGoroutine_samePubs {g : Goroutine} (h : g.serves = true) (env : Env)
    (p : Pod) : SamePubs p (p.runGoroutine env g) := by
  cases g with
  | handleSubscriberLeaved s sid =>
      exact p.handleSubscriberLeaved_samePubs s sid
  | onSubscriberPeerFailed r sid ssid pid x =>
      exact p.onSubscriberPeerFailed_samePubs r sid ssid pid
  | onSubscriberPeerClosed r sid ssid pid x =>
      exact p.onSubscriberPeerFailed_samePubs r sid ssid pid
  | releaseSubscriberPeer s sid ssid pid x =>
      exact p.releaseSubscriberPeer_samePubs s sid ssid pid
  | _ => cases h

theorem step_samePubs {c : Cmd} (hs : Pod.step a p = some q)
    (hm : a.2 = .message m) (hc : command m = some c)
    (h : c.serves = true) : SamePubs p q := by
  have hroute : c.routed = true := by
    cases c with
    | sub | stopSub | answer | fakeSubscribe | fakeAnswer | fakeCandidate => rfl
    | _ => cases h
  by_cases hno : p.regist = true →
      p.seat (getValue m .roomId) (route m) = none
  · exact (step_unrouted hs hm hc hroute hno).samePubs
  · obtain ⟨hreg, hseat⟩ := Classical.not_imp.mp hno
    obtain ⟨s, hseat⟩ := Option.ne_none_iff_exists'.mp hseat
    rw [step_routed hs hm hc hroute hreg hseat]
    exact sessionHandleMessage_samePubs hc h a.1 s p

theorem step_serves_go {i : Nat} {g : Goroutine} (hs : Pod.step a p = some q)
    (hi : a.2 = .go i) (hg : p.pending[i]? = some g)
    (h : g.serves = true) : SamePubs p q := by
  have htake : SamePubs p { p with pending := p.pending.eraseIdx i } :=
    { SamePubs.refl p with }
  rw [step_go hs hi hg]
  exact htake.trans (runGoroutine_samePubs h a.1 _)

/-! ## What a `fakesubscribe` sends -/

theorem readPublisher_sent (s : SessRef) (pid : String) (p : Pod) :
    Sent pod p (p.readPublisher s pid).1 [] := by
  have hlock : Sent pod p (p.rlock (.pubs s)) [] := emit_sentNothing p rfl
  unfold Pod.readPublisher
  dsimp only
  split
  · exact hlock.trans (.of_log rfl)
  · split
    · exact hlock.trans (emit_sentNothing _ rfl)
    · exact hlock.trans (.of_log rfl)

theorem replaceSubscriber_sent (s : SessRef) (key : String) (p : Pod) :
    Sent pod p (p.replaceSubscriber s key) [] := by
  have hlock : Sent pod p (p.lock (.subs s)) [] := emit_sentNothing p rfl
  unfold Pod.replaceSubscriber
  dsimp only
  split
  · exact hlock.trans (.of_log rfl)
  · next y _ =>
      have hdrop : Sent pod p ((p.lock (.subs s)).dropSubscriber s y key) [] :=
        hlock.trans ((destroy_sent _ y).trans (.of_log rfl))
      exact hdrop.trans (Pod.unlock_still _ _).sent

theorem makeWay_sent (s : SessRef) (pid key : String) (p : Pod) :
    Sent pod p (p.makeWay s pid key) [] := by
  have hread : Sent pod p _ [] := readPublisher_sent s pid p
  unfold Pod.makeWay
  dsimp only
  split
  · exact hread
  · exact hread.trans (replaceSubscriber_sent s key _)

theorem insertSubscriber_sent (s : SessRef) (key : String) (t : Peer)
    (p : Pod) : Sent pod p (p.insertSubscriber s key t) [] :=
  (Sent.of_log (q := p.allocPeer t) rfl).trans
    (locked_sent (f := fun q => q.storeSubscriber s key p.peerHeap.next)
      fun _ => rfl)

/-- The message offers the stream that `m` asks session `s` for. -/
def Offers (p : Pod) (s : SessRef) (m msg : JsonParser) : Prop :=
  command msg = some .fakeOffer ∧
    getValue msg .roomId = (p.room (p.sess s).parent).roomid ∧
    getValue msg .sessID = getValue m .sessID ∧
    getValue msg .peerID = getValue m .peerID

theorem handleFakeSubscribe_sent (hpar : (p.peer y).parent = s)
    (hq : (p.handleFakeSubscribe env y m).fatal = false) :
    ∃ msg, Offers p s m msg ∧ Sent pod p (p.handleFakeSubscribe env y m)
      (if getValue m .podId = pod then [msg] else []) := by
  unfold Pod.handleFakeSubscribe Pod.offerTo at hq ⊢
  split at hq
  · cases hq
  split at hq
  · next sdp _ hok =>
      simp only [if_pos hok]
      generalize hset : p.setPeer y (fun q => { q with
        dataChannel := q.dataChannel || sdp.media.contains "application"
        haveLocalOffer := true }) = t at hq ⊢
      have hroom : t.roomidOf y = (p.room (p.sess s).parent).roomid := by
        rw [← hset, Pod.roomidOf, Pod.setPeer_peer, if_pos rfl]
        change (p.room (p.sess (p.peer y).parent).parent).roomid = _
        rw [hpar]
      have hlog : t.log = p.log := by rw [← hset]; rfl
      rw [Pod.emit_fatal] at hq
      refine ⟨_, ?_, (Sent.of_log hlog).trans (toCross_sent hq _)⟩
      exact ⟨command_cons _ _, hroom, rfl, rfl⟩
  · cases hq

/-- A `fakesubscribe` for a stream that is there is answered by an offer. -/
theorem handleFakeSub_sent (hc : command m = some .fakeSubscribe)
    (hq : (p.handleFakeSub env s m).fatal = false) :
    ∃ ms, Sent pod p (p.handleFakeSub env s m) ms ∧
      (∀ msg ∈ ms, Offers p s m msg ∧
        p.entry .publisher s (getValue m .peerID) ≠ none) ∧
      (env.createOk = true → getValue m .podId = pod →
        p.entry .publisher s (getValue m .peerID) ≠ none → ms ≠ []) := by
  have hserves := p.makeWay_samePubs s (getValue m .peerID)
    (subKey (getValue m .podId) (getValue m .srcSessID) (getValue m .peerID))
  have hsent : Sent pod p _ [] := makeWay_sent s (getValue m .peerID)
    (subKey (getValue m .podId) (getValue m .srcSessID) (getValue m .peerID)) p
  generalize h : p.handleFakeSub env s m = q at hq ⊢
  obtain ⟨hnone, rfl⟩ | ⟨hsome, -, rfl⟩ | ⟨-, hok, rfl⟩ :=
    Pod.subscribe_cases h
  · exact ⟨[], .of_log rfl, nofun, fun _ _ hx => absurd hnone hx⟩
  · simp only [Pod.peerHandleMessage, hc] at hq ⊢
    generalize p.makeWay s _ _ = t at hq hserves hsent ⊢
    generalize hpeer : createSubscribePeer s _ _ _ _ _ = t₁ at hq ⊢
    generalize subKey _ _ _ = key at hq ⊢
    have hins := hserves.trans (t.insertSubscriber_samePubs s key t₁)
    have hpar : ((t.insertSubscriber s key t₁).peer
        t.peerHeap.next).parent = s := by
      rw [Pod.insertSubscriber_peer, if_pos rfl, ← hpeer]
      rfl
    obtain ⟨msg, hmsg, hoff⟩ := handleFakeSubscribe_sent hpar hq
    rw [Offers, hins.room, hins.parent] at hmsg
    refine ⟨_, hsent.trans ((insertSubscriber_sent s key t₁ t).trans hoff),
      fun msg' hmem => ?_, fun _ hpod _ => ?_⟩
    · split at hmem
      · rw [List.mem_singleton.mp hmem]
        exact ⟨hmsg, hsome⟩
      · cases hmem
    · rw [if_pos hpod]
      exact nofun
  · exact ⟨[], hsent, nofun, fun h => absurd (hok.symm.trans h) nofun⟩

end MediaServer.Ref
