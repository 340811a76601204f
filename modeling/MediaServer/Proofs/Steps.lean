import MediaServer.Proofs.Peers
import MediaServer.Proofs.Store

/-!
# What a call is made of

Every call of the server, from a message to a spawned release, is a sequence
of a few kinds of small changes: peers are removed, a peer is inserted, a
session takes or leaves its seat in a room, a room opens or closes, a spawned
call is taken off the list, or nothing of the kind happens. `Micro` lists
them with what is known when the code makes them: a session leaves its seat
only after `DoLeave`, and takes one that is free.

The lemmas below decompose each handler once. What a whole call can insert
(`Adds`) and which releases it can spawn are parameters of the decomposition,
and `step_does` puts them together for the machine. An invariant of pods is
then proved for nine small changes instead of for every handler.
-/

namespace MediaServer.Ref

open MediaServer.Lib Relation

variable {p q : Pod} {r : RoomRef} {s : SessRef} {u : String}
variable {G : Goroutine → Prop} {I : SessRef → Peer → Prop}

/-- One small change: it spawns releases in `G` and inserts peers in `I`
only. -/
inductive Micro (G : Goroutine → Prop) (I : SessRef → Peer → Prop) :
    Pod → Pod → Prop where
  | asks {p q : Pod} (h : Asks G p q) : Micro G I p q
  | removes {p q : Pod} {X : Set PeerRef} (h : Removes X p q) : Micro G I p q
  | inserts {p q : Pod} {s : SessRef} {t : Peer} (h : Inserts s t p q)
      (hseat : ∃ r u, (p.room r).sessions.lookup u = some s) (hI : I s t) :
      Micro G I p q
  | seat {p : Pod} (r : RoomRef) (u : String) (t : Session)
      (hr : r < p.roomHeap.next) (hfree : (p.room r).sessions.lookup u = none)
      (hu : t.userid = u) (hpar : t.parent = r) (hpubs : t.publishers = ∅)
      (hsubs : t.subscribers = ∅) : Micro G I p (p.insertSession r u t)
  | unseat {p : Pod} (r : RoomRef) (u : String)
      (hleft : ∀ s, (p.room r).sessions.lookup u = some s →
        ∀ role k, p.entry role s k = none) : Micro G I p (p.eraseSession r u)
  | vacate {p : Pod} (r : RoomRef)
      (hleft : ∀ u s, (p.room r).sessions.lookup u = some s →
        ∀ role k, p.entry role s k = none) : Micro G I p (p.clearSessions r)
  | openRoom {p : Pod} (rid : String) : Micro G I p (p.insertRoom rid)
  | closeRoom {p : Pod} (rid : String) : Micro G I p (p.eraseRoom rid)
  | take {p : Pod} (i : Nat) :
      Micro G I p { p with pending := p.pending.eraseIdx i }

theorem Micro.mono {G' : Goroutine → Prop} {I' : SessRef → Peer → Prop}
    (hG : ∀ g, G g → G' g) (hI : ∀ s t, I s t → I' s t) (h : Micro G I p q) :
    Micro G' I' p q := by
  cases h with
  | asks h => exact .asks (h.mono hG)
  | removes h => exact .removes h
  | inserts h hseat hi => exact .inserts h hseat (hI _ _ hi)
  | seat r u t hr hfree hu hpar hpubs hsubs =>
      exact .seat r u t hr hfree hu hpar hpubs hsubs
  | unseat r u hleft => exact .unseat r u hleft
  | vacate r hleft => exact .vacate r hleft
  | openRoom rid => exact .openRoom rid
  | closeRoom rid => exact .closeRoom rid
  | take i => exact .take i

/-! ## What every small change keeps -/

/-- Every session that holds a peer sits in a room. -/
def Homed (p : Pod) : Prop :=
  ∀ role s k x, p.entry role s k = some x →
    ∃ r u, (p.room r).sessions.lookup u = some s

structure PodOk (p : Pod) : Prop extends Seated p where
  placed : Placed p
  homed : Homed p

theorem Placed.of_asks (hp : Placed p) (h : Asks G p q) : Placed q := by
  intro role s k x hx
  rw [h.entry] at hx
  obtain ⟨hlt, hs, hrole, hpar, hk⟩ := hp role s k x hx
  obtain ⟨-, -, -, hrole', -, hpar', -⟩ := Peer.ident_eq (h.peerIdent x)
  refine ⟨by rw [h.peerNext]; exact hlt, by rw [h.sessNext]; exact hs, ?_⟩
  rw [hrole', hpar', Peer.key_eq (h.peerIdent x)]
  exact ⟨hrole, hpar, hk⟩

/-- The maps and the peers are read from their two heaps. -/
theorem Placed.of_heaps (hp : Placed p) (hs : q.sessHeap = p.sessHeap)
    (hx : q.peerHeap = p.peerHeap) : Placed q := by
  intro role s k x h
  simp only [Pod.entry, Pod.sess, hs] at h
  simp only [Pod.peer, hs, hx]
  exact hp role s k x h

theorem entry_of_sessHeap (hs : q.sessHeap = p.sessHeap) (role : Role)
    (s : SessRef) (k : String) : q.entry role s k = p.entry role s k := by
  simp only [Pod.entry, Pod.sess, hs]

/-- A new session has empty maps, as the cell it is stored in had before. -/
theorem insertSession_entry {t : Session} (hp : Placed p)
    (hpubs : t.publishers = ∅) (hsubs : t.subscribers = ∅) (role : Role)
    (i : SessRef) (k : String) :
    (p.insertSession r u t).entry role i k = p.entry role i k := by
  have hempty : (t.peers role).lookup k = none := by
    cases role with
    | publisher => simp [Session.peers, hpubs]
    | subscriber => simp [Session.peers, hsubs]
  rw [Pod.entry, Pod.insertSession_sess]
  split
  · next hi =>
      subst hi
      rw [hempty]
      cases hx : p.entry role p.sessHeap.next k with
      | none => rfl
      | some x => exact absurd (hp role _ k x hx).2.1 (Nat.lt_irrefl _)
  · rfl

theorem insertSession_peerHeap (r : RoomRef) (u : String) (t : Session)
    (p : Pod) : (p.insertSession r u t).peerHeap = p.peerHeap := by
  simp [Pod.insertSession, Pod.unlock, Pod.lock, Pod.storeSession,
    Pod.setRoom, Pod.allocSess]

theorem Placed.insertSession {t : Session} (hp : Placed p)
    (hpubs : t.publishers = ∅) (hsubs : t.subscribers = ∅) :
    Placed (p.insertSession r u t) := by
  intro role i k x hx
  rw [insertSession_entry hp hpubs hsubs] at hx
  obtain ⟨hlt, hi, hfields⟩ := hp role i k x hx
  rw [Pod.peer, insertSession_peerHeap, Pod.insertSession_sessNext]
  exact ⟨hlt, Nat.lt_succ_of_lt hi, hfields⟩

theorem insertRoom_sessHeap (rid : String) (p : Pod) :
    (p.insertRoom rid).sessHeap = p.sessHeap := by
  simp [Pod.insertRoom, Pod.unlock, Pod.lock, Pod.storeRoom, Pod.allocRoom]

theorem insertRoom_peerHeap (rid : String) (p : Pod) :
    (p.insertRoom rid).peerHeap = p.peerHeap := by
  simp [Pod.insertRoom, Pod.unlock, Pod.lock, Pod.storeRoom, Pod.allocRoom]

theorem insertRoom_roomNext (rid : String) (p : Pod) :
    (p.insertRoom rid).roomHeap.next = p.roomHeap.next + 1 := by
  simp [Pod.insertRoom, Pod.unlock, Pod.lock, Pod.storeRoom, Pod.allocRoom]

theorem insertRoom_rooms (rid : String) (p : Pod) :
    (p.insertRoom rid).rooms = p.rooms.insert rid p.roomHeap.next := by
  simp [Pod.insertRoom, Pod.unlock, Pod.lock, Pod.storeRoom, Pod.allocRoom]

theorem insertRoom_room (rid : String) (p : Pod) (r : RoomRef) :
    (p.insertRoom rid).room r =
      if r = p.roomHeap.next then createRoom rid else p.room r := by
  simp only [Pod.insertRoom, Pod.unlock, Pod.lock, Pod.storeRoom,
    Pod.allocRoom, Pod.emit_roomHeap, Pod.room, Heap.alloc_cell]

theorem insertRoom_room_of_lt (rid : String) (p : Pod)
    (hr : r < p.roomHeap.next) : (p.insertRoom rid).room r = p.room r := by
  rw [insertRoom_room, if_neg (Nat.ne_of_lt hr)]

theorem Homed.of_same (hp : Homed p)
    (he : ∀ role s k x, q.entry role s k = some x →
      p.entry role s k = some x)
    (hr : ∀ r, q.room r = p.room r) : Homed q := by
  intro role s k x hx
  obtain ⟨r, u, hu⟩ := hp role s k x (he role s k x hx)
  exact ⟨r, u, by rw [hr]; exact hu⟩

theorem Micro.podOk (hm : Micro G I p q) (h : PodOk p) : PodOk q := by
  cases hm with
  | asks hq =>
      exact ⟨h.toSeated.of_sameStore hq.toSameStore, h.placed.of_asks hq,
        h.homed.of_same (fun role s k x hx => by rwa [hq.entry] at hx) hq.room⟩
  | removes hq =>
      exact ⟨h.toSeated.of_sameStore hq.toSameStore, h.placed.of_removes hq,
        h.homed.of_same (fun role s k x hx => ((hq.entry role s k x).mp hx).1)
          hq.room⟩
  | inserts hq hseat _ =>
      refine ⟨h.toSeated.of_sameStore hq.toSameStore, h.placed.of_inserts hq,
        fun role i k x hx => ?_⟩
      rw [hq.entry] at hx
      have hseat' : ∃ r u, (p.room r).sessions.lookup u = some i := by
        split at hx
        · next hat => rw [hat.2.1]; exact hseat
        · exact h.homed role i k x hx
      obtain ⟨r, u, hu⟩ := hseat'
      exact ⟨r, u, by rw [hq.room]; exact hu⟩
  | seat r u t hr hfree hu hpar hpubs hsubs =>
      refine ⟨h.toSeated.insertSession hr hu hpar,
        h.placed.insertSession hpubs hsubs, fun role i k x hx => ?_⟩
      rw [insertSession_entry h.placed hpubs hsubs] at hx
      obtain ⟨r', u', hu'⟩ := h.homed role i k x hx
      refine ⟨r', u', ?_⟩
      rw [Pod.insertSession_lookup, if_neg]
      · exact hu'
      · rintro ⟨rfl, rfl⟩
        rw [hfree] at hu'
        cases hu'
  | unseat r u hleft =>
      refine ⟨h.toSeated.of_edits (Pod.eraseSession_edits r u p),
        h.placed.of_heaps rfl rfl, fun role i k x hx => ?_⟩
      obtain ⟨r', u', hu'⟩ := h.homed role i k x hx
      refine ⟨r', u', ?_⟩
      by_cases hr : r' = r
      · subst hr
        rw [(Pod.eraseSession_edits r' u p).keep u']
        · exact hu'
        · rintro rfl
          have hnone := hleft i hu' role k
          rw [show p.entry role i k = some x from hx] at hnone
          cases hnone
      · rw [(Pod.eraseSession_edits r u p).other r' hr]
        exact hu'
  | vacate r hleft =>
      refine ⟨h.toSeated.of_clears (clearSessions_clears r p),
        h.placed.of_heaps rfl rfl, fun role i k x hx => ?_⟩
      obtain ⟨r', u', hu'⟩ := h.homed role i k x hx
      refine ⟨r', u', ?_⟩
      rw [(clearSessions_clears r p).other r']
      · exact hu'
      · rintro rfl
        have hnone := hleft u' i hu' role k
        rw [show p.entry role i k = some x from hx] at hnone
        cases hnone
  | openRoom rid =>
      refine ⟨h.toSeated.insertRoom rid, h.placed.of_heaps
        (insertRoom_sessHeap rid p) (insertRoom_peerHeap rid p),
        fun role i k x hx => ?_⟩
      rw [entry_of_sessHeap (insertRoom_sessHeap rid p)] at hx
      obtain ⟨r', u', hu'⟩ := h.homed role i k x hx
      refine ⟨r', u', ?_⟩
      rw [insertRoom_room_of_lt rid p (h.known r' u' i hu')]
      exact hu'
  | closeRoom rid =>
      exact ⟨h.toSeated.eraseRoom rid, h.placed.of_heaps rfl rfl,
        h.homed.of_same (fun _ _ _ _ hx => hx) fun _ => rfl⟩
  | take i =>
      exact ⟨⟨h.rooms, h.sessions, h.known⟩, h.placed.of_heaps rfl rfl,
        h.homed.of_same (fun _ _ _ _ hx => hx) fun _ => rfl⟩

/-- A session that exists keeps the fields it was created with. -/
theorem Micro.sessNext_le (hm : Micro G I p q) :
    p.sessHeap.next ≤ q.sessHeap.next := by
  cases hm with
  | asks h => exact h.sessNext.ge
  | removes h => exact h.sessNext.ge
  | inserts h _ _ => exact h.sessNext.ge
  | seat r u t => rw [Pod.insertSession_sessNext]; exact Nat.le_succ _
  | openRoom rid => rw [insertRoom_sessHeap]
  | unseat r u _ => exact Nat.le_refl _
  | vacate r _ => exact Nat.le_refl _
  | closeRoom rid => exact Nat.le_refl _
  | take i => exact Nat.le_refl _

theorem Micro.ident (hm : Micro G I p q) (hs : s < p.sessHeap.next) :
    (q.sess s).ident = (p.sess s).ident := by
  cases hm with
  | asks h => exact h.ident s
  | removes h => exact h.ident s
  | inserts h _ _ => exact h.ident s
  | seat r u t =>
      rw [Pod.insertSession_sess, if_neg (Nat.ne_of_lt hs)]
  | openRoom rid => rw [Pod.sess, insertRoom_sessHeap, Pod.sess]
  | unseat r u _ => rfl
  | vacate r _ => rfl
  | closeRoom rid => rfl
  | take i => rfl

/-! ## Sequences of small changes -/

/-- From a pod in order, `q` is reached by small changes. -/
def Does (G : Goroutine → Prop) (I : SessRef → Peer → Prop) (p q : Pod) :
    Prop := PodOk p → ReflTransGen (Micro G I) p q

theorem podOk_of_micros (h : ReflTransGen (Micro G I) p q) (hp : PodOk p) :
    PodOk q := by
  induction h with
  | refl => exact hp
  | tail _ hm ih => exact hm.podOk ih

theorem ident_of_micros (h : ReflTransGen (Micro G I) p q)
    (hs : s < p.sessHeap.next) :
    s < q.sessHeap.next ∧ (q.sess s).ident = (p.sess s).ident := by
  induction h with
  | refl => exact ⟨hs, rfl⟩
  | tail _ hm ih =>
      exact ⟨Nat.lt_of_lt_of_le ih.1 hm.sessNext_le,
        (hm.ident ih.1).trans ih.2⟩

theorem Does.podOk (h : Does G I p q) (hp : PodOk p) : PodOk q :=
  podOk_of_micros (h hp) hp

theorem Does.of (h : PodOk p → Does G I p q) : Does G I p q :=
  fun hp => h hp hp

theorem Does.micro (h : PodOk p → Micro G I p q) : Does G I p q :=
  fun hp => .single (h hp)

theorem Does.refl (p : Pod) : Does G I p p := fun _ => .refl

theorem Does.trans {t : Pod} (h : Does G I p q) (h' : Does G I q t) :
    Does G I p t := fun hp => (h hp).trans (h' (h.podOk hp))

theorem Does.mono {G' : Goroutine → Prop} {I' : SessRef → Peer → Prop}
    (hG : ∀ g, G g → G' g) (hI : ∀ s t, I s t → I' s t) (h : Does G I p q) :
    Does G' I' p q := fun hp =>
  ReflTransGen.mono (fun _ _ => Micro.mono hG hI) _ _ (h hp)

theorem Asks.does (h : Asks G p q) : Does G I p q := .micro fun _ => .asks h

theorem Asks.calm (h : Quiet p q) : Does G I p q := Asks.does h.any

theorem Removes.does {X : Set PeerRef} (h : Placed p → Removes X p q) :
    Does G I p q := .micro fun hp => .removes (h hp.placed)

/-! ## `session.HandleMessage` -/

/-- The peers that a message adds to the session that handles it; a
subscriber only next to a publisher of its stream. -/
def Adds (p : Pod) (s : SessRef) (j : JsonParser) (t : Peer) : Prop :=
  match command j with
  | some .push =>
      t = createPublishPeer s (getValue j .sessID) (getValue j .peerID) false
  | some .fakeOffer =>
      t = createPublishPeer s (getValue j .sessID) (getValue j .peerID) true
  | some .sub => p.entry .publisher s (getValue j .peerID) ≠ none ∧
      ∃ sdp, t = createSubscribePeer s (getValue j .sessID)
        (getValue j .srcSessID) (getValue j .peerID) sdp false
  | some .fakeSubscribe => p.entry .publisher s (getValue j .peerID) ≠ none ∧
      ∃ sdp, t = createSubscribePeer s (getValue j .podId)
        (getValue j .srcSessID) (getValue j .peerID) sdp true
  | _ => False

/-- The release that a `stopsub` spawns. -/
def Frees (p : Pod) (s : SessRef) (j : JsonParser) (g : Goroutine) : Prop :=
  command j = some .stopSub ∧ ∃ y,
    p.entry .subscriber s (subKey (getValue j .sessID)
      (getValue j .srcSessID) (getValue j .peerID)) = some y ∧
    g = .releaseSubscriberPeer s (getValue j .sessID) (getValue j .srcSessID)
      (getValue j .peerID) y

section Session

variable {env : Env} {j : JsonParser}

theorem retirePublisher_removes (hp : Placed p) (s : SessRef) (k : String) :
    Removes {x | p.entry .publisher s k = some x} p
      (match (p.sess s).publishers.lookup k with
        | some x => p.replacePublisher s x k
        | none => p) := by
  split
  · next x hx => exact Pod.removes_found hx (Pod.replacePublisher_removes hp hx)
  · next hx => exact Pod.removes_missing hx

theorem makeWay_removes (hp : Placed p) (s : SessRef) (pid k : String) :
    Removes {x | p.entry .subscriber s k = some x} p (p.makeWay s pid k) := by
  have hread := p.readPublisher_quiet s pid
  have hp₁ := hp.of_quiet hread
  simp only [← hread.entry]
  refine hread.trans_removes ?_
  unfold Pod.makeWay
  dsimp only
  split
  · next hx => exact Pod.removes_missing hx
  · next hx =>
      obtain ⟨y, hy⟩ := Option.ne_none_iff_exists'.mp hx
      exact Pod.removes_found hy (Pod.replaceSubscriber_removes hp₁ hy)

/-- After its entry was removed, a place is free. -/
theorem Removes.free {role : Role} {k : String}
    (h : Removes {x | p.entry role s k = some x} p q) :
    q.entry role s k = none := by
  cases hq : q.entry role s k with
  | none => rfl
  | some x =>
      obtain ⟨hx, hno⟩ := (h.entry role s k x).mp hq
      exact absurd hx hno

/-- The common part of `publish` and `fakeoffer`: clear the key, then store
the new peer. -/
theorem publish_does {isFake : Bool} (hseat : (p.room r).sessions.lookup u =
    some s) (sid pid : String)
    (hI : I s (createPublishPeer s sid pid isFake)) :
    Does G I p ((match (p.sess s).publishers.lookup pid with
      | some x => p.replacePublisher s x pid
      | none => p).insertPublisher s pid
        (createPublishPeer s sid pid isFake)) := by
  refine .of fun hp => ?_
  have hrem := retirePublisher_removes hp.placed s pid
  generalize (match (p.sess s).publishers.lookup pid with
    | some x => p.replacePublisher s x pid
    | none => p) = p₁ at hrem ⊢
  refine (Removes.does fun _ => hrem).trans (.micro fun hp₁ => ?_)
  have hseat₁ : (p₁.room r).sessions.lookup u = some s := by
    rw [hrem.room]; exact hseat
  exact .inserts (Pod.insertPublisher_inserts
    (t := createPublishPeer s sid pid isFake) (hp₁.sessions r u s hseat₁).2.2
    rfl rfl rfl hrem.free) ⟨r, u, hseat₁⟩ hI

theorem handlePush_does (hseat : (p.room r).sessions.lookup u = some s)
    (hI : I s (createPublishPeer s (getValue j .sessID) (getValue j .peerID)
      false)) : Does G I p (p.handlePush env s j) := by
  unfold Pod.handlePush
  dsimp only
  split
  · exact (publish_does hseat _ _ hI).trans (Pod.emit_quiet _ _).calm
  · exact Removes.does fun hp => retirePublisher_removes hp s _

theorem handleFakeOfferMsg_does
    (hseat : (p.room r).sessions.lookup u = some s)
    (hI : I s (createPublishPeer s (getValue j .sessID) (getValue j .peerID)
      true)) : Does G I p (p.handleFakeOfferMsg env s j) := by
  unfold Pod.handleFakeOfferMsg
  dsimp only
  split
  · exact (publish_does hseat _ _ hI).trans
      (Pod.peerHandleMessage_quiet env _ j _).calm
  · exact Removes.does fun hp => retirePublisher_removes hp s _

theorem handleStopPush_does : Does G I p (p.handleStopPush env s j) := by
  unfold Pod.handleStopPush
  dsimp only
  split
  · next x hx =>
      exact (Removes.does fun hp => Pod.stopSection_removes hp hx).trans
        (((Pod.throw_quiet _).trans (Pod.emit_quiet _ _)).trans
          (Pod.notifyReleasePublish_quiet env s _ _)).calm
  · exact .refl p

theorem subscribe_does {sid : String} {isFake : Bool}
    {notFound failed : Pod → Pod} (hn : ∀ p, Quiet p (notFound p))
    (hf : ∀ p, Quiet p (failed p))
    (hseat : (p.room r).sessions.lookup u = some s)
    (hI : p.entry .publisher s (getValue j .peerID) ≠ none → ∀ sdp,
      I s (createSubscribePeer s sid (getValue j .srcSessID)
        (getValue j .peerID) sdp isFake)) :
    Does G I p (p.subscribe env s j sid isFake notFound failed) := by
  generalize h : p.subscribe env s j sid isFake notFound failed = q
  refine .of fun hp => ?_
  have hrem := makeWay_removes hp.placed s (getValue j .peerID)
    (subKey sid (getValue j .srcSessID) (getValue j .peerID))
  obtain ⟨-, rfl⟩ | ⟨hpub, -, rfl⟩ | ⟨-, -, rfl⟩ := Pod.subscribe_cases h
  · exact (hn p).calm
  · refine Does.trans (Removes.does fun _ => hrem) (.trans
      (.micro fun hp₁ => ?_) (Pod.peerHandleMessage_quiet env _ j _).calm)
    have hseat₁ := (congrArg (·.sessions.lookup u) (hrem.room r)).trans hseat
    exact .inserts (Pod.insertSubscriber_inserts
      (t := createSubscribePeer s sid (getValue j .srcSessID)
        (getValue j .peerID) _ isFake) (hp₁.sessions r u s hseat₁).2.2
      rfl rfl rfl hrem.free) ⟨r, u, hseat₁⟩ (hI hpub _)
  · exact Does.trans (Removes.does fun _ => hrem) (hf _).calm

theorem sessionHandleMessage_does
    (hseat : (p.room r).sessions.lookup u = some s) :
    Does (Frees p s j) (fun i t => i = s ∧ Adds p s j t) p
      (p.sessionHandleMessage env s j) := by
  unfold Pod.sessionHandleMessage
  split
  case h_1 => exact (Pod.heartbeat_quiet env s p).calm
  case h_2 hc =>
      exact handlePush_does hseat ⟨rfl, by simp only [Adds, hc]⟩
  case h_3 => exact handleStopPush_does
  case h_4 hc =>
      exact subscribe_does (fun p => p.emit_quiet _) (fun p => p.emit_quiet _)
        hseat fun hpub sdp =>
          ⟨rfl, by simp only [Adds, hc]; exact ⟨hpub, sdp, rfl⟩⟩
  case h_5 hc =>
      exact ((Pod.handleStopSub_asks s j p).mono
        fun g hg => ⟨hc, hg⟩).does
  case h_6 => exact (Pod.handleOffer_quiet env s j p).calm
  case h_7 => exact (Pod.toSubscriber_quiet (fun p => p.emit_quiet _) p).calm
  case h_8 => exact (Pod.handleRoomCreated_quiet s j p).calm
  case h_9 => exact (Pod.fakeSubscribe_quiet s _ _ _ p).calm
  case h_10 hc =>
      exact subscribe_does Asks.refl Asks.refl hseat
        fun hpub sdp => ⟨rfl, by simp only [Adds, hc]; exact ⟨hpub, sdp, rfl⟩⟩
  case h_11 hc =>
      exact handleFakeOfferMsg_does hseat ⟨rfl, by simp only [Adds, hc]⟩
  case h_12 => exact (Pod.toSubscriber_quiet Asks.refl p).calm
  case h_13 => exact (Pod.handleFakeCandidate_quiet env s j p).calm
  case h_14 => exact .refl p

end Session

/-! ## `room.HandleMessage` and the calls of a room -/

theorem doLeave_empty (hp : Placed p) (role : Role) (k : String) :
    (p.doLeave s).entry role s k = none := by
  cases hq : (p.doLeave s).entry role s k with
  | none => rfl
  | some x =>
      obtain ⟨hx, hno⟩ := ((Pod.doLeave_removes hp).entry role s k x).mp hq
      refine absurd ?_ hno
      cases role with
      | publisher => exact .inl ⟨k, hx⟩
      | subscriber => exact .inr ⟨k, hx⟩

/-- `DoLeave`, then out of the room. -/
theorem leaveErase_does (hs : (p.room r).sessions.lookup u = some s) :
    Does G I p ((p.doLeave s).eraseSession r u) := by
  refine .of fun hp => ?_
  refine (Removes.does (Pod.doLeave_removes (s := s))).trans
    (.micro fun _ => ?_)
  refine .unseat r u fun s' hs' role k => ?_
  rw [(p.doLeave_sameStore s).room, hs] at hs'
  cases hs'
  exact doLeave_empty hp.placed role k

theorem dropSession_does (r : RoomRef) (u : String) (p : Pod) :
    Does G I p (p.dropSession r u) := by
  have hlock := p.emit_quiet (.sync (.lock (.sessions r)))
  unfold Pod.dropSession
  dsimp only
  split
  · exact (hlock.trans (Pod.throw_quiet _)).calm
  · next s hs =>
      exact hlock.calm.trans ((leaveErase_does hs).trans
        (Pod.emit_quiet _ _).calm)

theorem dropIfPresent_does (r : RoomRef) (u : String) (p : Pod) :
    Does G I p (if (p.room r).sessions.lookup u = none then p
      else p.dropSession r u) := by
  split
  · exact .refl p
  · exact dropSession_does r u p

theorem handleLogin_does {env : Env} {j : JsonParser}
    (hr : r < p.roomHeap.next) : Does G I p (p.handleLogin env r j) := by
  have he := p.dropIfPresent_edits r (getValue j .sessID)
  have hfree := p.dropIfPresent_lookup_self r (getValue j .sessID)
  unfold Pod.handleLogin
  dsimp only
  refine (dropIfPresent_does r (getValue j .sessID) p).trans
    (Does.trans (.micro fun _ => ?_)
      ((Pod.emit_quiet _ _).trans (Pod.tellStreams_quiet r _ _)).calm)
  exact .seat r _ _ (by rw [he.roomNext]; exact hr) hfree rfl rfl rfl rfl

theorem handleFakePublish_does {env : Env} {j : JsonParser}
    (hr : r < p.roomHeap.next) (hc : command j = some .fakePublish) :
    Does G I p (p.handleFakePublish env r j) := by
  have he := p.dropIfPresent_edits r (getValue j .sessID)
  have hfree := p.dropIfPresent_lookup_self r (getValue j .sessID)
  unfold Pod.handleFakePublish
  dsimp only
  refine (dropIfPresent_does r (getValue j .sessID) p).trans ?_
  generalize (if (p.room r).sessions.lookup (getValue j .sessID) = none then p
    else p.dropSession r (getValue j .sessID)) = p₁ at he hfree ⊢
  have hread : Quiet p₁ ((p₁.rlock (.sessions r)).runlock (.sessions r)) :=
    (p₁.emit_quiet _).trans (Pod.emit_quiet _ _)
  refine hread.calm.trans ?_
  split
  · simp only [Pod.sessionHandleMessage, hc]
    refine Does.trans (.micro fun _ => ?_)
      (Pod.fakeSubscribe_quiet _ _ _ _ _).calm
    exact .seat r (getValue j .sessID) _
      (by rw [hread.roomHeap, he.roomNext]; exact hr)
      (by rw [hread.room]; exact hfree) rfl rfl rfl rfl
  · exact (Pod.go_quiet _ rfl).calm

theorem handleFakeUnpublish_does {j : JsonParser} :
    Does G I p (p.handleFakeUnpublish r j) := by
  have hlock := p.emit_quiet (.sync (.lock (.sessions r)))
  unfold Pod.handleFakeUnpublish
  dsimp only
  refine hlock.calm.trans (Does.trans ?_ (Pod.emit_quiet _ _).calm)
  split
  · next s hs =>
      split
      · exact leaveErase_does hs
      · exact .refl _
  · exact .refl _

theorem kickSession_does {env : Env} : Does G I p (p.kickSession env r u) := by
  have hlock := p.emit_quiet (.sync (.lock (.sessions r)))
  unfold Pod.kickSession
  dsimp only
  refine hlock.calm.trans (Does.trans ?_ (Pod.emit_quiet _ _).calm)
  split
  · next s hs =>
      refine .of fun hp => ?_
      rw [show ((p.lock (.sessions r)).sess s).userid = u from
        (hp.sessions r u s hs).1]
      split
      · exact (leaveErase_does hs).trans
          (Pod.notifyLeaveRoom_quiet env r u _).calm
      · exact leaveErase_does hs
  · exact .refl _

theorem kickoutFromRoom_does {env : Env} :
    Does G I p (p.kickoutFromRoom env r u) :=
  (kickSession_does.trans (Pod.spreadLeaved_quiet r u _).calm).trans
    (Pod.releaseIfEmpty_quiet r _).calm

/-- The loop of `DestroyRoom` empties the maps of every session. -/
theorem leaveAll (l : List ((_ : String) × SessRef)) (p : Pod)
    (hp : Placed p) :
    ∃ X, Removes X p (l.foldl (fun p e => p.doLeave e.2) p) ∧
      ∀ e ∈ l, ∀ role k,
        (l.foldl (fun p e => p.doLeave e.2) p).entry role e.2 k = none := by
  induction l generalizing p with
  | nil => exact ⟨∅, (Asks.refl p).removes, fun _ h => by cases h⟩
  | cons e l ih =>
      have h := Pod.doLeave_removes (s := e.2) hp
      obtain ⟨X, hX, hempty⟩ := ih (p.doLeave e.2) (hp.of_removes h)
      refine ⟨_, h.trans hX, fun e' he' role k => ?_⟩
      rcases List.mem_cons.mp he' with rfl | he'
      · rw [List.foldl_cons]
        cases hq : (l.foldl (fun p e => p.doLeave e.2)
            (p.doLeave e'.2)).entry role e'.2 k with
        | none => rfl
        | some x =>
            have hx := ((hX.entry role e'.2 k x).mp hq).1
            rw [doLeave_empty hp] at hx
            cases hx
      · exact hempty e' he' role k

theorem destroyRoom_does : Does G I p (p.destroyRoom r) := by
  have hlock := p.emit_quiet (.sync (.lock (.sessions r)))
  unfold Pod.destroyRoom
  dsimp only
  refine hlock.calm.trans (Does.trans (.of fun hp => ?_)
    (Pod.emit_quiet _ _).calm)
  obtain ⟨X, hX, hempty⟩ := leaveAll
    ((p.lock (.sessions r)).room r).sessions.entries (p.lock (.sessions r))
    hp.placed
  refine (Removes.does fun _ => hX).trans (.micro fun _ => ?_)
  refine .vacate r fun u s hs => ?_
  rw [hX.room] at hs
  exact hempty ⟨u, s⟩ (GoMap.mem_entries.mpr hs)

theorem toSession_does {env : Env} {j : JsonParser} {notFound : Pod → Pod}
    (hn : ∀ p, Quiet p (notFound p)) :
    Does (fun g => ∃ s, (p.room r).sessions.lookup u = some s ∧ Frees p s j g)
      (fun i t => (p.room r).sessions.lookup u = some i ∧ Adds p i j t) p
      (p.toSession env r u j notFound) := by
  unfold Pod.toSession
  split
  · next s hs =>
      refine (sessionHandleMessage_does hs).mono (fun g hg => ⟨s, hs, hg⟩) ?_
      rintro i t ⟨rfl, ht⟩
      exact ⟨hs, ht⟩
  · exact (hn p).calm

theorem answerRoomCreated_quiet {env : Env} {j : JsonParser}
    (hc : command j = some .roomCreated) :
    Quiet p (p.answerRoomCreated env r j) := by
  refine Asks.foldl (fun p a => ?_) _ p
  have h := (p.emit_quiet (.sync (.rlock (.pubs a.2)))).trans
    (Pod.emit_quiet _ (.sync (.runlock (.pubs a.2))))
  dsimp only
  split
  · split
    · refine h.trans ?_
      simp only [Pod.sessionHandleMessage, hc]
      exact Pod.handleRoomCreated_quiet _ j _
    · exact h
  · exact .refl p

/-- The user whose session a room hands the message to. -/
def route (j : JsonParser) : String :=
  match command j with
  | some .sub | some .stopSub | some .answer | some .fakeSubscribe =>
      getValue j .srcSessID
  | _ => getValue j .sessID

/-- The peers that a message adds in the room that handles it. -/
def RoomAdds (p : Pod) (r : RoomRef) (j : JsonParser) (i : SessRef)
    (t : Peer) : Prop :=
  (p.room r).sessions.lookup (route j) = some i ∧ Adds p i j t

def RoomFrees (p : Pod) (r : RoomRef) (j : JsonParser) (g : Goroutine) :
    Prop :=
  ∃ s, (p.room r).sessions.lookup (route j) = some s ∧ Frees p s j g

theorem toSession_route {env : Env} {j : JsonParser} {notFound : Pod → Pod}
    (hn : ∀ p, Quiet p (notFound p)) (hu : u = route j) :
    Does (RoomFrees p r j) (RoomAdds p r j) p
      (p.toSession env r u j notFound) := by
  subst hu
  exact toSession_does hn

theorem roomHandleMessage_does (env : Env) (j : JsonParser)
    (hr : r < p.roomHeap.next) :
    Does (RoomFrees p r j) (RoomAdds p r j) p (p.roomHandleMessage env r j) := by
  unfold Pod.roomHandleMessage
  dsimp only
  split
  case h_1 => exact handleLogin_does hr
  case h_6 => exact kickoutFromRoom_does
  case h_10 hc =>
      refine (toSession_does Asks.refl).mono (fun g hg => ?_) fun i t ht => ?_
      · obtain ⟨s, -, hstop, -⟩ := hg
        rw [hc] at hstop
        cases hstop
      · simp only [Adds, hc] at ht
        exact ht.2.elim
  case h_11 hc => exact (answerRoomCreated_quiet hc).calm
  case h_12 hc => exact handleFakePublish_does hr hc
  case h_13 => exact handleFakeUnpublish_does
  case h_18 => exact .refl p
  all_goals rename_i hc
  all_goals refine toSession_route (fun p => ?_) (by simp only [route, hc])
  all_goals first
    | exact p.emit_quiet _
    | exact .refl p

/-! ## The room manager, spawned calls and the machine -/

theorem releaseRoom_does (rid : String) : Does G I p (p.releaseRoom rid) := by
  have hlock := p.emit_quiet (.sync (.lock .rooms))
  unfold Pod.releaseRoom
  dsimp only
  refine hlock.calm.trans (Does.trans ?_ (Pod.emit_quiet _ _).calm)
  split
  · exact destroyRoom_does.trans (.micro fun _ => .closeRoom rid)
  · exact .refl _

theorem leavedSubs_does (sid : String) (lst : List String) :
    Does G I p (p.leavedSubs s sid lst) := .micro fun hp => by
  obtain ⟨X, hX⟩ := Pod.leavedSubs_removes hp.placed sid lst
  exact .removes hX

theorem callRoom_does {env : Env} {m : JsonParser}
    (hc : command m = some .login) (rid : String) :
    Does G I p (p.callRoom env (p.rooms.lookup rid) m) := by
  refine .of fun hp => ?_
  unfold Pod.callRoom
  split
  · next r hr =>
      simp only [Pod.roomHandleMessage, hc]
      exact handleLogin_does (hp.rooms rid r hr).2
  · exact p.throw_quiet.calm

theorem mgrLogin_does {env : Env} {m : JsonParser}
    (hc : command m = some .login) : Does G I p (p.mgrLogin env m) := by
  have hread : ∀ p : Pod, Quiet p ((p.rlock .rooms).runlock .rooms) :=
    fun p => (p.emit_quiet _).trans (Pod.emit_quiet _ _)
  have hopen : Does G I p
      (if p.rooms.lookup (getValue m .roomId) = none then
        (p.insertRoom (getValue m .roomId)).broadcastRoomCreated env m
      else p) := by
    split
    · exact Does.trans (.micro fun _ => .openRoom _)
        ((Pod.getSn_quiet _).trans (Pod.emit_quiet _ _)).calm
    · exact .refl p
  unfold Pod.mgrLogin
  dsimp only
  exact (hopen.trans (hread _).calm).trans (callRoom_does hc _)

/-- The peers that an input can add. -/
def Added (p : Pod) (a : Input) (i : SessRef) (t : Peer) : Prop :=
  ∃ m r, a = .message m ∧ p.rooms.lookup (getValue m .roomId) = some r ∧
    RoomAdds p r m i t

/-- The releases that an input can spawn: `stopsub` of a subscriber it finds,
and an ICE callback of a peer that is still open. -/
def Freed (p : Pod) (a : Input) (g : Goroutine) : Prop :=
  (∃ m r, a = .message m ∧ p.rooms.lookup (getValue m .roomId) = some r ∧
    RoomFrees p r m g) ∨
  ∃ x st, a = .ice x st ∧ x < p.peerHeap.next ∧ (p.peer x).closed = 0 ∧
    p.ReleaseFor x g

theorem mgrHandleMessage_does (env : Env) (m : JsonParser) (p : Pod) :
    Does (Freed p (.message m)) (Added p (.message m)) p
      (p.mgrHandleMessage env m) := by
  unfold Pod.mgrHandleMessage
  split
  · exact (p.handlePodRegist_quiet m).calm
  · exact p.handlePodRegistNow_quiet.calm
  · next hc =>
      split
      · exact mgrLogin_does hc
      · exact (p.emit_quiet _).calm
  · split
    · unfold Pod.mgrForward
      split
      · split
        · next r hr =>
            refine .of fun hp => (roomHandleMessage_does env m
              (hp.rooms _ r hr).2).mono (fun g hg => ?_) fun i t ht => ?_
            · exact .inl ⟨m, r, rfl, hr, hg⟩
            · exact ⟨m, r, rfl, hr, ht⟩
        · exact (p.notFoundRoom_quiet m).calm
      · exact .refl p
    · exact (p.emit_quiet _).calm

theorem runGoroutine_does (env : Env) (g : Goroutine) (p : Pod) :
    Does G I p (p.runGoroutine env g) := by
  have hpub : ∀ r sid pid, Does G I p (p.onPublisherPeerFailed env r sid pid) := by
    intro r sid pid
    unfold Pod.onPublisherPeerFailed
    split
    · exact Removes.does fun hp => Pod.releasePublisher_removes env hp pid
    · exact .refl p
  have hsub : ∀ r sid ssid pid,
      Does G I p (p.onSubscriberPeerFailed r sid ssid pid) := by
    intro r sid ssid pid
    unfold Pod.onSubscriberPeerFailed
    split
    · exact Removes.does fun hp =>
        Pod.releaseSubscriberPeer_removes hp sid ssid pid
    · exact .refl p
  cases g with
  | releaseRoom rid => exact releaseRoom_does rid
  | kickoutFromRoom r sid => exact kickoutFromRoom_does
  | checkKeepAlive s => exact (p.checkKeepAlive_quiet env s).calm
  | handleSubscriberLeaved s sid =>
      exact ((p.emit_quiet _).trans (Pod.emit_quiet _ _)).calm.trans
        (leavedSubs_does sid _)
  | onPublisherReady r sid name pid =>
      exact (p.onPublisherReady_quiet r sid name pid).calm
  | onPublisherPeerFailed r sid pid x => exact hpub r sid pid
  | onPublisherPeerClosed r sid pid x => exact hpub r sid pid
  | onSubscriberPeerFailed r sid ssid pid x => exact hsub r sid ssid pid
  | onSubscriberPeerClosed r sid ssid pid x => exact hsub r sid ssid pid
  | releaseSubscriberPeer s sid ssid pid x =>
      exact Removes.does fun hp =>
        Pod.releaseSubscriberPeer_removes hp sid ssid pid
  | fakePublisherReConnect s sid pid n =>
      exact (p.fakePublisherReConnect_quiet s sid pid n).calm
  | requestKeyframe x => exact .refl p

theorem step_does {a : Env × Input} (hs : Pod.step a p = some q) :
    Does (Freed p a.2) (Added p a.2) p q := by
  obtain ⟨env, inp⟩ := a
  unfold Pod.step at hs
  split at hs
  · cases hs
  · cases inp with
    | setSendMessageHandler =>
        cases hs; exact p.setSendMessageHandler_quiet.calm
    | message m => cases hs; exact mgrHandleMessage_does env m p
    | keepaliveTick => cases hs; exact p.keepaliveTick_quiet.calm
    | registTick =>
        dsimp only at hs
        split at hs
        · cases hs; exact (p.registTick_quiet env).calm
        · cases hs
    | registStop =>
        dsimp only at hs
        split at hs
        · cases hs
          exact Asks.calm { Asks.refl (G := fun _ => False) p with }
        · cases hs
    | ice x st =>
        dsimp only at hs
        split at hs
        · next hx =>
            cases hs
            by_cases hc : (p.peer x).closed = 0
            · exact ((p.onICEConnectionStateChange_asks x st).mono fun g hg =>
                .inr ⟨x, st, rfl, hx, hc, hg⟩).does
            · unfold Pod.onICEConnectionStateChange
              rw [if_pos (Nat.pos_of_ne_zero hc)]
              exact .refl p
        · cases hs
    | checkTimer s i => cases hs; exact (p.checkTimer_quiet s i).calm
    | dataChannel x => cases hs; exact (p.onDataChannel_quiet x).calm
    | audio x buff => cases hs; exact (p.onReceivedAudioData_quiet _ _ _).calm
    | video x buff => cases hs; exact (p.onReceivedVideoData_quiet _ _ _).calm
    | appData x buff => cases hs; exact (p.onReceivedAppData_quiet _ _ _ _).calm
    | go i =>
        dsimp only at hs
        split at hs
        · cases hs
          exact Does.trans (.micro fun _ => .take i) (runGoroutine_does env _ _)
        · cases hs

/-! ## What a peer and its session have in common

A relation between the fields that a peer and its session were created with
holds of every entry if it holds of every peer that is inserted. -/

/-- The relation reads only fields that never change. -/
def OnIdent (R : Peer → Session → Prop) : Prop :=
  ∀ {a a' : Peer} {b b' : Session}, a'.ident = a.ident → b'.ident = b.ident →
    R a b → R a' b'

def Linked (R : Peer → Session → Prop) (p : Pod) : Prop :=
  ∀ role s k x, p.entry role s k = some x → R (p.peer x) (p.sess s)

section Linked

variable {R : Peer → Session → Prop}

theorem Linked.of_shrink (hR : OnIdent R) (hl : Linked R p) (hp : Placed p)
    (he : ∀ role s k x, q.entry role s k = some x →
      p.entry role s k = some x)
    (hs : ∀ s, s < p.sessHeap.next → (q.sess s).ident = (p.sess s).ident)
    (hx : ∀ x, (q.peer x).ident = (p.peer x).ident) : Linked R q := by
  intro role s k x h
  have hold := he role s k x h
  exact hR (hx x) (hs s (hp role s k x hold).2.1) (hl role s k x hold)

theorem Micro.linked (hR : OnIdent R) (hm : Micro G I p q) (hok : PodOk p)
    (hl : Linked R p) (hI : ∀ s t, I s t → R t (p.sess s)) : Linked R q := by
  have hident : ∀ s, s < p.sessHeap.next →
      (q.sess s).ident = (p.sess s).ident := fun s hs => hm.ident hs
  cases hm with
  | asks h =>
      exact hl.of_shrink hR hok.placed (fun _ _ _ _ hx => by
        rwa [h.entry] at hx) hident h.peerIdent
  | removes h =>
      exact hl.of_shrink hR hok.placed
        (fun role s k x hx => ((h.entry role s k x).mp hx).1) hident h.peerIdent
  | @inserts _ i t h _ hIt =>
      intro role s k x hx
      rw [h.entry] at hx
      split at hx
      · next hat =>
          obtain ⟨-, rfl, -⟩ := hat
          cases hx
          rw [h.peer, if_pos rfl]
          exact hR rfl (h.ident s) (hI s t hIt)
      · rw [h.peer_of_lt (hok.placed role s k x hx).1]
        exact hR rfl (h.ident s) (hl role s k x hx)
  | seat r u t hr hfree hut hpar hpubs hsubs =>
      exact hl.of_shrink hR hok.placed (fun _ _ _ _ hx => by
        rwa [insertSession_entry hok.placed hpubs hsubs] at hx) hident
        fun x => by rw [Pod.peer, insertSession_peerHeap, Pod.peer]
  | openRoom rid =>
      exact hl.of_shrink hR hok.placed (fun _ _ _ _ hx => by
        rwa [entry_of_sessHeap (insertRoom_sessHeap rid p)] at hx) hident
        fun x => by rw [Pod.peer, insertRoom_peerHeap, Pod.peer]
  | unseat r u _ => exact hl
  | vacate r _ => exact hl
  | closeRoom rid => exact hl
  | take i => exact hl

theorem added_known {a : Input} {t : Peer} (hok : PodOk p)
    (h : Added p a s t) : s < p.sessHeap.next := by
  obtain ⟨m, r, -, -, hs, -⟩ := h
  exact (hok.sessions r _ s hs).2.2

theorem step_linked (hR : OnIdent R) {a : Env × Input} (hok : PodOk p)
    (hl : Linked R p) (hadd : ∀ s t, Added p a.2 s t → R t (p.sess s))
    (hs : Pod.step a p = some q) : Linked R q := by
  have hsteps := step_does hs hok
  clear hs
  induction hsteps with
  | refl => exact hl
  | tail hsteps hm ih =>
      refine hm.linked hR (podOk_of_micros hsteps hok) ih fun s t h => ?_
      exact hR rfl (ident_of_micros hsteps (added_known hok h)).2 (hadd s t h)

end Linked

theorem createRoomMgr_podOk (conf : Config) : PodOk (Pod.createRoomMgr conf) where
  rooms _ _ h := by cases h
  sessions _ _ _ h := by cases h
  known _ _ _ h := by cases h
  placed role s k x h := by cases role <;> cases h
  homed role s k x h := by cases role <;> cases h

/-- An invariant that every small change keeps holds in every state the
machine reaches. -/
theorem reachable_invariant {P : Pod → Prop} {conf : Config}
    (h0 : P (Pod.createRoomMgr conf))
    (hm : ∀ {G I} {p q : Pod}, PodOk p → P p → Micro G I p q → P q)
    (hr : Pod.Reachable conf p) : P p ∧ PodOk p := by
  obtain ⟨as, hrun⟩ := hr
  refine run_invariant (P := fun p => P p ∧ PodOk p)
    (fun a p q hp _ hs => ?_) (guarded_true as _)
    ⟨h0, createRoomMgr_podOk conf⟩ hrun
  have hsteps := step_does hs hp.2
  clear hs
  induction hsteps with
  | refl => exact hp
  | tail _ hmicro ih =>
      exact ⟨hm ih.2 ih.1 hmicro, hmicro.podOk ih.2⟩

theorem reachable_podOk {conf : Config} (hr : Pod.Reachable conf p) :
    PodOk p :=
  (reachable_invariant (P := fun _ => True) trivial (fun _ _ _ => trivial)
    hr).2

theorem Micro.lives (hm : Micro G I p q) (hok : PodOk p) (hl : Lives p) :
    Lives q := by
  cases hm with
  | asks h => exact hl.of_same h.entry h.peerNext h.closed
  | removes h => exact hl.of_removes h
  | inserts h _ _ => exact hl.of_inserts hok.placed h
  | seat r u t hr hfree hu hpar hpubs hsubs =>
      exact hl.of_same (insertSession_entry hok.placed hpubs hsubs)
        (by rw [insertSession_peerHeap])
        fun x => by rw [Pod.peer, insertSession_peerHeap, Pod.peer]
  | openRoom rid =>
      exact hl.of_same (entry_of_sessHeap (insertRoom_sessHeap rid p))
        (by rw [insertRoom_peerHeap])
        fun x => by rw [Pod.peer, insertRoom_peerHeap, Pod.peer]
  | unseat r u _ => exact hl.of_same (fun _ _ _ => rfl) rfl fun _ => rfl
  | vacate r _ => exact hl.of_same (fun _ _ _ => rfl) rfl fun _ => rfl
  | closeRoom rid => exact hl.of_same (fun _ _ _ => rfl) rfl fun _ => rfl
  | take i => exact hl.of_same (fun _ _ _ => rfl) rfl fun _ => rfl

theorem createRoomMgr_lives (conf : Config) :
    Lives (Pod.createRoomMgr conf) where
  mapped x := by rintro ⟨role, s, k, h⟩; cases role <;> cases h
  gone x h := by cases h

end MediaServer.Ref
