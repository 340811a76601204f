import MediaServer.Proofs.Leaving
import MediaServer.Proofs.Lifecycle
import MediaServer.Proofs.Serving
import MediaServer.Proofs.Subscribers

/-!
# Subscribers without a stream

A subscriber is created next to a publisher of its stream, and
`HandleSubscriberLeaved` finds the subscribers of a user through the streams
of the session. So no subscriber should outlast its publisher.

A publisher leaves its map in four ways. `ReleasePublisher` takes the
subscribers of the stream along, and `DoLeave` all of them. `stoppush` does
not, but its process ends with the unlock that follows. What remains are
`publish` and `fakeoffer` on a stream that exists: they drop the old publisher
and create a new one, and if that fails the stream is gone and its
subscribers stay.
-/

namespace MediaServer.Ref

open MediaServer.Lib

variable {p q : Pod} {s : SessRef} {r : RoomRef} {k u : String}
variable {x y : PeerRef} {m : JsonParser} {env : Env} {a : Env × Input}

/-- The stream of each subscriber is one that its session publishes. -/
def NoOrphans (p : Pod) : Prop :=
  ∀ s k y, (p.sess s).subscribers.lookup k = some y →
    (p.sess s).publishers.lookup (p.peer y).peerid ≠ none

/-- A `publish` or a `fakeoffer` whose new peer cannot be created is for a
stream without subscribers. -/
def Renews (p : Pod) (a : Env × Input) : Prop :=
  ∀ m ∈ a.2.msg?, (command m = some .push ∨ command m = some .fakeOffer) →
    a.1.createOk = false →
    ∀ s ∈ p.seat (getValue m .roomId) (getValue m .sessID),
      ∀ e ∈ (p.sess s).subscribers.entries,
        (p.peer e.2).peerid ≠ getValue m .peerID

instance (p : Pod) (a : Env × Input) : Decidable (Renews p a) :=
  inferInstanceAs (Decidable (∀ m ∈ _, _))

/-- A subscriber that was not there was stored by a message, next to a
publisher of its stream. -/
theorem step_new_subscriber (hp : InOrder p) (hs : Pod.step a p = some q)
    (hy : q.entry .subscriber s k = some y) :
    p.entry .subscriber s k = some y ∨
      p.entry .publisher s (q.peer y).peerid ≠ none ∧ ∃ m c,
        a.2 = .message m ∧ command m = some c ∧ c.serves = true := by
  revert k y
  refine (step_induction (P := fun t => ∀ {k y},
    t.entry .subscriber s k = some y → p.entry .subscriber s k = some y ∨
      p.entry .publisher s (t.peer y).peerid ≠ none ∧ ∃ m c,
        a.2 = .message m ∧ command m = some c ∧ c.serves = true) hp hs .inl
    fun {b t t'} hb hsound hafter _ hm ht k y hy => ?_).1
  have hold : t.entry .subscriber s k = some y →
      p.entry .subscriber s k = some y ∨
        p.entry .publisher s (t'.peer y).peerid ≠ none ∧ ∃ m c,
          a.2 = .message m ∧ command m = some c ∧ c.serves = true := by
    intro h
    rw [(Peer.ident_eq ((hm.after hsound.toPodOk).peer y
      (hsound.placed _ _ _ _ h).1)).2.2.1]
    exact ht h
  rw [hm.entry hsound.toPodOk] at hy
  cases hm with
  | adds i z hseat hpar hz hfree =>
      simp only [Act.entry] at hy
      split at hy
      · next hat =>
          obtain ⟨hrole, rfl, -⟩ := hat
          cases hy
          obtain ⟨m, r, hmsg, -, -, hadd⟩ := hb
          obtain ⟨r', u', hs'⟩ := hseat
          rw [(Pod.insertEntry_inserts (hsound.sessions r' u' s hs').2.2 hpar
            hz.1 hfree).peer t.peerHeap.next, if_pos rfl]
          refine .inr ⟨publisher_of_adds hadd hrole.symm, ?_⟩
          rcases (subscriber_of_adds hadd hrole.symm).1 with hc | hc
          · exact ⟨m, _, hmsg, hc, rfl⟩
          · exact ⟨m, _, hmsg, hc, rfl⟩
      · exact hold hy
  | erases | clears =>
      simp only [Act.entry] at hy
      split at hy
      · cases hy
      · exact hold hy
  | still | dies | sends | spawns | tells | unpush | leaves | withdraws
  | destroys | offers | accepts | flags | announces | beats | takes | seats
  | unseats | vacates | opens | closes => exact hold hy

/-! ## Who takes a publisher away -/

/-- Taking out the publisher of a key leaves the others. -/
theorem retirePublisher_entry {pid : String} (hp : Placed p)
    (h : Removes {x | p.entry .publisher s pid = some x} p q) (hk : k ≠ pid) :
    q.entry .publisher s k = p.entry .publisher s k := by
  refine Option.ext fun x => ?_
  rw [h.entry]
  refine ⟨And.left, fun hx => ⟨hx, fun hx' => ?_⟩⟩
  exact hk (hp.unique hx' hx).2.2

/-- `publish` and `fakeoffer` take no publisher away, other than one that they
cannot create again. -/
theorem publish_keeps {t : Peer} {pid : String} {f : Pod → Pod}
    (hp : Placed p) (hf : ∀ p, Quiet p (f p))
    (hpub : p.entry .publisher s k ≠ none)
    (hok : env.createOk = true ∨ k ≠ pid)
    (h : Removes {x | p.entry .publisher s pid = some x} p q) :
    (if env.createOk then f (q.insertPublisher s pid t) else q).entry
      .publisher s k ≠ none := by
  split
  · rw [(hf _).entry, Pod.insertPublisher_entry]
    split
    · exact nofun
    · next hk =>
        rw [retirePublisher_entry hp h fun hk' => hk ⟨rfl, rfl, hk'⟩]
        exact hpub
  · next hcreate =>
      rw [retirePublisher_entry hp h (hok.resolve_left hcreate)]
      exact hpub

/-- The same for every message that a session handles, if the process goes
on. -/
theorem sessionHandleMessage_keeps (hp : Placed p)
    (hpub : p.entry .publisher s k ≠ none)
    (hf : (p.sessionHandleMessage env s m).fatal = false)
    (hok : command m = some .push ∨ command m = some .fakeOffer →
      env.createOk = true ∨ k ≠ getValue m .peerID) :
    (p.sessionHandleMessage env s m).entry .publisher s k ≠ none := by
  have hquiet : ∀ {q}, Asks (fun _ => True) p q →
      q.entry .publisher s k ≠ none := fun h => by rw [h.entry]; exact hpub
  have hserves : ∀ c, command m = some c → c.serves = true →
      (p.sessionHandleMessage env s m).entry .publisher s k ≠ none := by
    intro c hc h
    simp only [Pod.entry, Session.peers,
      (sessionHandleMessage_samePubs hc h env s p).pubs s]
    exact hpub
  cases hc : command m with
  | none =>
      exact hquiet (sessionHandleMessage_asks (by simp only [hc]))
  | some c =>
      cases c with
      | sub | stopSub | answer | fakeSubscribe | fakeAnswer | fakeCandidate =>
          exact hserves _ hc rfl
      | push =>
          simp only [Pod.sessionHandleMessage, hc]
          exact publish_keeps hp (fun p => p.emit_quiet _) hpub
            (hok (.inl hc)) (retirePublisher_removes hp s _)
      | fakeOffer =>
          simp only [Pod.sessionHandleMessage, hc]
          exact publish_keeps hp
            (fun p' => p'.peerHandleMessage_quiet env _ m) hpub
            (hok (.inr hc)) (retirePublisher_removes hp s _)
      | stopPush =>
          simp only [Pod.sessionHandleMessage, hc, Pod.handleStopPush] at hf ⊢
          split
          · next x hx =>
              rw [hx] at hf
              simp [Pod.answerStopPush, Pod.notifyReleasePublish, Pod.getSn,
                Pod.stopPublisher, Pod.throw] at hf
          · exact hpub
      | roomCreated | heartbeat | login | logout | offer | candidate | pub
      | unpub | podRegist | podRegistNow | podReleasePublish | podLeaveRoom
      | fakePublish | fakeUnpublish =>
          exact hquiet (sessionHandleMessage_asks (by simp only [hc]))

/-- A `fakepublish` puts the user into a new session, or leaves them none. -/
theorem handleFakePublish_lookup (hc : command m = some .fakePublish)
    (hlt : s < p.sessHeap.next) :
    ((p.handleFakePublish env r m).room r).sessions.lookup
      (getValue m .sessID) ≠ some s := by
  have he := p.dropIfPresent_edits r (getValue m .sessID)
  have hfree := p.dropIfPresent_lookup_self r (getValue m .sessID)
  unfold Pod.handleFakePublish
  dsimp only
  generalize (if (p.room r).sessions.lookup (getValue m .sessID) = none then p
    else p.dropSession r (getValue m .sessID)) = p₁ at he hfree ⊢
  have hread : Quiet p₁ ((p₁.rlock (.sessions r)).runlock (.sessions r)) :=
    (p₁.emit_quiet _).trans (Pod.emit_quiet _ _)
  split
  · simp only [Pod.sessionHandleMessage, hc]
    rw [(Pod.fakeSubscribe_quiet _ _ _ _ _).room, Pod.insertSession_lookup,
      if_pos ⟨rfl, rfl⟩, hread.sessNext, he.sessNext]
    exact fun h => absurd hlt (by cases h; exact Nat.lt_irrefl _)
  · rw [(Pod.go_quiet (g := .releaseRoom _) _ rfl).room, hread.room, hfree]
    exact (Option.some_ne_none s).symm

/-- A `fakeunpublish` that leaves the user their session leaves everything. -/
theorem handleFakeUnpublish_quiet (hstay :
    ((p.handleFakeUnpublish r m).room r).sessions.lookup
      (getValue m .sessID) ≠ none) : Quiet p (p.handleFakeUnpublish r m) := by
  have hlock := p.emit_quiet (.sync (.lock (.sessions r)))
  unfold Pod.handleFakeUnpublish at hstay ⊢
  dsimp only at hstay ⊢
  rw [Pod.unlock, Pod.emit_room] at hstay
  refine (hlock.trans ?_).trans (Pod.emit_quiet _ _)
  split
  · next s hs =>
      rw [hs] at hstay
      dsimp only at hstay
      split
      · next hpod =>
          rw [if_pos hpod] at hstay
          exact absurd (Pod.eraseSession_lookup_self r _ _) hstay
      · exact .refl _
  · exact .refl _

/-- A message to a session that stays in its room takes no publisher away. -/
theorem message_keeps (hp : InOrder p) (hs : Pod.step a p = some q)
    (hm : a.2 = .message m) (hreach : Reaches p m r)
    (hlook : (p.room r).sessions.lookup (route m) = some s)
    (hstay : (q.room r).sessions.lookup (route m) = some s)
    (hf : q.fatal = false) (hpub : p.entry .publisher s k ≠ none)
    (hok : command m = some .push ∨ command m = some .fakeOffer →
      a.1.createOk = true ∨ k ≠ getValue m .peerID) :
    q.entry .publisher s k ≠ none := by
  have hlt := (hp.sessions r _ s hlook).2.2
  have hquiet : ∀ {q}, Quiet p q → q.entry .publisher s k ≠ none :=
    fun h => by rw [h.entry]; exact hpub
  by_cases hlogin : command m = some .login
  · have hnew := (step_login hs ⟨m, hm, hreach.regist, hlogin, rfl, rfl⟩).1
    have hold := (step_inOrder hp hs).toSound.seat hstay
    rw [(step_after hp hs).roomid r (hp.known r _ s hlook),
      ← hreach.roomId_eq hp.toPodOk (hp.registered r _ s hlook),
      show route m = getValue m .sessID by simp only [route, hlogin],
      hnew] at hold
    cases hold
    exact absurd hlt (Nat.lt_irrefl _)
  have hq := step_forwarded hs hm hreach hlogin
  have hroom := (hreach.known hlogin).1
  cases hc : command m with
  | none =>
      rw [hq]
      simp only [Pod.roomHandleMessage, hc]
      exact hpub
  | some c =>
      by_cases hroute : c.routed = true
      · rw [step_routed hs hm hc hroute hreach.regist
          (seat_eq_some.mpr ⟨r, hroom, hlook⟩)] at hf ⊢
        exact sessionHandleMessage_keeps hp.placed hpub hf hok
      · cases c with
        | login => exact absurd hc hlogin
        | logout =>
            rw [show route m = getValue m .sessID by simp only [route, hc],
              hq] at hstay
            simp only [Pod.roomHandleMessage, hc] at hstay
            rw [kickoutFromRoom_lookup hp.toPodOk] at hstay
            cases hstay
        | fakePublish =>
            rw [show route m = getValue m .sessID by simp only [route, hc],
              hq] at hstay
            simp only [Pod.roomHandleMessage, hc] at hstay
            exact absurd hstay (handleFakePublish_lookup hc hlt)
        | fakeUnpublish =>
            rw [show route m = getValue m .sessID by simp only [route, hc],
              hq] at hstay
            simp only [Pod.roomHandleMessage, hc] at hstay
            rw [hq]
            simp only [Pod.roomHandleMessage, hc]
            exact hquiet (handleFakeUnpublish_quiet
              (by rw [hstay]; exact Option.some_ne_none s))
        | roomCreated =>
            rw [hq]
            simp only [Pod.roomHandleMessage, hc]
            exact hquiet (answerRoomCreated_quiet hc)
        | candidate =>
            rw [hq]
            simp only [Pod.roomHandleMessage, hc, Pod.toSession]
            split
            · simp only [Pod.sessionHandleMessage, hc]
              exact hpub
            · exact hpub
        | heartbeat | push | stopPush | sub | stopSub | offer | answer
        | fakeSubscribe | fakeOffer | fakeAnswer | fakeCandidate =>
            exact absurd rfl hroute
        | pub | unpub | podRegist | podRegistNow | podReleasePublish
        | podLeaveRoom =>
            rw [hq]
            simp only [Pod.roomHandleMessage, hc]
            exact hpub

/-- A release leaves the other streams of the session. -/
theorem releasePublisher_keeps {pid : String} (hp : Placed p) (hk : k ≠ pid)
    (hpub : p.entry .publisher s k ≠ none) :
    (p.releasePublisher env s pid).entry .publisher s k ≠ none := by
  obtain ⟨x, hx⟩ := Option.ne_none_iff_exists'.mp hpub
  have hrem := Pod.releasePublisher_removes (s := s) env hp pid
  rw [(hrem.entry .publisher s k x).mpr ⟨hx, ?_⟩]
  · exact nofun
  rintro (hx' | ⟨l, hx', -⟩)
  · exact hk (hp.unique hx' hx).2.2
  · cases (hp.unique hx' hx).1

/-- A spawned call that leaves a session in its room, and a subscriber in its
map, leaves the publisher of the subscriber's stream. -/
theorem call_keeps {i : Nat} {g : Goroutine} (hp : InOrder p)
    (hs : Pod.step a p = some q) (hi : a.2 = .go i)
    (hg : p.pending[i]? = some g) (hhit : g.Hits p s)
    (hstay : ∀ r u, (p.room r).sessions.lookup u = some s →
      (q.room r).sessions.lookup u = some s)
    (hy : p.entry .subscriber s k = some y)
    (hy' : q.entry .subscriber s k = some y)
    (hpub : p.entry .publisher s (p.peer y).peerid ≠ none) :
    q.entry .publisher s (p.peer y).peerid ≠ none := by
  have hserves : g.serves = true →
      q.entry .publisher s (p.peer y).peerid ≠ none := by
    intro h
    simp only [Pod.entry, Session.peers, (step_serves_go hs hi hg h).pubs s]
    exact hpub
  have hq := step_go hs hi hg
  have hp' := hp.of_pending (p.pending.eraseIdx i)
  have hrelease : ∀ r u pid, (p.room r).sessions.lookup u = some s →
      q = Pod.onPublisherPeerFailed a.1 r u pid
        { p with pending := p.pending.eraseIdx i } →
      q.entry .publisher s (p.peer y).peerid ≠ none := by
    intro r u pid hlook hq
    have hlook' : (Pod.room { p with pending := p.pending.eraseIdx i }
      r).sessions.lookup u = some s := hlook
    simp only [Pod.onPublisherPeerFailed, hlook'] at hq
    rw [hq]
    refine releasePublisher_keeps hp'.placed (fun hpid => ?_) hpub
    have hgone := releasePublisher_subscribers a.1 hp' s pid hy
    rw [if_pos ⟨rfl, hpid⟩, ← hq, hy'] at hgone
    cases hgone.1
  cases g with
  | releaseRoom rid =>
      obtain ⟨r, u, hr, hlook⟩ := hhit
      have hseat := (step_inOrder hp hs).toSound.seat (hstay r u hlook)
      rw [(step_after hp hs).roomid r (hp.known r u s hlook),
        (hp.rooms rid r hr).1, step_closes hs ⟨i, hi, hg⟩] at hseat
      cases hseat
  | kickoutFromRoom r u =>
      have hlook := hstay r u hhit
      rw [hq] at hlook
      have hnone : (Pod.room (Pod.runGoroutine a.1 (.kickoutFromRoom r u)
          { p with pending := p.pending.eraseIdx i }) r).sessions.lookup u =
          none := kickoutFromRoom_lookup hp'.toPodOk
      rw [hnone] at hlook
      cases hlook
  | onPublisherPeerFailed r u pid x => exact hrelease r u pid hhit hq
  | onPublisherPeerClosed r u pid x => exact hrelease r u pid hhit hq
  | handleSubscriberLeaved | onSubscriberPeerFailed | onSubscriberPeerClosed
  | releaseSubscriberPeer => exact hserves rfl
  | checkKeepAlive | onPublisherReady | fakePublisherReConnect
  | requestKeyframe => cases hhit

/-! ## Runs -/

theorem step_noOrphans (hp : InOrder p) (hno : NoOrphans p) (ha : Renews p a)
    (hs : Pod.step a p = some q) (hf : q.fatal = false) : NoOrphans q := by
  intro s k y hy
  have hy : q.entry .subscriber s k = some y := hy
  have hq := step_inOrder hp hs
  rcases step_new_subscriber hp hs hy with hold | ⟨hpub, m, c, hm, hc, hserves⟩
  case inr =>
    rw [(step_samePubs hs hm hc hserves).pubs s]
    exact hpub
  have hpub := hno s k y hold
  obtain ⟨hlt, hslt, -⟩ := hp.placed _ _ _ _ hold
  have hafter := step_after hp hs
  rw [(Peer.ident_eq (hafter.peer y hlt)).2.2.1]
  by_cases hhit : Hits p a.2 s
  case neg =>
    have hkept : q.entry .publisher s (p.peer y).peerid =
        p.entry .publisher s (p.peer y).peerid := step_entry_kept hp hs hhit
    simp only [Pod.entry, Session.peers] at hkept
    rw [hkept]
    exact hpub
  -- a session that holds a peer has not left its room
  have hstay : ∀ r u, (p.room r).sessions.lookup u = some s →
      (q.room r).sessions.lookup u = some s := by
    intro r u hlook
    obtain ⟨rfl, rfl, -⟩ := hp.sessions r u s hlook
    have hseat := Homed.seat hq.toPodOk hy
    have hident := hafter.sess s hslt
    rwa [show (q.sess s).parent = (p.sess s).parent from
      congrArg (·.2.2.2.2.2) hident,
      show (q.sess s).userid = (p.sess s).userid from
      congrArg (·.1) hident] at hseat
  rcases hhit with ⟨m, r, hm, hreach, hlook⟩ | ⟨i, g, hi, hg, hhit⟩
  · refine message_keeps hp hs hm hreach hlook (hstay r _ hlook) hf hpub
      fun hcmd => ?_
    refine Classical.or_iff_not_imp_left.mpr fun hcreate hpid => ?_
    have hroute : route m = getValue m .sessID := by
      rcases hcmd with hc | hc <;> simp only [route, hc]
    rw [hroute] at hlook
    have hroom := (hreach.known (by
      rcases hcmd with hc | hc <;> simp [hc])).1
    exact ha m (by rw [hm]; rfl) hcmd (Bool.not_eq_true _ ▸ hcreate) s
      (seat_eq_some.mpr ⟨r, hroom, hlook⟩) ⟨k, y⟩
      (GoMap.mem_entries.mpr hold) hpid
  · exact call_keeps hp hs hi hg hhit hstay hold hy hpub

/-- As long as a stream with subscribers is not lost because its new publisher
could not be created, no subscriber outlasts its stream. -/
theorem noOrphans_of_renews {conf : Config} {as : List (Env × Input)}
    (hg : Guarded Pod.step Renews as (Pod.createRoomMgr conf)) :
    Always Pod.step (fun p => p.fatal = false → NoOrphans p) as
      (Pod.createRoomMgr conf) := by
  have h : Always Pod.step (fun p => InOrder p ∧
      (p.fatal = false → NoOrphans p)) as (Pod.createRoomMgr conf) := by
    refine always_of_guarded (fun a p q hp ha hs => ?_) hg
      ⟨createRoomMgr_inOrder conf, fun _ _ _ _ h => by cases h⟩
    exact ⟨step_inOrder hp.1 hs,
      step_noOrphans hp.1 (hp.2 (step_fatal hs)) ha hs⟩
  exact h.mono fun _ hp => hp.2

/-- Surroundings in which no peer connection can be created. -/
def Env.exhausted : Env := { Env.calm with createOk := false }

/-- User `u` publishes stream `1` again. -/
def republishes (env : Env) : Env × Input :=
  (env, .message (Cmd.push.msg
    [(.roomId, "R"), (.sessID, "u"), (.peerID, "1")]))

/-- The stream `1` of `w`, who is on another pod, is taken over, and taken
over again. -/
def takenOverTwice (env : Env) : List (Env × Input) :=
  let offer := Cmd.fakeOffer.msg [(.podId, "podB"), (.roomId, "R"),
    (.sessID, "w"), (.peerID, "1")]
  [(Env.calm, .message (Cmd.fakePublish.msg [(.podId, "podB"),
      (.roomId, "R"), (.sessID, "w"), (.peerID, "1")])),
    (Env.calm, .message offer), watchedBy "v" "w" "1", (env, .message offer)]

/-- A subscriber is left without its stream: one of a publisher here, and one
of a stand-in. -/
theorem failed_renewal_orphans :
    (∃ p, run Pod.step (streamsOf "u" ["1"] ++ [watchedBy "v" "u" "1",
        republishes Env.exhausted])
        (Pod.createRoomMgr (Config.standalone "podA")) = some p ∧
      p.fatal = false ∧ ¬NoOrphans p) ∧
    ∃ p, run Pod.step (streamsOf "u" [] ++ takenOverTwice Env.exhausted)
        (Pod.createRoomMgr (Config.standalone "podA")) = some p ∧
      p.fatal = false ∧ ¬NoOrphans p := by
  have horphan : ∀ as s k y, (run Pod.step as
      (Pod.createRoomMgr (Config.standalone "podA"))).map (fun p =>
        decide (p.fatal = false ∧ (p.sess s).subscribers.lookup k = some y ∧
          (p.sess s).publishers.lookup (p.peer y).peerid = none)) =
      some true → ∃ p, run Pod.step as
        (Pod.createRoomMgr (Config.standalone "podA")) = some p ∧
        p.fatal = false ∧ ¬NoOrphans p := by
    intro as s k y has
    obtain ⟨p, hp, hfacts⟩ := Option.map_eq_some_iff.mp has
    obtain ⟨hf, hy, hnone⟩ := of_decide_eq_true hfacts
    exact ⟨p, hp, hf, fun hno => hno s k y hy hnone⟩
  exact ⟨horphan _ 0 "vu1" 1 (by decide), horphan _ 1 "vw1" 1 (by decide)⟩

/-- One stream is published anew and the other one fails; each has a
subscriber. -/
theorem noOrphans_republished :
    let as := streamsOf "u" ["1", "2"] ++ [watchedBy "v" "u" "1",
      watchedBy "v" "u" "2", republishes Env.calm,
      (Env.calm, .ice 1 .failed), (Env.exhausted, .go 0)]
    (run Pod.step as (Pod.createRoomMgr (Config.standalone "podA"))).map
      (fun p => (p.fatal, (p.sess 0).subscribers.lookup "vu1",
        (p.sess 0).subscribers.lookup "vu2")) = some (false, some 2, none) ∧
    Always Pod.step (fun p => p.fatal = false → NoOrphans p) as
      (Pod.createRoomMgr (Config.standalone "podA")) :=
  ⟨by decide, noOrphans_of_renews (by decide)⟩

end MediaServer.Ref
