import MediaServer.Proofs.Steps
import MediaServer.Ref.Sched

/-!
# The life of a peer under a scheduler

A peer that is destroyed twice closes a closed channel, and one that is
overwritten in its map without being destroyed keeps its connection for ever.
Both can happen when two calls on one session interleave: `publish`,
`stoppush` and `fakeoffer` destroy the peer that they found before they took
the lock, and the four inserting calls store under a key that they tested or
cleared in an earlier block.

If at the moment of each such section what the call found is still true, then
every peer is destroyed exactly when it leaves its map, whatever the order of
the blocks. The proof is one case per block: each of them removes the entries
it destroys (`Removes`), stores a new peer under a free key (`Inserts`), or
does neither (`Asks`).
-/

namespace MediaServer.Ref

open MediaServer.Lib

variable {p q : Pod} {s : SessRef} {env : Env} {j : JsonParser}

/-- The peer stands in its map, under its own key. -/
def Pod.InMap (p : Pod) (x : PeerRef) : Prop :=
  p.entry (p.peer x).role (p.peer x).parent (p.peer x).key = some x

/-- No peer is destroyed twice, and one that is no longer in its map was
destroyed. -/
def DestroyedOnce (p : Pod) : Prop :=
  ∀ x, x < p.peerHeap.next →
    (p.peer x).closed ≤ 1 ∧ (¬p.InMap x → (p.peer x).closed = 1)

structure PeersOk (p : Pod) : Prop where
  placed : Placed p
  lives : Lives p

theorem PeersOk.destroyedOnce (h : PeersOk p) : DestroyedOnce p := by
  intro x hx
  refine ⟨?_, fun hno => h.lives.gone x hx fun hm => hno (h.placed.self hm)⟩
  by_cases hm : Mapped p x
  · rw [h.lives.mapped x hm]
    exact Nat.zero_le 1
  · exact (h.lives.gone x hx hm).le

theorem PeersOk.of_asks {G : Goroutine → Prop} (h : PeersOk p)
    (hq : Asks G p q) : PeersOk q :=
  ⟨h.placed.of_asks hq, h.lives.of_same hq.entry hq.peerNext hq.closed⟩

theorem PeersOk.of_removes {X : Set PeerRef} (h : PeersOk p)
    (hq : Removes X p q) : PeersOk q :=
  ⟨h.placed.of_removes hq, h.lives.of_removes hq⟩

theorem PeersOk.of_inserts {t : Peer} (h : PeersOk p) (hq : Inserts s t p q) :
    PeersOk q :=
  ⟨h.placed.of_inserts hq, h.lives.of_inserts h.placed hq⟩

/-! ## Blocks -/

/-- What a call found before it took the lock is still so. -/
def Pc.Fresh (p : Pod) : Pc → Prop
  | .replacePub s j x | .stopPub s j x =>
      (p.sess s).publishers.lookup (getValue j .peerID) = some x
  | .insertPub s j =>
      (p.sess s).publishers.lookup (getValue j .peerID) = none
  | .insertSub s j _ =>
      (p.sess s).subscribers.lookup (subscriberKey j) = none
  | _ => True

/-- The session a call works on exists. -/
def Pc.Known (p : Pod) : Pc → Prop
  | .start s _ | .replacePub s .. | .insertPub s _ | .readPub s _
  | .testSub s .. | .replaceSub s .. | .insertSub s .. => s < p.sessHeap.next
  | _ => True

/-- The branches of `session.HandleMessage` that neither store nor destroy a
peer. -/
theorem sessionHandleMessage_asks
    (h : match command j with
      | some .push | some .fakeOffer | some .stopPush => False
      | some .sub | some .fakeSubscribe =>
          (p.sess s).publishers.lookup (getValue j .peerID) = none
      | _ => True) :
    Asks (fun _ => True) p (p.sessionHandleMessage env s j) := by
  have hany : ∀ {q}, Quiet p q → Asks (fun _ => True) p q := fun h => h.any
  unfold Pod.sessionHandleMessage
  split
  case h_1 => exact hany (Pod.heartbeat_quiet env s p)
  case h_2 hc => simp only [hc] at h
  case h_3 hc => simp only [hc] at h
  case h_4 hc =>
      simp only [hc] at h
      simp only [Pod.handleSub, Pod.subscribe, h, if_true]
      exact hany (p.emit_quiet _)
  case h_5 => exact (Pod.handleStopSub_asks s j p).mono fun _ _ => trivial
  case h_6 => exact hany (Pod.handleOffer_quiet env s j p)
  case h_7 => exact hany (Pod.toSubscriber_quiet (fun p => p.emit_quiet _) p)
  case h_8 => exact hany (Pod.handleRoomCreated_quiet s j p)
  case h_9 => exact hany (Pod.fakeSubscribe_quiet s _ _ _ p)
  case h_10 hc =>
      simp only [hc] at h
      simp only [Pod.handleFakeSub, Pod.subscribe, h, if_true]
      exact .refl p
  case h_11 hc => simp only [hc] at h
  case h_12 => exact hany (Pod.toSubscriber_quiet Asks.refl p)
  case h_13 => exact hany (Pod.handleFakeCandidate_quiet env s j p)
  case h_14 => exact .refl p

theorem startMessage_asks :
    Asks (fun _ => True) p (Pc.startMessage env s j p).1 := by
  unfold Pc.startMessage
  dsimp only
  split
  case h_1 => split <;> exact .refl p
  case h_2 => split <;> exact .refl p
  case h_3 => split <;> exact .refl p
  case h_4 hc =>
      split
      · next hnone =>
          exact sessionHandleMessage_asks (by simp only [hc]; exact hnone)
      · exact .refl p
  case h_5 hc =>
      split
      · next hnone =>
          exact sessionHandleMessage_asks (by simp only [hc]; exact hnone)
      · exact .refl p
  case h_6 h1 h2 h3 h4 h5 =>
      refine sessionHandleMessage_asks ?_
      split
      · next hc => exact h1 hc
      · next hc => exact h2 hc
      · next hc => exact h3 hc
      · next hc => exact absurd hc h4
      · next hc => exact absurd hc h5
      · trivial

theorem exec_sameStore (k : Pc) : SameStore p (k.exec env p).1 := by
  cases k with
  | start s op =>
      cases op with
      | message j => exact startMessage_asks.toSameStore
      | releasePublisher pid => exact p.releasePubs_sameStore s pid
      | releaseSubscriberPeer sid ssid pid =>
          exact p.releaseSubscriberPeer_sameStore s sid ssid pid
      | handleSubscriberLeaved sid =>
          exact ((p.emit_quiet _).trans (Pod.emit_quiet _ _)).toSameStore
      | doLeave => exact p.doLeavePubs_sameStore s
  | replacePub s j x => exact p.replacePublisher_sameStore s x _
  | insertPub s j =>
      simp only [Pc.exec]
      split
      · exact p.insertPublisher_sameStore s _ _
      · exact .refl p
  | answerPub j x =>
      simp only [Pc.exec]
      split
      · exact (Pod.peerHandleMessage_quiet env x j p).toSameStore
      · exact (p.emit_quiet _).toSameStore
  | stopPub s j x =>
      exact (p.stopSection_sameStore s x _).trans (Pod.throw_quiet _).toSameStore
  | answerStop s j =>
      exact ((p.emit_quiet _).trans
        (Pod.notifyReleasePublish_quiet env s _ _)).toSameStore
  | readPub s j => exact (p.readPublisher_quiet s _).toSameStore
  | testSub s j sdp => exact .refl p
  | replaceSub s j sdp => exact p.replaceSubscriber_sameStore s _
  | insertSub s j sdp =>
      simp only [Pc.exec]
      split
      · exact p.insertSubscriber_sameStore s _ _
      · split
        · exact .refl p
        · exact (p.emit_quiet _).toSameStore
  | offerSub j y => exact (Pod.peerHandleMessage_quiet env y j p).toSameStore
  | releaseSubs s pid =>
      exact (p.releaseSubs_sameStore s pid).trans
        (Pod.notifyReleasePublish_quiet env s pid _).toSameStore
  | leavedSubs s sid lst => exact p.leavedSubs_sameStore s sid lst
  | leaveSubs s => exact p.doLeaveSubs_sameStore s
  | leaveWait s => exact (p.waitChecks_quiet s).toSameStore
  | ice x st =>
      simp only [Pc.exec]
      split
      · exact .refl p
      · exact (p.setIceFlags_quiet x st).toSameStore
  | reportIce x st => exact (p.reportIce_asks x st).toSameStore

theorem exec_peersOk {k : Pc} (h : PeersOk p) (hk : k.Known p)
    (hf : k.Fresh p) : PeersOk (k.exec env p).1 := by
  cases k with
  | start s op =>
      cases op with
      | message j => exact h.of_asks startMessage_asks
      | releasePublisher pid =>
          exact h.of_removes (Pod.releasePubs_removes h.placed)
      | releaseSubscriberPeer sid ssid pid =>
          exact h.of_removes
            (Pod.releaseSubscriberPeer_removes h.placed sid ssid pid)
      | handleSubscriberLeaved sid =>
          exact h.of_asks ((p.emit_quiet _).trans (Pod.emit_quiet _ _))
      | doLeave => exact h.of_removes (Pod.doLeavePubs_removes h.placed)
  | replacePub s j x =>
      exact h.of_removes (Pod.replacePublisher_removes h.placed hf)
  | insertPub s j =>
      simp only [Pc.exec]
      split
      · exact h.of_inserts (Pod.insertPublisher_inserts
          (t := createPublishPeer s (getValue j .sessID) (getValue j .peerID)
            (command j = some .fakeOffer)) hk rfl rfl rfl hf)
      · exact h
  | answerPub j x =>
      simp only [Pc.exec]
      split
      · exact h.of_asks (Pod.peerHandleMessage_quiet env x j p)
      · exact h.of_asks (p.emit_quiet _)
  | stopPub s j x =>
      exact (h.of_removes (Pod.stopSection_removes h.placed hf)).of_asks
        (Pod.throw_quiet _)
  | answerStop s j =>
      exact h.of_asks ((p.emit_quiet _).trans
        (Pod.notifyReleasePublish_quiet env s _ _))
  | readPub s j => exact h.of_asks (p.readPublisher_quiet s _)
  | testSub s j sdp => exact h
  | replaceSub s j sdp =>
      cases hy : (p.sess s).subscribers.lookup (subscriberKey j) with
      | none => exact h.of_asks (Pod.replaceSubscriber_quiet hy)
      | some y => exact h.of_removes (Pod.replaceSubscriber_removes h.placed hy)
  | insertSub s j sdp =>
      simp only [Pc.exec]
      split
      · exact h.of_inserts (Pod.insertSubscriber_inserts
          (t := createSubscribePeer s (subscriberId j) (getValue j .srcSessID)
            (getValue j .peerID) sdp (command j = some .fakeSubscribe))
          hk rfl rfl rfl hf)
      · split
        · exact h
        · exact h.of_asks (p.emit_quiet _)
  | offerSub j y => exact h.of_asks (Pod.peerHandleMessage_quiet env y j p)
  | releaseSubs s pid =>
      exact (h.of_removes (Pod.releaseSubs_removes h.placed pid)).of_asks
        (Pod.notifyReleasePublish_quiet env s pid _)
  | leavedSubs s sid lst =>
      obtain ⟨X, hX⟩ := Pod.leavedSubs_removes h.placed sid lst
      exact h.of_removes hX
  | leaveSubs s => exact h.of_removes (Pod.doLeaveSubs_removes h.placed)
  | leaveWait s => exact h.of_asks (p.waitChecks_quiet s)
  | ice x st =>
      simp only [Pc.exec]
      split
      · exact h
      · exact h.of_asks (p.setIceFlags_quiet x st)
  | reportIce x st => exact h.of_asks (p.reportIce_asks x st)

/-- A call stays on its session. -/
theorem exec_known {k k' : Pc} (hk : k.Known p)
    (hnext : (k.exec env p).2 = some k') : k'.Known p := by
  cases k with
  | start s op =>
      cases op with
      | message j =>
          simp only [Pc.exec, Pc.startMessage] at hnext
          repeat' split at hnext
          all_goals first
            | (cases hnext; exact hk)
            | (cases hnext; trivial)
            | cases hnext
      | _ => first | (cases hnext; trivial) | cases hnext
  | testSub s j sdp =>
      simp only [Pc.exec, Option.some.injEq] at hnext
      subst hnext
      split
      · exact hk
      · exact hk
  | insertPub s j =>
      simp only [Pc.exec] at hnext
      split at hnext
      · cases hnext; trivial
      · cases hnext
  | insertSub s j sdp =>
      simp only [Pc.exec] at hnext
      split at hnext
      · cases hnext; trivial
      · cases hnext
  | ice x st =>
      simp only [Pc.exec] at hnext
      split at hnext
      · cases hnext
      · cases hnext; trivial
  | _ => first | (cases hnext; exact hk) | cases hnext

theorem Pc.Known.mono {k : Pc} (hk : k.Known p)
    (h : p.sessHeap.next ≤ q.sessHeap.next) : k.Known q := by
  cases k <;> first | exact Nat.lt_of_lt_of_le hk h | trivial

/-! ## Runs -/

/-- Each section acts on what its call found before. -/
def Sched.Fresh (t : Sched) : Sched.Act → Prop
  | .turn i _ _ => ∀ k ∈ t.threads[i]?, k.Fresh t.shared.pod
  | _ => True

instance (p : Pod) (k : Pc) : Decidable (k.Fresh p) := by
  cases k <;> unfold Pc.Fresh <;> infer_instance

instance (t : Sched) (a : Sched.Act) : Decidable (t.Fresh a) := by
  cases a <;> unfold Sched.Fresh <;> infer_instance

abbrev SchedOk : Sched → Prop :=
  Threads.Inv (fun l => PeersOk l.pod) fun k l => k.Known l.pod

theorem locked_exec {waiting : Bool} {k : Pc} {l l' : Locked}
    {next : Option Pc} (h : PeersOk l.pod) (hk : k.Known l.pod)
    (hf : k.Fresh l.pod) (hs : l.exec env waiting k = some (l', next)) :
    PeersOk l'.pod ∧ l'.pod.sessHeap.next = l.pod.sessHeap.next ∧
      ∀ k', next = some k' → k'.Known l.pod := by
  unfold Locked.exec at hs
  split at hs
  · split at hs
    · cases hs
      refine ⟨h.of_removes (Pod.stopSection_removes h.placed hf),
        (Pod.stopSection_sameStore _ _ _ _).sessNext, fun k' hk' => ?_⟩
      cases hk'
      trivial
    · cases hs
      exact ⟨exec_peersOk h hk hf, (exec_sameStore k).sessNext,
        fun k' hk' => exec_known hk hk'⟩
  · cases hs

theorem sched_step_ok {t u : Sched} {a : Sched.Act} (h : SchedOk t)
    (ha : t.Fresh a) (hs : Sched.step a t = some u) : SchedOk u := by
  have hkeep : ∀ {q : Pod}, t.shared.pod.sessHeap.next ≤ q.sessHeap.next →
      ∀ k ∈ t.threads, k.Known t.shared.pod → k.Known q :=
    fun hle k _ hk => hk.mono hle
  unfold Sched.step at hs
  dsimp only at hs
  split at hs
  · cases hs
  · cases a with
    | openRoom rid =>
        cases hs
        have hheap := insertRoom_sessHeap rid t.shared.pod
        refine h.of_shared (s := { t.shared with pod := _ })
          ⟨h.shared.placed.of_heaps hheap (insertRoom_peerHeap rid _), ?_⟩
          (hkeep (by rw [hheap]))
        exact h.shared.lives.of_same (entry_of_sessHeap hheap)
          (by rw [insertRoom_peerHeap])
          fun x => by rw [Pod.peer, insertRoom_peerHeap, Pod.peer]
    | login r uid name now =>
        dsimp only at hs
        split at hs
        · cases hs
          refine h.of_shared (s := { t.shared with pod := _ })
            ⟨h.shared.placed.insertSession rfl rfl, ?_⟩
            (hkeep (by rw [Pod.insertSession_sessNext]; exact Nat.le_succ _))
          exact h.shared.lives.of_same
            (insertSession_entry h.shared.placed rfl rfl)
            (by rw [insertSession_peerHeap])
            fun x => by rw [Pod.peer, insertSession_peerHeap, Pod.peer]
        · cases hs
    | call s op =>
        dsimp only at hs
        split at hs
        · next hlt => cases hs; exact h.start hlt
        · cases hs
    | ice x st =>
        dsimp only at hs
        split at hs
        · cases hs; exact h.start trivial
        · cases hs
    | turn i env waiting =>
        obtain ⟨k, l, next, hk, hexec, rfl⟩ := Threads.turn_eq_some hs
        obtain ⟨hok, hlen, hnext⟩ := locked_exec h.shared
          (h.each k (List.mem_of_getElem? hk)) (ha k hk) hexec
        exact h.resume hok (fun k' hk' => (hnext k' hk').mono hlen.ge)
          (hkeep hlen.ge)

theorem sched_init_ok (conf : Config) : SchedOk (Sched.init conf) where
  shared := ⟨(createRoomMgr_podOk conf).placed, createRoomMgr_lives conf⟩
  each k hk := by cases hk

/-- In every run in which each section still finds what its call found before
it, every peer is destroyed at most once, and before it is out of its map. -/
theorem destroyedOnce_of_fresh {conf : Config} {as : List Sched.Act}
    (hg : Guarded Sched.step Sched.Fresh as (Sched.init conf)) :
    Always Sched.step (fun t => DestroyedOnce t.shared.pod) as
      (Sched.init conf) :=
  (always_of_guarded (P := SchedOk) (fun _ _ _ h ha hs =>
    sched_step_ok h ha hs) hg (sched_init_ok conf)).mono
    fun _ h => h.shared.destroyedOnce

/-- A room with one session, and two calls that publish the same stream. -/
def twoCalls (op : Op) : List Sched.Act :=
  [.openRoom "R", .login 0 "u" "U" 0,
    .call 0 (.message (Cmd.push.msg [(.sessID, "u"), (.peerID, "1")])),
    .call 0 op]

/-- The next blocks of the first or the second call. -/
def turns (l : List Nat) : List Sched.Act := l.map fun i => .turn i .calm false

/-- A republish finds the publisher, the release of a failed connection takes
it out, and the republish destroys it again. -/
def republishRace : List Sched.Act :=
  (twoCalls (.releasePublisher "1")).take 3 ++ turns [0, 0, 0] ++
    (twoCalls (.releasePublisher "1")).drop 2 ++ turns [0, 1, 0]

/-- Two calls that publish one stream both find the key free. -/
def doublePublish : List Sched.Act :=
  twoCalls (.message (Cmd.push.msg [(.sessID, "u"), (.peerID, "1")])) ++
    turns [0, 1, 0, 1]

theorem destroyed_twice_or_never :
    (∃ t, run Sched.step republishRace
        (Sched.init (Config.standalone "podA")) = some t ∧
      (t.shared.pod.peer 0).closed = 2 ∧ ¬DestroyedOnce t.shared.pod) ∧
    ∃ t, run Sched.step doublePublish
        (Sched.init (Config.standalone "podA")) = some t ∧
      (t.shared.pod.peer 0).closed = 0 ∧ ¬DestroyedOnce t.shared.pod := by
  have h : (run Sched.step republishRace
      (Sched.init (Config.standalone "podA"))).map (fun t =>
        ((t.shared.pod.peer 0).closed, t.shared.pod.peerHeap.next)) =
      some (2, 1) := by decide
  have h' : (run Sched.step doublePublish
      (Sched.init (Config.standalone "podA"))).map (fun t =>
        ((t.shared.pod.peer 0).closed, t.shared.pod.peerHeap.next,
          t.shared.pod.entry (t.shared.pod.peer 0).role
            (t.shared.pod.peer 0).parent (t.shared.pod.peer 0).key)) =
      some (0, 2, some 1) := by decide
  obtain ⟨t, ht, htwice⟩ := Option.map_eq_some_iff.mp h
  obtain ⟨u, hu, hnever⟩ := Option.map_eq_some_iff.mp h'
  simp only [Prod.mk.injEq] at htwice hnever
  refine ⟨⟨t, ht, htwice.1, fun hone => ?_⟩, u, hu, hnever.1, fun hone => ?_⟩
  · have hle := (hone 0 (by rw [htwice.2]; decide)).1
    rw [htwice.1] at hle
    exact absurd hle (by decide)
  · have hgone : ¬u.shared.pod.InMap 0 := by
      rw [Pod.InMap, hnever.2.2]
      decide
    have hclosed := (hone 0 (by rw [hnever.2.1]; decide)).2 hgone
    rw [hnever.1] at hclosed
    cases hclosed

/-- The same release after the republish has stored its publisher. -/
theorem destroyedOnce_release_last :
    let as := (twoCalls (.releasePublisher "1")).take 3 ++ turns [0, 0, 0] ++
      (twoCalls (.releasePublisher "1")).drop 2 ++ turns [0, 0, 0, 1, 0, 0]
    (run Sched.step as (Sched.init (Config.standalone "podA"))).map (fun t =>
      ((t.shared.pod.peer 0).closed, (t.shared.pod.peer 1).closed,
        t.threads.length)) = some (1, 1, 0) ∧
    Always Sched.step (fun t => DestroyedOnce t.shared.pod) as
      (Sched.init (Config.standalone "podA")) :=
  ⟨by decide, destroyedOnce_of_fresh (by decide)⟩

end MediaServer.Ref
