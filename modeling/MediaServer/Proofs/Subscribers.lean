import MediaServer.Proofs.Effects

/-!
# The subscribers of a session

A session keeps its subscribers under the concatenation of three names: who
subscribes (a user here, or another pod), whose stream it is, and the stream.
The code rebuilds that key from the fields of the peer when it releases the
subscribers of a publisher, so the map is right only as long as every entry
stands under the key of its own fields.

The callback of a failed subscriber does not rebuild the key: it looks for an
entry under the stream's name alone, and spawns the release only if it finds
one. The release itself uses the right key. So whether a failed subscriber is
released depends on another entry that nobody put there for it.
-/

namespace MediaServer.Ref

open MediaServer.Lib

variable {p q t : Pod} {s : SessRef} {k : String} {x y : PeerRef}

/-! ## Representation -/

/-- What the entries of a session's subscribers have in common. -/
theorem InOrder.subscriber (h : InOrder p)
    (hx : p.entry .subscriber s k = some x) :
    k = subKey (p.peer x).userid (p.peer x).remoteuserid (p.peer x).peerid ∧
      (p.peer x).remoteuserid = (p.sess s).userid ∧ (p.peer x).closed = 0 := by
  obtain ⟨-, -, hrole, -, hkey⟩ := h.placed _ _ _ _ hx
  have hown := h.owned _ _ _ _ hx
  refine ⟨?_, ?_, h.lives.mapped x ⟨_, _, _, hx⟩⟩
  · rw [← hkey, Peer.key_subscriber hrole]
  · simpa only [Owned, Peer.owner, hrole] using hown

/-- `ReleasePublisher` takes the subscribers of the stream and no others. -/
theorem releasePublisher_subscribers (env : Env) (h : InOrder p) (i : SessRef)
    (pid : String) (hx : p.entry .subscriber s k = some x) :
    if s = i ∧ (p.peer x).peerid = pid then
      (p.releasePublisher env i pid).entry .subscriber s k = none ∧
        ((p.releasePublisher env i pid).peer x).closed = 1
    else (p.releasePublisher env i pid).entry .subscriber s k = some x ∧
      ((p.releasePublisher env i pid).peer x).closed = 0 := by
  have hrem := Pod.releasePublisher_removes (s := i) env h.placed pid
  have hopen := (h.subscriber hx).2.2
  -- a subscriber is none of the publishers that go
  have hmem : x ∈ {y | p.entry .publisher i pid = some y} ∪
      {y | ∃ l, p.entry .subscriber i l = some y ∧ (p.peer y).peerid = pid} ↔
      s = i ∧ (p.peer x).peerid = pid := by
    constructor
    · rintro (hpub | ⟨l, hl, hpid⟩)
      · cases (h.placed.unique hx hpub).1
      · exact ⟨(h.placed.unique hx hl).2.1.symm, hpid⟩
    · rintro ⟨rfl, hpid⟩
      exact .inr ⟨k, hx, hpid⟩
  generalize p.releasePublisher env i pid = q at hrem ⊢
  split
  · next hgone =>
      have hin := hmem.mpr hgone
      refine ⟨Option.eq_none_iff_forall_ne_some.mpr fun y hy => ?_, ?_⟩
      · obtain ⟨hold, hno⟩ := (hrem.entry _ _ _ _).mp hy
        cases hold.symm.trans hx
        exact hno hin
      · rw [(hrem.hit x hin).2, hopen]
  · next hkept =>
      have hout := fun hin => hkept (hmem.mp hin)
      exact ⟨(hrem.entry _ _ _ _).mpr ⟨hx, hout⟩,
        by rw [hrem.miss x hout, hopen]⟩

/-- It does not end the process. -/
theorem releasePublisher_fatal (env : Env) (h : InOrder p) (i : SessRef)
    (pid : String) (hf : p.fatal = false) :
    (p.releasePublisher env i pid).fatal = false :=
  (releasePublisher_calm (A := fun _ => True) (c := none) env
    ⟨trivial, trivial, fun _ _ => trivial⟩
    ⟨fun _ => trivial, fun _ _ => trivial, fun _ => trivial⟩ trivial p h.ready
    hf).2.1

/-- Whatever the calls were, each subscriber stands under the key of its
fields, belongs to the user of its session and has not been destroyed; and a
release of a publisher takes exactly the subscribers of its stream. -/
theorem subscribers_represented {conf : Config}
    (hr : Pod.Reachable conf p) :
    (∀ s k x, (p.sess s).subscribers.lookup k = some x →
      k = (p.peer x).userid ++ (p.peer x).remoteuserid ++ (p.peer x).peerid ∧
      (p.peer x).remoteuserid = (p.sess s).userid ∧
      (p.peer x).closed = 0) ∧
    ∀ env i pid,
      let q := p.releasePublisher env i pid
      (p.fatal = false → q.fatal = false) ∧
      ∀ s k x, (p.sess s).subscribers.lookup k = some x →
        if s = i ∧ (p.peer x).peerid = pid then
          (q.sess s).subscribers.lookup k = none ∧ (q.peer x).closed = 1
        else (q.sess s).subscribers.lookup k = some x ∧
          (q.peer x).closed = 0 := by
  have hp := reachable_inOrder hr
  refine ⟨fun s k x hx => hp.subscriber hx, fun env i pid => ⟨?_, ?_⟩⟩
  · exact releasePublisher_fatal env hp i pid
  · intro s k x hx
    exact releasePublisher_subscribers env hp i pid hx

/-- The pod starts, and user `u` logs in and publishes these streams. -/
def streamsOf (u : String) (pids : List String) : List (Env × Input) :=
  (Env.calm, .setSendMessageHandler) ::
    (Env.calm, .message (Cmd.login.msg [(.roomId, "R"), (.sessID, u)])) ::
    pids.flatMap fun pid =>
      [(Env.calm, .message (Cmd.push.msg
          [(.roomId, "R"), (.sessID, u), (.peerID, pid)])),
        (Env.calm, .message (Cmd.offer.msg
          [(.roomId, "R"), (.sessID, u), (.peerID, pid)]))]

/-- User `v` subscribes to a stream of `u`. -/
def watchedBy (v u pid : String) : Env × Input :=
  (Env.calm, .message (Cmd.sub.msg
    [(.roomId, "R"), (.sessID, v), (.srcSessID, u), (.peerID, pid)]))

/-- The pod `pod` does. -/
def fetchedBy (pod u pid : String) : Env × Input :=
  (Env.calm, .message (Cmd.fakeSubscribe.msg [(.podId, pod), (.roomId, "R"),
    (.sessID, u), (.srcSessID, u), (.peerID, pid)]))

/-- Of a subscriber here and a pod that have different streams, the release of
one stream takes the first. -/
theorem subscribers_represented_twoStreams :
    ∃ p, Pod.Reachable (Config.standalone "podA") p ∧ p.fatal = false ∧
      let q := p.releasePublisher Env.calm 0 "1"
      ((q.sess 0).subscribers.lookup "vu1" = none ∧ (q.peer 2).closed = 1) ∧
      (q.sess 0).subscribers.lookup "podBu2" = some 3 ∧
        (q.peer 3).closed = 0 := by
  have h : (run Pod.step
      (streamsOf "u" ["1", "2"] ++ [watchedBy "v" "u" "1",
        fetchedBy "podB" "u" "2"])
      (Pod.createRoomMgr (Config.standalone "podA"))).map (fun p =>
        (p.fatal, (p.sess 0).subscribers.lookup "vu1", (p.peer 2).peerid,
          (p.sess 0).subscribers.lookup "podBu2", (p.peer 3).peerid)) =
      some (false, some 2, "1", some 3, "2") := by decide
  obtain ⟨p, hp, hfacts⟩ := Option.map_eq_some_iff.mp h
  simp only [Prod.mk.injEq] at hfacts
  obtain ⟨hf, h2, hpid2, h3, hpid3⟩ := hfacts
  have hr : Pod.Reachable (Config.standalone "podA") p := ⟨_, hp⟩
  have hrel := ((subscribers_represented hr).2 Env.calm 0 "1").2
  refine ⟨p, hr, hf, ?_, ?_⟩
  · simpa [hpid2] using hrel 0 _ _ h2
  · simpa [hpid3] using hrel 0 _ _ h3

/-! ## A subscriber whose connection is lost -/

/-- The subscriber is as it was, in its place. -/
structure Spared (y : PeerRef) (p q : Pod) : Prop where
  peer : q.peer y = p.peer y
  entry : ∀ s k, q.entry .subscriber s k = some y ↔
    p.entry .subscriber s k = some y

namespace Spared

theorem refl (y : PeerRef) (p : Pod) : Spared y p p := ⟨rfl, fun _ _ => .rfl⟩

theorem trans (h : Spared y p q) (h' : Spared y q t) : Spared y p t :=
  ⟨h'.peer.trans h.peer, fun s k => (h'.entry s k).trans (h.entry s k)⟩

/-- The maps and the peers are read from their two heaps. -/
theorem of_heaps (hs : q.sessHeap = p.sessHeap)
    (hx : q.peerHeap = p.peerHeap) : Spared y p q :=
  ⟨by simp only [Pod.peer, hx],
    fun s k => by rw [entry_of_sessHeap hs]⟩

theorem emit (p : Pod) (e : Event) : Spared y p (p.emit e) :=
  .of_heaps Pod.emit_sessHeap Pod.emit_peerHeap

theorem setPeer (p : Pod) {f : Peer → Peer} (hy : y ≠ x) :
    Spared y p (p.setPeer x f) :=
  ⟨by rw [Pod.setPeer_peer, if_neg hy], fun _ _ => .rfl⟩

/-- Another peer is destroyed and loses its entry. -/
theorem dropSubscriber (hx : p.entry .subscriber s k = some x) (hy : y ≠ x) :
    Spared y p (p.dropSubscriber s x k) where
  peer := by
    rw [Pod.dropSubscriber, show ((p.destroy x).eraseSubscriber s k).peer y =
      (p.destroy x).peer y from rfl, Pod.destroy_peer, if_neg hy]
  entry i l := by
    rw [Pod.dropSubscriber, Pod.eraseSubscriber_entry]
    rw [show (p.destroy x).entry .subscriber i l = p.entry .subscriber i l from
      (p.destroy_destroys x).entry _ _ _]
    split
    · next hat =>
        obtain ⟨-, rfl, rfl⟩ := hat
        rw [hx]
        exact ⟨fun h => (by cases h),
          fun h => absurd (Option.some.inj h).symm hy⟩
    · exact .rfl

end Spared

/-- The callback of the subscriber runs, and after it the goroutine that it
has spawned, if it has. -/
def Pod.loses (env : Env) (x : PeerRef) (st : IceState) (p : Pod) :
    Option Pod :=
  (Pod.step (env, .ice x st) p).bind fun q =>
    if p.pending.length < q.pending.length then
      Pod.step (env, .go p.pending.length) q
    else some q

/-- The subscriber is destroyed and out of its map, and nobody else is
touched. -/
structure Released (s : SessRef) (x : PeerRef) (p q : Pod) : Prop where
  closed : (q.peer x).closed = 1
  gone : ∀ k, (q.sess s).subscribers.lookup k ≠ some x
  spares : ∀ y, y ≠ x → Spared y p q

/-- What the callback does: it looks for an entry under the stream's name, and
the call it spawns for one releases under the key of its fields. -/
theorem onICEConnectionStateChange_subscriber {st : IceState}
    (hrole : (p.peer x).role = .subscriber) (hopen : (p.peer x).closed = 0)
    (hst : st = .failed ∨ st = .closed) :
    ∃ g, (∀ env q, Pod.runGoroutine env g q = q.onSubscriberPeerFailed
        (p.sess (p.peer x).parent).parent (p.peer x).userid
        (p.peer x).remoteuserid (p.peer x).peerid) ∧
      p.onICEConnectionStateChange x st = (p.setIceFlags x st).testSubscriber
        (p.peer x).parent (p.peer x).peerid g := by
  have hpeer : (p.setIceFlags x st).peer x =
      { p.peer x with isReady := false } := by
    rw [Pod.setIceFlags, Pod.setPeer_peer, if_pos rfl]
    rcases hst with rfl | rfl
    · rfl
    · rfl
  have hsess : ∀ i, (p.setIceFlags x st).sess i = p.sess i := fun _ => rfl
  unfold Pod.onICEConnectionStateChange
  rw [if_neg (by rw [hopen]; exact Nat.lt_irrefl 0)]
  rcases hst with rfl | rfl
  · refine ⟨.onSubscriberPeerFailed (p.sess (p.peer x).parent).parent
      (p.peer x).userid (p.peer x).remoteuserid (p.peer x).peerid x,
      fun _ _ => rfl, ?_⟩
    simp only [Pod.reportIce, Pod.onIceFailed, hpeer, hsess, hrole]
  · refine ⟨.onSubscriberPeerClosed (p.sess (p.peer x).parent).parent
      (p.peer x).userid (p.peer x).remoteuserid (p.peer x).peerid x,
      fun _ _ => rfl, ?_⟩
    simp only [Pod.reportIce, Pod.onIceClosed, hpeer, hsess, hrole]

theorem testSubscriber_found {pid : String} {g : Goroutine}
    (h : (p.sess s).subscribers.lookup pid ≠ none) :
    p.testSubscriber s pid g =
      ((p.rlock (.subs s)).go g).runlock (.subs s) := by
  obtain ⟨y, hy⟩ := Option.ne_none_iff_exists'.mp h
  simp only [Pod.testSubscriber, Pod.rlock, Pod.emit_sess, hy]

theorem testSubscriber_missing {pid : String} {g : Goroutine}
    (h : (p.sess s).subscribers.lookup pid = none) :
    p.testSubscriber s pid g = (p.rlock (.subs s)).runlock (.subs s) := by
  simp only [Pod.testSubscriber, Pod.rlock, Pod.emit_sess, h]

/-- A subscriber is found, and released, under its own fields. -/
theorem onSubscriberPeerFailed_released (h : InOrder p)
    (hx : p.entry .subscriber s k = some x) :
    Released s x p (p.onSubscriberPeerFailed (p.sess s).parent
      (p.peer x).userid (p.peer x).remoteuserid (p.peer x).peerid) := by
  obtain ⟨hkey, hown, hopen⟩ := h.subscriber hx
  have hseat := Homed.seat h.toPodOk hx
  rw [← hown] at hseat
  simp only [Pod.onSubscriberPeerFailed, hseat]
  have hrem := Pod.releaseSubscriberPeer_removes (s := s) h.placed
    (p.peer x).userid (p.peer x).remoteuserid (p.peer x).peerid
  rw [← hkey] at hrem
  refine ⟨?_, fun l hl => ?_, fun y hy => ?_⟩
  · rw [(hrem.hit x hx).2, hopen]
  · exact ((hrem.entry .subscriber s l x).mp hl).2 hx
  · have hlock : ((p.lock (.subs s)).sess s).subscribers.lookup k =
        some x := by
      rw [Pod.lock, Pod.emit_sess]
      exact hx
    rw [hkey] at hlock
    simp only [Pod.releaseSubscriberPeer, hlock]
    exact ((Spared.emit p _).trans (.dropSubscriber hlock hy)).trans
      (.emit _ _)

/-- Without an entry under the stream's name nothing is spawned. -/
theorem loses_missing {env : Env} {st : IceState} (h : InOrder p)
    (hf : p.fatal = false) (hx : p.entry .subscriber s k = some x)
    (hst : st = .failed ∨ st = .closed)
    (hbare : (p.sess s).subscribers.lookup (p.peer x).peerid = none) :
    p.loses env x st = some (p.onICEConnectionStateChange x st) := by
  obtain ⟨hlt, -, hrole, hpar, -⟩ := h.placed _ _ _ _ hx
  obtain ⟨g, -, hcall⟩ := onICEConnectionStateChange_subscriber hrole
    (h.subscriber hx).2.2 hst
  rw [hpar, testSubscriber_missing (p := p.setIceFlags x st) hbare] at hcall
  have hstep : Pod.step (env, .ice x st) p =
      some (p.onICEConnectionStateChange x st) := by simp [Pod.step, hf, hlt]
  have hpend : (p.onICEConnectionStateChange x st).pending = p.pending := by
    rw [hcall, Pod.runlock, Pod.emit_pending, Pod.rlock, Pod.emit_pending]
    rfl
  rw [Pod.loses, hstep, Option.bind_some, hpend, if_neg (Nat.lt_irrefl _)]

/-- With one, the subscriber is released. -/
theorem loses_found {env : Env} {st : IceState} (h : InOrder p)
    (hf : p.fatal = false) (hx : p.entry .subscriber s k = some x)
    (hst : st = .failed ∨ st = .closed)
    (hbare : (p.sess s).subscribers.lookup (p.peer x).peerid ≠ none) :
    ∃ q, p.loses env x st = some q ∧ Released s x p q := by
  obtain ⟨hlt, -, hrole, hpar, -⟩ := h.placed _ _ _ _ hx
  obtain ⟨g, hg, hcall⟩ := onICEConnectionStateChange_subscriber hrole
    (h.subscriber hx).2.2 hst
  rw [hpar, testSubscriber_found (p := p.setIceFlags x st) hbare] at hcall
  rw [hpar] at hg
  have hstep : Pod.step (env, .ice x st) p =
      some (p.onICEConnectionStateChange x st) := by simp [Pod.step, hf, hlt]
  have hq := step_inOrder h hstep
  have hasks := p.onICEConnectionStateChange_asks x st
  generalize p.onICEConnectionStateChange x st = q at hstep hq hasks hcall
  have hpend : q.pending = p.pending ++ [g] := by
    rw [hcall, Pod.runlock, Pod.emit_pending, Pod.go, Pod.rlock,
      Pod.emit_pending]
    rfl
  have hfq : q.fatal = false := by
    rw [hcall, Pod.runlock, Pod.emit_fatal, Pod.go, Pod.rlock, Pod.emit_fatal]
    exact hf
  have hspared : ∀ y, y ≠ x → Spared y p q := by
    intro y hy
    have hgo : Spared y ((p.setIceFlags x st).rlock (.subs s))
        (((p.setIceFlags x st).rlock (.subs s)).go g) := .of_heaps rfl rfl
    rw [hcall]
    exact (((Spared.setPeer p hy).trans (.emit _ _)).trans hgo).trans
      (.emit _ _)
  have hgo : Pod.step (env, .go p.pending.length) q =
      some (Pod.onSubscriberPeerFailed (p.sess s).parent (p.peer x).userid
        (p.peer x).remoteuserid (p.peer x).peerid
        { q with pending := q.pending.eraseIdx p.pending.length }) := by
    have hget : q.pending[p.pending.length]? = some g := by
      rw [hpend, List.getElem?_concat_length]
    simp [Pod.step, hfq, hget, hg]
  have hloses : p.loses env x st =
      Pod.step (env, .go p.pending.length) q := by
    rw [Pod.loses, hstep, Option.bind_some, if_pos]
    rw [hpend, List.length_append]
    exact Nat.lt_succ_self _
  refine ⟨_, hloses.trans hgo, ?_⟩
  have hq' := hq.of_pending (q.pending.eraseIdx p.pending.length)
  have hspared' : ∀ y, y ≠ x → Spared y p
      { q with pending := q.pending.eraseIdx p.pending.length } :=
    fun y hy => (hspared y hy).trans (.of_heaps rfl rfl)
  have hx' : Pod.entry { q with
      pending := q.pending.eraseIdx p.pending.length } .subscriber s k =
      some x := (hasks.entry _ _ _).trans hx
  obtain ⟨hu, hru, hpid, -⟩ := Peer.ident_eq (hasks.peerIdent x)
  rw [← hu, ← hru, ← hpid, ← hasks.parent s]
  have hrel := onSubscriberPeerFailed_released hq' hx'
  exact ⟨hrel.closed, hrel.gone, fun y hy =>
    (hspared' y hy).trans (hrel.spares y hy)⟩

/-- A subscriber whose connection fails or is closed is released if and only
if the session has an entry under the stream's name alone. -/
theorem released_iff_bareKey {conf : Config} {st : IceState} (env : Env)
    (hr : Pod.Reachable conf p) (hf : p.fatal = false)
    (hx : (p.sess s).subscribers.lookup k = some x)
    (hst : st = .failed ∨ st = .closed) :
    ∃ q, p.loses env x st = some q ∧ (Released s x p q ↔
      (p.sess s).subscribers.lookup (p.peer x).peerid ≠ none) := by
  have hp := reachable_inOrder hr
  by_cases hbare : (p.sess s).subscribers.lookup (p.peer x).peerid = none
  · refine ⟨_, loses_missing hp hf hx hst hbare, fun hrel => ?_,
      fun h => absurd hbare h⟩
    have hone := hrel.closed
    rw [(p.onICEConnectionStateChange_asks x st).closed,
      (hp.subscriber hx).2.2] at hone
    cases hone
  · obtain ⟨q, hq, hrel⟩ := loses_found hp hf hx hst hbare
    exact ⟨q, hq, fun _ => hbare, fun _ => hrel⟩

/-- User `w`, and another pod, watch a stream of `u`. -/
def watchedTwice : List (Env × Input) :=
  streamsOf "u" ["1"] ++ [watchedBy "w" "u" "1", fetchedBy "podB" "u" "1"]

/-- Neither of them is released when its connection fails. -/
theorem failed_subscribers_stay :
    ∃ p, Pod.Reachable (Config.standalone "podA") p ∧ p.fatal = false ∧
      (p.sess 0).subscribers.lookup "wu1" = some 1 ∧
      (p.sess 0).subscribers.lookup "podBu1" = some 2 ∧
      ∀ x st, (x = 1 ∨ x = 2) → (st = .failed ∨ st = .closed) →
        ∃ q, p.loses Env.calm x st = some q ∧ ¬Released 0 x p q ∧
          (q.peer x).closed = 0 := by
  have h : (run Pod.step watchedTwice
      (Pod.createRoomMgr (Config.standalone "podA"))).map (fun p =>
        decide (p.fatal = false ∧
          (p.sess 0).subscribers.lookup "wu1" = some 1 ∧
          (p.sess 0).subscribers.lookup "podBu1" = some 2 ∧
          (p.sess 0).subscribers.lookup "1" = none ∧
          (p.peer 1).peerid = "1" ∧ (p.peer 2).peerid = "1")) =
      some true := by decide
  obtain ⟨p, hp, hfacts⟩ := Option.map_eq_some_iff.mp h
  obtain ⟨hf, h1, h2, hnone, hpid1, hpid2⟩ := of_decide_eq_true hfacts
  have hr : Pod.Reachable (Config.standalone "podA") p := ⟨_, hp⟩
  have hin := reachable_inOrder hr
  refine ⟨p, hr, hf, h1, h2, fun x st hx hst => ?_⟩
  have hsub : ∃ k, p.entry .subscriber 0 k = some x ∧
      (p.peer x).peerid = "1" := by
    rcases hx with rfl | rfl
    · exact ⟨_, h1, hpid1⟩
    · exact ⟨_, h2, hpid2⟩
  obtain ⟨k, hk, hpid⟩ := hsub
  have hopen : ((p.onICEConnectionStateChange x st).peer x).closed = 0 := by
    rw [(p.onICEConnectionStateChange_asks x st).closed]
    exact (hin.subscriber hk).2.2
  refine ⟨_, loses_missing hin hf hk hst (by rw [hpid]; exact hnone),
    fun hrel => ?_, hopen⟩
  rw [hrel.closed] at hopen
  cases hopen

/-- A user who logged in without a name watches their own stream: there the
key is the stream's name. -/
theorem released_without_names :
    ∃ p q, Pod.Reachable (Config.standalone "podA") p ∧
      p.loses Env.calm 1 .failed = some q ∧ Released 0 1 p q := by
  have h : (run Pod.step (streamsOf "" ["1"] ++ [watchedBy "" "" "1"])
      (Pod.createRoomMgr (Config.standalone "podA"))).map (fun p =>
        (p.fatal, (p.sess 0).subscribers.lookup "1", (p.peer 1).peerid)) =
      some (false, some 1, "1") := by decide
  obtain ⟨p, hp, hfacts⟩ := Option.map_eq_some_iff.mp h
  simp only [Prod.mk.injEq] at hfacts
  obtain ⟨hf, h1, hpid⟩ := hfacts
  obtain ⟨q, hq, hiff⟩ := released_iff_bareKey (s := 0) Env.calm
    ⟨_, hp⟩ hf h1 (.inl rfl)
  refine ⟨p, q, ⟨_, hp⟩, hq, hiff.mpr ?_⟩
  rw [hpid, h1]
  exact nofun

end MediaServer.Ref
