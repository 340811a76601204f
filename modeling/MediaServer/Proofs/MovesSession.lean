import MediaServer.Proofs.Moves

/-!
# The moves of a session

Each handler of `session.go` and `peer.go` as a sequence of moves. A section
that takes a publisher out is three of them: the stream is withdrawn if it was
announced, the peer is destroyed, its entry is erased. `DoLeave` does the
first two for every publisher before it drops the whole map.

Two kinds of hypotheses run through the file. `Base` allows what every handler
may do, and `Touch s` what only a call that works on session `s` does.
-/

namespace MediaServer.Ref

open MediaServer.Lib Relation

variable {p q t : Pod} {s : SessRef} {x y : PeerRef} {r : RoomRef}
variable {role : Role} {k u pid : String} {env : Env} {j : JsonParser}
variable {A : Act → Prop} {c : Option Cmd}

/-- The command of a message to another pod. -/
def Event.cmd : Event → Option Cmd
  | .toPod _ m | .toCrossClusterPod _ m | .broadcastCrossCluster m => command m
  | _ => none

/-- What is sent when the command `c` is handled: a stream is announced to a
pod that asked for the streams, and offered to one that asked for it. -/
def Event.For (c : Option Cmd) (e : Event) : Prop :=
  e.cmd ≠ some .fakeUnpublish ∧
    (e.cmd = some .fakePublish → c = some .roomCreated) ∧
    (e.cmd = some .fakeOffer → c = some .fakeSubscribe)

structure Base (A : Act → Prop) (c : Option Cmd) : Prop where
  still : A .still
  dies : A .dies
  sends : ∀ e, e.For c → A (.sends e)

structure Touch (A : Act → Prop) (s : SessRef) : Prop where
  destroys : ∀ x, A (.destroys s x)
  erases : ∀ role k, A (.erases role s k)
  clears : ∀ role, A (.clears role s)

/-! ## Taking a peer out -/

namespace Pod

theorem destroy_fatal (hc : (p.peer x).closed = 0) :
    (p.destroy x).fatal = p.fatal := by
  have hone : (((p.emit (.destroy x)).setPeer x
      fun q => { q with closed := q.closed + 1 }).peer x).closed = 1 := by
    rw [setPeer_peer, if_pos rfl, emit_peer, hc]
  unfold destroy
  dsimp only
  rw [if_neg]
  · exact emit_fatal
  · rw [hone]; exact Nat.lt_irrefl 1

theorem destroy_shouldNotify (p : Pod) (x y : PeerRef) :
    ((p.destroy x).peer y).shouldNotify = (p.peer y).shouldNotify := by
  rw [destroy_peer]
  split
  · rfl
  · rfl

theorem notifyStopPush_spoke (r : RoomRef) (origin : Bool) (sid pid : String)
    (p : Pod) : Spoke p (p.notifyStopPush r origin sid pid) := by
  have hloop : Spoke p ((p.room r).sessions.entries.foldl (fun p e =>
      if (p.sess e.2).origin then
        p.emit (.toClient (p.sess e.2).userid
          [(.cmd, .str Cmd.unpub.text),
            (.roomId, .str (p.room r).roomid),
            (.sessID, .str sid),
            (.peerID, .str pid)])
      else p) p) := by
    refine Spoke.foldl (fun p e => ?_) _ p
    split
    · exact p.emit_spoke _
    · exact .refl p
  unfold notifyStopPush
  dsimp only
  split
  · exact hloop.trans (emit_spoke _ _)
  · exact hloop

/-- Nothing of a peer changes but the flag of the one that is taken back. -/
theorem stopNotify_peer (s : SessRef) (x : PeerRef) (k : String) (p : Pod)
    (y : PeerRef) : (p.stopNotify s x k).peer y =
      if y = x then { p.peer y with shouldNotify := false } else p.peer y := by
  unfold stopNotify
  split
  · rw [(notifyStopPush_spoke _ _ _ _ _).peer, setPeer_peer]
  · next hn =>
      split
      · next hy =>
          subst hy
          rw [Bool.not_eq_true] at hn
          rw [← hn]
      · rfl

theorem stopNotify_fatal (s : SessRef) (x : PeerRef) (k : String) (p : Pod) :
    (p.stopNotify s x k).fatal = p.fatal := by
  unfold stopNotify
  split
  · exact (notifyStopPush_spoke _ _ _ _ _).fatal
  · rfl

end Pod

theorem stopNotify_path (hA : A (.withdraws s k x)) (hf : p.fatal = false)
    (hx : p.entry .publisher s k = some x) : Path A p (p.stopNotify s x k) := by
  cases hn : (p.peer x).shouldNotify with
  | true => exact .single (.move _ hf hA (.withdraws s k x hx hn))
  | false =>
      have hid : p.stopNotify s x k = p := by
        unfold Pod.stopNotify
        rw [if_neg (by simp [hn])]
      rw [hid]

theorem stopNotify_calm (hA : A (.withdraws s k x))
    (hx : p.entry .publisher s k = some x) :
    Calm A p (p.stopNotify s x k) := fun hp hf =>
  ⟨stopNotify_path hA hf hx, (p.stopNotify_fatal s x k).trans hf,
    hp.of_asks (p.stopNotify_quiet s x k)⟩

theorem destroy_path {p : Pod} (role : Role) (ht : Touch A s)
    (hf : p.fatal = false)
    (hx : p.entry role s k = some x)
    (hn : role = .publisher → (p.peer x).shouldNotify = false)
    (hc : (p.peer x).closed = 0) :
    Path A p (p.destroy x) ∧ (p.destroy x).fatal = false :=
  ⟨.single (.move _ hf (ht.destroys x) (.destroys s x role k hx hn hc)),
    (Pod.destroy_fatal hc).trans hf⟩

theorem gone_of_destroy (p : Pod)
    (hn : (p.peer x).role = .publisher → (p.peer x).shouldNotify = false) :
    (p.destroy x).Gone x := by
  refine ⟨by rw [Pod.destroy_closed, if_pos rfl]; exact Nat.succ_pos _, ?_⟩
  rw [(Peer.ident_eq (p.destroy_peerIdent x x)).2.2.2.1,
    Pod.destroy_shouldNotify]
  exact hn

/-- A publisher is withdrawn, if it was announced, and destroyed. -/
theorem withdrawDestroy_path (ht : Touch A s) (hf : p.fatal = false)
    (hx : p.entry .publisher s k = some x) (hc : (p.peer x).closed = 0) :
    Path A p ((p.stopNotify s x k).destroy x) ∧
      ((p.stopNotify s x k).destroy x).fatal = false := by
  have hq := p.stopNotify_quiet s x k
  have hfq := (p.stopNotify_fatal s x k).trans hf
  have hcq : ((p.stopNotify s x k).peer x).closed = 0 := by
    rw [hq.closed]; exact hc
  have hnq : ((p.stopNotify s x k).peer x).shouldNotify = false := by
    rw [Pod.stopNotify_peer, if_pos rfl]
  have hd : Move (.destroys s x) (p.stopNotify s x k)
      ((p.stopNotify s x k).destroy x) :=
    .destroys s x .publisher k (by rw [hq.entry]; exact hx) (fun _ => hnq) hcq
  refine ⟨?_, (Pod.destroy_fatal hcq).trans hfq⟩
  cases hn : (p.peer x).shouldNotify with
  | true =>
      exact .single (.retires s k x _ hf (.withdraws s k x hx hn) hfq
        (ht.destroys x) hd)
  | false =>
      have hid : p.stopNotify s x k = p := by
        unfold Pod.stopNotify
        rw [if_neg (by simp [hn])]
      rw [hid] at hd ⊢
      exact .single (.move _ hf (ht.destroys x) hd)

/-- A peer that was destroyed is erased. -/
theorem erase_path (role : Role) (ht : Touch A s)
    (hpath : Path A p (q.destroy x)) (hf : (q.destroy x).fatal = false)
    (hq : Placed q) (hx : q.entry role s k = some x)
    (hn : role = .publisher → (q.peer x).shouldNotify = false) :
    Path A p ((q.destroy x).eraseEntry role s k) ∧
      ((q.destroy x).eraseEntry role s k).fatal = false := by
  refine ⟨hpath.tail (.move _ hf (ht.erases role k) (.erases role s k ?_)), ?_⟩
  · intro y hy
    rw [(q.destroy_destroys x).entry, hx] at hy
    cases hy
    refine gone_of_destroy q fun hrole => hn ?_
    rw [← (hq role s k x hx).2.2.1]
    exact hrole
  · cases role with
    | publisher => exact hf
    | subscriber => exact hf

theorem dropPublisher_calm (ht : Touch A s)
    (hx : p.entry .publisher s k = some x) :
    Calm A p (p.dropPublisher s x k) := by
  intro hp hf
  have hq := p.stopNotify_quiet s x k
  obtain ⟨hpath, hfd⟩ := withdrawDestroy_path ht hf hx
    (hp.lives.mapped x ⟨_, _, _, hx⟩)
  obtain ⟨hpath, hfr⟩ := erase_path .publisher ht hpath hfd
    (hp.placed.of_quiet hq) (by rw [hq.entry]; exact hx)
    (fun _ => by rw [Pod.stopNotify_peer, if_pos rfl])
  exact ⟨hpath, hfr, hp.of_removes (Pod.dropPublisher_removes hp.placed hx)⟩

theorem dropSubscriber_calm (ht : Touch A s)
    (hy : p.entry .subscriber s k = some y) :
    Calm A p (p.dropSubscriber s y k) := by
  intro hp hf
  obtain ⟨hpath, hfd⟩ := destroy_path .subscriber ht hf hy
    (fun h => by cases h) (hp.lives.mapped y ⟨_, _, _, hy⟩)
  obtain ⟨hpath, hfr⟩ := erase_path .subscriber ht hpath hfd hp.placed hy
    (fun h => by cases h)
  exact ⟨hpath, hfr, hp.of_removes (Pod.dropSubscriber_removes hp.placed hy)⟩

/-- A section between a lock and its unlock. -/
theorem bracket_calm {o o' : LockOp Mutex} (hb : Base A c)
    (h : Calm A (p.emit (.sync o)) q) : Calm A p (q.emit (.sync o')) :=
  ((Calm.emit p rfl hb.still).trans h).trans (.emit _ rfl hb.still)

theorem replacePublisher_calm (hb : Base A c) (ht : Touch A s)
    (hx : p.entry .publisher s k = some x) :
    Calm A p (p.replacePublisher s x k) :=
  bracket_calm hb
    (dropPublisher_calm ht (by rw [(p.emit_quiet _).entry]; exact hx))

theorem stopSection_calm (hb : Base A c) (ht : Touch A s)
    (hx : p.entry .publisher s k = some x) :
    Calm A p (p.stopSection s x k) :=
  bracket_calm hb
    (dropPublisher_calm ht (by rw [(p.emit_quiet _).entry]; exact hx))

theorem replaceSubscriber_calm (hb : Base A c) (ht : Touch A s)
    (hy : p.entry .subscriber s k = some y) :
    Calm A p (p.replaceSubscriber s k) := by
  have hlook : ((p.lock (.subs s)).sess s).subscribers.lookup k = some y := by
    rw [Pod.lock, Pod.emit_sess]; exact hy
  unfold Pod.replaceSubscriber
  simp only [hlook]
  exact bracket_calm hb
    (dropSubscriber_calm ht (by rw [(p.emit_quiet _).entry]; exact hy))

theorem releasePubs_calm (hb : Base A c) (ht : Touch A s) (k : String)
    (p : Pod) : Calm A p (p.releasePubs s k) := by
  unfold Pod.releasePubs
  refine bracket_calm (o := .lock (.pubs s)) hb ?_
  split
  · next x hx => exact dropPublisher_calm ht hx
  · exact .refl _

theorem releaseSubscriberPeer_calm (hb : Base A c) (ht : Touch A s)
    (sid ssid pid : String) (p : Pod) :
    Calm A p (p.releaseSubscriberPeer s sid ssid pid) := by
  unfold Pod.releaseSubscriberPeer
  refine bracket_calm (o := .lock (.subs s)) hb ?_
  split
  · next y hy => exact dropSubscriber_calm ht hy
  · exact .refl _

theorem leavedSubs_calm (hb : Base A c) (ht : Touch A s) (sid : String)
    (lst : List String) (p : Pod) : Calm A p (p.leavedSubs s sid lst) := by
  unfold Pod.leavedSubs
  refine ((Calm.emit p rfl hb.still).trans (Calm.foldl (fun p pid _ => ?_)
    _)).trans (.emit _ rfl hb.still)
  split
  · next y hy => exact dropSubscriber_calm ht hy
  · exact .refl p

theorem handleSubscriberLeaved_calm (hb : Base A c) (ht : Touch A s)
    (sid : String) (p : Pod) : Calm A p (p.handleSubscriberLeaved s sid) :=
  (Calm.still ((p.rlock_still _).trans (Pod.runlock_still _ _))
    hb.still).trans (leavedSubs_calm hb ht sid _ _)

/-- The loop of `ReleasePublisher` over the subscribers: each entry is still
there when its turn comes. -/
theorem releaseSubsOf_calm (ht : Touch A s) (pid : String)
    (l : List ((_ : String) × PeerRef)) (p : Pod)
    (hl : ∀ e ∈ l, p.entry .subscriber s e.1 = some e.2)
    (hnd : (l.map Sigma.fst).Nodup) :
    Calm A p (l.foldl (fun p e => p.releaseSubsOf s pid e.2) p) := by
  induction l generalizing p with
  | nil => exact .refl p
  | cons e l ih =>
      rw [List.map_cons, List.nodup_cons] at hnd
      refine .of fun hp _ => ?_
      have he := hl e List.mem_cons_self
      have hrest : ∀ e' ∈ l, p.entry .subscriber s e'.1 = some e'.2 :=
        fun e' he' => hl e' (List.mem_cons_of_mem _ he')
      rw [List.foldl_cons]
      by_cases hpid : (p.peer e.2).peerid = pid
      · have hturn : p.releaseSubsOf s pid e.2 = p.dropSubscriber s e.2 e.1 := by
          obtain ⟨-, -, hrole, -, hkey⟩ := hp.placed _ _ _ _ he
          rw [Peer.key_subscriber hrole] at hkey
          rw [Pod.releaseSubsOf, if_pos hpid, hkey]
        rw [hturn]
        refine (dropSubscriber_calm ht he).trans (ih _ (fun e' he' => ?_) hnd.2)
        refine ((Pod.dropSubscriber_removes hp.placed he).entry _ _ _ _).mpr
          ⟨hrest e' he', fun hx => ?_⟩
        have hk := (hp.placed.unique he (Set.mem_singleton_iff.mp hx ▸
          hrest e' he')).2.2
        exact hnd.1 (hk ▸ List.mem_map_of_mem he')
      · rw [Pod.releaseSubsOf, if_neg hpid]
        exact ih p hrest hnd.2

theorem releaseSubs_calm (hb : Base A c) (ht : Touch A s) (pid : String)
    (p : Pod) : Calm A p (p.releaseSubs s pid) :=
  bracket_calm (o := .lock (.subs s)) hb
    (releaseSubsOf_calm ht pid _ _ (fun _ he => GoMap.mem_entries.mp he)
      (AList.nodupKeys _))

theorem unpush_calm (env : Env) (p : Pod) (hA : A (.unpush s k)) :
    Calm A p (p.notifyReleasePublish env s k) :=
  .asks (p.notifyReleasePublish_quiet env s k) (fun _ => .unpush env s k) hA
    Pod.emit_fatal

theorem releasePublisher_calm (env : Env) (hb : Base A c) (ht : Touch A s)
    (hA : A (.unpush s pid)) (p : Pod) :
    Calm A p (p.releasePublisher env s pid) :=
  ((releasePubs_calm hb ht pid p).trans (releaseSubs_calm hb ht pid _)).trans
    (unpush_calm env _ hA)

/-! ## Leaving -/

/-- One turn of a loop over a map: the peer is destroyed, its entry stays. -/
structure Turn (A : Act → Prop) (x : PeerRef) (p q : Pod) : Prop where
  path : Path A p q
  fatal : q.fatal = false
  destroys : Destroys {x} p q
  gone : q.Gone x
  other : ∀ y, y ≠ x → q.peer y = p.peer y

section Loop

variable {f : Pod → (_ : String) × PeerRef → Pod}

/-- In the end all peers of the list are gone, no other peer has changed and
the maps are as before. -/
theorem destroyAll (hturn : ∀ (p : Pod) (e : (_ : String) × PeerRef), PodOk p →
      p.fatal = false → p.entry role s e.1 = some e.2 →
      (p.peer e.2).closed = 0 → Turn A e.2 p (f p e))
    (l : List ((_ : String) × PeerRef)) (p : Pod) (hp : PodOk p)
    (hf : p.fatal = false)
    (hl : ∀ e ∈ l, p.entry role s e.1 = some e.2 ∧ (p.peer e.2).closed = 0)
    (hnd : (l.map Sigma.snd).Nodup) :
    Path A p (l.foldl f p) ∧ (l.foldl f p).fatal = false ∧
      (∀ e ∈ l, (l.foldl f p).Gone e.2) ∧
      (∀ y, y ∉ l.map Sigma.snd → (l.foldl f p).peer y = p.peer y) ∧
      ∀ role i k, (l.foldl f p).entry role i k = p.entry role i k := by
  induction l generalizing p with
  | nil =>
      exact ⟨.refl, hf, fun _ h => (by cases h), fun _ _ => rfl,
        fun _ _ _ => rfl⟩
  | cons e l ih =>
      rw [List.map_cons, List.nodup_cons] at hnd
      obtain ⟨hx, hc⟩ := hl e List.mem_cons_self
      have h := hturn p e hp hf hx hc
      have hne : ∀ e' ∈ l, e'.2 ≠ e.2 := fun e' he' heq =>
        hnd.1 (heq ▸ List.mem_map_of_mem he')
      obtain ⟨hpath, hf', hgone, hother, hentry⟩ := ih (f p e)
        (h.destroys.shrinks.podOk hp) h.fatal (fun e' he' => by
          rw [h.destroys.entry, h.other _ (hne e' he')]
          exact hl e' (List.mem_cons_of_mem _ he')) hnd.2
      refine ⟨h.path.trans hpath, hf', fun e' he' => ?_, fun y hy => ?_,
        fun role i k => ?_⟩
      · rcases List.mem_cons.mp he' with rfl | he'
        · rw [List.foldl_cons, Pod.Gone, hother _ hnd.1]
          exact h.gone
        · exact hgone e' he'
      · rw [List.map_cons, List.mem_cons, not_or] at hy
        rw [List.foldl_cons, hother y hy.2, h.other y hy.1]
      · rw [List.foldl_cons, hentry, h.destroys.entry]

/-- The map is dropped after the loop has destroyed what stands in it. -/
theorem clearAll (role : Role) (ht : Touch A s)
    (hturn : ∀ (p : Pod) (e : (_ : String) × PeerRef), PodOk p →
      p.fatal = false → p.entry role s e.1 = some e.2 →
      (p.peer e.2).closed = 0 → Turn A e.2 p (f p e))
    (hp : Ready p) (hf : p.fatal = false) :
    Path A p ((((p.sess s).peers role).entries.foldl f p).clearEntries role s) ∧
      ((((p.sess s).peers role).entries.foldl f p).clearEntries role s).fatal =
        false := by
  obtain ⟨hpath, hf', hgone, -, hentry⟩ := destroyAll hturn
    ((p.sess s).peers role).entries p hp.toPodOk hf
    (fun e he => ⟨GoMap.mem_entries.mp he,
      hp.lives.mapped _ ⟨_, _, _, GoMap.mem_entries.mp he⟩⟩)
    (Pod.nodup_entries hp.placed role s)
  refine ⟨hpath.tail (.move _ hf' (ht.clears role) (.clears role s ?_)), ?_⟩
  · intro k x hx
    rw [hentry] at hx
    exact hgone ⟨k, x⟩ (GoMap.mem_entries.mpr hx)
  · cases role with
    | publisher => exact hf'
    | subscriber => exact hf'

end Loop

/-- The turn of `DoLeave` over a publisher. -/
theorem leavePub_turn (ht : Touch A s) {p : Pod} (hp : PodOk p)
    (hf : p.fatal = false) (hx : p.entry .publisher s k = some x)
    (hc : (p.peer x).closed = 0) :
    Turn A x p ((p.stopNotify s x (p.peer x).peerid).destroy x) := by
  have hkey : (p.peer x).peerid = k := by
    obtain ⟨-, -, hrole, -, hkey⟩ := hp.placed _ _ _ _ hx
    rw [← hkey, Peer.key_publisher hrole]
  rw [hkey]
  obtain ⟨hpath, hfq⟩ := withdrawDestroy_path ht hf hx hc
  refine ⟨hpath, hfq,
    (p.stopNotify_quiet s x k).trans_destroys (Pod.destroy_destroys _ x),
    gone_of_destroy _ fun _ => by rw [Pod.stopNotify_peer, if_pos rfl],
    fun y hy => ?_⟩
  rw [Pod.destroy_peer, if_neg hy, Pod.stopNotify_peer, if_neg hy]

theorem leaveSub_turn (ht : Touch A s) {p : Pod} (hp : PodOk p)
    (hf : p.fatal = false) (hx : p.entry .subscriber s k = some x)
    (hc : (p.peer x).closed = 0) : Turn A x p (p.destroy x) := by
  obtain ⟨hpath, hfq⟩ := destroy_path .subscriber ht hf hx
    (fun h => by cases h) hc
  have hrole := (hp.placed _ _ _ _ hx).2.2.1
  refine ⟨hpath, hfq, p.destroy_destroys x, gone_of_destroy _ fun h => ?_,
    fun y hy => by rw [Pod.destroy_peer, if_neg hy]⟩
  rw [hrole] at h
  cases h

theorem doLeavePubs_calm (hb : Base A c) (ht : Touch A s) (p : Pod) :
    Calm A p (p.doLeavePubs s) := by
  unfold Pod.doLeavePubs
  refine bracket_calm (o := .lock (.pubs s)) hb fun hp hf => ?_
  obtain ⟨hpath, hfq⟩ := clearAll .publisher
    (f := fun p e => (p.stopNotify s e.2 (p.peer e.2).peerid).destroy e.2) ht
    (fun p e hp hf hx hc => leavePub_turn ht hp hf hx hc) hp hf
  refine ⟨hpath, hfq, hp.of_removes (Pod.clear_removes
    (fun p e => (p.stopNotify_quiet s _ _).trans_destroys
      (Pod.destroy_destroys _ _)) hp.placed
    (Pod.clearPublishers_sameStore s) (fun _ => rfl) (fun _ => rfl)
    (fun p _ i l => p.clearPublishers_entry i l))⟩

theorem doLeaveSubs_calm (hb : Base A c) (ht : Touch A s) (p : Pod) :
    Calm A p (p.doLeaveSubs s) := by
  unfold Pod.doLeaveSubs
  refine bracket_calm (o := .lock (.subs s)) hb fun hp hf => ?_
  obtain ⟨hpath, hfq⟩ := clearAll .subscriber
    (f := fun p e => p.destroy e.2) ht
    (fun p e hp hf hx hc => leaveSub_turn ht hp hf hx hc) hp hf
  exact ⟨hpath, hfq, hp.of_removes (Pod.clear_removes
    (fun p e => p.destroy_destroys _) hp.placed
    (Pod.clearSubscribers_sameStore s) (fun _ => rfl) (fun _ => rfl)
    (fun p _ i l => p.clearSubscribers_entry i l))⟩

theorem doLeave_calm (hb : Base A c) (ht : Touch A s) (p : Pod) :
    Calm A p (p.doLeave s) :=
  ((doLeavePubs_calm hb ht p).trans (doLeaveSubs_calm hb ht _)).trans
    (.still (Pod.waitChecks_still _ s) hb.still)

/-! ## Peers -/

theorem offerTo_ends {send : Pod → Pod} (hb : Base A c) (hA : A (.offers x))
    (hx : x < p.peerHeap.next) (hs : ∀ p, Calm A p (send p)) :
    Ends A p (p.offerTo env x send) := by
  unfold Pod.offerTo
  split
  · exact .throw p hb.dies
  · split
    · refine Calm.ends (Calm.trans ?_ (hs _))
      refine .asks (G := fun _ => False) ?_ (fun _ => .offers x _ hx) hA rfl
      exact p.setPeer_quiet x fun _ => ⟨rfl, rfl⟩
    · exact .throw p hb.dies

theorem answerTo_ends {send : Pod → Pod} (hb : Base A c)
    (hs : ∀ p, Calm A p (send p)) : Ends A p (p.answerTo env x send) := by
  unfold Pod.answerTo
  split
  · refine Calm.ends (Calm.trans (.still (Still.trans ?_
      (Pod.setCachedCandidates_still _ x)) hb.still) (hs _))
    exact p.setPeer_still x (fun _ => rfl) fun _ _ => nofun
  · exact .throw p hb.dies

theorem handleRemoteAnswer_ends (hb : Base A c) (hA : A (.accepts x)) :
    Ends A p (p.handleRemoteAnswer env x) := by
  unfold Pod.handleRemoteAnswer
  split
  · next hc =>
      refine Calm.ends (Calm.trans ?_
        (.still (Pod.setCachedCandidates_still _ x) hb.still))
      refine .asks (G := fun _ => False) ?_ (fun _ => .accepts x hc.2.1) hA rfl
      exact p.setPeer_quiet x fun _ => ⟨rfl, rfl⟩
  · exact .throw p hb.dies

theorem handleRemoteCandidate_ends (hb : Base A c) :
    Ends A p (p.handleRemoteCandidate env x j) := by
  unfold Pod.handleRemoteCandidate
  split
  · refine (Calm.still ?_ hb.still).ends
    exact p.setPeer_still x (fun _ => rfl) fun _ h => h
  · split
    · refine (Calm.still ?_ hb.still).ends
      exact p.setPeer_still x (fun _ => rfl) fun _ h => h
    · exact .throw p hb.dies

/-- What a peer does with a message: it may make its offer or accept the
answer, depending on the command. -/
theorem peerHandleMessage_ends (hb : Base A (command j)) (hx : x < p.peerHeap.next)
    (hoff : command j = some .sub ∨ command j = some .fakeSubscribe →
      A (.offers x))
    (hacc : command j = some .answer ∨ command j = some .fakeAnswer →
      A (.accepts x)) : Ends A p (p.peerHandleMessage env x j) := by
  unfold Pod.peerHandleMessage
  split
  case h_1 hc =>
      exact offerTo_ends hb (hoff (.inl hc)) hx fun p => .emit p rfl hb.still
  case h_2 => exact answerTo_ends hb fun p => .emit p rfl hb.still
  case h_3 hc => exact handleRemoteAnswer_ends hb (hacc (.inl hc))
  case h_4 => exact handleRemoteCandidate_ends hb
  case h_5 hc =>
      refine offerTo_ends hb (hoff (.inr hc)) hx fun p => .sends p
        ⟨rfl, _, command_cons _ _, rfl, nofun⟩ (hb.sends _ ?_)
      simp only [Event.For, Event.cmd, command_cons]
      exact ⟨nofun, nofun, fun _ => hc⟩
  case h_6 =>
      refine answerTo_ends hb fun p => .sends p
        ⟨rfl, _, command_cons _ _, rfl, nofun⟩ (hb.sends _ ?_)
      simp only [Event.For, Event.cmd, command_cons]
      exact ⟨nofun, nofun, nofun⟩
  case h_7 hc => exact handleRemoteAnswer_ends hb (hacc (.inr hc))
  case h_8 => exact handleRemoteCandidate_ends hb
  case h_9 => exact (Calm.refl p).ends

/-! ## Storing a peer -/

/-- The session sits in a room. -/
def Sits (p : Pod) (s : SessRef) : Prop :=
  ∃ r u, (p.room r).sessions.lookup u = some s

theorem Sits.of_sameStore (h : Sits p s) (hs : SameStore p q) : Sits q s := by
  obtain ⟨r, u, hu⟩ := h
  exact ⟨r, u, by rw [hs.room]; exact hu⟩

theorem insertEntry_calm {t : Peer} (hA : A (.adds s t)) (hseat : Sits p s)
    (hpar : t.parent = s) (ht : t.fresh)
    (hfree : p.entry t.role s t.key = none) : Calm A p (p.insertEntry s t) := by
  intro hp hf
  have hm : Move (.adds s t) p (p.insertEntry s t) :=
    .adds s t hseat hpar ht hfree
  refine ⟨.single (.move _ hf hA hm), ?_, .of_micro (hm.micro hp.toPodOk rfl) hp⟩
  unfold Pod.insertEntry
  split
  · rw [Pod.insertPublisher_fatal]; exact hf
  · rw [Pod.insertSubscriber_fatal]; exact hf

theorem lt_insertEntry (p : Pod) (s : SessRef) (t : Peer) :
    p.peerHeap.next < (p.insertEntry s t).peerHeap.next := by
  have hnext : (p.insertEntry s t).peerHeap.next = p.peerHeap.next + 1 := by
    unfold Pod.insertEntry
    split
    · exact Pod.insertPublisher_peerNext t p
    · exact Pod.insertSubscriber_peerNext t p
  rw [hnext]
  exact Nat.lt_succ_self _

/-- The first half of `publish` and `fakeoffer`. -/
theorem retirePublisher_calm (hb : Base A c) (ht : Touch A s) (k : String)
    (p : Pod) : Calm A p (match (p.sess s).publishers.lookup k with
      | some x => p.replacePublisher s x k
      | none => p) := by
  split
  · next x hx => exact replacePublisher_calm hb ht hx
  · exact .refl p

/-- The key is cleared and the new publisher stored. -/
theorem publish_calm {isFake : Bool} (hb : Base A c) (ht : Touch A s)
    (hseat : Sits p s) (sid pid : String)
    (hA : A (.adds s (createPublishPeer s sid pid isFake))) :
    Calm A p ((match (p.sess s).publishers.lookup pid with
      | some x => p.replacePublisher s x pid
      | none => p).insertPublisher s pid
        (createPublishPeer s sid pid isFake)) := by
  refine .of fun hp _ => ?_
  have hrem := retirePublisher_removes hp.placed s pid
  exact (retirePublisher_calm hb ht pid p).trans (insertEntry_calm
    (t := createPublishPeer s sid pid isFake) hA
    (hseat.of_sameStore hrem.toSameStore) rfl ⟨rfl, rfl, rfl, rfl⟩ hrem.free)

theorem handlePush_calm (hb : Base A c) (ht : Touch A s) (hseat : Sits p s)
    (hA : A (.adds s (createPublishPeer s (getValue j .sessID)
      (getValue j .peerID) false))) : Calm A p (p.handlePush env s j) := by
  unfold Pod.handlePush
  dsimp only
  split
  · exact (publish_calm hb ht hseat _ _ hA).trans (.emit _ rfl hb.still)
  · exact retirePublisher_calm hb ht _ p

theorem handleFakeOfferMsg_ends (hb : Base A (command j)) (ht : Touch A s)
    (hseat : Sits p s) (hc : command j = some .fakeOffer)
    (hA : A (.adds s (createPublishPeer s (getValue j .sessID)
      (getValue j .peerID) true))) :
    Ends A p (p.handleFakeOfferMsg env s j) := by
  unfold Pod.handleFakeOfferMsg
  dsimp only
  split
  · refine (publish_calm hb ht hseat _ _ hA).trans_ends
      (peerHandleMessage_ends hb ?_ ?_ ?_)
    · exact lt_insertEntry _ s
        (createPublishPeer s (getValue j .sessID) (getValue j .peerID) true)
    · rintro (h | h)
      · rw [hc] at h; cases h
      · rw [hc] at h; cases h
    · rintro (h | h)
      · rw [hc] at h; cases h
      · rw [hc] at h; cases h
  · exact (retirePublisher_calm hb ht _ p).ends

/-- What would follow the throwing unlock of `stoppush` is not heard. -/
theorem answerStopPush_throw (p : Pod) :
    p.throw.answerStopPush env s j = p.getSn.throw := by
  simp [Pod.answerStopPush, Pod.notifyReleasePublish, Pod.emit, Pod.throw,
    Pod.getSn]

theorem handleStopPush_ends (hb : Base A c) (ht : Touch A s) :
    Ends A p (p.handleStopPush env s j) := by
  unfold Pod.handleStopPush
  dsimp only
  split
  · next x hx =>
      rw [Pod.stopPublisher, answerStopPush_throw]
      exact ((stopSection_calm hb ht hx).trans (.still (Pod.getSn_still _)
        hb.still)).trans_ends (.throw _ hb.dies)
  · exact (Calm.refl p).ends

/-- A publisher that stands in its map is open and can be read. -/
theorem readPublisher_found (hp : Ready p)
    (hx : p.entry .publisher s k = some x) :
    p.readPublisher s k =
      ((p.rlock (.pubs s)).runlock (.pubs s), (p.peer x).localDesc) := by
  have hlook : ((p.rlock (.pubs s)).sess s).publishers.lookup k = some x := by
    rw [Pod.rlock, Pod.emit_sess]; exact hx
  have hpeer : (p.rlock (.pubs s)).peer x = p.peer x := Pod.emit_peer
  have hopen : (p.peer x).closed = 0 := hp.lives.mapped x ⟨_, _, _, hx⟩
  simp only [Pod.readPublisher, hlook, hpeer, hopen, if_true]

theorem readPublisher_calm (hb : Base A c) (k : String)
    (hx : p.entry .publisher s k ≠ none) :
    Calm A p (p.readPublisher s k).1 := by
  refine .of fun hp _ => ?_
  obtain ⟨x, hx⟩ := Option.ne_none_iff_exists'.mp hx
  rw [readPublisher_found hp hx]
  exact .still ((p.rlock_still _).trans (Pod.runlock_still _ _)) hb.still

theorem makeWay_calm (hb : Base A c) (ht : Touch A s) (k : String)
    (hx : p.entry .publisher s pid ≠ none) :
    Calm A p (p.makeWay s pid k) := by
  refine (readPublisher_calm hb pid hx).trans ?_
  unfold Pod.makeWay
  dsimp only
  split
  · exact .refl _
  · next hy =>
      obtain ⟨y, hy⟩ := Option.ne_none_iff_exists'.mp hy
      exact replaceSubscriber_calm hb ht hy

theorem subscribe_ends {sid : String} {isFake : Bool}
    {notFound failed : Pod → Pod} (hb : Base A (command j)) (ht : Touch A s)
    (hseat : Sits p s) (hn : ∀ p, Calm A p (notFound p))
    (hf : ∀ p, Calm A p (failed p))
    (hadd : p.entry .publisher s (getValue j .peerID) ≠ none → ∀ sdp,
      A (.adds s (createSubscribePeer s sid (getValue j .srcSessID)
        (getValue j .peerID) sdp isFake)))
    (hoff : A (.offers p.peerHeap.next))
    (hc : command j = some .sub ∨ command j = some .fakeSubscribe) :
    Ends A p (p.subscribe env s j sid isFake notFound failed) := by
  generalize h : p.subscribe env s j sid isFake notFound failed = q
  refine .of fun hp _ => ?_
  have hrem := makeWay_removes hp.placed s (getValue j .peerID)
    (subKey sid (getValue j .srcSessID) (getValue j .peerID))
  obtain ⟨-, rfl⟩ | ⟨hpub, -, rfl⟩ | ⟨hpub, -, rfl⟩ := Pod.subscribe_cases h
  · exact (hn p).ends
  · refine (makeWay_calm hb ht _ hpub).trans_ends (Calm.trans_ends
      (insertEntry_calm (t := createSubscribePeer s sid (getValue j .srcSessID)
          (getValue j .peerID) _ isFake) (hadd hpub _)
        (hseat.of_sameStore hrem.toSameStore) rfl ⟨rfl, rfl, rfl, rfl⟩
        hrem.free) (peerHandleMessage_ends hb ?_ ?_ ?_))
    · exact lt_insertEntry _ s _
    · rw [hrem.peerNext]
      exact fun _ => hoff
    · intro h
      rcases hc with hc | hc <;> rw [hc] at h <;> rcases h with h | h <;>
        cases h
  · exact (makeWay_calm hb ht _ hpub).trans_ends (hf _).ends

/-! ## `session.HandleMessage` -/

theorem handleStopSub_calm (hb : Base A c)
    (hA : ∀ y, p.entry .subscriber s (subKey (getValue j .sessID)
        (getValue j .srcSessID) (getValue j .peerID)) = some y →
      A (.spawns (.releaseSubscriberPeer s (getValue j .sessID)
        (getValue j .srcSessID) (getValue j .peerID) y))) :
    Calm A p (p.handleStopSub s j) := by
  unfold Pod.handleStopSub
  dsimp only
  refine ((Calm.still (p.rlock_still (.subs s)) hb.still).trans ?_).trans
    (.emit _ rfl hb.still)
  split
  · next y hy =>
      exact .go _ (hA y (by rw [Pod.rlock, Pod.emit_sess] at hy; exact hy))
  · exact .refl _

theorem handleOffer_ends (hb : Base A (command j))
    (hc : command j = some .offer) :
    Ends A p (p.handleOffer env s j) := by
  refine .of fun hp _ => ?_
  unfold Pod.handleOffer
  dsimp only
  refine Ends.emit (Calm.trans_ends (.still (p.rlock_still (.subs s)) hb.still) ?_)
    rfl hb.still
  split
  · next x hx =>
      refine peerHandleMessage_ends hb ?_ ?_ ?_
      · rw [Pod.rlock, Pod.emit_sess] at hx
        rw [Pod.rlock, Pod.emit_peerHeap]
        exact (hp.placed .publisher s _ x hx).1
      · rintro (h | h) <;> rw [hc] at h <;> cases h
      · rintro (h | h) <;> rw [hc] at h <;> cases h
  · exact (Calm.emit _ rfl hb.still).ends

theorem toSubscriber_ends {sid : String} {notFound : Pod → Pod}
    (hb : Base A (command j))
    (hn : ∀ p, Calm A p (notFound p))
    (hc : command j ≠ some .sub ∧ command j ≠ some .fakeSubscribe)
    (hA : command j = some .answer ∨ command j = some .fakeAnswer → ∀ y,
      p.entry .subscriber s (subKey sid (getValue j .srcSessID)
        (getValue j .peerID)) = some y → A (.accepts y)) :
    Ends A p (p.toSubscriber env s j sid notFound) := by
  refine .of fun hp _ => ?_
  unfold Pod.toSubscriber
  dsimp only
  refine Ends.emit (Calm.trans_ends (.still (p.rlock_still (.subs s)) hb.still) ?_)
    rfl hb.still
  split
  · next y hy =>
      rw [Pod.rlock, Pod.emit_sess] at hy
      refine peerHandleMessage_ends hb ?_ ?_ fun h => hA h y hy
      · rw [Pod.rlock, Pod.emit_peerHeap]
        exact (hp.placed .subscriber s _ y hy).1
      · rintro (h | h)
        · exact absurd h hc.1
        · exact absurd h hc.2
  · exact (hn _).ends

theorem handleRoomCreated_calm (hb : Base A (some .roomCreated)) (p : Pod) :
    Calm A p (p.handleRoomCreated s j) := by
  refine Calm.foldl (fun p e _ => ?_) p
  have hfor : ∀ e : Event, e.cmd = some .fakePublish →
      e.For (some .roomCreated) := by
    intro e he
    rw [Event.For, he]
    exact ⟨nofun, fun _ => rfl, nofun⟩
  dsimp only
  split
  · exact .sends p ⟨rfl, _, command_cons _ _, rfl, nofun⟩
      (hb.sends _ (hfor _ (command_cons _ _)))
  · exact .sends p ⟨rfl, _, command_cons _ _, rfl, nofun⟩
      (hb.sends _ (hfor _ (command_cons _ _)))

theorem fakeSubscribe_calm (hb : Base A c) (sid pid : String) (n : Nat)
    (p : Pod) : Calm A p (p.fakeSubscribe s sid pid n) := by
  unfold Pod.fakeSubscribe
  refine Calm.trans ?_ (.still (Pod.setSess_still _ s fun _ => rfl) hb.still)
  refine .sends p ⟨rfl, _, command_cons _ _, rfl, fun _ => rfl⟩
    (hb.sends _ ?_)
  simp only [Event.For, Event.cmd, command_cons]
  exact ⟨nofun, nofun, nofun⟩

/-- The subscriber that an answer is for. -/
def Accepts (p : Pod) (s : SessRef) (j : JsonParser) (y : PeerRef) : Prop :=
  match command j with
  | some .answer => p.entry .subscriber s (subKey (getValue j .sessID)
      (getValue j .srcSessID) (getValue j .peerID)) = some y
  | some .fakeAnswer => p.entry .subscriber s (subKey (getValue j .podId)
      (getValue j .srcSessID) (getValue j .peerID)) = some y
  | _ => False

/-- What the message may do to the session it is handed to. -/
def SessFoot (p : Pod) (env : Env) (s : SessRef) (j : JsonParser) :
    Act → Prop
  | .still | .dies => True
  | .sends e => e.For (command j)
  | .spawns g => Frees p s j g
  | .destroys i _ | .erases _ i _ | .clears _ i => i = s
  | .adds i t => i = s ∧ Adds p s j t
  | .offers x => x = p.peerHeap.next ∧
      (command j = some .sub ∨ command j = some .fakeSubscribe)
  | .accepts y => Accepts p s j y
  | .beats i now => i = s ∧ command j = some .heartbeat ∧ now = env.now
  | _ => False

theorem SessFoot.base : Base (SessFoot p env s j) (command j) :=
  ⟨trivial, trivial, fun _ h => h⟩

theorem SessFoot.touch : Touch (SessFoot p env s j) s :=
  ⟨fun _ => rfl, fun _ _ => rfl, fun _ => rfl⟩

theorem sessionHandleMessage_ends (hseat : Sits p s) :
    Ends (SessFoot p env s j) p (p.sessionHandleMessage env s j) := by
  have hb : Base (SessFoot p env s j) (command j) := SessFoot.base
  have ht : Touch (SessFoot p env s j) s := SessFoot.touch
  unfold Pod.sessionHandleMessage
  split
  case h_1 hc =>
      refine (Calm.asks (p.heartbeat_quiet env s) (fun _ => .beats s env.now)
        ?_ rfl).ends
      exact ⟨rfl, hc, rfl⟩
  case h_2 hc =>
      exact (handlePush_calm hb ht hseat ⟨rfl, by simp only [Adds, hc]⟩).ends
  case h_3 => exact handleStopPush_ends hb ht
  case h_4 hc =>
      exact subscribe_ends hb ht hseat (fun p => .emit p rfl trivial)
        (fun p => .emit p rfl trivial) (fun hpub sdp => ⟨rfl, by
          simp only [Adds, hc]; exact ⟨hpub, sdp, rfl⟩⟩)
        ⟨rfl, .inl hc⟩ (.inl hc)
  case h_5 hc =>
      exact (handleStopSub_calm hb fun y hy => ⟨hc, y, hy, rfl⟩).ends
  case h_6 hc => exact handleOffer_ends hb hc
  case h_7 hc =>
      refine toSubscriber_ends hb (fun p => .emit p rfl trivial) ?_ ?_
      · rw [hc]; exact ⟨by decide, by decide⟩
      · intro _ y hy
        simp only [SessFoot, Accepts, hc]
        exact hy
  case h_8 hc => exact (handleRoomCreated_calm (hc ▸ hb) p).ends
  case h_9 => exact (fakeSubscribe_calm hb _ _ _ p).ends
  case h_10 hc =>
      exact subscribe_ends hb ht hseat Calm.refl Calm.refl
        (fun hpub sdp => ⟨rfl, by
          simp only [Adds, hc]; exact ⟨hpub, sdp, rfl⟩⟩)
        ⟨rfl, .inr hc⟩ (.inr hc)
  case h_11 hc =>
      exact handleFakeOfferMsg_ends hb ht hseat hc
        ⟨rfl, by simp only [Adds, hc]⟩
  case h_12 hc =>
      refine toSubscriber_ends hb Calm.refl ?_ ?_
      · rw [hc]; exact ⟨by decide, by decide⟩
      · intro _ y hy
        simp only [SessFoot, Accepts, hc]
        exact hy
  case h_13 hc =>
      unfold Pod.handleFakeCandidate
      split
      · exact (Calm.refl p).ends
      · refine toSubscriber_ends hb Calm.refl ?_ ?_
        · rw [hc]; exact ⟨by decide, by decide⟩
        · rintro (h | h) <;> rw [hc] at h <;> cases h
  case h_14 => exact (Calm.refl p).ends

/-! ## ICE callbacks -/

theorem testPublisher_calm {g : Goroutine} (hb : Base A c)
    (hA : p.entry .publisher s k ≠ none → A (.spawns g)) :
    Calm A p (p.testPublisher s k g) := by
  unfold Pod.testPublisher
  dsimp only
  refine ((Calm.still (p.rlock_still (.pubs s)) hb.still).trans ?_).trans
    (.emit _ rfl hb.still)
  split
  · next x hx =>
      refine .go _ (hA ?_)
      rw [Pod.rlock, Pod.emit_sess] at hx
      exact Option.ne_none_iff_exists'.mpr ⟨x, hx⟩
  · exact .refl _

theorem testSubscriber_calm {g : Goroutine} (hb : Base A c)
    (hA : A (.spawns g)) : Calm A p (p.testSubscriber s k g) := by
  unfold Pod.testSubscriber
  dsimp only
  refine ((Calm.still (p.rlock_still (.subs s)) hb.still).trans ?_).trans
    (.emit _ rfl hb.still)
  split
  · exact .go _ hA
  · exact .refl _

theorem fakePublisherReConnect_calm (hb : Base A c) (sid pid : String) (n : Nat)
    (p : Pod) : Calm A p (p.fakePublisherReConnect s sid pid n) := by
  unfold Pod.fakePublisherReConnect
  split
  · exact .refl p
  · exact (Calm.still (p.waitChecks_still s) hb.still).trans
      (fakeSubscribe_calm hb _ _ _ _)

theorem setCheck_still (i : Nat) (c : Check) (p : Pod) :
    Still p (p.setCheck s i c) := p.setSess_still s fun _ => rfl

theorem checkTimer_calm (hb : Base A c) (i : Nat) (p : Pod)
    (hA : ∀ sid pid n, A (.spawns (.fakePublisherReConnect s sid pid n))) :
    Calm A p (p.checkTimer s i) := by
  unfold Pod.checkTimer
  split
  · exact .refl p
  · dsimp only
    repeat' split
    all_goals first
      | exact .refl p
      | exact .still (setCheck_still i _ p) hb.still
      | exact (Calm.still (setCheck_still i _ p) hb.still).trans
          (.go _ (hA _ _ _))

theorem Pod.onIceReady_fatal (role : Role) (s : SessRef) (sid pid : String)
    (p : Pod) : (p.onIceReady role s sid pid).fatal = p.fatal := by
  unfold Pod.onIceReady
  cases role with
  | publisher =>
      dsimp only
      rw [Pod.runlock, Pod.emit_fatal]
      split
      · split
        · rw [Pod.emit_fatal]; exact Pod.emit_fatal
        · exact Pod.emit_fatal
      · exact Pod.emit_fatal
  | subscriber =>
      dsimp only
      split
      · rfl
      · rfl

/-- What the callback of `x` may do. -/
def IceFoot (p : Pod) (x : PeerRef) (st : IceState) : Act → Prop
  | .still | .dies => True
  | .sends e => e.For none
  | .spawns g => p.ReleaseFor x g ∨ ∃ y, g = .requestKeyframe y
  | .withdraws _ _ y => y = x ∧ st = .disconnected
  | .flags y st' => y = x ∧ st' = st
  | .announces y => y = x ∧ st = .connected
  | _ => False

theorem IceFoot.base {st : IceState} : Base (IceFoot p x st) none :=
  ⟨trivial, trivial, fun _ h => h⟩

/-- A peer that is open stands in its map. -/
theorem Ready.entry_of_open (hp : Ready p) (hx : x < p.peerHeap.next)
    (hc : (p.peer x).closed = 0) :
    p.entry (p.peer x).role (p.peer x).parent (p.peer x).key = some x := by
  by_cases hm : Mapped p x
  · obtain ⟨role, s, k, h⟩ := hm
    obtain ⟨-, -, hrole, hpar, hk⟩ := hp.placed role s k x h
    rw [hrole, hpar, hk]
    exact h
  · rw [hp.lives.gone x hx hm] at hc
    cases hc

theorem setIceFlags_calm {st : IceState}
    (hst : st = .connected → (p.peer x).role = .subscriber) :
    Calm (IceFoot p x st) p (p.setIceFlags x st) :=
  .asks (p.setIceFlags_quiet x st) (fun _ => .flags x st hst) ⟨rfl, rfl⟩ rfl

theorem onIceReady_calm (s : SessRef) (sid : String) (q : Pod) :
    Calm (IceFoot p x .connected) q (q.onIceReady .subscriber s sid k) := by
  unfold Pod.onIceReady
  dsimp only
  split
  · next y _ => exact .go q (.inr ⟨y, rfl⟩)
  · exact .refl q

theorem onIceDisconnected_calm (hb : Base A c)
    (hA : ∀ x, q.entry .publisher s k = some x → A (.withdraws s k x)) :
    Calm A q (q.onIceDisconnected s k) := by
  unfold Pod.onIceDisconnected
  refine bracket_calm (o := .rlock (.pubs s)) hb ?_
  dsimp only [Pod.rlock]
  split
  · next x hx =>
      refine stopNotify_calm (hA x ?_) hx
      rw [Pod.emit_sess] at hx
      exact hx
  · exact .refl _

theorem onIceFailed_calm (hb : Base A c)
    (hA : ∀ g, q.ReleaseFor x g → A (.spawns g)) :
    Calm A q (q.onIceFailed x) := by
  unfold Pod.onIceFailed
  dsimp only
  cases hrole : (q.peer x).role with
  | publisher =>
      have hg := hA (.onPublisherPeerFailed
        (q.sess (q.peer x).parent).parent (q.peer x).userid
        (q.peer x).peerid x) (by simp only [Pod.ReleaseFor, hrole]; simp)
      have h := testPublisher_calm (p := q) (s := (q.peer x).parent)
        (k := (q.peer x).peerid) hb fun _ => hg
      dsimp only
      split
      · exact h.trans (fakePublisherReConnect_calm hb _ _ _ _)
      · exact h
  | subscriber =>
      refine testSubscriber_calm hb (hA _ ?_)
      simp only [Pod.ReleaseFor, hrole]
      simp

theorem onIceClosed_calm (hb : Base A c)
    (hA : ∀ g, q.ReleaseFor x g → A (.spawns g)) :
    Calm A q (q.onIceClosed x) := by
  unfold Pod.onIceClosed
  dsimp only
  cases hrole : (q.peer x).role with
  | publisher =>
      refine testPublisher_calm hb fun _ => hA _ ?_
      simp only [Pod.ReleaseFor, hrole]
      simp
  | subscriber =>
      refine testSubscriber_calm hb (hA _ ?_)
      simp only [Pod.ReleaseFor, hrole]
      simp

/-- The report of a state other than `Connected`. A disconnect is reported
about whatever publisher has the id of `x` by then. -/
theorem reportIce_calm {st : IceState} (hb : Base A c) (hst : st ≠ .connected)
    (hw : ∀ y, st = .disconnected → (q.peer x).role = .publisher →
      q.entry .publisher (q.peer x).parent (q.peer x).peerid = some y →
      A (.withdraws (q.peer x).parent (q.peer x).peerid y))
    (hg : ∀ g, q.ReleaseFor x g → A (.spawns g)) :
    Calm A q (q.reportIce x st) := by
  unfold Pod.reportIce
  dsimp only
  cases st with
  | connected => exact absurd rfl hst
  | disconnected =>
      dsimp only
      split
      · next hrole => exact onIceDisconnected_calm hb fun y => hw y rfl hrole
      · exact .refl _
  | failed => exact onIceFailed_calm hb hg
  | closed => exact onIceClosed_calm hb hg

theorem onICEConnectionStateChange_calm (st : IceState)
    (hx : x < p.peerHeap.next) :
    Calm (IceFoot p x st) p (p.onICEConnectionStateChange x st) := by
  refine .of fun hp _ => ?_
  unfold Pod.onICEConnectionStateChange
  split
  · exact .refl p
  · next hc =>
      have hc : (p.peer x).closed = 0 := Nat.eq_zero_of_not_pos hc
      by_cases hst : st = .connected
      · subst hst
        have hq := p.setIceFlags_quiet x .connected
        cases hrole : (p.peer x).role with
        | publisher =>
            have hent := hp.entry_of_open hx hc
            rw [Peer.key_publisher hrole, hrole] at hent
            refine .asks (hq.trans (Pod.onIceReady_quiet _ _ _ _ _))
              (fun _ => .announces x hent) ⟨rfl, rfl⟩ ?_
            exact Pod.onIceReady_fatal _ _ _ _ _
        | subscriber =>
            refine (setIceFlags_calm fun _ => hrole).trans ?_
            unfold Pod.reportIce
            dsimp only
            have hrole' : ((p.setIceFlags x .connected).peer x).role =
                .subscriber :=
              (Peer.ident_eq (hq.peerIdent x)).2.2.2.1.trans hrole
            rw [hrole']
            exact onIceReady_calm _ _ _
      · have hq := p.setIceFlags_quiet x st
        refine (setIceFlags_calm fun h => absurd h hst).trans
          (reportIce_calm IceFoot.base hst (fun y hdis hrole hy => ?_)
            fun g hg => .inl (Pod.releaseFor_of_quiet hq hg))
        have hent := (hp.of_asks hq).entry_of_open
          (x := x) (by rw [hq.peerNext]; exact hx) (by rw [hq.closed]; exact hc)
        rw [Peer.key_publisher hrole, hrole, hy] at hent
        cases hent
        exact ⟨rfl, hdis⟩

end MediaServer.Ref
