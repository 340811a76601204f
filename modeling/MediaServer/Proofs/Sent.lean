import MediaServer.Proofs.Effects

/-!
# What a step sends to another pod

`Sent pod p q ms` says that on the way from `p` to `q` the messages `ms` went
to that pod, in this order. `Move.sent` gives them for every move, as
`Move.notes` does for what members and the load balancer are told: a stream is
withdrawn and announced by the moves of these names, and only if its session
is an origin session; everything else is said by `sends`, which the footprint
of the input restricts. So every message carries the id of its sender
(`step_spoken`), and the input tells which kinds there can be.
-/

namespace MediaServer.Ref

open MediaServer.Lib

variable {p q t : Pod} {s : SessRef} {x : PeerRef} {r : RoomRef} {k : String}
variable {b : Act} {e : Event} {pod : String} {ms ms' : List JsonParser}

def Sent (pod : String) (p q : Pod) (ms : List JsonParser) : Prop :=
  ∃ tr, q.log = p.log ++ tr ∧ tr.filterMap (Event.crossTo pod) = ms

namespace Sent

theorem sentTo (h : Sent pod p q ms) : sentTo pod p q = ms := by
  obtain ⟨tr, hlog, htr⟩ := h
  rw [Ref.sentTo, newEvents_of_append hlog, htr]

theorem of_log (h : q.log = p.log) : Sent pod p q [] :=
  ⟨[], by rw [h, List.append_nil], rfl⟩

theorem trans (h : Sent pod p q ms) (h' : Sent pod q t ms') :
    Sent pod p t (ms ++ ms') := by
  obtain ⟨tr, hlog, rfl⟩ := h
  obtain ⟨tr', hlog', rfl⟩ := h'
  refine ⟨tr ++ tr', ?_, List.filterMap_append⟩
  rw [hlog', hlog, List.append_assoc]

theorem trans_nil (h : Sent pod p q ms) (h' : Sent pod q t []) :
    Sent pod p t ms := by
  have h := h.trans h'
  rwa [List.append_nil] at h

theorem foldl {α : Type} {f : Pod → α → Pod}
    (hf : ∀ p a, Sent pod p (f p a) []) (l : List α) (p : Pod) :
    Sent pod p (l.foldl f p) [] := by
  induction l generalizing p with
  | nil => exact of_log rfl
  | cons a l ih => exact (hf p a).trans (ih (f p a))

end Sent

/-! ## Single calls -/

theorem emit_sent (hf : p.fatal = false) (e : Event) :
    Sent pod p (p.emit e) (e.crossTo pod).toList := by
  refine ⟨_, p.emit_log e, ?_⟩
  rw [hf]
  cases h : e.crossTo pod <;> simp [h]

theorem toCross_sent (hf : p.fatal = false) {key : String} (m : JsonParser) :
    Sent pod p (p.emit (.toCrossClusterPod key m))
      (if key = pod then [m] else []) := by
  have h : Sent pod p (p.emit (.toCrossClusterPod key m)) _ := emit_sent hf _
  simp only [Event.crossTo] at h
  split at h
  · next hkey => rw [if_pos hkey]; exact h
  · next hkey => rw [if_neg hkey]; exact h

theorem emit_sentNothing (p : Pod) (h : e.crossTo pod = none) :
    Sent pod p (p.emit e) [] := by
  refine ⟨_, p.emit_log e, ?_⟩
  split
  · rfl
  · simp [h]

theorem Event.crossTo_of_plain (h : e.plain = true) : e.crossTo pod = none := by
  cases e with
  | toPod | toCrossClusterPod | broadcastCrossCluster => cases h
  | sync | deliverAudio | deliverVideo | deliverApp | toClient | toLB
  | destroy => rfl

theorem Still.sent (h : Still p q) : Sent pod p q [] := by
  obtain ⟨tr, hlog, hplain⟩ := h.log
  exact ⟨tr, hlog, List.filterMap_eq_nil_iff.mpr
    fun e he => Event.crossTo_of_plain (hplain e he)⟩

/-- What the members of a room are told stays on this pod. -/
theorem tellMembers_sent (pod : String) {m : Pod → JsonParser}
    (l : List ((_ : String) × SessRef)) (p : Pod) :
    Sent pod p (l.foldl (fun p e =>
      if (p.sess e.2).origin then
        p.emit (.toClient (p.sess e.2).userid (m p))
      else p) p) [] := by
  refine Sent.foldl (fun p e => ?_) l p
  split
  · exact emit_sentNothing p rfl
  · exact .of_log rfl

/-- What withdraws a stream on other pods. -/
def Pod.fakeUnpublishMsg (p : Pod) (r : RoomRef) (sid pid : String) :
    JsonParser :=
  [(.cmd, .str Cmd.fakeUnpublish.text),
    (.clusterId, .str p.conf.clusterid),
    (.podId, .str p.conf.uuid),
    (.roomId, .str (p.room r).roomid),
    (.sessID, .str sid),
    (.peerID, .str pid)]

theorem notifyStopPush_sent (r : RoomRef) (origin : Bool) (sid pid : String)
    (hf : p.fatal = false) :
    Sent pod p (p.notifyStopPush r origin sid pid)
      (if origin then [p.fakeUnpublishMsg r sid pid] else []) := by
  have hspoke := p.notifyStopPush_spoke r false sid pid
  have hloop := tellMembers_sent pod (m := fun p =>
    [(.cmd, .str Cmd.unpub.text),
      (.roomId, .str (p.room r).roomid),
      (.sessID, .str sid),
      (.peerID, .str pid)]) (p.room r).sessions.entries p
  unfold Pod.notifyStopPush at hspoke ⊢
  dsimp only at hspoke ⊢
  rw [if_neg Bool.false_ne_true] at hspoke
  generalize (p.room r).sessions.entries.foldl _ p = p₁ at hspoke hloop ⊢
  obtain ⟨tr, rfl⟩ := hspoke
  cases origin with
  | false => exact hloop
  | true => exact hloop.trans (emit_sent (p := p.logged tr) hf _)

theorem stopNotify_sent (hf : p.fatal = false)
    (hn : (p.peer x).shouldNotify = true) :
    Sent pod p (p.stopNotify s x k) (if (p.sess s).origin then
      [p.fakeUnpublishMsg (p.sess s).parent (p.sess s).userid k] else []) := by
  rw [Pod.stopNotify, if_pos hn]
  have hset : Sent pod p (p.setPeer x fun q =>
      { q with shouldNotify := false }) [] := .of_log rfl
  exact hset.trans (notifyStopPush_sent (p := p.setPeer x fun q =>
    { q with shouldNotify := false }) _ _ _ _ hf)

theorem onIceReady_sent {sid pid : String} (hf : p.fatal = false)
    (hx : (p.sess s).publishers.lookup pid = some x) :
    Sent pod p (p.onIceReady .publisher s sid pid)
      (if (p.sess s).origin then [p.fakePublishMsg s sid pid] else []) := by
  have hread : Still p (p.rlock (.pubs s)) := p.rlock_still _
  have hsess : (p.rlock (.pubs s)).sess s = p.sess s := Pod.emit_sess
  have hmsg : (p.rlock (.pubs s)).fakePublishMsg s sid pid =
      p.fakePublishMsg s sid pid := by
    simp [Pod.fakePublishMsg, Pod.rlock]
  unfold Pod.onIceReady
  dsimp only
  refine Sent.trans_nil ?_ (Pod.runlock_still _ _).sent
  rw [hsess, hx]
  dsimp only
  have ho : (((p.rlock (.pubs s)).go (.onPublisherReady (p.sess s).parent
    sid (p.sess s).username pid)).sess s).origin = (p.sess s).origin :=
    congrArg (·.origin) hsess
  have hgo : Sent pod p ((p.rlock (.pubs s)).go (.onPublisherReady
      (p.sess s).parent sid (p.sess s).username pid)) [] :=
    hread.sent.trans (.of_log rfl)
  rw [ho]
  split
  · rw [← hmsg]
    exact hgo.trans (emit_sent (p := (p.rlock (.pubs s)).go _)
      (hread.fatal.trans hf) _)
  · exact hgo

theorem announce_sent (hf : p.fatal = false)
    (hrole : (p.peer x).role = .publisher)
    (hx : p.entry .publisher (p.peer x).parent (p.peer x).peerid = some x) :
    Sent pod p ((p.setIceFlags x .connected).reportIce x .connected)
      (if (p.sess (p.peer x).parent).origin then
        [p.fakePublishMsg (p.peer x).parent (p.peer x).userid
          (p.peer x).peerid]
      else []) := by
  rw [reportIce_connected hrole]
  exact (Sent.of_log (q := p.setIceFlags x .connected) rfl).trans
    (onIceReady_sent (p := p.setIceFlags x .connected) hf hx)

theorem destroy_sent (p : Pod) (x : PeerRef) : Sent pod p (p.destroy x) [] := by
  have hemit : Sent pod p (p.emit (.destroy x)) [] := emit_sentNothing p rfl
  unfold Pod.destroy
  dsimp only
  split
  · exact hemit.trans (.of_log rfl)
  · exact hemit.trans (.of_log rfl)

/-- A section that writes under a lock. -/
theorem locked_sent {m : Mutex} {f : Pod → Pod}
    (hf : ∀ p : Pod, (f p).log = p.log) :
    Sent pod p ((f (p.lock m)).unlock m) [] :=
  ((p.lock_still m).sent.trans (.of_log (hf _))).trans
    (Pod.unlock_still _ m).sent

theorem insertEntry_sent (s : SessRef) (t : Peer) (p : Pod) :
    Sent pod p (p.insertEntry s t) [] := by
  unfold Pod.insertEntry
  split
  · exact (Sent.of_log (q := p.allocPeer t) rfl).trans
      (locked_sent (f := fun q => q.storePublisher s t.key p.peerHeap.next)
        fun _ => rfl)
  · exact (Sent.of_log (q := p.allocPeer t) rfl).trans
      (locked_sent (f := fun q => q.storeSubscriber s t.key p.peerHeap.next)
        fun _ => rfl)

theorem insertSession_sent (r : RoomRef) (u : String) (t : Session)
    (p : Pod) : Sent pod p (p.insertSession r u t) [] :=
  (Sent.of_log (q := p.allocSess t) rfl).trans
    (locked_sent (f := fun q => q.storeSession r u p.sessHeap.next)
      fun _ => rfl)

theorem insertRoom_sent (rid : String) (p : Pod) :
    Sent pod p (p.insertRoom rid) [] :=
  (Sent.of_log (q := p.allocRoom (createRoom rid)) rfl).trans
    (locked_sent (f := fun q => q.storeRoom rid p.roomHeap.next) fun _ => rfl)

/-! ## Moves -/

/-- What a move sends. -/
def Act.sent (pod : String) (p : Pod) : Act → List JsonParser
  | .sends e => (e.crossTo pod).toList
  | .withdraws s k _ =>
      if (p.sess s).origin then
        [p.fakeUnpublishMsg (p.sess s).parent (p.sess s).userid k]
      else []
  | .announces x =>
      if (p.sess (p.peer x).parent).origin then
        [p.fakePublishMsg (p.peer x).parent (p.peer x).userid
          (p.peer x).peerid]
      else []
  | _ => []

theorem Move.sent (h : Move b p q) (hp : PodOk p) (hf : p.fatal = false) :
    Sent pod p q (b.sent pod p) := by
  cases h with
  | still h => exact h.sent
  | sends he => exact emit_sent hf _
  | withdraws s k x _ hn => exact stopNotify_sent hf hn
  | announces x hx =>
      exact announce_sent hf (hp.placed _ _ _ _ hx).2.2.1 hx
  | tells => exact emit_sentNothing p rfl
  | unpush env s k =>
      exact p.getSn_still.sent.trans (emit_sentNothing p.getSn rfl)
  | leaves env r u =>
      exact p.getSn_still.sent.trans (emit_sentNothing p.getSn rfl)
  | destroys s x => exact destroy_sent p x
  | adds s t => exact insertEntry_sent s t p
  | seats r u t => exact insertSession_sent r u t p
  | opens rid => exact insertRoom_sent rid p
  | erases role s k => cases role <;> exact .of_log rfl
  | clears role s => cases role <;> exact .of_log rfl
  | dies | spawns | offers | accepts | flags | beats | unseats | vacates
  | closes | takes => exact .of_log rfl

theorem Move.uuid (h : Move b p q) (hp : PodOk p) :
    q.conf.uuid = p.conf.uuid := by
  cases hb : b.inner with
  | true => exact (h.shrinks hb).uuid
  | false =>
      cases h with
      | adds s t hseat hpar ht hfree =>
          obtain ⟨r, u, hs⟩ := hseat
          exact (Pod.insertEntry_inserts (hp.sessions r u s hs).2.2 hpar
            ht.1 hfree).uuid
      | seats r u t =>
          simp [Pod.insertSession, Pod.unlock, Pod.lock, Pod.storeSession,
            Pod.setRoom, Pod.allocSess]
      | opens rid =>
          simp [Pod.insertRoom, Pod.unlock, Pod.lock, Pod.storeRoom,
            Pod.allocRoom]
      | unseats | vacates | closes | takes => rfl
      | still | dies | sends | spawns | tells | unpush | leaves | withdraws
      | destroys | erases | clears | offers | accepts | flags | announces
      | beats => cases hb

/-! ## Steps -/

section Step

variable {a : Env × Input}

/-- The rule for what a step sends: `P` speaks of a pod on the way and of what
was sent up to there. -/
theorem step_sent {P : Pod → List JsonParser → Prop} (hp : InOrder p)
    (hs : Pod.step a p = some q) (hP : P p [])
    (hm : ∀ {b t t' ms}, Also (Foot p a.1 a.2) b → Sound t → After p t →
      t.conf.uuid = p.conf.uuid → t.fatal = false → Move b t t' → P t ms →
      P t' (ms ++ b.sent pod t)) :
    P q (sentTo pod p q) := by
  obtain ⟨-, ms, hsent, hms⟩ := (step_induction (P := fun t =>
    t.conf.uuid = p.conf.uuid ∧ ∃ ms, Sent pod p t ms ∧ P t ms) hp hs
    ⟨rfl, [], .of_log rfl, hP⟩
    fun {b t t'} hb hsound hafter hf hmove ⟨hid, ms, hsent, ht⟩ =>
      ⟨(hmove.uuid hsound.toPodOk).trans hid, _,
        hsent.trans (hmove.sent hsound.toPodOk hf),
        hm hb hsound hafter hid hf hmove ht⟩).1
  rw [hsent.sentTo]
  exact hms

theorem step_uuid (hp : InOrder p) (hs : Pod.step a p = some q) :
    q.conf.uuid = p.conf.uuid :=
  (step_induction (P := fun t => t.conf.uuid = p.conf.uuid) hp hs rfl
    fun _ hsound _ _ hm ht => (hm.uuid hsound.toPodOk).trans ht).1

theorem Event.spoken_of_said {uuid : String} {m : JsonParser}
    (h : e.said uuid) (hm : e.crossTo pod = some m) : Spoken uuid m := by
  cases e with
  | broadcastCrossCluster => cases hm; exact h.1
  | toPod key | toCrossClusterPod key =>
      simp only [Event.crossTo] at hm
      split at hm
      · cases hm; exact h
      · cases hm
  | sync | deliverAudio | deliverVideo | deliverApp | toClient | toLB
  | destroy => cases hm

/-- Every message names its sender. -/
theorem step_spoken (hp : InOrder p) (hs : Pod.step a p = some q) :
    ∀ m ∈ sentTo pod p q, Spoken p.conf.uuid m := by
  refine step_sent (P := fun _ ms => ∀ m ∈ ms, Spoken p.conf.uuid m) hp hs
    nofun fun {b t t' ms} _ _ _ hid _ hm hms m hmem => ?_
  rcases List.mem_append.mp hmem with hmem | hmem
  · exact hms m hmem
  rw [← hid]
  cases hm with
  | sends he =>
      exact Event.spoken_of_said he (Option.mem_toList.mp hmem)
  | withdraws s k x =>
      simp only [Act.sent] at hmem
      split at hmem
      · rw [List.mem_singleton.mp hmem]
        exact ⟨rfl, _, command_cons _ _, rfl, nofun⟩
      · cases hmem
  | announces x =>
      simp only [Act.sent] at hmem
      split at hmem
      · rw [List.mem_singleton.mp hmem]
        exact ⟨rfl, _, command_cons _ _, rfl, nofun⟩
      · cases hmem
  | still | dies | spawns | tells | unpush | leaves | destroys | erases
  | clears | adds | offers | accepts | flags | beats | seats | unseats
  | vacates | opens | closes | takes => cases hmem

end Step

end MediaServer.Ref
