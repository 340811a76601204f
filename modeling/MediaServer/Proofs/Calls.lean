import MediaServer.Proofs.Words
import MediaServer.Ref.CallSched

/-!
# Calls that run block by block

`Block` says once what the next block of a call can do: the pod it leaves and
the place where the call stands then. A block gives no seat away, opens no
room and stores no peer; it may take entries out, and unless it crashes the
pod is in order after it. A call holds on to the session or the peer that it
was started for, and both keep their names however long it waits.
-/

namespace MediaServer.Ref

open MediaServer.Lib Relation

variable {p q : Pod} {s : SessRef} {x : PeerRef} {b : Act} {env : Env}
variable {rid u : String} {k : Pc} {next : Option Pc}

/-! ## Where sessions and peers belong -/

/-- The session of every peer and the room of every session exist, also of
those that were taken out. -/
structure Rooted (p : Pod) : Prop where
  peer : ∀ x, x < p.peerHeap.next → (p.peer x).parent < p.sessHeap.next
  sess : ∀ s, s < p.sessHeap.next → (p.sess s).parent < p.roomHeap.next

theorem createRoomMgr_rooted (conf : Config) :
    Rooted (Pod.createRoomMgr conf) where
  peer x hx := absurd hx (Nat.not_lt_zero x)
  sess s hs := absurd hs (Nat.not_lt_zero s)

theorem After.rooted (h : After p q) (hp : Rooted p)
    (hpeer : ∀ x, ¬x < p.peerHeap.next → x < q.peerHeap.next →
      (q.peer x).parent < q.sessHeap.next)
    (hsess : ∀ s, ¬s < p.sessHeap.next → s < q.sessHeap.next →
      (q.sess s).parent < q.roomHeap.next) : Rooted q where
  peer x hx := by
    by_cases hold : x < p.peerHeap.next
    · rw [(Peer.ident_eq (h.peer x hold)).2.2.2.2.2.1]
      exact Nat.lt_of_lt_of_le (hp.peer x hold) h.sessNext
    · exact hpeer x hold hx
  sess s hs := by
    by_cases hold : s < p.sessHeap.next
    · rw [show (q.sess s).parent = (p.sess s).parent from
        congrArg (·.2.2.2.2.2) (h.sess s hold)]
      exact Nat.lt_of_lt_of_le (hp.sess s hold) h.roomNext
    · exact hsess s hold hs

theorem Shrinks.rooted (h : Shrinks p q) (hp : Rooted p) : Rooted q :=
  h.after.rooted hp (fun _ hx hx' => absurd (h.peerNext ▸ hx') hx)
    fun _ hs hs' => absurd (h.sessNext ▸ hs') hs

theorem Move.rooted (h : Move b p q) (hp : PodOk p) (hr : Rooted p) :
    Rooted q := by
  have hafter := h.after hp
  cases hb : b.inner with
  | true => exact (h.shrinks hb).rooted hr
  | false =>
      cases h with
      | adds i t hseat hpar ht hfree =>
          obtain ⟨r, v, hs⟩ := hseat
          have hi := Pod.insertEntry_inserts (hp.sessions r v i hs).2.2 hpar
            ht.1 hfree
          refine hafter.rooted hr (fun x hx hx' => ?_)
            fun s hs hs' => absurd (hi.sessNext ▸ hs') hs
          rw [hi.peerNext] at hx'
          have hnew : x = p.peerHeap.next := Nat.le_antisymm
            (Nat.le_of_lt_succ hx') (Nat.le_of_not_lt hx)
          rw [hi.peer, if_pos hnew, hpar, hi.sessNext]
          exact (hp.sessions r v i hs).2.2
      | seats r v t hlt _ _ _ hpar =>
          refine hafter.rooted hr (fun x hx hx' => ?_) fun s hs hs' => ?_
          · rw [insertSession_peerHeap] at hx'
            exact absurd hx' hx
          · rw [Pod.insertSession_sessNext] at hs'
            have hnew : s = p.sessHeap.next := Nat.le_antisymm
              (Nat.le_of_lt_succ hs') (Nat.le_of_not_lt hs)
            rw [Pod.insertSession_sess, if_pos hnew, hpar]
            exact Nat.lt_of_lt_of_le hlt hafter.roomNext
      | opens rid =>
          refine hafter.rooted hr (fun x hx hx' => ?_) fun s hs hs' => ?_
          · rw [insertRoom_peerHeap] at hx'
            exact absurd hx' hx
          · rw [insertRoom_sessHeap] at hs'
            exact absurd hs' hs
      | unseats | vacates | closes | takes =>
          exact hafter.rooted hr (fun x hx hx' => absurd hx' hx)
            fun s hs hs' => absurd hs' hs
      | still | dies | sends | spawns | tells | unpush | leaves | withdraws
      | destroys | erases | clears | offers | accepts | flags | announces
      | beats => cases hb

theorem step_rooted {a : Env × Input} (hp : InOrder p) (hr : Rooted p)
    (hs : Pod.step a p = some q) : Rooted q :=
  (step_induction (P := Rooted) hp hs hr
    fun _ hsound _ _ hm h => hm.rooted hsound.toPodOk h).1

/-- The session is one of user `u` in the room `rid`. -/
def Pod.Named (p : Pod) (s : SessRef) (rid u : String) : Prop :=
  (p.room (p.sess s).parent).roomid = rid ∧ (p.sess s).userid = u

instance (p : Pod) (s : SessRef) (rid u : String) :
    Decidable (p.Named s rid u) := inferInstanceAs (Decidable (_ ∧ _))

theorem After.named (h : After p q) (hr : Rooted p)
    (hs : s < p.sessHeap.next) : q.Named s rid u ↔ p.Named s rid u := by
  have hid := h.sess s hs
  have hu : (q.sess s).userid = (p.sess s).userid := congrArg (·.1) hid
  have hpar : (q.sess s).parent = (p.sess s).parent :=
    congrArg (·.2.2.2.2.2) hid
  rw [Pod.Named, Pod.Named, hu, hpar, h.roomid _ (hr.sess s hs)]

theorem Shrinks.named (h : Shrinks p q) :
    q.Named s rid u ↔ p.Named s rid u := by
  rw [Pod.Named, Pod.Named, h.userid, h.parent, h.room]

theorem Shrinks.sound (h : Shrinks p q) (hp : Sound p) : Sound q where
  toPodOk := h.podOk hp.toPodOk
  owned := hp.owned.of_shrink owned_onIdent hp.placed h.entry
    (fun s _ => h.ident s) h.peerIdent
  registered := hp.registered.of_same (fun r u s hs => by rwa [h.room] at hs)
    (fun r => by rw [h.room]) h.rooms

/-- Everything keeps its name, and no peer comes back. -/
structure Older (p q : Pod) : Prop extends After p q where
  entry : ∀ role s k x, x < p.peerHeap.next → q.entry role s k = some x →
    p.entry role s k = some x

theorem Shrinks.older (h : Shrinks p q) : Older p q :=
  ⟨h.after, fun role s k x _ => h.entry role s k x⟩

/-! ## Places -/

/-- The places where these calls stand, and what they hold on to. -/
def Pc.Holds (p : Pod) : Pc → Prop
  | .start s (.message j) =>
      s < p.sessHeap.next ∧ command j = some .stopPush
  | .start s (.releasePublisher _) | .answerStop s _ | .releaseSubs s _ =>
      s < p.sessHeap.next
  | .stopPub s j x => s < p.sessHeap.next ∧ x < p.peerHeap.next ∧
      (p.peer x).role = .publisher ∧ (p.peer x).parent = s ∧
      (p.peer x).peerid = getValue j .peerID
  | .ice x _ | .reportIce x _ => x < p.peerHeap.next
  | _ => False

theorem Pc.Holds.after (h : k.Holds p) (ha : After p q) : k.Holds q := by
  have hsess : ∀ {s}, s < p.sessHeap.next → s < q.sessHeap.next :=
    fun hs => Nat.lt_of_lt_of_le hs ha.sessNext
  have hpeer : ∀ {x}, x < p.peerHeap.next → x < q.peerHeap.next :=
    fun hx => Nat.lt_of_lt_of_le hx ha.peerNext
  cases k with
  | start s op =>
      cases op with
      | message j => exact ⟨hsess h.1, h.2⟩
      | releasePublisher pid => exact hsess h
      | releaseSubscriberPeer | handleSubscriberLeaved | doLeave => cases h
  | stopPub s j x =>
      obtain ⟨hs, hx, hrole, hpar, hpid⟩ := h
      obtain ⟨-, -, hpid', hrole', -, hpar', -⟩ :=
        Peer.ident_eq (ha.peer x hx)
      exact ⟨hsess hs, hpeer hx, hrole'.trans hrole, hpar'.trans hpar,
        hpid'.trans hpid⟩
  | answerStop s j => exact hsess h
  | releaseSubs s pid => exact hsess h
  | ice x st => exact hpeer h
  | reportIce x st => exact hpeer h
  | replacePub | insertPub | answerPub | readPub | testSub | replaceSub
  | insertSub | offerSub | leavedSubs | leaveSubs | leaveWait => cases h

/-! ## Blocks -/

/-- One block: from where the call stands, the pod it leaves and where the
call stands then. -/
inductive Block (env : Env) (p : Pod) : Pc → Pod → Option Pc → Prop where
  | miss (s : SessRef) (j : JsonParser) :
      Block env p (.start s (.message j)) p none
  | found (s : SessRef) (j : JsonParser) (x : PeerRef)
      (hx : p.entry .publisher s (getValue j .peerID) = some x) :
      Block env p (.start s (.message j)) p (some (.stopPub s j x))
  | stop (s : SessRef) (j : JsonParser) (x : PeerRef) :
      Block env p (.stopPub s j x) (p.stopSection s x (getValue j .peerID))
        (some (.answerStop s j))
  | crash (s : SessRef) (j : JsonParser) (x : PeerRef) :
      Block env p (.stopPub s j x) (p.stopPublisher s x (getValue j .peerID))
        none
  | answer (s : SessRef) (j : JsonParser) :
      Block env p (.answerStop s j) (p.answerStopPush env s j) none
  | release (s : SessRef) (pid : String) :
      Block env p (.start s (.releasePublisher pid)) (p.releasePubs s pid)
        (some (.releaseSubs s pid))
  | finish (s : SessRef) (pid : String) :
      Block env p (.releaseSubs s pid)
        ((p.releaseSubs s pid).notifyReleasePublish env s pid) none
  | ignore (x : PeerRef) (st : IceState) (hc : 0 < (p.peer x).closed) :
      Block env p (.ice x st) p none
  | flag (x : PeerRef) (st : IceState) (hc : (p.peer x).closed = 0) :
      Block env p (.ice x st) (p.setIceFlags x st) (some (.reportIce x st))
  | report (x : PeerRef) (st : IceState) :
      Block env p (.reportIce x st) (p.reportIce x st) none

theorem exec_block (hk : k.Holds p) {q : Pod}
    (h : k.exec env p = (q, next)) : Block env p k q next := by
  cases k with
  | start s op =>
      cases op with
      | message j =>
          simp only [Pc.exec, Pc.startMessage, hk.2] at h
          split at h
          · next x hx => cases h; exact .found s j x hx
          · cases h; exact .miss s j
      | releasePublisher pid => cases h; exact .release s pid
      | releaseSubscriberPeer | handleSubscriberLeaved | doLeave => cases hk
  | stopPub s j x => cases h; exact .crash s j x
  | answerStop s j => cases h; exact .answer s j
  | releaseSubs s pid => cases h; exact .finish s pid
  | ice x st =>
      rw [Pc.exec] at h
      split at h
      · next hc => cases h; exact .ignore x st hc
      · next hc => cases h; exact .flag x st (Nat.eq_zero_of_not_pos hc)
  | reportIce x st => cases h; exact .report x st
  | replacePub | insertPub | answerPub | readPub | testSub | replaceSub
  | insertSub | offerSub | leavedSubs | leaveSubs | leaveWait => cases hk

theorem lockedExec_block {w : Bool} {l l' : Locked} (hk : k.Holds l.pod)
    (h : Locked.exec env w k l = some (l', next)) :
    Block env l.pod k l'.pod next := by
  unfold Locked.exec at h
  split at h
  · split at h
    · cases h; exact .stop _ _ _
    · cases h; exact exec_block hk rfl
  · cases h

theorem Shrinks.trans {t : Pod} (h : Shrinks p q) (h' : Shrinks q t) :
    Shrinks p t where
  toSameStore := h.toSameStore.trans h'.toSameStore
  entry role s k x hx := h.entry role s k x (h'.entry role s k x hx)
  peerNext := h'.peerNext.trans h.peerNext
  peerIdent x := (h'.peerIdent x).trans (h.peerIdent x)

theorem Removes.shrinks {X : Set PeerRef} (h : Removes X p q) :
    Shrinks p q where
  toSameStore := h.toSameStore
  entry role s k x hx := ((h.entry role s k x).mp hx).1
  peerNext := h.peerNext
  peerIdent := h.peerIdent

theorem stopSection_shrinks (s : SessRef) (x : PeerRef) (pid : String)
    (p : Pod) : Shrinks p (p.stopSection s x pid) := by
  have hlock := (p.emit_quiet (.sync (.lock (.pubs s)))).shrinks
  have hnotify := ((p.lock (.pubs s)).stopNotify_quiet s x pid).shrinks
  have hdestroy := (((p.lock (.pubs s)).stopNotify s x
    pid).destroy_destroys x).shrinks
  have herase : ∀ t : Pod, Shrinks t (t.eraseEntry .publisher s pid) :=
    fun t => t.eraseEntry_shrinks
  exact (((hlock.trans hnotify).trans hdestroy).trans (herase _)).trans
    (Pod.emit_quiet _ _).shrinks

theorem answerStopPush_quiet (env : Env) (s : SessRef) (j : JsonParser)
    (p : Pod) : Quiet p (p.answerStopPush env s j) :=
  (p.emit_quiet _).trans (Pod.notifyReleasePublish_quiet env s _ _)

theorem Block.shrinks (h : Block env p k q next) (hp : PodOk p) :
    Shrinks p q := by
  cases h with
  | miss | found | ignore => exact (Asks.refl p (G := fun _ => False)).shrinks
  | stop s j x => exact stopSection_shrinks s x _ p
  | crash s j x =>
      exact (stopSection_shrinks s x _ p).trans (Pod.throw_quiet _).shrinks
  | answer s j => exact (answerStopPush_quiet env s j p).shrinks
  | release s pid =>
      exact (Pod.releasePubs_removes hp.placed).shrinks
  | finish s pid =>
      exact (Pod.releaseSubs_removes hp.placed pid).shrinks.trans
        (Pod.notifyReleasePublish_quiet env s pid _).shrinks
  | flag x st => exact (p.setIceFlags_quiet x st).shrinks
  | report x st => exact (p.reportIce_asks x st).shrinks

/-- The place that a block leads to holds on to what is there. -/
theorem Block.holds (h : Block env p k q next) (hp : PodOk p)
    (hk : k.Holds p) : ∀ k', next = some k' → k'.Holds q := by
  have hafter := (h.shrinks hp).after
  suffices hheld : ∀ k', next = some k' → k'.Holds p from
    fun k' hk' => (hheld k' hk').after hafter
  intro k' hk'
  cases h with
  | miss | crash | answer | finish | ignore | report => cases hk'
  | found s j x hx =>
      cases hk'
      obtain ⟨hlt, hs, hrole, hpar, hkey⟩ := hp.placed _ _ _ _ hx
      rw [Peer.key_publisher hrole] at hkey
      exact ⟨hs, hlt, hrole, hpar, hkey⟩
  | stop s j x => cases hk'; exact hk.1
  | release s pid => cases hk'; exact hk
  | flag x st => cases hk'; exact hk

theorem releasePubs_entry {pid : String} (hp : PodOk p) :
    (p.releasePubs s pid).entry .publisher s pid = none := by
  refine Option.eq_none_iff_forall_ne_some.mpr fun x hx => ?_
  obtain ⟨hold, hne⟩ :=
    ((Pod.releasePubs_removes hp.placed).entry _ _ _ _).mp hx
  exact hne hold

theorem Pod.destroy_crash (hc : (p.peer x).closed ≠ 0) :
    (p.destroy x).fatal = true := by
  have hmore : 1 < (((p.emit (.destroy x)).setPeer x
      fun q => { q with closed := q.closed + 1 }).peer x).closed := by
    rw [setPeer_peer, if_pos rfl, emit_peer]
    exact Nat.succ_lt_succ (Nat.pos_of_ne_zero hc)
  unfold Pod.destroy
  dsimp only
  rw [if_pos hmore]
  rfl

/-- If `stoppush` survives its section, the publisher it found was still the
one in the map. -/
theorem stopSection_open {pid : String} (hp : Ready p)
    (hlt : x < p.peerHeap.next) (hrole : (p.peer x).role = .publisher)
    (hpar : (p.peer x).parent = s) (hpid : (p.peer x).peerid = pid)
    (hf : (p.stopSection s x pid).fatal = false) :
    p.entry .publisher s pid = some x := by
  have hc : (p.peer x).closed = 0 := by
    by_contra hc
    have hq := (p.emit_quiet (.sync (.lock (.pubs s)))).trans
      ((p.lock (.pubs s)).stopNotify_quiet s x pid)
    have hcrash : (((p.lock (.pubs s)).stopNotify s x pid).destroy
        x).fatal = true := Pod.destroy_crash (by
      rw [← hq.closed x] at hc
      exact hc)
    rw [Pod.stopSection, Pod.runlock, Pod.emit_fatal] at hf
    exact absurd hcrash (by rw [Bool.not_eq_true]; exact hf)
  have hent := hp.entry_of_open hlt hc
  rw [Peer.key_publisher hrole, hrole, hpar, hpid] at hent
  exact hent

/-- A block that does not crash leaves the pod in order. -/
theorem Block.inOrder (h : Block env p k q next) (hp : InOrder p)
    (hf : p.fatal = false) (hk : k.Holds p) (hq : q.fatal = false) :
    InOrder q := by
  have hbase : Base (fun _ : Act => True) none :=
    ⟨trivial, trivial, fun _ _ => trivial⟩
  have htouch : ∀ s, Touch (fun _ : Act => True) s := fun _ =>
    ⟨fun _ => trivial, fun _ _ => trivial, fun _ => trivial⟩
  refine ⟨(h.shrinks hp.toPodOk).sound hp.toSound, Ready.lives ?_⟩
  cases h with
  | miss | found | ignore => exact hp.ready
  | stop s j x =>
      obtain ⟨-, hlt, hrole, hpar, hpid⟩ := hk
      exact (stopSection_calm hbase (htouch s) (stopSection_open hp.ready hlt
        hrole hpar hpid hq) hp.ready hf).2.2
  | crash s j x => cases hq
  | answer s j => exact hp.ready.of_asks (answerStopPush_quiet env s j p)
  | release s pid =>
      exact (releasePubs_calm hbase (htouch s) pid p hp.ready hf).2.2
  | finish s pid =>
      exact (((releaseSubs_calm hbase (htouch s) pid p).trans
        (unpush_calm env _ trivial)) hp.ready hf).2.2
  | flag x st => exact hp.ready.of_asks (p.setIceFlags_quiet x st)
  | report x st => exact hp.ready.of_asks (p.reportIce_asks x st)

/-! ## The machine -/

namespace CallSched

/-- What a step does: an input that runs to its end, an input that starts a
call or finds no session to call, or a block. -/
inductive Steps (t : Sched) : Act → Sched → Prop where
  | runs {a : Env × Input} {q : Pod} (hb : t.shared.pod.begins a.2 = none)
      (hs : Pod.step a t.shared.pod = some q) : Steps t (.input a) (t.setPod q)
  | starts {a : Env × Input} {q : Pod} {k : Pc}
      (hb : t.shared.pod.begins a.2 = some (q, some k)) :
      Steps t (.input a) ((t.setPod q).start k)
  | idles {a : Env × Input} {q : Pod}
      (hb : t.shared.pod.begins a.2 = some (q, none)) :
      Steps t (.input a) (t.setPod q)
  | block {i : Nat} {env : Env} {w : Bool} {k : Pc} {l : Locked}
      {next : Option Pc} (hi : t.threads[i]? = some k)
      (he : Locked.exec env w k t.shared = some (l, next)) :
      Steps t (.turn i env w) (t.resume i l next)

theorem step_cases {a : Act} {t t' : Sched} (h : step a t = some t') :
    t.shared.pod.fatal = false ∧ Steps t a t' := by
  unfold step at h
  dsimp only at h
  split at h
  · cases h
  · next hf =>
      refine ⟨by simpa using hf, ?_⟩
      cases a with
      | input a =>
          dsimp only at h
          split at h
          · next q k hb => cases h; exact .starts hb
          · next q hb => cases h; exact .idles hb
          · next hb =>
              obtain ⟨q, hq, rfl⟩ := Option.map_eq_some_iff.mp h
              exact .runs hb hq
      | turn i env w =>
          obtain ⟨k, l, next, hi, he, rfl⟩ := Threads.turn_eq_some h
          exact .block hi he

/-- The inputs that start a call: what is taken from the pending calls, and
where the new call stands. -/
inductive Begins (p : Pod) : Input → Pod → Option Pc → Prop where
  | ice {x : PeerRef} {st : IceState} (hx : x < p.peerHeap.next) :
      Begins p (.ice x st) p (some (.ice x st))
  | release {i : Nat} {g : Goroutine} {r : RoomRef} {u pid : String}
      (hg : p.pending[i]? = some g) (hrel : g.releases r u pid) :
      Begins p (.go i) { p with pending := p.pending.eraseIdx i }
        (((p.room r).sessions.lookup u).map fun s =>
          .start s (.releasePublisher pid))
  | stop {m : JsonParser} {s : SessRef} (hc : command m = some .stopPush)
      (hs : p.seat (getValue m .roomId) (getValue m .sessID) = some s) :
      Begins p (.message m) p (some (.start s (.message m)))

theorem begins_cases {a : Input} {k : Option Pc}
    (h : p.begins a = some (q, k)) : Begins p a q k := by
  unfold Pod.begins at h
  split at h
  · split at h
    · next hx => cases h; exact .ice hx
    · cases h
  · split at h
    · next hg => cases h; exact .release hg ⟨rfl, rfl, rfl⟩
    · next hg => cases h; exact .release hg ⟨rfl, rfl, rfl⟩
    · cases h
  · split at h
    · next hc =>
        obtain ⟨s, hs, heq⟩ := Option.map_eq_some_iff.mp h
        cases heq
        exact .stop hc.1 hs
    · cases h
  · cases h

/-- A release that is pending starts a call. -/
theorem begins_of_releases {i : Nat} {g : Goroutine} {r : RoomRef}
    {u pid : String} (hg : p.pending[i]? = some g)
    (hrel : g.releases r u pid) : p.begins (.go i) ≠ none := by
  unfold Pod.begins
  simp only [hg]
  cases g with
  | onPublisherPeerFailed | onPublisherPeerClosed => exact nofun
  | releaseRoom | kickoutFromRoom | checkKeepAlive | handleSubscriberLeaved
  | onPublisherReady | onSubscriberPeerFailed | onSubscriberPeerClosed
  | releaseSubscriberPeer | fakePublisherReConnect | requestKeyframe =>
      cases hrel

/-- Nothing else happens then. -/
theorem Begins.eq {a : Input} {k : Option Pc} (h : Begins p a q k) :
    ∃ l, q = { p with pending := l } := by
  cases h with
  | ice | stop => exact ⟨p.pending, rfl⟩
  | release => exact ⟨_, rfl⟩

theorem Begins.holds {a : Input} {k : Option Pc} (h : Begins p a q k)
    (hp : Sound p) : ∀ k' ∈ k, k'.Holds q := by
  intro k' hk'
  cases h with
  | ice hx => cases hk'; exact hx
  | release hg hrel =>
      obtain ⟨s, hs, rfl⟩ := Option.map_eq_some_iff.mp hk'
      exact (hp.sessions _ _ s hs).2.2
  | stop hc hs => cases hk'; exact ⟨(hp.of_seat hs).2.2.2, hc⟩

theorem Begins.older {a : Input} {k : Option Pc} (h : Begins p a q k) :
    Older p q := by
  obtain ⟨l, rfl⟩ := h.eq
  exact ⟨{ After.refl p with }, fun _ _ _ _ _ hx => hx⟩

theorem Begins.pending_kept {a : Input} {k : Option Pc} {g : Goroutine}
    (h : Begins p a q k) (hg : g ∈ p.pending) (hne : a.call? p ≠ some g) :
    g ∈ q.pending := by
  cases h with
  | ice | stop => exact hg
  | release hg' hrel =>
      refine mem_eraseIdx_of_ne hg' hg ?_
      rintro rfl
      exact hne hg'

/-- What holds in every state: unless it has crashed the pod is in order, and
the calls hold on to sessions and peers that are there. -/
structure Ok (t : Sched) : Prop where
  inOrder : t.shared.pod.fatal = false → InOrder t.shared.pod
  rooted : Rooted t.shared.pod
  holds : ∀ k ∈ t.threads, k.Holds t.shared.pod

theorem Steps.after {a : Act} {t t' : Sched} (h : Steps t a t')
    (hp : InOrder t.shared.pod) (ht : Ok t) :
    After t.shared.pod t'.shared.pod := by
  cases h with
  | runs _ hs => exact step_after hp hs
  | starts hb => exact (begins_cases hb).older.toAfter
  | idles hb => exact (begins_cases hb).older.toAfter
  | block hi he =>
      rw [Threads.resume_shared]
      exact ((lockedExec_block (ht.holds _ (List.mem_of_getElem? hi))
        he).shrinks hp.toPodOk).after

theorem step_ok {a : Act} {t t' : Sched} (ht : Ok t)
    (h : step a t = some t') : Ok t' := by
  obtain ⟨hf, hsteps⟩ := step_cases h
  have hp := ht.inOrder hf
  have hafter := hsteps.after hp ht
  have hheld : ∀ k ∈ t.threads, k.Holds t'.shared.pod :=
    fun k hk => (ht.holds k hk).after hafter
  cases hsteps with
  | runs _ hs =>
      exact ⟨fun _ => step_inOrder hp hs, step_rooted hp ht.rooted hs, hheld⟩
  | starts hb =>
      have hbegins := begins_cases hb
      obtain ⟨l, rfl⟩ := hbegins.eq
      refine ⟨fun _ => hp.of_pending l, ⟨ht.rooted.peer, ht.rooted.sess⟩,
        fun k hk => ?_⟩
      rcases List.mem_append.mp hk with hk | hk
      · exact hheld k hk
      · rw [List.mem_singleton.mp hk]
        exact hbegins.holds hp.toSound _ rfl
  | idles hb =>
      obtain ⟨l, rfl⟩ := (begins_cases hb).eq
      exact ⟨fun _ => hp.of_pending l, ⟨ht.rooted.peer, ht.rooted.sess⟩, hheld⟩
  | block hi he =>
      rw [Threads.resume_shared] at hheld
      have hk := ht.holds _ (List.mem_of_getElem? hi)
      have hblock := lockedExec_block hk he
      refine ⟨?_, ?_, fun k' hk' => ?_⟩
      · rw [Threads.resume_shared]
        exact hblock.inOrder hp hf hk
      · rw [Threads.resume_shared]
        exact (hblock.shrinks hp.toPodOk).rooted ht.rooted
      · rw [Threads.resume_shared]
        rcases Threads.mem_resume hk' with hold | hnew
        · exact hheld k' hold
        · exact hblock.holds hp.toPodOk hk k' hnew

theorem init_ok (conf : Config) : Ok (Sched.init conf) where
  inOrder _ := createRoomMgr_inOrder conf
  rooted := createRoomMgr_rooted conf
  holds _ hk := by cases hk

end CallSched

end MediaServer.Ref
