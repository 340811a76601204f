import MediaServer.Proofs.Departures
import MediaServer.Proofs.Notices

/-!
# No ghost streams

The machine runs a callback in two blocks, the flags first and then the
report, and between any two blocks other callbacks, releases and messages. A
run is timely if no announcement is late, that is, the stream is still up when
its goroutine runs, and no report of a disconnect is, that is, the connection
has not come back when it runs.

`Shift` says what a step does to the flags and to what the members hear. What
is under way when a step begins is under way after it, or has had its effect:
`Steps.owed` for the reports and releases that a marked publisher waits for
when it is not ready, `Steps.due` for the announcement of a ready one.
-/

namespace MediaServer.Ref

open MediaServer.Lib Relation

variable {p q : Pod} {s sv : SessRef} {x : PeerRef} {st : IceState}
variable {v rid u k : String} {env : Env} {c : Pc} {next : Option Pc}
variable {ks : List Pc}

/-- An announcement is in time while the stream is up. -/
def Goroutine.inTime (p : Pod) : Goroutine → Bool
  | .onPublisherReady r u _ k => p.isUp (p.room r).roomid u k
  | _ => true

/-- The report of a disconnect is in time while there is no ready publisher
under the id. -/
def Pc.inTime (p : Pod) : Pc → Bool
  | .reportIce x .disconnected => (p.peer x).role != .publisher ||
      !p.readyAt (p.peer x).parent (p.peer x).peerid
  | _ => true

def Timely (t : Sched) : CallSched.Act → Prop
  | .input a => ∀ g ∈ a.2.call? t.shared.pod, g.inTime t.shared.pod = true
  | .turn i _ _ => ∀ c ∈ t.threads[i]?, c.inTime t.shared.pod = true

instance (t : Sched) (a : CallSched.Act) : Decidable (Timely t a) := by
  cases a with
  | input a =>
      unfold Timely
      infer_instance
  | turn i env w =>
      unfold Timely
      infer_instance

/-! ## Reports -/

theorem onIceDisconnected_peer (s : SessRef) (k : String) (p : Pod)
    (y : PeerRef) : (p.onIceDisconnected s k).peer y =
      if p.entry .publisher s k = some y then
        { p.peer y with shouldNotify := false }
      else p.peer y := by
  have hsess : (p.rlock (.pubs s)).sess s = p.sess s := Pod.emit_sess
  have hpeer : (p.rlock (.pubs s)).peer y = p.peer y := Pod.emit_peer
  unfold Pod.onIceDisconnected
  dsimp only
  rw [Pod.runlock, Pod.emit_peer, hsess]
  change _ = if (p.sess s).publishers.lookup k = some y then _ else _
  cases hx : (p.sess s).publishers.lookup k with
  | none => rw [if_neg (Option.some_ne_none y).symm]; exact hpeer
  | some x =>
      dsimp only
      rw [Pod.stopNotify_peer, hpeer]
      by_cases hy : y = x
      · rw [if_pos hy, if_pos (congrArg some hy.symm)]
      · rw [if_neg hy, if_neg fun h => hy (Option.some.inj h).symm]

/-- A publisher that reports a disconnect while it stands in its map is no
longer marked. -/
theorem reportIce_withdraws (hp : PodOk p)
    (hx : p.entry .publisher s k = some x) :
    ¬Shown (p.reportIce x .disconnected) s k x := by
  obtain ⟨-, -, hrole, rfl, hkey⟩ := hp.placed _ _ _ _ hx
  rw [Peer.key_publisher hrole] at hkey
  subst hkey
  rintro ⟨-, hn⟩
  unfold Pod.reportIce at hn
  simp only [hrole] at hn
  rw [onIceDisconnected_peer, if_pos hx] at hn
  cases hn

theorem testPublisher_pending {g : Goroutine}
    (hx : p.entry .publisher s k = some x) :
    (p.testPublisher s k g).pending = p.pending ++ [g] := by
  have hlook : ((p.rlock (.pubs s)).sess s).publishers.lookup k = some x := by
    rw [Pod.rlock, Pod.emit_sess]; exact hx
  have hpend : (p.rlock (.pubs s)).pending = p.pending := Pod.emit_pending
  unfold Pod.testPublisher
  dsimp only
  rw [hlook, Pod.runlock, Pod.emit_pending]
  dsimp only
  rw [Pod.go, hpend]

/-- A publisher that reports a failure while it stands in its map is going to
be released. -/
theorem reportIce_releases (hp : Sound p)
    (hx : p.entry .publisher s k = some x)
    (hst : st = .failed ∨ st = .closed) :
    ∃ g ∈ (p.reportIce x st).pending,
      g.releases (p.sess s).parent (p.sess s).userid k := by
  obtain ⟨-, -, hrole, rfl, -⟩ := hp.placed _ _ _ _ hx
  obtain ⟨hu, rfl⟩ := hp.publisher hx
  rcases hst with rfl | rfl
  · refine ⟨.onPublisherPeerFailed (p.sess (p.peer x).parent).parent
      (p.peer x).userid (p.peer x).peerid x, ?_, rfl, hu, rfl⟩
    unfold Pod.reportIce Pod.onIceFailed
    simp only [hrole]
    have hin := testPublisher_pending (g := .onPublisherPeerFailed
      (p.sess (p.peer x).parent).parent (p.peer x).userid (p.peer x).peerid x)
      hx
    split
    · refine (Pod.fakePublisherReConnect_quiet _ _ _ _ _).pending.subset ?_
      rw [hin]
      exact List.mem_append_right _ (List.mem_singleton_self _)
    · rw [hin]
      exact List.mem_append_right _ (List.mem_singleton_self _)
  · refine ⟨.onPublisherPeerClosed (p.sess (p.peer x).parent).parent
      (p.peer x).userid (p.peer x).peerid x, ?_, rfl, hu, rfl⟩
    unfold Pod.reportIce Pod.onIceClosed
    simp only [hrole]
    rw [testPublisher_pending hx]
    exact List.mem_append_right _ (List.mem_singleton_self _)

/-- A publisher that reports its connection while it stands in its map is
going to be announced. -/
theorem reportIce_announces (hp : Sound p)
    (hx : p.entry .publisher s k = some x) :
    .onPublisherReady (p.sess s).parent (p.sess s).userid (p.sess s).username
      k ∈ (p.reportIce x .connected).pending := by
  obtain ⟨-, -, hrole, rfl, -⟩ := hp.placed _ _ _ _ hx
  obtain ⟨hu, rfl⟩ := hp.publisher hx
  unfold Pod.reportIce
  dsimp only
  rw [hrole, onIceReady_pending hx, hu]
  exact List.mem_append_right _ (List.mem_singleton_self _)

/-- The report of a connection is not for the members. -/
theorem reportIce_lastNotice (hf : p.fatal = false) :
    (p.reportIce x .connected).lastNotice v rid u k =
      p.lastNotice v rid u k := by
  unfold Pod.reportIce
  dsimp only
  cases (p.peer x).role with
  | publisher =>
      rw [Pod.lastNotice, onIceReady_notes hf]
      refine latest_silent fun n hn => ?_
      split at hn
      · rw [List.mem_singleton.mp hn]; rfl
      · cases hn
  | subscriber =>
      unfold Pod.onIceReady
      dsimp only
      split
      · rfl
      · rfl

/-! ## What a step does to the flags -/

/-- Whoever hears of a stream in the course of a call finds it marked, unless
they leave their seat. -/
def Truly (B : Act → Prop) (p q : Pod) : Prop :=
  ∀ v rid u k sv t r name, Traced B p t → After p t →
    B (.tells v r u name k) → r < t.roomHeap.next → (t.room r).roomid = rid →
    sv < p.sessHeap.next → q.seat rid v = some sv → Marks t rid u k

/-- A step leaves the flags alone, or sets them in a callback that then stands
before its report, or reports a connection. -/
inductive Shift (p q : Pod) (ks : List Pc) : Prop where
  | inner (B : Act → Prop) (h : Traced B p q)
      (hB : ∀ b, B b → b.flagless = true) (htells : Truly B p q)
      (hmarked : ∀ y, (q.peer y).Marked)
  | flags (x : PeerRef) (st : IceState) (hq : q = p.setIceFlags x st)
      (hks : .reportIce x st ∈ ks)
  | ready (x : PeerRef) (hq : q = p.reportIce x .connected)

theorem marks_of_isUp (hp : InOrder p) (hI : ∀ y, (p.peer y).Marked)
    (h : p.isUp rid u k = true) :
    ∃ s x, Shown p s k x ∧ p.Named s rid u ∧ (p.peer x).isReady = true := by
  unfold Pod.isUp at h
  split at h
  · next s hs =>
      obtain ⟨hu, hr, -, -⟩ := hp.of_seat hs
      unfold Pod.readyAt at h
      split at h
      · next x hx =>
          have hx : p.entry .publisher s k = some x := hx
          have hrole := (hp.placed _ _ _ _ hx).2.2.1
          exact ⟨s, x, ⟨hx, hI x hrole (hp.lives.mapped x ⟨_, _, _, hx⟩) h⟩,
            ⟨hr, hu⟩, h⟩
      · cases h
  · cases h

/-- A login of a member elsewhere tells of other rooms; a goroutine that is in
time tells of a stream that is up. -/
theorem step_truly {a : Env × Input} (hp : InOrder p)
    (hI : ∀ y, (p.peer y).Marked) (hs : Pod.step a p = some q)
    (htimely : ∀ g ∈ a.2.call? p, g.inTime p = true) :
    Truly (Also (Foot p a.1 a.2)) p q := by
  intro v rid u k sv t r name htraced hafter hb hr hrid hlt hseat
  rcases hb with ⟨m, hm, hreach, hc, rfl⟩ | ⟨i, w, i', hi, hpend, hw, -, -⟩
  · exfalso
    by_cases hid : getValue m .roomId = rid
    · have hnew := (step_login hs ⟨m, hm, hreach.regist, hc, hid, rfl⟩).1
      rw [hseat] at hnew
      cases hnew
      exact Nat.lt_irrefl _ hlt
    rw [hm] at htraced
    exact hid ((hreach.roomid_traced hp.toPodOk htraced hafter hr).symm.trans
      hrid)
  · have hup : p.isUp (p.room r).roomid u k = true :=
      htimely (.onPublisherReady r u name k) (by rw [hi]; exact hpend)
    have hold := hafter.roomid r (hp.known r w i' hw)
    rw [← hold, hrid] at hup
    obtain ⟨s, x, hx, hn, -⟩ := marks_of_isUp hp hI hup
    refine htraced.marks (fun b hb => ?_) (fun j l y hw => ?_) ⟨s, x, hx, hn⟩
    · cases b with
      | flags y st => exact absurd (hi.symm.trans hb) nofun
      | announces y => exact absurd (hi.symm.trans hb) nofun
      | _ => rfl
    · rcases hw with hw | ⟨m, r', hm, -⟩ | ⟨i₂, g, hg, hpend', hhit⟩
      · exact absurd (hi.symm.trans hw) nofun
      · exact absurd (hi.symm.trans hm) nofun
      · cases hi.symm.trans hg
        cases hpend.symm.trans hpend'
        exact hhit

theorem step_shift {a : Env × Input} (hp : InOrder p)
    (hI : ∀ y, (p.peer y).Marked) (hs : Pod.step a p = some q)
    (hice : ∀ x st, a.2 ≠ .ice x st)
    (htimely : ∀ g ∈ a.2.call? p, g.inTime p = true) :
    Shift p q ks := by
  refine .inner _ (step_traced hp hs) (fun b hb => ?_)
    (step_truly hp hI hs htimely) ((step_moves hp.ready hs).marked hp.toPodOk
      (fun i l y hw => hice _ _ hw) hI)
  cases b with
  | flags y st => exact absurd hb (hice y st)
  | announces y => exact absurd hb (hice y .connected)
  | _ => rfl

/-- The moves of a call that takes publishers out. -/
def Plain : Act → Prop
  | .still | .dies | .sends _ | .spawns _ | .unpush .. | .destroys ..
  | .erases .. | .clears .. => True
  | _ => False

theorem plain_base : Base Plain none := ⟨trivial, trivial, fun _ _ => trivial⟩

theorem plain_touch (s : SessRef) : Touch Plain s :=
  ⟨fun _ => trivial, fun _ _ => trivial, fun _ => trivial⟩

theorem Plain.inner {b : Act} (h : Plain b) : b.inner = true := by
  cases b with
  | adds | seats | unseats | vacates | opens | closes | takes => cases h
  | _ => rfl

theorem Plain.flagless {b : Act} (h : Plain b) : b.flagless = true := by
  cases b with
  | flags | announces => cases h
  | _ => rfl

theorem Path.shift (h : Path Plain p q) (hp : InOrder p)
    (hI : ∀ y, (p.peer y).Marked) : Shift p q ks :=
  .inner _ (h.traced hp.toSound fun _ => Plain.inner)
    (fun _ hb => hb.elim (fun _ => Plain.flagless) fun _ _ _ => rfl)
    (fun _ _ _ _ _ _ _ _ _ _ hb => nomatch hb)
    (h.marked hp.toPodOk (fun _ _ _ hw => nomatch hw) hI)

/-- A disconnect that is reported in time withdraws a publisher that is not
ready. -/
theorem disconnect_shift (hp : InOrder p) (hf : p.fatal = false)
    (hI : ∀ y, (p.peer y).Marked)
    (htimely : (Pc.reportIce x .disconnected).inTime p = true) :
    Shift p (p.reportIce x .disconnected) ks := by
  have hcalm : Calm (fun b => Plain b ∨ ∃ i l y, b = .withdraws i l y) p
      (p.reportIce x .disconnected) :=
    reportIce_calm (c := none)
      ⟨.inl trivial, .inl trivial, fun _ _ => .inl trivial⟩ nofun
      (fun y _ _ _ => .inr ⟨_, _, y, rfl⟩) fun _ _ => .inl trivial
  refine .inner _ ((hcalm hp.ready hf).1.traced hp.toSound ?_) ?_ ?_ ?_
  · rintro b (hb | ⟨i, l, y, rfl⟩)
    · exact hb.inner
    · rfl
  · refine fun b hb => hb.elim (P := fun b => b.flagless = true) ?_
      fun _ _ _ => rfl
    rintro b (hb | ⟨i, l, y, rfl⟩)
    · exact hb.flagless
    · rfl
  · rintro v rid u k sv t r name - - (hb | ⟨i, l, y, hb⟩)
    · cases hb
    · cases hb
  · intro y
    unfold Pod.reportIce
    dsimp only
    split
    · next hrole =>
        rw [onIceDisconnected_peer]
        split
        · next hy =>
            -- the publisher under the id is the one that is withdrawn
            have hready : (p.peer y).isReady = false := by
              have hy : (p.sess (p.peer x).parent).publishers.lookup
                (p.peer x).peerid = some y := hy
              simpa [Pc.inTime, hrole, Pod.readyAt, hy] using htimely
            intro _ _ hr
            exact absurd hr (by rw [hready]; exact nofun)
        · exact hI y
    · exact hI y

theorem Block.shift (h : Block env p c q next) (hp : InOrder p)
    (hf : p.fatal = false) (hc : c.Holds p) (hq : q.fatal = false)
    (hI : ∀ y, (p.peer y).Marked) (htimely : c.inTime p = true)
    (hks : ∀ c', next = some c' → c' ∈ ks) : Shift p q ks := by
  have hcalm : ∀ {q}, Calm Plain p q → Shift p q ks :=
    fun h => (h hp.ready hf).1.shift hp hI
  cases h with
  | miss | found | ignore => exact hcalm (.refl p)
  | stop s j x =>
      obtain ⟨-, hlt, hrole, hpar, hpid⟩ := hc
      exact hcalm (stopSection_calm plain_base (plain_touch s)
        (stopSection_open hp.ready hlt hrole hpar hpid hq))
  | crash s j x => cases hq
  | answer s j =>
      exact hcalm ((Calm.emit p rfl trivial).trans (unpush_calm env _ trivial))
  | release s pid =>
      exact hcalm (releasePubs_calm plain_base (plain_touch s) pid p)
  | finish s pid =>
      exact hcalm ((releaseSubs_calm plain_base (plain_touch s) pid p).trans
        (unpush_calm env _ trivial))
  | flag x st => exact .flags x st rfl (hks _ rfl)
  | report x st =>
      cases st with
      | connected => exact .ready x rfl
      | disconnected => exact disconnect_shift hp hf hI htimely
      | failed | closed =>
          exact hcalm (reportIce_calm plain_base nofun (fun _ h => nomatch h)
            fun _ _ => trivial)

/-! ## What follows from it -/

section Shift

variable (h : Shift p q ks)
include h

theorem Shift.marked (hI : ∀ y, (p.peer y).Marked) (y : PeerRef) :
    (q.peer y).Marked := by
  cases h with
  | inner B _ _ _ hmarked => exact hmarked y
  | flags x st hq =>
      rw [hq, setIceFlags_peer]
      simp only [Act.peer]
      split
      · cases st with
        | connected => exact fun _ _ _ => rfl
        | disconnected | failed | closed => exact fun _ _ hr => by cases hr
      · exact hI y
  | ready x hq =>
      rw [hq, Pod.reportIce, onIceReady_peer]
      exact hI y

/-- A marked publisher was marked and as ready as it is now, or it stands
before the report of what it is now. -/
theorem Shift.shown (hp : PodOk p) (hx : Shown q s k x) :
    Shown p s k x ∧ (q.peer x).isReady = (p.peer x).isReady ∨
      ∃ st, .reportIce x st ∈ ks ∧
        ((q.peer x).isReady = true ↔ st = .connected) := by
  cases h with
  | inner B htraced hB =>
      have hxp := htraced.shown_back hB hx
      exact .inl ⟨hxp, htraced.isReady hB (hp.placed _ _ _ _ hxp.1).1⟩
  | flags y st hq hks =>
      have hpeer : q.peer x = (Act.flags y st).peer p x := by
        rw [hq, setIceFlags_peer]
      by_cases hxy : x = y
      · subst hxy
        refine .inr ⟨st, hks, ?_⟩
        rw [hpeer]
        cases st <;> simp [Act.peer]
      · simp only [Act.peer, if_neg hxy] at hpeer
        rw [Shown, hpeer, hq, (p.setIceFlags_quiet y st).entry] at hx
        exact .inl ⟨hx, by rw [hpeer]⟩
  | ready y hq =>
      have hpeer : q.peer x = p.peer x := by
        rw [hq, Pod.reportIce, onIceReady_peer]
      rw [Shown, hpeer, hq, (p.reportIce_asks y .connected).entry] at hx
      exact .inl ⟨hx, by rw [hpeer]⟩

/-- What is still marked was not taken back. -/
theorem Shift.told (hp : PodOk p) (hf : p.fatal = false)
    (hn : p.Named s rid u) (hx : Shown q s k x)
    (hlast : p.lastNotice v rid u k = some true) :
    q.lastNotice v rid u k = some true := by
  cases h with
  | inner B htraced hB => exact htraced.notice_up hp hB hn hx hlast
  | flags y st hq => rw [hq]; exact hlast
  | ready y hq => rw [hq, reportIce_lastNotice hf]; exact hlast

/-- Whoever was last told that the stream is there finds it marked. -/
theorem Shift.trusted (hf : p.fatal = false)
    (hlt : sv < p.sessHeap.next) (ho : (p.sess sv).origin = true)
    (hv : q.seat rid v = some sv)
    (hI : p.lastNotice v rid u k = some true → Marks p rid u k) :
    q.lastNotice v rid u k = some true → Marks q rid u k := by
  cases h with
  | inner B htraced hB htells =>
      exact htraced.notice_down hB hlt ho hv (fun t r name ht hafter hb hr hid =>
        htells v rid u k sv t r name ht hafter hb hr hid hlt hv) hI
  | flags y st hq =>
      intro hlast
      rw [hq] at hlast
      obtain ⟨s, x, ⟨hx, hn⟩, hname⟩ := hI hlast
      refine ⟨s, x, ⟨?_, ?_⟩, ?_⟩
      · rw [hq, (p.setIceFlags_quiet y st).entry]; exact hx
      · rw [hq, setIceFlags_peer]
        simp only [Act.peer]
        split
        · cases st with
          | connected => rfl
          | disconnected | failed | closed => exact hn
        · exact hn
      · rw [hq]; exact hname
  | ready y hq =>
      intro hlast
      rw [hq, reportIce_lastNotice hf] at hlast
      obtain ⟨s, x, ⟨hx, hn⟩, hname⟩ := hI hlast
      refine ⟨s, x, ⟨?_, ?_⟩, ?_⟩
      · rw [hq, (p.reportIce_asks y .connected).entry]; exact hx
      · rw [hq, Pod.reportIce, onIceReady_peer]; exact hn
      · rw [hq]
        exact (p.reportIce_asks y .connected).shrinks.named.mpr hname

end Shift

/-! ## What is under way -/

theorem Goroutine.releases_inj {g : Goroutine} {r r' : RoomRef}
    {u' k' : String} (h : g.releases r u k) (h' : g.releases r' u' k') :
    r' = r ∧ u' = u ∧ k' = k := by
  cases g with
  | onPublisherPeerFailed | onPublisherPeerClosed =>
      obtain ⟨rfl, rfl, rfl⟩ := h
      obtain ⟨rfl, rfl, rfl⟩ := h'
      exact ⟨rfl, rfl, rfl⟩
  | releaseRoom | kickoutFromRoom | checkKeepAlive | handleSubscriberLeaved
  | onPublisherReady | onSubscriberPeerFailed | onSubscriberPeerClosed
  | releaseSubscriberPeer | fakePublisherReConnect | requestKeyframe =>
      cases h

theorem Block.eq_reportIce (h : Block env p (.reportIce x st) q next) :
    q = p.reportIce x st := by
  cases h
  rfl

theorem Block.eq_release (h : Block env p (.start s (.releasePublisher k)) q
    next) : q = p.releasePubs s k := by
  cases h
  rfl

namespace CallSched

variable {t t' : Sched} {a : Act}

/-- What is going to take the publisher back. -/
def Owed (t : Sched) (s : SessRef) (k : String) (x : PeerRef) : Prop :=
  (∃ st, st ≠ .connected ∧ .reportIce x st ∈ t.threads) ∨
  (∃ g ∈ t.shared.pod.pending, g.releases (t.shared.pod.sess s).parent
    (t.shared.pod.sess s).userid k) ∨
  .start s (.releasePublisher k) ∈ t.threads

/-- What is going to announce it. -/
def Due (t : Sched) (s : SessRef) (k : String) (x : PeerRef) : Prop :=
  .reportIce x .connected ∈ t.threads ∨
  ∃ name, .onPublisherReady (t.shared.pod.sess s).parent
    (t.shared.pod.sess s).userid name k ∈ t.shared.pod.pending

/-- A call stays where it is until it has run a block. -/
theorem Steps.thread_kept (h : Steps t a t') (ht : Ok t)
    (hc : c ∈ t.threads) : c ∈ t'.threads ∨
      ∃ env next, Block env t.shared.pod c t'.shared.pod next := by
  cases h with
  | runs | idles => exact .inl hc
  | starts => exact .inl (List.mem_append_left _ hc)
  | @block i env w k l next hi he =>
      by_cases hk : c = k
      · subst hk
        rw [Threads.resume_shared]
        exact .inr ⟨env, next, lockedExec_block (ht.holds _ hc) he⟩
      · exact .inl (Threads.mem_resume_of_ne hi hc hk)

/-- A spawned call waits until its turn comes. -/
theorem Steps.pending_kept {g : Goroutine} (h : Steps t a t')
    (hp : InOrder t.shared.pod) (ht : Ok t) (hg : g ∈ t.shared.pod.pending) :
    g ∈ t'.shared.pod.pending ∨
      ∃ a', a = .input a' ∧ a'.2.call? t.shared.pod = some g := by
  cases h with
  | @runs a' q hb hs =>
      by_cases hcall : a'.2.call? t.shared.pod = some g
      · exact .inr ⟨a', rfl, hcall⟩
      · exact .inl (step_pending hp hs hg hcall)
  | @starts a' q k hb =>
      by_cases hcall : a'.2.call? t.shared.pod = some g
      · exact .inr ⟨a', rfl, hcall⟩
      · exact .inl ((begins_cases hb).pending_kept hg hcall)
  | @idles a' q hb =>
      by_cases hcall : a'.2.call? t.shared.pod = some g
      · exact .inr ⟨a', rfl, hcall⟩
      · exact .inl ((begins_cases hb).pending_kept hg hcall)
  | block hi he =>
      left
      rw [Threads.resume_shared]
      exact ((lockedExec_block (ht.holds _ (List.mem_of_getElem? hi))
        he).shrinks hp.toPodOk).pending.subset hg

/-- The release of a publisher that stands in its map becomes a call on its
session. -/
theorem Steps.release_started {a : Env × Input} {g : Goroutine}
    (h : Steps t (.input a) t') (hg : a.2.call? t.shared.pod = some g)
    (hrel : g.releases (t.shared.pod.sess s).parent
      (t.shared.pod.sess s).userid k)
    (hseat : (t.shared.pod.room (t.shared.pod.sess s).parent).sessions.lookup
      (t.shared.pod.sess s).userid = some s) :
    .start s (.releasePublisher k) ∈ t'.threads := by
  obtain ⟨env, inp⟩ := a
  obtain ⟨i, rfl, hg⟩ := Input.call?_eq_some hg
  have hfound : ∀ {q next}, Begins t.shared.pod (.go i) q next →
      next = some (.start s (.releasePublisher k)) := by
    rintro q next (_ | ⟨hg', hrel'⟩ | _)
    cases hg.symm.trans hg'
    obtain ⟨rfl, rfl, rfl⟩ := Goroutine.releases_inj hrel hrel'
    rw [hseat]
    rfl
  cases h with
  | runs hb => exact absurd hb (begins_of_releases hg hrel)
  | starts hb =>
      cases hfound (begins_cases hb)
      exact List.mem_append_right _ (List.mem_singleton_self _)
  | idles hb => cases hfound (begins_cases hb)

/-- Whoever is there when the announcement runs hears it. -/
theorem Steps.ready_told {a : Env × Input} {r : RoomRef} {name : String}
    (h : Steps t (.input a) t') (hf : t.shared.pod.fatal = false)
    (hg : a.2.call? t.shared.pod = some (.onPublisherReady r u name k))
    (hv : (t.shared.pod.room r).sessions.lookup v = some sv)
    (huser : (t.shared.pod.sess sv).userid = v)
    (ho : (t.shared.pod.sess sv).origin = true) :
    t'.shared.pod.lastNotice v (t.shared.pod.room r).roomid u k =
      some true := by
  obtain ⟨env, inp⟩ := a
  obtain ⟨i, rfl, hg⟩ := Input.call?_eq_some hg
  have hnone : ∀ {q next}, ¬Begins t.shared.pod (.go i) q next := by
    rintro q next (_ | ⟨hg', hrel⟩ | _)
    cases hg.symm.trans hg'
    cases hrel
  cases h with
  | starts hb => exact absurd (begins_cases hb) hnone
  | idles hb => exact absurd (begins_cases hb) hnone
  | runs _ hs =>
      rw [step_go hs rfl hg]
      have hnotes := onPublisherReady_notes (p := { t.shared.pod with
        pending := t.shared.pod.pending.eraseIdx i }) r u name k hf
      change latest _ (Pod.notes (Pod.onPublisherReady ..)) = _
      rw [hnotes]
      refine latest_said (fun n hn w hw => ?_) ⟨.pub v
        (t.shared.pod.room r).roomid u k, List.mem_map.mpr ⟨⟨v, sv⟩,
          List.mem_filter.mpr ⟨GoMap.mem_entries.mpr hv, ho⟩, ?_⟩,
        if_pos ⟨rfl, rfl, rfl, rfl⟩⟩
      · obtain ⟨e, -, rfl⟩ := List.mem_map.mp hn
        simp only [Note.notice] at hw
        split at hw
        · exact (Option.some.inj hw).symm
        · cases hw
      · change Note.pub (t.shared.pod.sess sv).userid _ _ _ = _
        rw [huser]
        rfl

/-- The seat of a session that has publishers. -/
theorem seat_of_shown (hp : PodOk p) (hx : Shown p s k x) :
    (p.room (p.sess s).parent).sessions.lookup (p.sess s).userid = some s ∧
      s < p.sessHeap.next := by
  obtain ⟨r, w, hw⟩ := hp.homed _ _ _ _ hx.1
  obtain ⟨hu, hpar, hlt⟩ := hp.sessions r w s hw
  rw [hu, hpar]
  exact ⟨hw, hlt⟩

section Step

variable (h : Steps t a t') (hp : InOrder t.shared.pod) (ht : Ok t)
  (hx : Shown t.shared.pod s k x)
include h hp ht hx

theorem Steps.sess_eq :
    (t'.shared.pod.sess s).parent = (t.shared.pod.sess s).parent ∧
      (t'.shared.pod.sess s).userid = (t.shared.pod.sess s).userid := by
  have hid := (h.after hp ht).sess s (seat_of_shown hp.toPodOk hx).2
  exact ⟨congrArg (·.2.2.2.2.2) hid, congrArg (·.1) hid⟩

/-- A publisher that stays marked is still going to be taken back. -/
theorem Steps.owed (hx' : Shown t'.shared.pod s k x) (ho : Owed t s k x) :
    Owed t' s k x := by
  obtain ⟨hpar, hu⟩ := h.sess_eq hp ht hx
  unfold Owed
  rw [hpar, hu]
  rcases ho with ⟨st, hst, hin⟩ | ⟨g, hg, hrel⟩ | hin
  · rcases h.thread_kept ht hin with hin | ⟨env, next, hb⟩
    · exact .inl ⟨st, hst, hin⟩
    · have hq := hb.eq_reportIce
      cases st with
      | connected => exact absurd rfl hst
      | disconnected =>
          rw [hq] at hx'
          exact absurd hx' (reportIce_withdraws hp.toPodOk hx.1)
      | failed =>
          rw [hq]
          exact .inr (.inl (reportIce_releases hp.toSound hx.1 (.inl rfl)))
      | closed =>
          rw [hq]
          exact .inr (.inl (reportIce_releases hp.toSound hx.1 (.inr rfl)))
  · rcases h.pending_kept hp ht hg with hin | ⟨a', rfl, hcall⟩
    · exact .inr (.inl ⟨g, hin, hrel⟩)
    · exact .inr (.inr (h.release_started hcall hrel
        (seat_of_shown hp.toPodOk hx).1))
  · rcases h.thread_kept ht hin with hin | ⟨env, next, hb⟩
    · exact .inr (.inr hin)
    · rw [Shown, hb.eq_release, releasePubs_entry hp.toPodOk] at hx'
      cases hx'.1

/-- A publisher that stays marked is still going to be announced, or the
member has heard it. -/
theorem Steps.due (hf : t.shared.pod.fatal = false)
    (hn : t.shared.pod.Named s rid u)
    (hv : t.shared.pod.seat rid v = some sv)
    (ho : (t.shared.pod.sess sv).origin = true) (hd : Due t s k x) :
    Due t' s k x ∨ t'.shared.pod.lastNotice v rid u k = some true := by
  obtain ⟨hpar, hu⟩ := h.sess_eq hp ht hx
  unfold Due
  rw [hpar, hu]
  rcases hd with hin | ⟨name, hg⟩
  · rcases h.thread_kept ht hin with hin | ⟨env, next, hb⟩
    · exact .inl (.inl hin)
    · rw [hb.eq_reportIce]
      exact .inl (.inr ⟨_, reportIce_announces hp.toSound hx.1⟩)
  · rcases h.pending_kept hp ht hg with hin | ⟨a', rfl, hcall⟩
    · exact .inl (.inr ⟨name, hin⟩)
    · right
      obtain ⟨huser, -, hreg, -⟩ := hp.of_seat hv
      have hroom : (t.shared.pod.sess s).parent =
          (t.shared.pod.sess sv).parent := by
        obtain ⟨-, -, hreg', -⟩ := hp.of_seat (hp.seat_of_entry hx.1)
        rw [hn.1, hreg] at hreg'
        exact (Option.some.inj hreg').symm
      obtain ⟨r, hr, hlook⟩ := seat_eq_some.mp hv
      cases hr.symm.trans hreg
      rw [← hroom] at hlook
      have htold := h.ready_told hf hcall hlook huser ho
      rw [hn.1, hn.2] at htold
      exact htold

end Step

/-! ## Runs -/

/-- Unless the pod has crashed: ready publishers are marked, and marked ones
that are not ready are going to be taken back. -/
structure Tidy (t : Sched) : Prop where
  ok : Ok t
  marked : t.shared.pod.fatal = false → ∀ y, (t.shared.pod.peer y).Marked
  owed : t.shared.pod.fatal = false → ∀ s k x, Shown t.shared.pod s k x →
    (t.shared.pod.peer x).isReady = false → Owed t s k x

/-- What the member has heard of the stream is right, up to what is under
way. -/
structure Heard (v rid u k : String) (t : Sched) : Prop where
  up : t.shared.pod.fatal = false → ∀ s x, Shown t.shared.pod s k x →
    t.shared.pod.Named s rid u → (t.shared.pod.peer x).isReady = true →
    Due t s k x ∨ t.shared.pod.lastNotice v rid u k = some true
  down : t.shared.pod.fatal = false →
    t.shared.pod.lastNotice v rid u k = some true →
    Marks t.shared.pod rid u k

theorem Begins.shift {a : Input} (h : Begins p a q next) (hp : InOrder p)
    (hf : p.fatal = false) (hI : ∀ y, (p.peer y).Marked) : Shift p q ks := by
  cases h with
  | ice | stop => exact Path.shift .refl hp hI
  | @release i =>
      refine .inner (fun b => b = .takes i) ((Traced.refl _ p).tail rfl
        hp.toSound (.refl p) hf (.takes i)) ?_ ?_ hI
      · rintro b rfl
        rfl
      · intro v rid u k sv t r name _ _ hb
        cases hb

theorem Steps.shift (h : Steps t a t') (ht : Tidy t)
    (hf : t.shared.pod.fatal = false) (ha : Timely t a)
    (hf' : t'.shared.pod.fatal = false) :
    Shift t.shared.pod t'.shared.pod t'.threads := by
  have hp := ht.ok.inOrder hf
  have hI := ht.marked hf
  cases h with
  | @runs a q hb hs =>
      refine step_shift hp hI hs (fun x st hice => ?_) ha
      rw [hice] at hb
      unfold Pod.step at hs
      rw [if_neg (by simp [hf]), hice] at hs
      dsimp only [Pod.begins] at hb hs
      split at hb
      · cases hb
      · next hx => rw [if_neg hx] at hs; cases hs
  | starts hb => exact (begins_cases hb).shift hp hf hI
  | idles hb => exact (begins_cases hb).shift hp hf hI
  | @block i env w k l next hi he =>
      rw [Threads.resume_shared] at hf' ⊢
      have hk := ht.ok.holds _ (List.mem_of_getElem? hi)
      refine (lockedExec_block hk he).shift hp hf hk hf' hI (ha k hi) ?_
      rintro c' rfl
      exact Threads.mem_resume_next hi

theorem step_tidy (ht : Tidy t) (ha : Timely t a)
    (hs : step a t = some t') : Tidy t' := by
  obtain ⟨hf, h⟩ := step_cases hs
  have hp := ht.ok.inOrder hf
  refine ⟨step_ok ht.ok hs, fun hf' => (h.shift ht hf ha hf').marked
    (ht.marked hf), fun hf' s k x hx hr => ?_⟩
  rcases (h.shift ht hf ha hf').shown hp.toPodOk hx with ⟨hxp, hready⟩ |
    ⟨st, hin, hready⟩
  · rw [hready] at hr
    exact h.owed hp ht.ok hxp hx (ht.owed hf s k x hxp hr)
  · refine .inl ⟨st, ?_, hin⟩
    rintro rfl
    rw [hready.mpr rfl] at hr
    cases hr

theorem step_heard (ht : Tidy t) (hh : Heard v rid u k t)
    (hv : t.shared.pod.seat rid v = some sv)
    (ho : (t.shared.pod.sess sv).origin = true)
    (hv' : t'.shared.pod.seat rid v = some sv) (ha : Timely t a)
    (hs : step a t = some t') : Heard v rid u k t' := by
  obtain ⟨hf, h⟩ := step_cases hs
  have hp := ht.ok.inOrder hf
  refine ⟨fun hf' s x hx hn hr => ?_, fun hf' => (h.shift ht hf ha
    hf').trusted hf (hp.of_seat hv).2.2.2 ho hv' (hh.down hf)⟩
  have hshift := h.shift ht hf ha hf'
  rcases hshift.shown hp.toPodOk hx with ⟨hxp, hready⟩ | ⟨st, hin, hready⟩
  · rw [hready] at hr
    have hn := ((h.after hp ht.ok).named_of_entry hp.toPodOk hxp.1).mp hn
    rcases hh.up hf s x hxp hn hr with hdue | hlast
    · exact h.due hp ht.ok hxp hf hn hv ho hdue
    · exact .inr (hshift.told hp.toPodOk hf hn hx hlast)
  · rw [hready.mp hr] at hin
    exact .inl (.inl hin)

theorem init_tidy (conf : Config) : Tidy (Sched.init conf) where
  ok := init_ok conf
  marked _ _ _ _ hr := nomatch hr
  owed _ _ _ _ hx := nomatch hx.1

/-- The member `v` is in the room, in an origin session. -/
def Member (rid v : String) (sv : SessRef) (t : Sched) : Prop :=
  t.shared.pod.seat rid v = some sv ∧ (t.shared.pod.sess sv).origin = true

instance (rid v : String) (sv : SessRef) (t : Sched) :
    Decidable (Member rid v sv t) := inferInstanceAs (Decidable (_ ∧ _))

/-- The member does not know of the stream: it is not up, or its announcement
is still under way. -/
def Unheard (v rid u k : String) (t : Sched) : Prop :=
  t.shared.pod.lastNotice v rid u k ≠ some true ∧
  (t.shared.pod.isUp rid u k = true → ∃ s x,
    t.shared.pod.seat rid u = some s ∧
    (t.shared.pod.sess s).publishers.lookup k = some x ∧ Due t s k x)

/-- All callbacks and all spawned calls have run. -/
def Settled (t : Sched) : Prop :=
  t.shared.pod.fatal = false ∧ t.threads = [] ∧ t.shared.pod.pending = []

instance (t : Sched) : Decidable (Settled t) :=
  inferInstanceAs (Decidable (_ ∧ _ ∧ _))

theorem Unheard.heard (ht : Tidy t) (h : Unheard v rid u k t) :
    Heard v rid u k t := by
  refine ⟨fun hf s x hx hn hr => .inl ?_, fun _ hlast => absurd hlast h.1⟩
  have hseat := (ht.ok.inOrder hf).seat_of_entry hx.1
  rw [hn.1, hn.2] at hseat
  have hlook : (t.shared.pod.sess s).publishers.lookup k = some x := hx.1
  obtain ⟨s', x', hs', hx', hdue⟩ := h.2 (by
    simp only [Pod.isUp, hseat, Pod.readyAt, hlook]
    exact hr)
  cases hseat.symm.trans hs'
  cases hlook.symm.trans hx'
  exact hdue

/-- In every timely run, whoever was in the room since before a stream was
announced knows in the end whether it is up. -/
theorem lastNotice_iff_up {conf : Config} {as bs : List Act} {t₀ t : Sched}
    {v rid u k : String} {sv : SessRef}
    (h₀ : run step as (Sched.init conf) = some t₀)
    (h : run step bs t₀ = some t)
    (hg : Guarded step Timely (as ++ bs) (Sched.init conf))
    (hv : Always step (Member rid v sv) bs t₀)
    (hnew : Unheard v rid u k t₀) (hdone : Settled t) :
    t.shared.pod.lastNotice v rid u k = some true ↔
      t.shared.pod.isUp rid u k = true := by
  have ht₀ := run_invariant (P := Tidy)
    (fun a t t' ht ha hs => step_tidy ht ha hs) hg.left (init_tidy conf) h₀
  obtain ⟨ht, hheard⟩ := run_invariant_of_always
    (P := fun t => Tidy t ∧ Heard v rid u k t)
    (fun a t t' ht hm hm' ha hs => ⟨step_tidy ht.1 ha hs,
      step_heard ht.1 ht.2 hm.1 hm.2 hm'.1 ha hs⟩)
    (hg.append h₀) hv ⟨ht₀, hnew.heard ht₀⟩ h
  obtain ⟨hf, hthreads, hpending⟩ := hdone
  have hp := ht.ok.inOrder hf
  constructor
  · intro hlast
    obtain ⟨s, x, hx, hn⟩ := hheard.down hf hlast
    have hseat := hp.seat_of_entry hx.1
    rw [hn.1, hn.2] at hseat
    have hlook : (t.shared.pod.sess s).publishers.lookup k = some x := hx.1
    simp only [Pod.isUp, hseat, Pod.readyAt, hlook]
    -- nothing is left that could take the publisher back
    by_contra hready
    rcases ht.owed hf s k x hx (by simpa using hready) with ⟨st, -, hin⟩ |
      ⟨g, hin, -⟩ | hin
    · rw [hthreads] at hin; cases hin
    · rw [hpending] at hin; cases hin
    · rw [hthreads] at hin; cases hin
  · intro hup
    obtain ⟨s, x, hx, hn, hready⟩ := marks_of_isUp hp (ht.marked hf) hup
    rcases hheard.up hf s x hx hn hready with (hin | ⟨name, hin⟩) | hlast
    · rw [hthreads] at hin; cases hin
    · rw [hpending] at hin; cases hin
    · exact hlast

/-- A user publishes while another one is in the room. -/
def publishBefore : List Act :=
  [.input (Env.calm, .setSendMessageHandler),
    .input (Env.calm, .message (Cmd.login.msg
      [(.roomId, "R"), (.sessID, "v")])),
    .input (Env.calm, .message (Cmd.login.msg
      [(.roomId, "R"), (.sessID, "u")])),
    .input (Env.calm, .message (Cmd.push.msg
      [(.roomId, "R"), (.sessID, "u"), (.peerID, "1")]))]

/-- The callback of the publisher for a state of its connection. -/
def callback (st : IceState) : List Act :=
  [.input (Env.calm, .ice 0 st), .turn 0 Env.calm false,
    .turn 0 Env.calm false]

/-- The connection comes and goes before the goroutine that announces the
stream has run. -/
def lateAnnouncement : List Act :=
  callback .connected ++ callback .disconnected ++ [.input (Env.calm, .go 0)]

theorem ghost_stream : ∃ t₀ t,
    run step publishBefore (Sched.init (Config.standalone "podA")) =
      some t₀ ∧
    run step lateAnnouncement t₀ = some t ∧
    Always step (Member "R" "v" 0) lateAnnouncement t₀ ∧
    Unheard "v" "R" "u" "1" t₀ ∧ Settled t ∧
    t.shared.pod.lastNotice "v" "R" "u" "1" = some true ∧
    t.shared.pod.isUp "R" "u" "1" = false := by
  have h : (run step publishBefore (Sched.init (Config.standalone
      "podA"))).map (fun t₀ => decide (
        Always step (Member "R" "v" 0) lateAnnouncement t₀ ∧
        t₀.shared.pod.lastNotice "v" "R" "u" "1" ≠ some true ∧
        t₀.shared.pod.isUp "R" "u" "1" = false ∧
        (run step lateAnnouncement t₀).map (fun t => decide (Settled t ∧
          t.shared.pod.lastNotice "v" "R" "u" "1" = some true ∧
          t.shared.pod.isUp "R" "u" "1" = false)) = some true)) =
      some true := by decide
  obtain ⟨t₀, h₀, hf⟩ := Option.map_eq_some_iff.mp h
  obtain ⟨hv, hlast, hdown, hend⟩ := of_decide_eq_true hf
  obtain ⟨t, ht, hf⟩ := Option.map_eq_some_iff.mp hend
  obtain ⟨hdone, hpub, hgone⟩ := of_decide_eq_true hf
  exact ⟨t₀, t, h₀, ht, hv, ⟨hlast, fun hup => by rw [hdown] at hup; cases hup⟩,
    hdone, hpub, hgone⟩

/-- The announcement runs at once. -/
def promptAnnouncement : List Act :=
  callback .connected ++ [.input (Env.calm, .go 0)]

theorem lastNotice_iff_up_prompt : ∃ t₀ t,
    run step publishBefore (Sched.init (Config.standalone "podA")) =
      some t₀ ∧
    run step promptAnnouncement t₀ = some t ∧
    t.shared.pod.isUp "R" "u" "1" = true ∧
    t.shared.pod.lastNotice "v" "R" "u" "1" = some true := by
  have h : (run step publishBefore (Sched.init (Config.standalone
      "podA"))).map (fun t₀ => decide (
        Always step (Member "R" "v" 0) promptAnnouncement t₀ ∧
        t₀.shared.pod.lastNotice "v" "R" "u" "1" ≠ some true ∧
        t₀.shared.pod.isUp "R" "u" "1" = false ∧
        (run step promptAnnouncement t₀).map (fun t => decide (Settled t ∧
          t.shared.pod.isUp "R" "u" "1" = true)) = some true)) =
      some true := by decide
  obtain ⟨t₀, h₀, hf⟩ := Option.map_eq_some_iff.mp h
  obtain ⟨hv, hlast, hdown, hend⟩ := of_decide_eq_true hf
  obtain ⟨t, ht, hf⟩ := Option.map_eq_some_iff.mp hend
  obtain ⟨hdone, hup⟩ := of_decide_eq_true hf
  exact ⟨t₀, t, h₀, ht, hup, (lastNotice_iff_up h₀ ht (by decide) hv
    ⟨hlast, fun hup => by rw [hdown] at hup; cases hup⟩ hdone).mpr hup⟩

end CallSched

end MediaServer.Ref
