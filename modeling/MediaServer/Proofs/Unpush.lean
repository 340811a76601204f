import Mathlib.Data.Finset.Card
import Mathlib.Data.Finset.Range
import MediaServer.Proofs.Calls
import MediaServer.Proofs.Departures

/-!
# The load balancer's account of streams

`unpush` tells the load balancer that a stream has gone. `ReleasePublisher`
sends it when its two sections are done, whether or not the first one found a
publisher, and `stoppush` sends it after its section. A connection that fails
and is then closed spawns two releases, so one publisher that is taken out can
be reported twice.

The account is kept by what is under way: a call that has taken a publisher
out owes one `unpush`. If every release of a stream finds a publisher that the
user created, what was sent and what is owed together never exceed the
publishers taken out.
-/

namespace MediaServer.Ref

open MediaServer.Lib

variable {p q : Pod} {s : SessRef} {x : PeerRef} {rid u k : String}
variable {env : Env} {c : Pc} {next : Option Pc}

/-- How many `unpush` the pod has sent for the stream. -/
def Pod.unpushCount (p : Pod) (rid u k : String) : Nat :=
  p.notes.count (.unpush rid u k)

/-- The peer is a publisher of the stream that `publish` created. -/
def Pod.PublishedAs (p : Pod) (rid u k : String) (x : PeerRef) : Prop :=
  (p.peer x).role = .publisher ∧ (p.peer x).isFake = false ∧
    (p.peer x).peerid = k ∧ p.Named (p.peer x).parent rid u

instance (p : Pod) (rid u k : String) (x : PeerRef) :
    Decidable (p.PublishedAs rid u k x) :=
  inferInstanceAs (Decidable (_ ∧ _ ∧ _ ∧ _))

/-- Those of them that are no longer in `publishers`. -/
def Pod.removed (p : Pod) (rid u k : String) : Finset PeerRef :=
  (Finset.range p.peerHeap.next).filter fun x =>
    p.PublishedAs rid u k x ∧
      p.entry .publisher (p.peer x).parent k ≠ some x

/-- The stream that the next block of a call takes out: the first section of
`ReleasePublisher`, and the section of `stoppush`. -/
def Pc.takesOut : Pc → Option (SessRef × String)
  | .start s (.releasePublisher pid) => some (s, pid)
  | .stopPub s j _ => some (s, getValue j .peerID)
  | _ => none

/-- The session has a publisher under this id, which `publish` created. -/
def Pod.hasOwn (p : Pod) (s : SessRef) (k : String) : Bool :=
  match (p.sess s).publishers.lookup k with
  | some x => !(p.peer x).isFake
  | none => false

/-- A release of the stream runs only while there is a publisher of the user's
own to release. -/
def FindsOwn (rid u k : String) (t : Sched) : CallSched.Act → Prop
  | .input _ => True
  | .turn i _ _ => ∀ c ∈ t.threads[i]?, ∀ e ∈ c.takesOut,
      t.shared.pod.Named e.1 rid u → e.2 = k → t.shared.pod.hasOwn e.1 k = true

instance (rid u k : String) (t : Sched) (a : CallSched.Act) :
    Decidable (FindsOwn rid u k t a) :=
  match a with
  | .input _ => .isTrue trivial
  | .turn _ _ _ => inferInstanceAs (Decidable (∀ _ ∈ _, ∀ _ ∈ _, _ → _ → _))

/-! ## What is removed stays removed -/

theorem Older.publishedAs (h : Older p q) (hr : Rooted p)
    (hx : x < p.peerHeap.next) :
    q.PublishedAs rid u k x ↔ p.PublishedAs rid u k x := by
  obtain ⟨-, -, hpid, hrole, hfake, hpar, -⟩ := Peer.ident_eq (h.peer x hx)
  rw [Pod.PublishedAs, Pod.PublishedAs, hpid, hrole, hfake, hpar,
    h.toAfter.named hr (hr.peer x hx)]

theorem Older.removed_subset (h : Older p q) (hr : Rooted p) :
    p.removed rid u k ⊆ q.removed rid u k := by
  intro x hx
  simp only [Pod.removed, Finset.mem_filter, Finset.mem_range] at hx ⊢
  obtain ⟨hlt, hpub, hne⟩ := hx
  have hpar := (Peer.ident_eq (h.peer x hlt)).2.2.2.2.2.1
  refine ⟨Nat.lt_of_lt_of_le hlt h.peerNext, (h.publishedAs hr hlt).mpr hpub,
    fun heq => hne ?_⟩
  rw [hpar] at heq
  exact h.entry _ _ _ _ hlt heq

theorem Older.removed_card_le (h : Older p q) (hr : Rooted p) :
    (p.removed rid u k).card ≤ (q.removed rid u k).card :=
  Finset.card_le_card (h.removed_subset hr)

/-- A publisher of the stream that is taken out counts. -/
theorem Older.removed_card_lt (h : Older p q) (hr : Rooted p) (hp : PodOk p)
    (hn : p.Named s rid u) (hx : p.entry .publisher s k = some x)
    (hown : (p.peer x).isFake = false)
    (hgone : q.entry .publisher s k = none) :
    (p.removed rid u k).card < (q.removed rid u k).card := by
  obtain ⟨hlt, -, hrole, hpar, hkey⟩ := hp.placed _ _ _ _ hx
  rw [Peer.key_publisher hrole] at hkey
  have hpar' := (Peer.ident_eq (h.peer x hlt)).2.2.2.2.2.1
  have hpub : p.PublishedAs rid u k x :=
    ⟨hrole, hown, hkey, by rw [hpar]; exact hn⟩
  refine Finset.card_lt_card (Finset.ssubset_iff_subset_ne.mpr
    ⟨h.removed_subset hr, fun heq => ?_⟩)
  have hin : x ∈ q.removed rid u k := by
    simp only [Pod.removed, Finset.mem_filter, Finset.mem_range]
    refine ⟨Nat.lt_of_lt_of_le hlt h.peerNext,
      (h.publishedAs hr hlt).mpr hpub, ?_⟩
    rw [hpar', hpar, hgone]
    exact nofun
  rw [← heq] at hin
  simp only [Pod.removed, Finset.mem_filter, hpar] at hin
  exact hin.2.2 hx

/-! ## What a block sends and owes -/

/-- A call that has taken a publisher out and not yet reported it. -/
def Pc.owes (p : Pod) (rid u k : String) : Pc → Bool
  | .releaseSubs s pid => p.Named s rid u ∧ pid = k
  | .answerStop s j => p.Named s rid u ∧ getValue j .peerID = k
  | _ => false

theorem owes_congr (h : After p q) (hr : Rooted p) (hc : c.Holds p) :
    c.owes q rid u k = c.owes p rid u k := by
  cases c with
  | releaseSubs s pid => simp only [Pc.owes, h.named hr hc]
  | answerStop s j => simp only [Pc.owes, h.named hr hc]
  | start | replacePub | insertPub | answerPub | stopPub | readPub | testSub
  | replaceSub | insertSub | offerSub | leavedSubs | leaveSubs | leaveWait
  | ice | reportIce => rfl

theorem Shrinks.owes_eq (h : Shrinks p q) :
    Pc.owes q rid u k = Pc.owes p rid u k := by
  funext c
  cases c with
  | releaseSubs s pid => simp only [Pc.owes, h.named]
  | answerStop s j => simp only [Pc.owes, h.named]
  | start | replacePub | insertPub | answerPub | stopPub | readPub | testSub
  | replaceSub | insertSub | offerSub | leavedSubs | leaveSubs | leaveWait
  | ice | reportIce => rfl

/-- All moves but the message itself. -/
def NotUnpush (b : Act) : Prop := ∀ s k, b ≠ .unpush s k

theorem notUnpush_base : Base NotUnpush none := by
  refine ⟨fun _ _ => ?_, fun _ _ => ?_, fun _ _ _ => ?_⟩ <;> exact nofun

theorem notUnpush_touch (s : SessRef) : Touch NotUnpush s := by
  refine ⟨fun _ _ _ => ?_, fun _ _ _ _ => ?_, fun _ _ _ => ?_⟩ <;> exact nofun

theorem unpush_notMem {b : Act} {t : Pod} (hb : NotUnpush b) :
    .unpush rid u k ∉ b.notes t := by
  intro hn
  have hby := by_of_mem_notes hn
  cases b with
  | unpush s l => exact hb s l rfl
  | _ => exact hby

theorem Path.unpushCount {A : Act → Prop} (h : Path A p q) (hp : PodOk p)
    (hA : ∀ b, A b → NotUnpush b) :
    q.unpushCount rid u k = p.unpushCount rid u k :=
  h.count_note hp fun _ _ hb => unpush_notMem
    (hb.elim hA fun _ _ _ _ _ => nofun)

theorem Calm.unpushCount (h : Calm NotUnpush p q) (hp : Ready p)
    (hf : p.fatal = false) :
    q.unpushCount rid u k = p.unpushCount rid u k ∧ q.fatal = false :=
  ⟨Path.unpushCount (h hp hf).1 hp.toPodOk fun _ hb => hb, (h hp hf).2.1⟩

theorem unpushCount_of_notes (h : q.notes = p.notes) :
    q.unpushCount rid u k = p.unpushCount rid u k := by
  rw [Pod.unpushCount, h, Pod.unpushCount]

theorem notifyReleasePublish_unpushCount {pid : String}
    (hf : p.fatal = false) :
    (p.notifyReleasePublish env s pid).unpushCount rid u k =
      p.unpushCount rid u k + if p.Named s rid u ∧ pid = k then 1 else 0 := by
  rw [Pod.unpushCount, notifyReleasePublish_notes hf, List.count_append,
    Act.notes, List.count_singleton, Pod.unpushCount]
  simp [Pod.Named, Note.unpush.injEq, and_assoc]

theorem answerStopPush_unpushCount {j : JsonParser} (hf : p.fatal = false) :
    (p.answerStopPush env s j).unpushCount rid u k =
      p.unpushCount rid u k +
        if p.Named s rid u ∧ getValue j .peerID = k then 1 else 0 := by
  have hstill : Still p (p.emit (.toClient (getValue j .sessID)
      [(.cmd, .str Cmd.stopPush.text),
        (.sessID, .str (getValue j .sessID)),
        (.peerID, .str (getValue j .peerID)),
        (.code, .int 0)])) := p.emit_still rfl
  rw [Pod.answerStopPush,
    notifyReleasePublish_unpushCount (hstill.fatal.trans hf),
    unpushCount_of_notes hstill.notes]
  simp only [hstill.quiet.shrinks.named]

theorem stopSection_unpushCount {pid : String} (hf : p.fatal = false) :
    (p.stopSection s x pid).unpushCount rid u k = p.unpushCount rid u k := by
  have hwithdraw : NotUnpush (.withdraws s pid x) := fun _ _ => nofun
  have hdrop : ∀ t : Pod, t.fatal = false →
      (t.dropPublisher s x pid).unpushCount rid u k =
        t.unpushCount rid u k := by
    intro t hft
    have hrest : (t.dropPublisher s x pid).notes =
      (t.stopNotify s x pid).notes := destroy_notes _ x
    rw [unpushCount_of_notes hrest]
    cases hn : (t.peer x).shouldNotify with
    | true =>
        rw [Pod.unpushCount, stopNotify_notes hft hn, List.count_append,
          List.count_eq_zero_of_not_mem (unpush_notMem hwithdraw),
          Nat.add_zero, Pod.unpushCount]
    | false => rw [Pod.stopNotify, if_neg (by simp [hn])]
  rw [Pod.stopSection, unpushCount_of_notes (Pod.runlock_still _ _).notes,
    hdrop _ ((p.lock_still _).fatal.trans hf),
    unpushCount_of_notes (p.lock_still _).notes]

theorem onIceReady_unpushCount {role : Role} {sid pid : String}
    (hf : p.fatal = false) :
    (p.onIceReady role s sid pid).unpushCount rid u k =
      p.unpushCount rid u k := by
  unfold Pod.onIceReady
  cases role with
  | publisher =>
      have hlock := p.rlock_still (.pubs s)
      dsimp only
      rw [unpushCount_of_notes (Pod.runlock_still _ _).notes,
        ← unpushCount_of_notes hlock.notes]
      generalize p.rlock (.pubs s) = t at hlock ⊢
      split
      · generalize ht : t.go (.onPublisherReady (t.sess s).parent sid
          (t.sess s).username pid) = t'
        have hnotes : t'.notes = t.notes := by rw [← ht]; rfl
        have hft : t'.fatal = false := by
          rw [← ht]
          exact hlock.fatal.trans hf
        split
        · rw [Pod.unpushCount, Pod.emit_notes hft, fakePublish_note, hnotes]
          simp [List.count_append, Pod.unpushCount]
        · exact unpushCount_of_notes hnotes
      · rfl
  | subscriber =>
      dsimp only
      split
      · rfl
      · rfl

theorem reportIce_unpushCount {st : IceState} (hp : Ready p)
    (hf : p.fatal = false) :
    (p.reportIce x st).unpushCount rid u k = p.unpushCount rid u k := by
  by_cases hst : st = .connected
  · subst hst
    exact onIceReady_unpushCount hf
  · exact (Calm.unpushCount (reportIce_calm notUnpush_base hst
      (fun _ _ _ _ _ _ => nofun) fun _ _ _ _ => nofun) hp hf).1

/-- A block that takes out a publisher of the user's own pays for the `unpush`
that the call then owes. -/
theorem Older.pays {pid : String} (h : Older p q) (hr : Rooted p)
    (hp : PodOk p) (hgone : q.entry .publisher s pid = none)
    (hown : p.Named s rid u → pid = k → p.hasOwn s k = true) :
    (if p.Named s rid u ∧ pid = k then 1 else 0) + (p.removed rid u k).card ≤
      (q.removed rid u k).card := by
  split
  · next hat =>
      obtain ⟨hn, rfl⟩ := hat
      have hfound := hown hn rfl
      unfold Pod.hasOwn at hfound
      split at hfound
      · next x hx =>
          have hlt := h.removed_card_lt hr hp hn hx (by simpa using hfound) hgone
          omega
      · cases hfound
  · rw [Nat.zero_add]
    exact h.removed_card_le hr

theorem stopSection_entry {pid : String} :
    (p.stopSection s x pid).entry .publisher s pid = none := by
  rw [Pod.stopSection, Pod.runlock, (Pod.emit_quiet _ _).entry,
    Pod.dropPublisher, Pod.erasePublisher_entry, if_pos ⟨rfl, rfl, rfl⟩]

/-- What a block adds to what was sent and what is owed, it also takes out. -/
theorem Block.account (h : Block env p c q next) (hp : InOrder p)
    (hf : p.fatal = false) (hr : Rooted p)
    (hown : ∀ e ∈ c.takesOut, p.Named e.1 rid u → e.2 = k →
      p.hasOwn e.1 k = true) :
    q.unpushCount rid u k + next.toList.countP (Pc.owes p rid u k) +
        (p.removed rid u k).card ≤
      p.unpushCount rid u k + [c].countP (Pc.owes p rid u k) +
        (q.removed rid u k).card := by
  have hold := (h.shrinks hp.toPodOk).older
  have hle : (p.removed rid u k).card ≤ (q.removed rid u k).card :=
    hold.removed_card_le hr
  cases h with
  | miss | found | ignore => simp [Pc.owes]
  | flag x st =>
      have hsame : (p.setIceFlags x st).unpushCount rid u k =
        p.unpushCount rid u k := rfl
      simp only [hsame, Option.toList_some, List.countP_singleton, Pc.owes,
        Bool.false_eq_true, if_false]
      omega
  | report x st =>
      simp only [reportIce_unpushCount hp.ready hf, Option.toList_none,
        List.countP_nil]
      omega
  | stop s j x =>
      have hpays := hold.pays hr hp.toPodOk stopSection_entry
        (hown (s, getValue j .peerID) rfl)
      simp only [stopSection_unpushCount hf, Option.toList_some,
        List.countP_singleton, Pc.owes, decide_eq_true_eq]
      omega
  | crash s j x =>
      have hsame : (p.stopPublisher s x (getValue j .peerID)).unpushCount rid
          u k = p.unpushCount rid u k := stopSection_unpushCount hf
      simp only [hsame, Option.toList_none, List.countP_nil]
      omega
  | release s pid =>
      have hpays := hold.pays hr hp.toPodOk (releasePubs_entry hp.toPodOk)
        (hown (s, pid) rfl)
      have hsame : (p.releasePubs s pid).unpushCount rid u k =
        p.unpushCount rid u k := ((releasePubs_calm notUnpush_base
          (notUnpush_touch s) pid p).unpushCount hp.ready hf).1
      simp only [hsame, Option.toList_some, List.countP_singleton, Pc.owes,
        decide_eq_true_eq]
      omega
  | finish s pid =>
      have hsubs := releaseSubs_calm notUnpush_base (notUnpush_touch s) pid p
      have hsame : (p.releaseSubs s pid).unpushCount rid u k =
        p.unpushCount rid u k := (hsubs.unpushCount hp.ready hf).1
      have hname : (p.releaseSubs s pid).Named s rid u ↔ p.Named s rid u :=
        (Pod.releaseSubs_removes hp.placed pid).shrinks.named
      simp only [notifyReleasePublish_unpushCount (hsubs hp.ready hf).2.1,
        hsame, hname, Option.toList_none, List.countP_nil,
        List.countP_singleton, Pc.owes, decide_eq_true_eq]
      omega
  | answer s j =>
      simp only [answerStopPush_unpushCount hf, Option.toList_none,
        List.countP_nil, List.countP_singleton, Pc.owes, decide_eq_true_eq]
      omega

/-! ## Runs -/

namespace CallSched

/-- What was sent and what is owed for the stream is covered. -/
def Covers (rid u k : String) (t : Sched) : Prop :=
  t.shared.pod.unpushCount rid u k +
      t.threads.countP (Pc.owes t.shared.pod rid u k) ≤
    (t.shared.pod.removed rid u k).card

/-- The calls owe the same after a step of others. -/
theorem countP_owes {t : Sched} (ht : Ok t)
    (h : After t.shared.pod q) :
    t.threads.countP (Pc.owes q rid u k) =
      t.threads.countP (Pc.owes t.shared.pod rid u k) :=
  List.countP_congr fun c hc => by
    rw [owes_congr h ht.rooted (ht.holds c hc)]

/-- No input that runs to its end sends `unpush`: the releases are calls. -/
theorem runs_unpushCount {a : Env × Input} (hp : InOrder p)
    (hb : p.begins a.2 = none) (hs : Pod.step a p = some q) :
    q.unpushCount rid u k = p.unpushCount rid u k := by
  refine Path.unpushCount (step_moves hp.ready hs) hp.toPodOk ?_
  rintro b hb' s k rfl
  obtain ⟨i, g, r, v, ha, hg, hrel, -⟩ := hb'
  rw [ha] at hb
  exact begins_of_releases hg hrel hb

theorem Covers.setPod {t : Sched} (hc : Covers rid u k t) (ht : Ok t)
    (hold : Older t.shared.pod q)
    (hsame : q.unpushCount rid u k = t.shared.pod.unpushCount rid u k) :
    Covers rid u k (t.setPod q) := by
  have hle : (t.shared.pod.removed rid u k).card ≤ (q.removed rid u k).card :=
    hold.removed_card_le ht.rooted
  have howes : t.threads.countP (Pc.owes q rid u k) =
    t.threads.countP (Pc.owes t.shared.pod rid u k) :=
    countP_owes ht hold.toAfter
  simp only [Covers, Sched.setPod, hsame, howes] at hc ⊢
  omega

theorem Begins.unpushCount {a : Input} {c : Option Pc} (h : Begins p a q c) :
    q.unpushCount rid u k = p.unpushCount rid u k := by
  obtain ⟨l, rfl⟩ := h.eq
  rfl

/-- A call that is just started owes nothing. -/
theorem Begins.owes {a : Input} {c : Option Pc} (h : Begins p a q c) :
    ∀ c' ∈ c, c'.owes q rid u k = false := by
  intro c' hc'
  cases h with
  | ice | stop => cases hc'; rfl
  | release =>
      obtain ⟨s, -, rfl⟩ := Option.map_eq_some_iff.mp hc'
      rfl

theorem step_covers {a : Act} {t t' : Sched} (ht : Ok t)
    (hc : Covers rid u k t) (ha : FindsOwn rid u k t a)
    (h : step a t = some t') : Covers rid u k t' := by
  obtain ⟨hf, hsteps⟩ := step_cases h
  have hp := ht.inOrder hf
  cases hsteps with
  | runs hb hs =>
      exact hc.setPod ht
        ⟨step_after hp hs, fun _ _ _ _ hlt => step_old_entry hp hs hlt⟩
        (runs_unpushCount hp hb hs)
  | @starts a q c hb =>
      have hbegins := begins_cases hb
      have hset := hc.setPod ht hbegins.older hbegins.unpushCount
      have hnone : c.owes q rid u k = false := hbegins.owes c rfl
      simp only [Covers, Threads.start, List.countP_append] at hset ⊢
      simp only [Sched.setPod, List.countP_singleton, hnone] at hset ⊢
      exact hset
  | idles hb =>
      have hbegins := begins_cases hb
      exact hc.setPod ht hbegins.older hbegins.unpushCount
  | @block i env w c l next hi he =>
      have hblock := lockedExec_block (ht.holds _ (List.mem_of_getElem? hi)) he
      have hacc := hblock.account hp hf ht.rooted (ha c hi)
      have hcount : (t.resume i l next).threads.countP
            (Pc.owes t.shared.pod rid u k) +
          [c].countP (Pc.owes t.shared.pod rid u k) =
          t.threads.countP (Pc.owes t.shared.pod rid u k) +
            next.toList.countP (Pc.owes t.shared.pod rid u k) :=
        Threads.countP_resume hi
      rw [Covers, Threads.resume_shared,
        (hblock.shrinks hp.toPodOk).owes_eq]
      rw [Covers] at hc
      omega

/-- In a run in which every release of the stream finds a publisher of the
user's own, no more `unpush` are sent for it than such publishers were taken
out. -/
theorem unpush_le_removed (conf : Config) (rid u k : String) (as : List Act)
    (hg : Guarded step (FindsOwn rid u k) as (Sched.init conf)) :
    Always step (fun t => t.shared.pod.unpushCount rid u k ≤
      (t.shared.pod.removed rid u k).card) as (Sched.init conf) := by
  refine (always_of_guarded (P := fun t => Ok t ∧ Covers rid u k t)
    (fun a t t' ht ha h => ⟨step_ok ht.1 h, step_covers ht.1 ht.2 ha h⟩) hg
    ⟨init_ok conf, Nat.le_refl 0⟩).mono fun t ht => ?_
  exact Nat.le_trans (Nat.le_add_right _ _) ht.2

/-- A user publishes and the connection of the publisher fails; the callback
spawns a release. -/
def publishAndFail : List Act :=
  [.input (Env.calm, .setSendMessageHandler),
    .input (Env.calm, .message (Cmd.login.msg
      [(.roomId, "R"), (.sessID, "u")])),
    .input (Env.calm, .message (Cmd.push.msg
      [(.roomId, "R"), (.sessID, "u"), (.peerID, "1")])),
    .input (Env.calm, .ice 0 .failed), .turn 0 Env.calm false,
    .turn 0 Env.calm false]

/-- The first pending release runs. -/
def releaseFirst : List Act :=
  [.input (Env.calm, .go 0), .turn 0 Env.calm false, .turn 0 Env.calm false]

/-- The failed connection is closed before its release has run, and both
releases run then. -/
def failAndClose : List Act :=
  publishAndFail ++ [.input (Env.calm, .ice 0 .closed),
    .turn 0 Env.calm false, .turn 0 Env.calm false] ++ releaseFirst ++
    releaseFirst

theorem unpush_sent_twice : ∃ t,
    run step failAndClose (Sched.init (Config.standalone "podA")) = some t ∧
    t.shared.pod.unpushCount "R" "u" "1" = 2 ∧
    (t.shared.pod.removed "R" "u" "1").card = 1 := by
  have h : (run step failAndClose (Sched.init (Config.standalone "podA"))).map
      (fun t => (t.shared.pod.unpushCount "R" "u" "1",
        (t.shared.pod.removed "R" "u" "1").card)) = some (2, 1) := by decide
  obtain ⟨t, ht, hf⟩ := Option.map_eq_some_iff.mp h
  simp only [Prod.mk.injEq] at hf
  exact ⟨t, ht, hf.1, hf.2⟩

theorem unpush_le_removed_failed : ∃ t,
    run step (publishAndFail ++ releaseFirst)
      (Sched.init (Config.standalone "podA")) = some t ∧
    t.shared.pod.unpushCount "R" "u" "1" = 1 ∧
    t.shared.pod.unpushCount "R" "u" "1" ≤
      (t.shared.pod.removed "R" "u" "1").card := by
  have h : (run step (publishAndFail ++ releaseFirst)
      (Sched.init (Config.standalone "podA"))).map
      (fun t => t.shared.pod.unpushCount "R" "u" "1") = some 1 := by decide
  obtain ⟨t, ht, hf⟩ := Option.map_eq_some_iff.mp h
  exact ⟨t, ht, hf, (unpush_le_removed (Config.standalone "podA") "R" "u" "1"
    (publishAndFail ++ releaseFirst) (by decide)).last ht⟩

end CallSched

end MediaServer.Ref
