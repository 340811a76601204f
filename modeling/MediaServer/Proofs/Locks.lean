import MediaServer.Proofs.Crashes
import MediaServer.Proofs.Outcome

/-!
# Lock discipline

`Locks p q` says that the lock operations a call logged between `p` and `q`
replay on whatever the goroutine held before: no unlock misses, and unless the
process died on the way, the goroutine holds afterwards what it held before.
The relation composes, and a lock, a call with it, and the unlock of the same
mode compose to another; a panic between the two ends the process with the
lock held, which is why the second half is conditional.

A script that gives back no mutex it does not hold is such a composition, and
every branch of the two `HandleMessage`s has one but one. `stoppush` takes
`pubsmux` for writing and gives it back with `RUnlock`.
-/

namespace MediaServer.Ref

open MediaServer.Lib

variable {A : Scope} {n : Nat} {p q t : Pod} {r : RoomRef} {s : SessRef}
variable {e : Event} {env : Env} {j : JsonParser}

/-- The lock operations of a trace. -/
def lockOps (tr : List Event) : List (LockOp Mutex) :=
  tr.filterMap fun
    | .sync op => some op
    | _ => none

theorem lockOps_append (tr tr' : List Event) :
    lockOps (tr ++ tr') = lockOps tr ++ lockOps tr' := List.filterMap_append

structure Locks (p q : Pod) : Prop where
  fatal : p.fatal = true → q.fatal = true
  trace : ∃ tr, q.log = p.log ++ tr ∧ ∀ held, ∃ held',
    LockOp.exec held (lockOps tr) = some held' ∧
      (q.fatal = false → held' = held)

theorem Locks.of_silent {tr : List Event} (hlog : q.log = p.log ++ tr)
    (htr : lockOps tr = []) (hf : p.fatal = true → q.fatal = true) :
    Locks p q where
  fatal := hf
  trace := ⟨tr, hlog, fun held => ⟨held, by rw [htr]; rfl, fun _ => rfl⟩⟩

theorem Locks.of_same (hlog : q.log = p.log)
    (hf : p.fatal = true → q.fatal = true) : Locks p q :=
  .of_silent (by rw [hlog, List.append_nil]) rfl hf

theorem Locks.trans (h : Locks p q) (h' : Locks q t) : Locks p t where
  fatal hp := h'.fatal (h.fatal hp)
  trace := by
    obtain ⟨tr, hlog, hexec⟩ := h.trace
    obtain ⟨tr', hlog', hexec'⟩ := h'.trace
    refine ⟨tr ++ tr', by rw [hlog', hlog, List.append_assoc], fun held => ?_⟩
    obtain ⟨h₁, he₁, hh₁⟩ := hexec held
    obtain ⟨h₂, he₂, hh₂⟩ := hexec' h₁
    refine ⟨h₂, ?_, fun hf => ?_⟩
    · rw [lockOps_append, LockOp.exec_append, he₁]
      exact he₂
    · have hq : q.fatal = false := by
        cases hq : q.fatal with
        | false => rfl
        | true => rw [h'.fatal hq] at hf; cases hf
      rw [hh₂ hf, hh₁ hq]

/-- A section: the lock, what is done with it, and its own unlock. -/
theorem section_locks {op op' : LockOp Mutex} {m : Mutex × Bool}
    (hop : ∀ held, LockOp.exec held [op] = some (m :: held))
    (hop' : ∀ held, LockOp.exec (m :: held) [op'] = some held)
    (h : Locks (p.emit (.sync op)) q) : Locks p (q.emit (.sync op')) where
  fatal hp := by
    rw [Pod.emit_fatal]
    exact h.fatal (by rw [Pod.emit_fatal, hp])
  trace := by
    obtain ⟨tr, hlog, hexec⟩ := h.trace
    refine ⟨_, by rw [Pod.emit_log, hlog, Pod.emit_log, List.append_assoc,
      List.append_assoc], fun held => ?_⟩
    rw [Pod.emit_fatal]
    cases hp : p.fatal with
    | true =>
        have hq := h.fatal (by rw [Pod.emit_fatal, hp])
        obtain ⟨h₁, he₁, -⟩ := hexec held
        refine ⟨h₁, ?_, fun hf => by rw [hq] at hf; cases hf⟩
        simp only [if_pos, List.nil_append, hq, List.append_nil]
        exact he₁
    | false =>
        obtain ⟨h₁, he₁, hh₁⟩ := hexec (m :: held)
        have hin : LockOp.exec held (lockOps ([Event.sync op] ++ tr)) =
            some h₁ := by
          rw [lockOps_append, LockOp.exec_append]
          simp only [lockOps, List.filterMap_cons, List.filterMap_nil, hop]
          exact he₁
        cases hq : q.fatal with
        | true =>
            refine ⟨h₁, ?_, fun hf => by cases hf⟩
            simp only [Bool.false_eq_true, if_false, if_true, List.append_nil]
            exact hin
        | false =>
            refine ⟨held, ?_, fun _ => rfl⟩
            simp only [Bool.false_eq_true, if_false]
            rw [← List.append_assoc, lockOps_append, LockOp.exec_append, hin,
              hh₁ hq]
            exact hop' held

/-- A panic inside a section. -/
theorem falls_locks {op : LockOp Mutex}
    (hop : ∀ held, (LockOp.exec held [op]).isSome)
    (h : Locks (p.emit (.sync op)) q) (hq : q.fatal = true) : Locks p q where
  fatal _ := hq
  trace := by
    obtain ⟨tr, hlog, hexec⟩ := h.trace
    refine ⟨_, by rw [hlog, Pod.emit_log, List.append_assoc], fun held => ?_⟩
    rw [hq]
    split
    · obtain ⟨h₁, he₁, -⟩ := hexec held
      exact ⟨h₁, he₁, nofun⟩
    · obtain ⟨h₀, he₀⟩ := Option.isSome_iff_exists.mp (hop held)
      obtain ⟨h₁, he₁, -⟩ := hexec h₀
      refine ⟨h₁, ?_, nofun⟩
      rw [lockOps_append, LockOp.exec_append]
      simp only [lockOps, List.filterMap_cons, List.filterMap_nil, he₀]
      exact he₁

/-! ## Scripts -/

/-- Messages are no operations on mutexes. -/
theorem Event.Within.silent {c : Config} (h : e.Within A c) :
    lockOps [e] = [] := by
  cases e with
  | sync op => exact h.elim
  | toClient | toLB | toPod | toCrossClusterPod | broadcastCrossCluster
  | destroy | deliverAudio | deliverVideo | deliverApp => rfl

theorem Event.Within.log {c : Config} (h : e.Within A c) (p : Pod) :
    ∃ tr, (p.emit e).log = p.log ++ tr ∧ lockOps tr = [] := by
  refine ⟨_, p.emit_log e, ?_⟩
  split
  · rfl
  · exact h.silent

/-- A script that unlocks nothing but what it holds. -/
theorem Script.locks (h : Script A n p q) (hA : ¬A.breaks) : Locks p q := by
  induction h with
  | mute h => exact .of_same h.log fun hp => by rw [h.fatal, hp]
  | @speaks _ p _ h =>
      obtain ⟨tr, hlog, htr⟩ := h.log p
      exact .of_silent hlog htr fun hp => by rw [Pod.emit_fatal, hp]
  | starts _ => exact .of_same rfl id
  | dies => exact .of_same rfl fun _ => rfl
  | trans _ _ ih ih' => exact ih.trans ih'
  | @writes _ _ _ m _ _ ih =>
      exact section_locks (m := (m, true)) (fun _ => rfl)
        (LockOp.exec_lock_unlock m) ih
  | @reads _ _ _ m _ _ ih =>
      exact section_locks (m := (m, false)) (fun _ => rfl)
        (LockOp.exec_rlock_runlock m) ih
  | falls hop _ hq ih => exact falls_locks (hop.resolve_right hA) ih hq

/-- Everything is allowed, or everything but to unlock what is not held. -/
def Scope.any (breaks : Prop) : Scope :=
  ⟨fun _ => True, True, fun _ => True, True, breaks⟩

/-- Every branch but the throwing one of `stoppush`. -/
theorem sessionHandleMessage_locks (p : Pod)
    (h : ¬(command j = some .stopPush ∧
      (p.sess s).publishers.lookup (getValue j .peerID) ≠ none)) :
    Locks p (p.sessionHandleMessage env s j) :=
  Script.locks (A := .any False) (sessionHandleMessage_script
    (fun _ _ => trivial) (fun _ => trivial) (fun hc hne => h ⟨hc, hne⟩)
    fun _ _ _ _ _ => trivial) id

theorem roomHandleMessage_locks (hp : Seated p)
    (h : ¬(command j = some .stopPush ∧ ∃ s,
      (p.room r).sessions.lookup (getValue j .sessID) = some s ∧
        (p.sess s).publishers.lookup (getValue j .peerID) ≠ none)) :
    Locks p (p.roomHandleMessage env r j) := by
  have hto : ∀ {uid} {notFound : Pod → Pod},
      (∀ p, Script (.any False) 1 p (notFound p)) →
      (command j = some .stopPush → uid = getValue j .sessID) →
      Script (.any False) 1 p (p.toSession env r uid j notFound) := by
    intro uid notFound hn huid
    exact toSession_script (fun _ => hn p) fun s hs =>
      sessionHandleMessage_script (fun _ _ => trivial) (fun _ => trivial)
        (fun hc hne => h ⟨hc, s, huid hc ▸ hs, hne⟩) fun _ _ _ _ _ => trivial
  have hother : ∀ {c uid}, command j = some c → c ≠ .stopPush →
      command j = some .stopPush → uid = getValue j .sessID := by
    intro c uid hc hne hstop
    rw [hc] at hstop
    exact absurd (Option.some.inj hstop) hne
  refine Script.locks (A := .any False) (n := 1) ?_ id
  unfold Pod.roomHandleMessage
  dsimp only
  split
  case h_1 => exact handleLogin_script trivial p
  case h_5 => exact hto (fun p => .refuses trivial p) fun _ => rfl
  case h_6 =>
      exact kickoutFromRoom_script hp trivial (fun _ _ _ => trivial) trivial
  case h_11 hc => exact answerRoomCreated_script hc (fun _ _ => trivial) p
  case h_12 hc => exact handleFakePublish_script hc (fun _ _ => trivial) trivial
  case h_13 => exact handleFakeUnpublish_script fun _ _ _ _ => trivial
  case h_18 => exact .refl p
  all_goals rename_i hc
  all_goals refine hto (fun p => ?_) (hother hc (by decide))
  all_goals first
    | exact .refuses trivial p
    | exact .refl p

/-! ## The branch that is left -/

theorem Mutex.rank_le (m : Mutex) : m.rank ≤ 2 := by
  cases m with
  | rooms => exact Nat.zero_le 2
  | sessions => exact Nat.le_succ 1
  | pubs | subs => exact Nat.le_refl 2

/-- No mutex is left to take. -/
theorem Script.silent (h : Script A n p q) (hn : 2 < n) (hq : q.fatal = false) :
    ∃ tr, q.log = p.log ++ tr ∧ lockOps tr = [] := by
  induction h with
  | mute h => exact ⟨[], by rw [h.log, List.append_nil], rfl⟩
  | @speaks _ p _ h => exact h.log p
  | starts _ => exact ⟨[], (List.append_nil _).symm, rfl⟩
  | dies => cases hq
  | trans _ h' ih ih' =>
      obtain ⟨tr, hlog, htr⟩ := ih hn (h'.alive hq)
      obtain ⟨tr', hlog', htr'⟩ := ih' hn hq
      exact ⟨tr ++ tr', by rw [hlog', hlog, List.append_assoc],
        by rw [lockOps_append, htr, htr', List.append_nil]⟩
  | @writes _ _ _ m hm | @reads _ _ _ m hm =>
      exact absurd (hm.trans m.rank_le) (Nat.not_le.mpr hn)
  | falls _ _ hfatal _ =>
      rw [hfatal] at hq
      cases hq

/-- The lock operations of the call: no unlock misses, and it holds nothing
when it returns. -/
def Disciplined (p q : Pod) : Prop :=
  ∃ held, LockOp.exec [] (lockOps (newEvents p q)) = some held ∧
    (q.fatal = false → held = [])

theorem Locks.disciplined (h : Locks p q) : Disciplined p q := by
  obtain ⟨tr, hlog, hexec⟩ := h.trace
  rw [Disciplined, newEvents_of_append hlog]
  exact hexec []

/-- Nothing is logged after the process is gone. -/
theorem emit_of_fatal (e : Event) (hf : p.fatal = true) : p.emit e = p := by
  rw [Pod.emit, if_pos hf]

theorem handleStopPush_log {y : PeerRef}
    (hx : (p.sess s).publishers.lookup (getValue j .peerID) = some y) :
    (p.handleStopPush env s j).log =
      (p.stopSection s y (getValue j .peerID)).log := by
  unfold Pod.handleStopPush
  simp only [hx, Pod.stopPublisher, Pod.answerStopPush, Pod.notifyReleasePublish]
  rw [emit_of_fatal _ rfl, emit_of_fatal _ rfl]
  rfl

/-- The section of `stoppush` is not disciplined: it unlocks a mutex for
reading that it holds for writing. -/
theorem handleStopPush_undisciplined {y : PeerRef} (h : InOrder p)
    (hf : p.fatal = false)
    (hx : (p.sess s).publishers.lookup (getValue j .peerID) = some y) :
    ¬Disciplined p (p.handleStopPush env s j) := by
  have hy : (p.lock (.pubs s)).entry .publisher s (getValue j .peerID) =
      some y := by
    rw [Pod.lock, (p.emit_quiet _).entry]
    exact hx
  have hfatal : ((p.lock (.pubs s)).dropPublisher s y
      (getValue j .peerID)).fatal = false :=
    (Calm.still (A := Unbound) (p.lock_still _) trivial).trans_fate
      (dropPublisher_calm (Unbound.touch s) hy).fate h.ready hf
  obtain ⟨tr, hlog, htr⟩ := (dropPublisher_script (A := .any False) (n := 3)
    fun _ => trivial).silent (Nat.lt_succ_self 2) hfatal
  have hlock : (p.lock (.pubs s)).log = p.log ++ [.sync (.lock (.pubs s))] := by
    rw [Pod.lock, Pod.emit_log, hf]
    rfl
  have htrace : (p.handleStopPush env s j).log = p.log ++
      ([Event.sync (.lock (.pubs s))] ++ tr ++
        [.sync (.runlock (.pubs s))]) := by
    rw [handleStopPush_log hx, Pod.stopSection, Pod.runlock, Pod.emit_log,
      hfatal, hlog, hlock]
    simp
  rintro ⟨held, hexec, -⟩
  rw [newEvents_of_append htrace, lockOps_append, lockOps_append, htr] at hexec
  simp [lockOps, LockOp.exec, LockOp.exec1] at hexec

/-- In every reachable state a call of `session.HandleMessage` or of
`room.HandleMessage` keeps the lock discipline, if and only if it is not a
`stoppush` that finds its publisher. -/
theorem disciplined_iff {conf : Config} (hr : Pod.Reachable conf p)
    (hf : p.fatal = false) (env : Env) (j : JsonParser) :
    (∀ s, Disciplined p (p.sessionHandleMessage env s j) ↔
      ¬(command j = some .stopPush ∧
        (p.sess s).publishers.lookup (getValue j .peerID) ≠ none)) ∧
    ∀ r, Disciplined p (p.roomHandleMessage env r j) ↔
      ¬(command j = some .stopPush ∧ ∃ s,
        (p.room r).sessions.lookup (getValue j .sessID) = some s ∧
          (p.sess s).publishers.lookup (getValue j .peerID) ≠ none) := by
  have hp := reachable_inOrder hr
  have hbad : ∀ s, command j = some .stopPush →
      (p.sess s).publishers.lookup (getValue j .peerID) ≠ none →
      ¬Disciplined p (p.sessionHandleMessage env s j) := by
    intro s hc hne
    obtain ⟨y, hy⟩ := Option.ne_none_iff_exists'.mp hne
    simp only [Pod.sessionHandleMessage, hc]
    exact handleStopPush_undisciplined hp hf hy
  refine ⟨fun s => ⟨fun hd h => hbad s h.1 h.2 hd, fun h =>
    (sessionHandleMessage_locks p h).disciplined⟩, fun r => ⟨fun hd h => ?_,
    fun h => (roomHandleMessage_locks hp.toSeated h).disciplined⟩⟩
  obtain ⟨hc, s, hs, hne⟩ := h
  refine hbad s hc hne ?_
  simpa only [Pod.roomHandleMessage, hc, Pod.toSession, hs] using hd

/-- User `u` has logged in and publishes stream `1`. -/
def onePublisher : List (Env × Input) :=
  [(Env.calm, .setSendMessageHandler),
    (Env.calm, .message (Cmd.login.msg [(.roomId, "R"), (.sessID, "u")])),
    (Env.calm, .message (Cmd.push.msg
      [(.roomId, "R"), (.sessID, "u"), (.peerID, "1")]))]

/-- What `u` sends to stop the stream. -/
def stopOne : JsonParser :=
  Cmd.stopPush.msg [(.roomId, "R"), (.sessID, "u"), (.peerID, "1")]

theorem onePublisher_reaches :
    ∃ p, Pod.Reachable (Config.standalone "podA") p ∧ p.fatal = false ∧
      (p.room 0).sessions.lookup "u" = some 0 ∧
      (p.sess 0).publishers.entries = [⟨"1", 0⟩] ∧
      (LockOp.exec [] (lockOps (newEvents p
        (p.roomHandleMessage Env.calm 0 stopOne)))).isNone = true := by
  have h : (run Pod.step onePublisher
      (Pod.createRoomMgr (Config.standalone "podA"))).map (fun p =>
        (p.fatal, (p.room 0).sessions.lookup "u",
          (p.sess 0).publishers.entries, (LockOp.exec [] (lockOps
            (newEvents p (p.roomHandleMessage Env.calm 0 stopOne)))).isNone)) =
      some (false, some 0, [⟨"1", 0⟩], true) := by decide
  obtain ⟨p, hp, hfacts⟩ := Option.map_eq_some_iff.mp h
  simp only [Prod.mk.injEq] at hfacts
  exact ⟨p, ⟨onePublisher, hp⟩, hfacts⟩

/-- The `stoppush` of that stream unlocks what it does not hold. -/
theorem stopOne_undisciplined :
    ∃ p, Pod.Reachable (Config.standalone "podA") p ∧ p.fatal = false ∧
      ¬Disciplined p (p.roomHandleMessage Env.calm 0 stopOne) := by
  obtain ⟨p, hr, hf, -, -, hexec⟩ := onePublisher_reaches
  refine ⟨p, hr, hf, ?_⟩
  rintro ⟨held, hheld, -⟩
  rw [hheld] at hexec
  cases hexec

/-- The same message for a stream that is not there keeps the discipline. -/
theorem stopOther_disciplined :
    ∃ p, Pod.Reachable (Config.standalone "podA") p ∧ p.fatal = false ∧
      Disciplined p (p.roomHandleMessage Env.calm 0 (Cmd.stopPush.msg
        [(.roomId, "R"), (.sessID, "u"), (.peerID, "2")])) := by
  obtain ⟨p, hr, hf, hsess, hpubs, -⟩ := onePublisher_reaches
  refine ⟨p, hr, hf, ((disciplined_iff hr hf Env.calm _).2 0).mpr ?_⟩
  rintro ⟨-, s, hs, hne⟩
  rw [show getValue (Cmd.stopPush.msg [(.roomId, "R"), (.sessID, "u"),
    (.peerID, "2")]) .sessID = "u" from rfl, hsess] at hs
  cases hs
  obtain ⟨y, hy⟩ := Option.ne_none_iff_exists'.mp hne
  have hmem := GoMap.mem_entries.mpr hy
  rw [hpubs, List.mem_singleton] at hmem
  have hkey : "2" = "1" := congrArg Sigma.fst hmem
  exact absurd hkey (by decide)

end MediaServer.Ref
