import MediaServer.Lib.Rest
import MediaServer.Proofs.Retries

/-!
# What a session leaves behind

`DoLeave` has a value sent on `exitChan`, from a goroutine of its own, for the
check goroutine to take. When every goroutine has done what it can, is there a
sender or a check goroutine left?

Not at a stand-in session: the account of `Retries.lean` says that with the
value of `DoLeave` there are as many values as there are, or will be, check
goroutines, however often a connection has failed and whatever was still under
way. An origin session has no check goroutine, and the value of `DoLeave` is
never taken.

Every goroutine does come to its end or to a point where it waits: a check
goroutine fires once, and what it spawns may ask once less.
-/

namespace MediaServer.Ref

open MediaServer.Lib

/-- The call waits for the check goroutines. -/
def RetryPc.waits : RetryPc → Bool
  | .wait _ _ _ | .leaveWait => true
  | _ => false

/-- What a goroutine of the session does, as opposed to a call from outside. -/
def RetrySched.Act.own : RetrySched.Act → Prop
  | .timer _ _ | .exit _ | .turn _ => True
  | .onIceFailed _ _ | .doLeave => False

theorem RetryPc.waits_release (k : RetryPc) : k.release.waits = false := by
  cases k with
  | _ => rfl

/-- Nothing but `waitGroup.Wait` blocks a call. -/
theorem Standin.exec_eq_none {k : RetryPc} {w : Standin}
    (h : Standin.exec k w = none) : k.waits = true := by
  cases k with
  | wait | leaveWait => rfl
  | _ => cases h

namespace RetrySched

variable {t u : RetrySched} {a : Act} {k : RetryPc} {i : Nat} {w : Standin}
variable {next : Option RetryPc}

/-! ## Who waits -/

/-- A call waits only while a check goroutine is there. -/
def Held (t : RetrySched) : Prop :=
  ∀ k ∈ t.threads, k.waits = true → t.shared.checks ≠ []

theorem Held.start (h : Held t) (hk : k.waits = false)
    (hw : t.shared.checks ≠ [] → w.checks ≠ []) :
    Held (Threads.start k ⟨w, t.threads⟩) := by
  intro k' hk' hwait
  rcases List.mem_append.mp hk' with hold | hnew
  · exact hw (h k' hold hwait)
  · rw [List.mem_singleton.mp hnew, hk] at hwait
    cases hwait

theorem Held.resume (h : Held t) (hw : t.shared.checks ≠ [] → w.checks ≠ [])
    (hnext : ∀ k', next = some k' → k'.waits = true → w.checks ≠ []) :
    Held (t.resume i w next) := by
  intro k' hk' hwait
  rw [Threads.resume_shared]
  rcases Threads.mem_resume hk' with hold | hnew
  · exact hw (h k' hold hwait)
  · exact hnext k' hnew hwait

theorem Held.turn (h : Held t) (hx : t.turn Standin.exec i = some u) :
    Held u := by
  obtain ⟨k, w, next, -, hexec, rfl⟩ := Threads.turn_eq_some hx
  cases k with
  | fakeSubscribe sid pid n first =>
      cases hexec
      refine h.resume id fun k' hk' hwait => ?_
      cases hk'
      cases hwait
  | startCheck sid pid n first =>
      cases hexec
      exact h.resume (fun _ => List.append_ne_nil_of_right_ne_nil _ nofun) nofun
  | reconnect | doLeave =>
      cases hexec
      refine h.resume id fun k' hk' hwait hnone => ?_
      rw [if_pos hnone] at hk'
      cases hk'
      cases hwait
  | leaveReturn =>
      cases hexec
      exact h.resume id nofun
  | wait | leaveWait => cases hexec

/-- The last check goroutine releases all who wait. -/
theorem held_of_exit (hx : t.exit i = some u) : Held u := by
  unfold RetrySched.exit at hx
  split at hx
  · cases hx
    intro k hk hwait
    dsimp only at hk ⊢
    split at hk
    · obtain ⟨k₀, -, rfl⟩ := List.mem_map.mp hk
      rw [RetryPc.waits_release] at hwait
      cases hwait
    · next hne => exact hne
  · cases hx

theorem Held.timer (h : Held t) {ready : Bool}
    (hx : t.timer i ready = some u) : Held u := by
  have hset : ∀ c, t.shared.checks ≠ [] → t.shared.checks.set i c ≠ [] := by
    intro c hne hnil
    rw [← List.length_eq_zero_iff, List.length_set] at hnil
    exact hne (List.length_eq_zero_iff.mp hnil)
  obtain ⟨c, -, -, rfl | ⟨-, rfl⟩⟩ := timer_cases hx
  · exact fun k hk hwait => hset _ (h k hk hwait)
  · exact h.start rfl (hset _)

theorem step_held (h : Held t) (hs : step a t = some u) : Held u := by
  cases a with
  | onIceFailed sid pid =>
      cases hs
      exact h.start rfl id
  | doLeave =>
      simp only [step] at hs
      split at hs
      · cases hs
      · cases hs
        exact h.start rfl id
  | timer i ready => exact h.timer hs
  | exit i => exact held_of_exit hs
  | turn i => exact h.turn hs

theorem init_held (sid pid : String) : Held (init sid pid) := by
  intro k hk hwait
  rw [List.mem_singleton.mp hk] at hwait
  cases hwait

/-! ## Coming to rest -/

/-- How many steps may follow from a check goroutine: it returns, it fires,
and then a call of three blocks and the check goroutine of that follow. -/
def checkRank (c : Check) : Nat :=
  if c.fired then 1 else 2 + 5 * c.curtime

def callRank : RetryPc → Nat
  | .reconnect _ _ n => 5 + 5 * n
  | .fakeSubscribe _ _ n _ | .wait _ _ n => 4 + 5 * n
  | .startCheck _ _ n _ => 3 + 5 * n
  | .doLeave => 2
  | .leaveWait | .leaveReturn => 1

def rank (t : RetrySched) : Nat :=
  (t.shared.checks.map checkRank).sum + (t.threads.map callRank).sum

theorem callRank_release (k : RetryPc) : callRank k.release = callRank k := by
  cases k with
  | _ => rfl

theorem rank_resume (hk : t.threads[i]? = some k)
    (hlt : (w.checks.map checkRank).sum + (next.toList.map callRank).sum <
      (t.shared.checks.map checkRank).sum + callRank k) :
    rank (t.resume i w next) < t.rank := by
  have hsum : ((t.resume i w next).threads.map callRank).sum + callRank k =
      (t.threads.map callRank).sum + (next.toList.map callRank).sum :=
    Threads.sum_resume callRank hk
  unfold rank
  rw [Threads.resume_shared]
  omega

theorem turn_rank (hx : t.turn Standin.exec i = some u) : u.rank < t.rank := by
  obtain ⟨k, w, next, hk, hexec, rfl⟩ := Threads.turn_eq_some hx
  cases k with
  | fakeSubscribe | leaveReturn =>
      cases hexec
      refine rank_resume hk ?_
      simp [callRank]
  | startCheck sid pid n first =>
      cases hexec
      refine rank_resume hk ?_
      simp [callRank, checkRank]
  | reconnect | doLeave =>
      cases hexec
      refine rank_resume hk ?_
      split
      · simp [callRank]
      · simp [callRank]
  | wait | leaveWait => cases hexec

theorem exit_rank (hx : t.exit i = some u) : u.rank < t.rank := by
  obtain ⟨hi, -, hw, hthreads⟩ := exit_cases hx
  have hsum := Threads.sum_map_eraseIdx checkRank (List.getElem?_eq_getElem hi)
  have hpos : 0 < checkRank t.shared.checks[i] := by
    unfold checkRank
    split
    · omega
    · omega
  have hsame : (u.threads.map callRank).sum = (t.threads.map callRank).sum := by
    rcases hthreads with hthreads | hthreads
    · rw [hthreads]
    · rw [hthreads, List.map_map]
      exact congrArg (fun f => (t.threads.map f).sum)
        (funext callRank_release)
  unfold rank
  rw [hw, hsame]
  dsimp only
  omega

/-- A check goroutine that fires gives up what it could still do. -/
theorem setFired_rank {c d : Check} (hc : t.shared.checks[i]? = some c)
    (hfired : d.fired = true) :
    rank (t.setChecks (t.shared.checks.set i d)) + checkRank c =
      t.rank + 1 := by
  have hsum := Threads.sum_map_set (b := d) checkRank hc
  have hone : checkRank d = 1 := if_pos hfired
  rw [hone] at hsum
  unfold rank setChecks
  dsimp only
  omega

theorem start_rank (t : RetrySched) (k : RetryPc) :
    rank (t.start k) = t.rank + callRank k := by
  simp only [rank, Threads.start, List.map_append, List.map_cons, List.map_nil,
    List.sum_append, List.sum_cons, List.sum_nil]
  omega

theorem timer_rank (h : Counted t) {ready : Bool}
    (hx : t.timer i ready = some u) : u.rank < t.rank := by
  obtain ⟨c, hc, hfired, hu⟩ := timer_cases hx
  have hbefore : checkRank c = 2 + 5 * c.curtime := by
    rw [checkRank, hfired]
    rfl
  rcases hu with rfl | ⟨hpos, rfl⟩
  · have hset := setFired_rank (d := { c with fired := true }) hc rfl
    omega
  · have hlt : c.curtime < 2 ^ 32 :=
      Nat.lt_of_le_of_lt (h.checks c (List.mem_of_getElem? hc)) (by decide)
    rw [decr32_eq hpos hlt, start_rank]
    have hset := setFired_rank (d := { c with
      curtime := c.curtime - 1, fired := true }) hc rfl
    simp only [callRank]
    omega

theorem step_rank (h : Counted t) (ha : a.own) (hs : step a t = some u) :
    u.rank < t.rank := by
  cases a with
  | timer i ready => exact timer_rank h hs
  | exit i => exact exit_rank hs
  | turn i => exact turn_rank hs
  | onIceFailed | doLeave => exact ha.elim

/-! ## A session without check goroutines -/

/-- At an origin session nothing happens but `DoLeave`, and nobody takes its
value. -/
structure Bare (t : RetrySched) : Prop where
  unchecked : t.shared.checks = []
  calls : ∀ k ∈ t.threads, k = .doLeave ∨ k = .leaveReturn
  sent : t.shared.leaving = true → 0 < t.shared.tokens

theorem Bare.resume (h : Bare t) (hw : w.checks = [])
    (hnext : ∀ k', next = some k' → k' = .leaveReturn)
    (hsent : w.leaving = true → 0 < w.tokens) : Bare (t.resume i w next) where
  unchecked := by rw [Threads.resume_shared]; exact hw
  calls k' hk' := by
    rcases Threads.mem_resume hk' with hold | hnew
    · exact h.calls k' hold
    · exact .inr (hnext k' hnew)
  sent := by rw [Threads.resume_shared]; exact hsent

theorem step_bare (h : Bare t) (ha : ∀ sid pid, a ≠ .onIceFailed sid pid)
    (hs : step a t = some u) : Bare u := by
  cases a with
  | onIceFailed sid pid => exact absurd rfl (ha sid pid)
  | doLeave =>
      simp only [step] at hs
      split at hs
      · cases hs
      · cases hs
        refine ⟨h.unchecked, fun k hk => ?_, h.sent⟩
        rcases List.mem_append.mp hk with hold | hnew
        · exact h.calls k hold
        · exact .inl (List.mem_singleton.mp hnew)
  | timer i ready =>
      obtain ⟨c, hc, -⟩ := timer_cases hs
      rw [h.unchecked] at hc
      cases hc
  | exit i =>
      have hi := (exit_cases hs).1
      rw [h.unchecked] at hi
      cases hi
  | turn i =>
      obtain ⟨k, w, next, hk, hexec, rfl⟩ := Threads.turn_eq_some hs
      rcases h.calls k (List.mem_of_getElem? hk) with rfl | rfl
      · cases hexec
        refine h.resume h.unchecked (fun k' hk' => ?_)
          fun _ => Nat.succ_pos _
        rw [if_pos h.unchecked] at hk'
        exact (Option.some.inj hk').symm
      · cases hexec
        exact h.resume h.unchecked (fun k' hk' => by cases hk') h.sent

/-! ## At rest -/

/-- No goroutine is blocked in sending on `exitChan`, and no check goroutine is
alive. -/
structure Clean (t : RetrySched) : Prop where
  sent : t.shared.tokens = 0
  ended : t.shared.checks = []

/-- At rest, a call that is left waits. -/
theorem waits_of_rest (hrest : AtRest step Act.own t) (hk : k ∈ t.threads) :
    k.waits = true := by
  obtain ⟨i, hi⟩ := List.mem_iff_getElem?.mp hk
  have hnone : t.turn Standin.exec i = none := hrest (.turn i) trivial
  rw [Threads.turn, hi] at hnone
  exact Standin.exec_eq_none (Option.map_eq_none_iff.mp hnone)

/-- At rest, there is no value or no check goroutine to take it. -/
theorem unmatched_of_rest (hrest : AtRest step Act.own t)
    (hpos : 0 < t.shared.tokens) : t.shared.checks = [] := by
  have hnone : t.exit 0 = none := hrest (.exit 0) trivial
  unfold RetrySched.exit at hnone
  split at hnone
  · cases hnone
  · next hnot =>
      have hlen : ¬0 < t.shared.checks.length := fun h => hnot ⟨h, hpos⟩
      exact List.length_eq_zero_iff.mp (Nat.eq_zero_of_not_pos hlen)

/-- With the value of `DoLeave` the account is even. -/
theorem Balanced.clean (h : Balanced t) (hheld : Held t)
    (hleft : t.shared.leaving = true) (hrest : AtRest step Act.own t) :
    Clean t := by
  have hbal := h.balance
  rw [Standin.farewell, hleft, if_pos rfl, live] at hbal
  have hended : t.shared.checks = [] := by
    cases htok : t.shared.tokens with
    | zero => exact List.length_eq_zero_iff.mp (by omega)
    | succ n => exact unmatched_of_rest hrest (htok ▸ Nat.succ_pos n)
  have hnone : t.threads.countP RetryPc.opens = 0 := by
    refine List.countP_eq_zero.mpr fun k hk => ?_
    exact absurd hended (hheld k hk (waits_of_rest hrest hk))
  rw [hended, hnone] at hbal
  exact ⟨Nat.succ.inj hbal.symm, hended⟩

end RetrySched

namespace SessionSched

open RetrySched (Act)

variable {w v : SessionSched} {a : Act} {origin : Bool}

/-- A session of either kind does what a stand-in does, but for a connection
that fails at an origin session. -/
theorem step_cases (h : step a w = some v) :
    v = w ∨ RetrySched.step a w.calls = some v.calls ∧
      v.origin = w.origin ∧
      (w.origin = true → ∀ sid pid, a ≠ .onIceFailed sid pid) := by
  cases a with
  | onIceFailed sid pid =>
      simp only [step] at h
      split at h
      · exact .inl (Option.some.inj h).symm
      · next hfake =>
          obtain ⟨t, ht, rfl⟩ := Option.map_eq_some_iff.mp h
          exact .inr ⟨ht, rfl, fun horigin => absurd horigin hfake⟩
  | doLeave | timer | exit | turn =>
      obtain ⟨t, ht, rfl⟩ := Option.map_eq_some_iff.mp h
      exact .inr ⟨ht, rfl, fun _ _ _ => nofun⟩

theorem step_own (ha : a.own) :
    step a w = (RetrySched.step a w.calls).map
      fun t => { w with calls := t } := by
  cases a with
  | timer | exit | turn => rfl
  | onIceFailed | doLeave => exact ha.elim

theorem atRest_iff : AtRest step Act.own w ↔
    AtRest RetrySched.step Act.own w.calls := by
  refine forall₂_congr fun a ha => ?_
  rw [step_own ha, Option.map_eq_none_iff]

/-- What holds of a session in every state it reaches. -/
structure Kept (origin : Bool) (w : SessionSched) : Prop where
  kind : w.origin = origin
  bare : origin = true → w.calls.Bare
  balanced : origin = false → w.calls.Balanced
  held : w.calls.Held
  metered : w.calls.Metered

theorem step_kept (h : Kept origin w) (hs : step a w = some v) :
    Kept origin v := by
  rcases step_cases hs with rfl | ⟨hcalls, horigin, hquiet⟩
  · exact h
  · refine ⟨horigin.trans h.kind, fun ho => ?_, fun ho => ?_, ?_, ?_⟩
    · exact RetrySched.step_bare (h.bare ho) (hquiet (h.kind.trans ho)) hcalls
    · exact RetrySched.step_balanced (h.balanced ho) hcalls
    · exact RetrySched.step_held h.held hcalls
    · exact RetrySched.step_metered h.metered hcalls

theorem init_kept (origin : Bool) (sid pid : String) :
    Kept origin (init origin sid pid) := by
  cases origin with
  | true => exact ⟨rfl, fun _ => ⟨rfl, nofun, nofun⟩, nofun, nofun,
      ⟨⟨nofun, nofun⟩, Nat.zero_le _⟩⟩
  | false => exact ⟨rfl, nofun, fun _ => RetrySched.init_balanced sid pid,
      RetrySched.init_held sid pid, RetrySched.init_metered sid pid⟩

theorem run_kept {sid pid : String} {as : List Act}
    (hrun : run step as (init origin sid pid) = some w) : Kept origin w :=
  run_invariant (fun _ _ _ h _ hs => step_kept h hs) (guarded_true as _)
    (init_kept origin sid pid) hrun

theorem step_kept_rank (h : Kept origin w) (ha : a.own)
    (hs : step a w = some v) :
    Kept origin v ∧ v.calls.rank < w.calls.rank := by
  refine ⟨step_kept h hs, ?_⟩
  rw [step_own ha] at hs
  obtain ⟨t, ht, rfl⟩ := Option.map_eq_some_iff.mp hs
  exact RetrySched.step_rank h.metered.toCounted ha ht

/-- Whatever has been called, the goroutines of the session come to rest, and
no schedule keeps them busy for longer than the rank. -/
theorem comes_to_rest {sid pid : String} {as : List Act}
    (hrun : run step as (init origin sid pid) = some w) :
    (∃ bs v, (∀ b ∈ bs, b.own) ∧ run step bs w = some v ∧
      AtRest step Act.own v) ∧
    ∀ bs v, (∀ b ∈ bs, b.own) → run step bs w = some v →
      bs.length ≤ w.calls.rank := by
  refine ⟨exists_run_atRest (fun _ _ _ h => step_kept_rank h)
    (run_kept hrun), fun bs v hown hbs => ?_⟩
  have hle : bs.length + v.calls.rank ≤ w.calls.rank :=
    length_add_rank_le (fun _ _ _ h => step_kept_rank h) (run_kept hrun) hown
      hbs
  omega

/-- Every run with `DoLeave` in which no goroutine of the session can go on. -/
theorem clean_iff_standin {sid pid : String} {as : List Act}
    (hrun : run step as (init origin sid pid) = some w)
    (hleft : w.calls.shared.leaving = true)
    (hrest : AtRest step Act.own w) : w.calls.Clean ↔ origin = false := by
  have hkept := run_kept hrun
  constructor
  · intro hclean
    cases horigin : origin with
    | false => rfl
    | true =>
        have hpos := (hkept.bare horigin).sent hleft
        have hzero := hclean.sent
        omega
  · intro hfake
    exact (hkept.balanced hfake).clean hkept.held hleft (atRest_iff.mp hrest)

/-- Nothing is left that could run. -/
theorem atRest_of_idle (hthreads : w.calls.threads = [])
    (hchecks : w.calls.shared.checks = []) : AtRest step Act.own w := by
  refine atRest_iff.mpr fun a ha => ?_
  cases a with
  | timer i ready => simp [RetrySched.step, RetrySched.timer, hchecks]
  | exit i => simp [RetrySched.step, RetrySched.exit, hchecks]
  | turn i => simp [RetrySched.step, Threads.turn, hthreads]
  | onIceFailed | doLeave => exact ha.elim

/-- A connection of a stand-in session fails once, and later it leaves. -/
def reconnected : List Act :=
  [.turn 0, .turn 0, .onIceFailed "u" "1", .turn 0, .exit 0, .turn 0, .turn 0,
    .doLeave, .turn 0, .exit 0, .turn 0]

theorem clean_reconnected :
    let w : SessionSched :=
      ⟨false, ⟨[], 0, [("u", "1"), ("u", "1")], 1, true, true⟩, []⟩
    run step reconnected (init false "u" "1") = some w ∧
      AtRest step Act.own w ∧ w.calls.Clean := by
  have hrun : run step reconnected (init false "u" "1") = some ⟨false,
      ⟨[], 0, [("u", "1"), ("u", "1")], 1, true, true⟩, []⟩ := rfl
  have hrest := atRest_of_idle (w := ⟨false,
    ⟨[], 0, [("u", "1"), ("u", "1")], 1, true, true⟩, []⟩) rfl rfl
  exact ⟨hrun, hrest, (clean_iff_standin hrun rfl hrest).mpr rfl⟩

/-- `DoLeave` has returned, and its value waits for a goroutine that an origin
session does not have. -/
theorem origin_leaves_sender :
    ∃ w, run step [.doLeave, .turn 0, .turn 0] (init true "u" "1") = some w ∧
      w.calls.shared.returned = true ∧ AtRest step Act.own w ∧
      w.calls.shared.tokens = 1 ∧ ¬w.calls.Clean :=
  ⟨_, rfl, rfl, atRest_of_idle rfl rfl, rfl, fun h => nomatch h.sent⟩

end SessionSched

end MediaServer.Ref
