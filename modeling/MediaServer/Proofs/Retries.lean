import MediaServer.Ref.Retry

/-!
# The accounts of a stand-in session

Three questions about `FakeSubscribe`, `FakePublisherReConnect` and `DoLeave`.

Does leaving block? A value on `exitChan` ends one check goroutine, and the
number of values is right: as long as the session has not left, there is one
check goroutine, or call that will start one, more than there are values under
way. `DoLeave` adds the missing value.

How often is the other pod asked? A call carries the number of attempts it may
still start, and a check goroutine starts one call only. So what was sent and
what may still follow from it is never more than one series of attempts for
the session and one for each failed connection.

Is a session silent once it has left? `DoLeave` waits for the check
goroutines, not for the calls that they have spawned. It is silent if none of
those is left when `DoLeave` returns.
-/

namespace MediaServer.Ref

open MediaServer.Lib

/-- The call is the first `FakeSubscribe` of the session. -/
def RetryPc.isFirst : RetryPc → Bool
  | .fakeSubscribe _ _ _ first | .startCheck _ _ _ first => first
  | _ => false

/-- A `FakePublisherReConnect` that has sent its value and whose check
goroutine is not there yet. -/
def RetryPc.reconnecting : RetryPc → Bool
  | .wait _ _ _ => true
  | .fakeSubscribe _ _ _ first | .startCheck _ _ _ first => !first
  | _ => false

/-- The call is going to start a check goroutine. -/
def RetryPc.opens (k : RetryPc) : Bool := k.isFirst || k.reconnecting

/-- The value that `DoLeave` has sent. -/
def Standin.farewell (w : Standin) : Nat := if w.leaving then 1 else 0

namespace RetrySched

variable {t u : RetrySched} {a : Act} {k : RetryPc} {i : Nat} {w : Standin}
variable {next : Option RetryPc}

/-- What a timer does that fires. -/
theorem timer_cases {ready : Bool} (h : t.timer i ready = some u) :
    ∃ c, t.shared.checks[i]? = some c ∧ c.fired = false ∧
      (u = t.setChecks (t.shared.checks.set i { c with fired := true }) ∨
        0 < c.curtime ∧
          u = (t.setChecks (t.shared.checks.set i
            { c with curtime := decr32 c.curtime, fired := true })).start
              (.reconnect c.sid c.pid (decr32 c.curtime))) := by
  unfold RetrySched.timer at h
  split at h
  · cases h
  · next c hc =>
      split at h
      · cases h
      · next hfired =>
          refine ⟨c, hc, Bool.eq_false_iff.mpr hfired, ?_⟩
          split at h
          · cases h; exact .inl rfl
          · split at h
            · next hpos => cases h; exact .inr ⟨hpos, rfl⟩
            · cases h; exact .inl rfl

/-- What a check goroutine does that returns. -/
theorem exit_cases (h : t.exit i = some u) :
    i < t.shared.checks.length ∧ 0 < t.shared.tokens ∧
      u.shared = { t.shared with
        checks := t.shared.checks.eraseIdx i
        tokens := t.shared.tokens - 1 } ∧
      (u.threads = t.threads ∨ u.threads = t.threads.map RetryPc.release) := by
  unfold RetrySched.exit at h
  split at h
  · next hok =>
      cases h
      refine ⟨hok.1, hok.2, rfl, ?_⟩
      dsimp only
      split
      · exact .inr rfl
      · exact .inl rfl
  · cases h

/-! ## Values on `exitChan` -/

def live (t : RetrySched) : Nat := t.shared.checks.length

def reconnects (t : RetrySched) : Nat := t.threads.countP RetryPc.reconnecting

/-- The first `FakeSubscribe` has returned. -/
def subscribed (t : RetrySched) : Bool := t.threads.all fun k => !k.isFirst

/-- `DoLeave` never waits for a check goroutine that no value is left for, and
before it is called the values and the goroutines are in balance. -/
structure Unblocked (t : RetrySched) : Prop where
  leave : .leaveWait ∈ t.threads → t.live ≤ t.shared.tokens
  before : t.subscribed = true → t.shared.leaving = false →
    t.live + t.reconnects = t.shared.tokens + 1

/-- The account: who is or will be a check goroutine against the values. -/
structure Balanced (t : RetrySched) : Prop where
  balance : t.live + t.threads.countP RetryPc.opens + t.shared.farewell =
    t.shared.tokens + 1
  once : t.threads.countP (· = .doLeave) + t.shared.farewell ≤ 1
  waits : .leaveWait ∈ t.threads → t.shared.leaving = true

theorem Balanced.unblocked (h : Balanced t) : Unblocked t where
  leave hw := by
    have hbal := h.balance
    rw [Standin.farewell, h.waits hw, if_pos rfl] at hbal
    omega
  before hs hl := by
    have hbal := h.balance
    have hopens : t.threads.countP RetryPc.opens = t.reconnects := by
      refine List.countP_congr fun k hk => ?_
      have hfirst := List.all_eq_true.mp hs k hk
      simp only [Bool.not_eq_true'] at hfirst
      rw [RetryPc.opens, hfirst, Bool.false_or]
    rw [Standin.farewell, hl, hopens] at hbal
    exact hbal

theorem Balanced.start (h : Balanced t) (ho : k.opens = false)
    (hd : k ≠ .doLeave) (hw : k ≠ .leaveWait) : Balanced (t.start k) where
  balance := by
    have hbal := h.balance
    rw [Threads.start, List.countP_append, List.countP_singleton, if_neg]
    · exact hbal
    · rw [ho]; exact nofun
  once := by
    have honce := h.once
    rw [Threads.start, List.countP_append, List.countP_singleton, if_neg]
    · exact honce
    · simpa using hd
  waits hmem := by
    rcases List.mem_append.mp hmem with hold | hnew
    · exact h.waits hold
    · exact absurd (List.mem_singleton.mp hnew).symm hw

theorem Balanced.setShared (h : Balanced t)
    (hc : w.checks.length = t.shared.checks.length)
    (ht : w.tokens = t.shared.tokens) (hl : w.leaving = t.shared.leaving) :
    Balanced { t with shared := w } where
  balance := by
    have hbal := h.balance
    simp only [live, Standin.farewell, hc, ht, hl] at hbal ⊢
    exact hbal
  once := by simp only [Standin.farewell, hl]; exact h.once
  waits hmem := by rw [hl]; exact h.waits hmem

/-- `waitGroup.Wait` returns: the calls that were going to start a check
goroutine still are. -/
theorem Balanced.release (h : Balanced t) :
    Balanced { t with threads := t.threads.map RetryPc.release } where
  balance := by
    have hsame : RetryPc.opens ∘ RetryPc.release = RetryPc.opens := by
      funext k
      cases k with
      | _ => rfl
    have hbal := h.balance
    rw [List.countP_map, hsame]
    exact hbal
  once := by
    have hsame : ((fun k => decide (k = RetryPc.doLeave)) ∘
        RetryPc.release) = fun k => decide (k = .doLeave) := by
      funext k
      cases k with
      | _ => rfl
    have honce := h.once
    rw [List.countP_map, hsame]
    exact honce
  waits hmem := by
    obtain ⟨k, -, hrel⟩ := List.mem_map.mp hmem
    cases k with
    | _ => cases hrel

theorem Balanced.exit (h : Balanced t) (hx : t.exit i = some u) :
    Balanced u := by
  obtain ⟨hi, hpos, hw, hthreads⟩ := exit_cases hx
  have hlen := List.length_eraseIdx_add_one hi
  have hbal := h.balance
  have hgone : Balanced { t with shared := u.shared } := by
    rw [hw]
    refine ⟨?_, h.once, h.waits⟩
    simp only [live, Standin.farewell] at hbal ⊢
    omega
  obtain ⟨w, l⟩ := u
  rcases hthreads with rfl | rfl
  · exact hgone
  · exact hgone.release

/-- What a block has to keep. -/
theorem Balanced.resume (h : Balanced t) (hk : t.threads[i]? = some k)
    (hbal : w.checks.length + next.toList.countP RetryPc.opens + w.farewell +
        t.shared.tokens =
      t.shared.checks.length + [k].countP RetryPc.opens + t.shared.farewell +
        w.tokens)
    (honce : next.toList.countP (· = .doLeave) + w.farewell ≤
      [k].countP (· = .doLeave) + t.shared.farewell)
    (hmono : t.shared.leaving = true → w.leaving = true)
    (hwaits : next = some .leaveWait → w.leaving = true) :
    Balanced (t.resume i w next) where
  balance := by
    have hopens : (t.resume i w next).threads.countP RetryPc.opens +
        [k].countP RetryPc.opens =
      t.threads.countP RetryPc.opens + next.toList.countP RetryPc.opens :=
      Threads.countP_resume hk
    have hold := h.balance
    rw [live] at hold
    rw [live, Threads.resume_shared]
    omega
  once := by
    have hleave : (t.resume i w next).threads.countP (· = .doLeave) +
        [k].countP (· = .doLeave) =
      t.threads.countP (· = .doLeave) + next.toList.countP (· = .doLeave) :=
      Threads.countP_resume hk
    have hold := h.once
    rw [Threads.resume_shared]
    omega
  waits hmem := by
    rw [Threads.resume_shared]
    rcases Threads.mem_resume hmem with hold | hnew
    · exact hmono (h.waits hold)
    · exact hwaits hnew

theorem Balanced.turn (h : Balanced t) (hx : t.turn Standin.exec i = some u) :
    Balanced u := by
  obtain ⟨k, w, next, hk, hexec, rfl⟩ := Threads.turn_eq_some hx
  cases k with
  | fakeSubscribe sid pid n first =>
      cases hexec
      exact h.resume hk rfl (Nat.le_refl _) id nofun
  | startCheck sid pid n first =>
      cases hexec
      refine h.resume hk ?_ (Nat.le_refl _) id nofun
      have hopens : (RetryPc.startCheck sid pid n first).opens = true := by
        cases first with
        | _ => rfl
      simp [hopens, Standin.farewell]
  | reconnect sid pid n =>
      cases hexec
      generalize hk' : (if t.shared.checks = [] then
        RetryPc.fakeSubscribe sid pid n false else .wait sid pid n) = k'
      have hopens : k'.opens = true ∧ k' ≠ .doLeave ∧ k' ≠ .leaveWait := by
        subst hk'
        split
        · exact ⟨rfl, nofun, nofun⟩
        · exact ⟨rfl, nofun, nofun⟩
      have hbefore : (RetryPc.reconnect sid pid n).opens = false := rfl
      refine h.resume hk ?_ ?_ id ?_
      · simp [hopens.1, hbefore, Standin.farewell]
        omega
      · simp [hopens.2.1, Standin.farewell]
      · intro hw
        exact absurd (Option.some.inj hw) hopens.2.2
  | doLeave =>
      cases hexec
      generalize hk' : (if t.shared.checks = [] then
        RetryPc.leaveReturn else .leaveWait) = k'
      have hopens : k'.opens = false ∧ k' ≠ .doLeave := by
        subst hk'
        split
        · exact ⟨rfl, nofun⟩
        · exact ⟨rfl, nofun⟩
      have hbefore : RetryPc.doLeave.opens = false := rfl
      have hmem : 0 < t.threads.countP (· = .doLeave) :=
        List.countP_pos_iff.mpr ⟨_, List.mem_of_getElem? hk, rfl⟩
      have hstay : t.shared.farewell = 0 := by
        have honce := h.once
        omega
      refine h.resume hk ?_ ?_ (fun _ => rfl) fun _ => rfl
      · rw [hstay]
        simp [hopens.1, hbefore, Standin.farewell]
        omega
      · rw [hstay]
        simp [hopens.2, Standin.farewell]
  | leaveReturn =>
      cases hexec
      exact h.resume hk rfl (Nat.le_refl _) id nofun
  | wait | leaveWait => cases hexec

theorem Balanced.timer (h : Balanced t) {ready : Bool}
    (hx : t.timer i ready = some u) : Balanced u := by
  have hset : ∀ c, Balanced (t.setChecks (t.shared.checks.set i c)) :=
    fun c => h.setShared List.length_set rfl rfl
  obtain ⟨c, -, -, rfl | ⟨-, rfl⟩⟩ := timer_cases hx
  · exact hset _
  · exact (hset _).start rfl nofun nofun

theorem step_balanced (h : Balanced t) (hs : step a t = some u) :
    Balanced u := by
  cases a with
  | onIceFailed sid pid =>
      cases hs
      exact Balanced.start (k := .reconnect sid pid _)
        (h.setShared rfl rfl rfl) rfl nofun nofun
  | doLeave =>
      simp only [step] at hs
      split at hs
      · cases hs
      · next hnot =>
          cases hs
          obtain ⟨hstay, hnone⟩ := not_or.mp hnot
          have hcount : t.threads.countP (· = .doLeave) = 0 :=
            List.countP_eq_zero.mpr fun k hk hd =>
              hnone (of_decide_eq_true hd ▸ hk)
          refine ⟨?_, ?_, fun hmem => ?_⟩
          · have hbal := h.balance
            simpa [live, Threads.start, RetryPc.opens, RetryPc.isFirst,
              RetryPc.reconnecting] using hbal
          · simp [Threads.start, hcount, Standin.farewell, hstay]
          · rcases List.mem_append.mp hmem with hold | hnew
            · exact h.waits hold
            · cases List.mem_singleton.mp hnew
  | timer i ready => exact h.timer hs
  | exit i => exact h.exit hs
  | turn i => exact h.turn hs

theorem init_balanced (sid pid : String) : Balanced (init sid pid) :=
  ⟨rfl, Nat.zero_le _, fun h => by cases List.mem_singleton.mp h⟩

/-- In every state a stand-in session reaches. -/
theorem leave_unblocked (sid pid : String) (as : List Act) :
    Always step Unblocked as (init sid pid) :=
  (always_of_guarded (fun _ _ _ h _ hs => step_balanced h hs)
    (guarded_true as _) (init_balanced sid pid)).mono
    fun _ h => h.unblocked

end RetrySched

/-! ## Attempts -/

/-- How often the call may still ask, itself and by what follows from it. -/
def RetryPc.budget : RetryPc → Nat
  | .fakeSubscribe _ _ n _ | .reconnect _ _ n | .wait _ _ n => n + 1
  | .startCheck _ _ n _ => n
  | _ => 0

def Check.budget (c : Check) : Nat := if c.fired then 0 else c.curtime

/-- The retry counter of a call. -/
def RetryPc.curtime : RetryPc → Nat
  | .fakeSubscribe _ _ n _ | .startCheck _ _ n _ | .reconnect _ _ n
  | .wait _ _ n => n
  | _ => 0

theorem decr32_eq {n : Nat} (hpos : 0 < n) (hlt : n < 2 ^ 32) :
    decr32 n = n - 1 := by
  unfold decr32
  omega

namespace RetrySched

variable {t u : RetrySched} {a : Act} {k : RetryPc} {i : Nat} {w : Standin}
variable {next : Option RetryPc}

/-- No retry counter is above its start value, as it would be if one had been
counted below zero. -/
structure Counted (t : RetrySched) : Prop where
  checks : ∀ c ∈ t.shared.checks, c.curtime ≤ clusterReconnectionMaxtimes
  calls : ∀ k ∈ t.threads, k.curtime ≤ clusterReconnectionMaxtimes

/-- What was sent and what may still be sent is within one series for the
session and one for each failure. -/
structure Metered (t : RetrySched) : Prop extends Counted t where
  total : t.shared.sent.length + (t.shared.checks.map Check.budget).sum +
      (t.threads.map RetryPc.budget).sum ≤
    (clusterReconnectionMaxtimes + 1) * (1 + t.shared.failures)

/-- What a block has to keep. -/
theorem Metered.resume (h : Metered t) (hk : t.threads[i]? = some k)
    (hchecks : ∀ c ∈ w.checks, c.curtime ≤ clusterReconnectionMaxtimes)
    (hnext : ∀ k', next = some k' → k'.curtime ≤ clusterReconnectionMaxtimes)
    (hfail : w.failures = t.shared.failures)
    (htotal : w.sent.length + (w.checks.map Check.budget).sum +
        (next.toList.map RetryPc.budget).sum ≤
      t.shared.sent.length + (t.shared.checks.map Check.budget).sum +
        k.budget) :
    Metered (t.resume i w next) where
  checks := by rw [Threads.resume_shared]; exact hchecks
  calls k' hk' := (Threads.mem_resume hk').elim (h.calls k') (hnext k')
  total := by
    have hsum : ((t.resume i w next).threads.map RetryPc.budget).sum +
        k.budget =
      (t.threads.map RetryPc.budget).sum +
        (next.toList.map RetryPc.budget).sum := Threads.sum_resume _ hk
    have hold := h.total
    rw [Threads.resume_shared, hfail]
    omega

theorem Metered.turn (h : Metered t) (hx : t.turn Standin.exec i = some u) :
    Metered u := by
  obtain ⟨k, w, next, hk, hexec, rfl⟩ := Threads.turn_eq_some hx
  have hn := h.calls k (List.mem_of_getElem? hk)
  cases k with
  | fakeSubscribe sid pid n first =>
      cases hexec
      refine h.resume hk h.checks (fun k' hk' => by cases hk'; exact hn) rfl ?_
      simp [RetryPc.budget]
      omega
  | startCheck sid pid n first =>
      cases hexec
      refine h.resume hk (fun c hc => ?_) nofun rfl ?_
      · rcases List.mem_append.mp hc with hold | hnew
        · exact h.checks c hold
        · rw [List.mem_singleton.mp hnew]; exact hn
      · simp [RetryPc.budget, Check.budget]
        omega
  | reconnect sid pid n =>
      cases hexec
      refine h.resume hk h.checks (fun k' hk' => ?_) rfl ?_
      · cases hk'
        split
        · exact hn
        · exact hn
      · split
        · simp [RetryPc.budget]
        · simp [RetryPc.budget]
  | doLeave =>
      cases hexec
      refine h.resume hk h.checks (fun k' hk' => ?_) rfl ?_
      · cases hk'
        split
        · exact Nat.zero_le _
        · exact Nat.zero_le _
      · split
        · simp [RetryPc.budget]
        · simp [RetryPc.budget]
  | leaveReturn =>
      cases hexec
      exact h.resume hk h.checks nofun rfl (Nat.le_refl _)
  | wait | leaveWait => cases hexec

/-- A call begins. -/
theorem Metered.start (h : Metered t) {n : Nat}
    (hk : k.curtime ≤ clusterReconnectionMaxtimes)
    (hn : n + k.budget ≤ (clusterReconnectionMaxtimes + 1) *
      (1 + w.failures))
    (hw : w.sent.length + (w.checks.map Check.budget).sum +
      (t.threads.map RetryPc.budget).sum ≤ n)
    (hchecks : ∀ c ∈ w.checks, c.curtime ≤ clusterReconnectionMaxtimes) :
    Metered (Threads.start k ⟨w, t.threads⟩) where
  checks := hchecks
  calls k' hk' := by
    rcases List.mem_append.mp hk' with hold | hnew
    · exact h.calls k' hold
    · rw [List.mem_singleton.mp hnew]; exact hk
  total := by
    simp only [Threads.start, List.map_append, List.map_cons, List.map_nil,
      List.sum_append, List.sum_cons, List.sum_nil]
    omega

theorem release_budget (k : RetryPc) :
    k.release.budget = k.budget ∧ k.release.curtime = k.curtime := by
  cases k with
  | _ => exact ⟨rfl, rfl⟩

theorem Metered.release (h : Metered t) :
    Metered { t with threads := t.threads.map RetryPc.release } where
  checks := h.checks
  calls k hk := by
    obtain ⟨k₀, hk₀, rfl⟩ := List.mem_map.mp hk
    rw [(release_budget k₀).2]
    exact h.calls k₀ hk₀
  total := by
    have hsame : RetryPc.budget ∘ RetryPc.release = RetryPc.budget :=
      funext fun k => (release_budget k).1
    rw [List.map_map, hsame]
    exact h.total

theorem Metered.exit (h : Metered t) (hx : t.exit i = some u) : Metered u := by
  obtain ⟨hi, -, hw, hthreads⟩ := exit_cases hx
  have hsum := Threads.sum_map_eraseIdx Check.budget
    (List.getElem?_eq_getElem hi)
  have htotal := h.total
  have hgone : Metered { t with shared := u.shared } := by
    rw [hw]
    refine ⟨⟨fun c hc => h.checks c (List.mem_of_mem_eraseIdx hc), h.calls⟩, ?_⟩
    dsimp only
    omega
  obtain ⟨w, l⟩ := u
  rcases hthreads with rfl | rfl
  · exact hgone
  · exact hgone.release

/-- A check goroutine whose timer has fired starts nothing any more. -/
theorem Metered.setFired (h : Metered t) {c d : Check}
    (hc : t.shared.checks[i]? = some c) (hfired : d.fired = true)
    (hn : d.curtime ≤ clusterReconnectionMaxtimes) :
    Metered (t.setChecks (t.shared.checks.set i d)) ∧
      ((t.shared.checks.set i d).map Check.budget).sum + c.budget =
        (t.shared.checks.map Check.budget).sum := by
  have hsum := Threads.sum_map_set (b := d) Check.budget hc
  have hzero : d.budget = 0 := by rw [Check.budget, if_pos hfired]
  have htotal := h.total
  refine ⟨⟨⟨fun e he => ?_, h.calls⟩, ?_⟩, by omega⟩
  · rcases List.mem_or_eq_of_mem_set he with hold | rfl
    · exact h.checks e hold
    · exact hn
  · dsimp only [setChecks]
    omega

theorem Metered.timer (h : Metered t) {ready : Bool}
    (hx : t.timer i ready = some u) : Metered u := by
  obtain ⟨c, hc, hfired, hu⟩ := timer_cases hx
  have hn := h.checks c (List.mem_of_getElem? hc)
  rcases hu with rfl | ⟨hpos, rfl⟩
  · exact (h.setFired (d := { c with fired := true }) hc rfl hn).1
  · have hdecr : decr32 c.curtime = c.curtime - 1 :=
      decr32_eq hpos (Nat.lt_of_le_of_lt hn (by decide))
    have hle : c.curtime - 1 ≤ clusterReconnectionMaxtimes :=
      Nat.le_trans (Nat.sub_le _ _) hn
    rw [hdecr]
    obtain ⟨hset, hsum⟩ := h.setFired (d := { c with
      curtime := c.curtime - 1, fired := true }) hc rfl hle
    have hbudget : c.budget = c.curtime := by rw [Check.budget, hfired]; rfl
    have htotal := h.total
    -- the attempt moves from the goroutine to the call that it spawns
    refine hset.start (n := t.shared.sent.length +
      ((t.shared.checks.set i _).map Check.budget).sum +
      (t.threads.map RetryPc.budget).sum) hle ?_ (Nat.le_refl _) hset.checks
    simp only [RetryPc.budget]
    omega

theorem step_metered (h : Metered t) (hs : step a t = some u) :
    Metered u := by
  cases a with
  | onIceFailed sid pid =>
      cases hs
      have htotal := h.total
      refine h.start (Nat.le_refl _) ?_ htotal h.checks
      simp only [RetryPc.budget]
      rw [Nat.mul_add _ 1 _, Nat.mul_add _ 1 _, Nat.mul_add]
      omega
  | doLeave =>
      simp only [step] at hs
      split at hs
      · cases hs
      · cases hs
        exact h.start (Nat.zero_le _) (Nat.le_refl _) h.total h.checks
  | timer i ready => exact h.timer hs
  | exit i => exact h.exit hs
  | turn i => exact h.turn hs

theorem init_metered (sid pid : String) : Metered (init sid pid) where
  checks := nofun
  calls k hk := by rw [List.mem_singleton.mp hk]; exact Nat.le_refl _
  total := Nat.le_refl _

/-- In every state a stand-in session reaches, the number of `fakesubscribe`
messages is within the bound, and no retry counter has wrapped. -/
theorem attempts_bounded (sid pid : String) (as : List Act) :
    Always step (fun t => t.shared.sent.length ≤
        (clusterReconnectionMaxtimes + 1) * (1 + t.shared.failures) ∧
      Counted t) as (init sid pid) :=
  (always_of_guarded (fun _ _ _ h _ hs => step_metered h hs)
    (guarded_true as _) (init_metered sid pid)).mono
    fun _ h => ⟨by have := h.total; omega, h.toCounted⟩

/-! ## After leaving -/

/-- The check goroutines start no call any more. -/
def spent (t : RetrySched) : Bool :=
  t.shared.checks.all fun c => c.fired || decide (c.curtime = 0)

/-- `DoLeave` returns only when no call is left and the check goroutines, if
any are, start none, and no connection fails after that. -/
def Settled (t : RetrySched) : Act → Prop
  | .turn i => t.threads[i]? = some .leaveReturn →
      t.threads = [.leaveReturn] ∧ t.spent = true
  | .onIceFailed _ _ => t.shared.returned = false
  | _ => True

instance (t : RetrySched) (a : Act) : Decidable (Settled t a) := by
  cases a with
  | turn i =>
      unfold Settled
      infer_instance
  | onIceFailed sid pid =>
      unfold Settled
      infer_instance
  | doLeave | timer | exit => exact .isTrue trivial

/-- Nothing is sent after `DoLeave` has returned. -/
def SilentStep (t : RetrySched) (_ : Act) (u : RetrySched) : Prop :=
  t.shared.returned = true → u.shared.sent = t.shared.sent

/-- Once `DoLeave` has returned nothing is left that could send. The value that
it sends first tells that it has begun. -/
structure Silent (t : RetrySched) : Prop where
  began : ∀ k ∈ t.threads, k = .leaveReturn ∨ k = .leaveWait →
    t.shared.leaving = true
  left : t.shared.returned = true →
    t.shared.leaving = true ∧ t.threads = [] ∧ t.spent = true

theorem spent_set {c : Check} (h : t.spent = true) (hfired : c.fired = true) :
    (t.setChecks (t.shared.checks.set i c)).spent = true := by
  refine List.all_eq_true.mpr fun d hd => ?_
  rcases List.mem_or_eq_of_mem_set hd with hold | rfl
  · exact List.all_eq_true.mp h d hold
  · rw [hfired, Bool.true_or]

theorem spent_erase {w : Standin} (h : t.spent = true)
    (hw : w.checks = t.shared.checks.eraseIdx i) (l : List RetryPc) :
    spent ⟨w, l⟩ = true := by
  refine List.all_eq_true.mpr fun d hd => List.all_eq_true.mp h d ?_
  rw [hw] at hd
  exact List.mem_of_mem_eraseIdx hd

/-- A session that has left has check goroutines at most that are done. -/
theorem step_returned (h : Silent t) (hret : t.shared.returned = true)
    (ha : Settled t a) (hs : step a t = some u) :
    Silent u ∧ u.shared.sent = t.shared.sent := by
  obtain ⟨hleaving, hnone, hspent⟩ := h.left hret
  cases a with
  | onIceFailed sid pid =>
      rw [show t.shared.returned = false from ha] at hret
      cases hret
  | doLeave => simp [step, hleaving] at hs
  | timer i ready =>
      obtain ⟨c, hc, hfired, rfl | ⟨hpos, -⟩⟩ := timer_cases hs
      · exact ⟨⟨h.began, fun _ => ⟨hleaving, hnone, spent_set hspent rfl⟩⟩, rfl⟩
      · have hdone := List.all_eq_true.mp hspent c (List.mem_of_getElem? hc)
        simp [hfired] at hdone
        omega
  | exit i =>
      obtain ⟨-, -, hw, hthreads⟩ := exit_cases hs
      have hgone : u.threads = [] := by
        rw [hnone] at hthreads
        exact hthreads.elim id id
      obtain ⟨w, l⟩ := u
      subst hw hgone
      exact ⟨⟨nofun, fun _ => ⟨hleaving, rfl, spent_erase hspent rfl []⟩⟩, rfl⟩
  | turn i => simp [step, Threads.turn, hnone] at hs

theorem Silent.turn (h : Silent t) (hret : t.shared.returned = false)
    (ha : Settled t (.turn i)) (hx : t.turn Standin.exec i = some u) :
    Silent u := by
  obtain ⟨k, w, next, hk, hexec, rfl⟩ := Threads.turn_eq_some hx
  -- a block other than the return of `DoLeave`
  have hgo : w.returned = false →
      (t.shared.leaving = true → w.leaving = true) →
      (∀ k', next = some k' → k' = .leaveReturn ∨ k' = .leaveWait →
        w.leaving = true) → Silent (t.resume i w next) := by
    intro hw hmono hnext
    refine ⟨fun k' hk' hd => ?_, fun hr => ?_⟩
    · rw [Threads.resume_shared]
      rcases Threads.mem_resume hk' with hold | hnew
      · exact hmono (h.began k' hold hd)
      · exact hnext k' hnew hd
    · rw [Threads.resume_shared, hw] at hr
      cases hr
  cases k with
  | fakeSubscribe sid pid n first =>
      cases hexec
      exact hgo hret id fun k' hk' hd => by cases hk'; cases hd <;> contradiction
  | startCheck sid pid n first =>
      cases hexec
      exact hgo hret id nofun
  | reconnect sid pid n =>
      cases hexec
      refine hgo hret id fun k' hk' hd => ?_
      cases hk'
      split at hd
      · cases hd <;> contradiction
      · cases hd <;> contradiction
  | doLeave =>
      cases hexec
      exact hgo hret (fun _ => rfl) fun _ _ _ => rfl
  | leaveReturn =>
      cases hexec
      obtain ⟨honly, hspent⟩ := ha hk
      have hleaving := h.began _ (List.mem_of_getElem? hk) (.inl rfl)
      have hi : i = 0 := by
        have hlt := (List.getElem?_eq_some_iff.mp hk).1
        rw [honly] at hlt
        simpa using hlt
      subst hi
      have hgone : (t.resume 0 { t.shared with returned := true }
          none).threads = [] := by
        rw [Threads.resume, honly]
        rfl
      refine ⟨fun k hk' => ?_, fun _ => ⟨hleaving, hgone, hspent⟩⟩
      rw [hgone] at hk'
      cases hk'
  | wait | leaveWait => cases hexec

theorem Silent.start (h : Silent t)
    (hw : w.leaving = t.shared.leaving) (hr : w.returned = false)
    (hk : k ≠ .leaveReturn ∧ k ≠ .leaveWait) :
    Silent (Threads.start k ⟨w, t.threads⟩) where
  began k' hk' hd := by
    show w.leaving = true
    rw [hw]
    rcases List.mem_append.mp hk' with hold | hnew
    · exact h.began k' hold hd
    · rw [List.mem_singleton.mp hnew] at hd
      exact absurd hd (not_or.mpr hk)
  left hret' := by
    rw [show w.returned = true from hret'] at hr
    cases hr

theorem step_silent (h : Silent t) (ha : Settled t a)
    (hs : step a t = some u) : Silent u ∧ SilentStep t a u := by
  cases hret : t.shared.returned with
  | true =>
      obtain ⟨hu, hsent⟩ := step_returned h hret ha hs
      exact ⟨hu, fun _ => hsent⟩
  | false =>
      refine ⟨?_, fun h => by rw [hret] at h; cases h⟩
      have hset : ∀ l, Silent (t.setChecks l) := fun l =>
        ⟨h.began, fun hr => by
          rw [show (t.setChecks l).shared.returned = t.shared.returned from rfl,
            hret] at hr
          cases hr⟩
      cases a with
      | onIceFailed sid pid =>
          cases hs
          exact h.start rfl hret ⟨nofun, nofun⟩
      | doLeave =>
          simp only [step] at hs
          split at hs
          · cases hs
          · cases hs
            exact h.start rfl hret ⟨nofun, nofun⟩
      | timer i ready =>
          obtain ⟨c, -, -, rfl | ⟨-, rfl⟩⟩ := timer_cases hs
          · exact hset _
          · exact (hset _).start rfl hret ⟨nofun, nofun⟩
      | exit i =>
          obtain ⟨-, -, hw, hthreads⟩ := exit_cases hs
          refine ⟨fun k hk hd => ?_, fun hr => by
            rw [hw, hret] at hr
            cases hr⟩
          rw [hw]
          rcases hthreads with hsame | hrel
          · rw [hsame] at hk
            exact h.began k hk hd
          · rw [hrel] at hk
            obtain ⟨k₀, hk₀, rfl⟩ := List.mem_map.mp hk
            refine h.began k₀ hk₀ ?_
            cases k₀ with
            | leaveWait => exact .inr rfl
            | leaveReturn => exact .inl rfl
            | _ => cases hd <;> contradiction
      | turn i => exact h.turn hret ha hs

theorem init_silent (sid pid : String) : Silent (init sid pid) where
  began k hk hd := by
    rw [List.mem_singleton.mp hk] at hd
    cases hd <;> contradiction
  left := nofun

/-- In every run in which nothing is left to do when `DoLeave` returns and no
connection fails after that, nothing is sent after it. -/
theorem silent_of_settled {sid pid : String} {as : List Act}
    (hg : Guarded step Settled as (init sid pid)) :
    AlwaysStep step SilentStep as (init sid pid) :=
  alwaysStep_of_guarded (fun a _ _ h ha hs => step_silent (a := a) h ha hs) hg
    (init_silent sid pid)

/-- The timer of the check goroutine fires, and `DoLeave` returns before the
call that it spawned has begun. -/
def leftBehind : List Act :=
  [.turn 0, .turn 0, .timer 0 false, .doLeave, .turn 1, .exit 0, .turn 1]

theorem asks_after_leaving :
    ∃ t u, run step (leftBehind ++ [.turn 0]) (init "u" "1") = some t ∧
      t.shared.returned = true ∧ step (.turn 0) t = some u ∧
      u.shared.sent = t.shared.sent ++ [("u", "1")] ∧
      ¬SilentStep t (.turn 0) u := by
  have h : ((run step (leftBehind ++ [.turn 0]) (init "u" "1")).bind fun t =>
      (step (.turn 0) t).map fun u =>
        (t.shared.returned, t.shared.sent, u.shared.sent)) =
      some (true, [("u", "1")], [("u", "1"), ("u", "1")]) := by decide
  obtain ⟨t, ht, hrest⟩ := Option.bind_eq_some_iff.mp h
  obtain ⟨u, hu, hfacts⟩ := Option.map_eq_some_iff.mp hrest
  simp only [Prod.mk.injEq] at hfacts
  obtain ⟨hret, hbefore, hafter⟩ := hfacts
  refine ⟨t, u, ht, hret, hu, by rw [hbefore, hafter]; rfl, fun hsilent => ?_⟩
  have hsame := hsilent hret
  rw [hbefore, hafter] at hsame
  cases hsame

/-- The last retry is over before `DoLeave` returns, and its timer fires after
that. -/
theorem silent_retryOver :
    let again := [.timer 0 false, .turn 0, .exit 0, .turn 0, .turn 0]
    let as := [.turn 0, .turn 0] ++ again ++ again ++ [.timer 0 false,
      .doLeave, .turn 0, .turn 1, .exit 0, .turn 0, .turn 0, .turn 0]
    (run step as (init "u" "1")).map (fun t => (t.shared.returned,
      t.shared.sent.length, t.shared.checks.length)) = some (true, 4, 1) ∧
    (run step (as ++ [.timer 0 false, .exit 0]) (init "u" "1")).map (fun t =>
      (t.shared.sent.length, t.shared.checks.length)) = some (4, 0) ∧
    AlwaysStep step SilentStep (as ++ [.timer 0 false, .exit 0])
      (init "u" "1") :=
  ⟨by decide, by decide, silent_of_settled (by decide)⟩

/-! ## The same calls run to their end

`Session.lean` has the check goroutines in the session and runs these calls
one at a time. A timer does the same there, and a `FakePublisherReConnect`
that gets all the turns leaves the same check goroutine behind. -/

/-- A call that a check goroutine has spawned, as the pod has it. -/
def spawnedCall (s : SessRef) : RetryPc → Option Goroutine
  | .reconnect sid pid n => some (.fakePublisherReConnect s sid pid n)
  | _ => none

theorem checkTimer_refines {p : Pod} {s : SessRef} {c : Check}
    (hsame : (p.sess s).checks = t.shared.checks) (hcount : Counted t)
    (hc : t.shared.checks[i]? = some c) (hfired : c.fired = false) :
    ∃ ready u, step (.timer i ready) t = some u ∧
      ((p.checkTimer s i).sess s).checks = u.shared.checks ∧
      (p.checkTimer s i).pending = p.pending ++
        (u.threads.drop t.threads.length).filterMap (spawnedCall s) := by
  have hn := hcount.checks c (List.mem_of_getElem? hc)
  have hset : ∀ d, ((p.setCheck s i d).sess s).checks =
      t.shared.checks.set i d := by
    intro d
    rw [← hsame, Pod.setCheck, Pod.setSess, Pod.sess, Heap.modify_cell_self]
    rfl
  have hfires : ∀ ready : Bool, ∃ u, step (.timer i ready) t = some u ∧
      let q := if ready then p.setCheck s i { c with fired := true }
        else if 0 < c.curtime then
          (p.setCheck s i { c with curtime := c.curtime - 1, fired := true }).go
            (.fakePublisherReConnect s c.sid c.pid (c.curtime - 1))
        else p.setCheck s i { c with fired := true }
      (q.sess s).checks = u.shared.checks ∧
      q.pending = p.pending ++
        (u.threads.drop t.threads.length).filterMap (spawnedCall s) := by
    intro ready
    simp only [step, RetrySched.timer, hc, hfired, Bool.false_eq_true, if_false]
    split
    · exact ⟨_, rfl, hset _, by simp [setChecks, Pod.setCheck, Pod.setSess]⟩
    · split
      · next hpos =>
          rw [decr32_eq hpos (Nat.lt_of_le_of_lt hn (by decide))]
          exact ⟨_, rfl, hset _, by simp [setChecks, Threads.start,
            spawnedCall, Pod.setCheck, Pod.setSess, Pod.go]⟩
      · exact ⟨_, rfl, hset _, by simp [setChecks, Pod.setCheck, Pod.setSess]⟩
  rw [Pod.checkTimer, hsame, hc]
  dsimp only
  rw [if_neg (by simp [hfired])]
  exact ⟨_, hfires _⟩

/-- All check goroutines return, and the calls that wait go on. -/
theorem run_exits {n : Nat} (hn : w.checks.length = n + 1)
    (htok : n + 1 ≤ w.tokens) (l : List RetryPc) :
    run step (List.replicate (n + 1) (.exit 0)) ⟨w, l⟩ =
      some ⟨{ w with checks := [], tokens := w.tokens - (n + 1) },
        l.map RetryPc.release⟩ := by
  induction n generalizing w with
  | zero =>
      obtain ⟨c, hc⟩ := List.length_eq_one_iff.mp hn
      simp [run, step, RetrySched.exit, hc, show 0 < w.tokens from htok]
  | succ n ih =>
      cases hc : w.checks with
      | nil => rw [hc] at hn; cases hn
      | cons c rest =>
          rw [hc] at hn
          have hrest : rest.length = n + 1 := Nat.succ.inj hn
          have hne : rest ≠ [] := List.ne_nil_of_length_eq_add_one hrest
          have hpos : 0 < w.tokens := by omega
          rw [List.replicate_succ, run]
          simp only [step, RetrySched.exit, hc, List.length_cons,
            Nat.zero_lt_succ, hpos, and_self, if_true, List.eraseIdx_zero,
            List.tail_cons, hne, if_false, Option.bind_some]
          rw [ih (w := { w with checks := rest, tokens := w.tokens - 1 }) hrest
            (by dsimp only; omega)]
          simp only [Nat.sub_sub, Nat.add_comm 1]

/-- A `FakePublisherReConnect` on its own, with a value for every check
goroutine but one. -/
theorem reconnect_alone {p : Pod} {s : SessRef} {sid pid : String} {n : Nat}
    (hfake : (p.sess s).origin = false)
    (hbal : w.checks.length = w.tokens + 1) :
    ∃ w', run step (.turn 0 :: List.replicate w.checks.length (.exit 0) ++
        [.turn 0, .turn 0]) ⟨w, [.reconnect sid pid n]⟩ = some ⟨w', []⟩ ∧
      w'.checks = ((p.fakePublisherReConnect s sid pid n).sess s).checks ∧
      w'.sent = w.sent ++ [(sid, pid)] := by
  have hne : w.checks ≠ [] := List.ne_nil_of_length_eq_add_one hbal
  have hwait : step (.turn 0) ⟨w, [.reconnect sid pid n]⟩ =
      some ⟨{ w with tokens := w.tokens + 1 }, [.wait sid pid n]⟩ := by
    simp [step, Threads.turn, Threads.resume, Standin.exec, hne]
  have hchecks : ((p.fakePublisherReConnect s sid pid n).sess s).checks =
      [⟨sid, pid, n, false⟩] := by
    rw [Pod.fakePublisherReConnect, hfake]
    simp [Pod.fakeSubscribe, Pod.waitChecks, Pod.setSess, Pod.sess, Pod.emit,
      apply_ite]
  have hexits := run_exits (w := { w with tokens := w.tokens + 1 }) hbal
    (Nat.le_refl _) [.wait sid pid n]
  rw [hchecks, hbal, List.cons_append, run, hwait, Option.bind_some, run_append,
    hexits]
  exact ⟨_, rfl, rfl, rfl⟩

end RetrySched

end MediaServer.Ref
