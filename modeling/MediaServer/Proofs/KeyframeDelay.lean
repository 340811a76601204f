import MediaServer.Lib.Word
import MediaServer.Ref.Keyframe
import MediaServer.Ref.WallClock

/-!
# The delay of a cached request

A request that comes too early is cached, and all further ones are dropped
until a timer has fired. The timer is set for the rest of the interval, which
is computed from the time of the last request and the present one. Both are
readings of the wall clock. If the clock was set back between them, the
difference is negative: the request counts as early, and the rest of the
interval is longer than the interval by as much as the clock was set back.

As long as it does not go back, `Keyframe.lean` and the words of the source
agree.
-/

namespace MediaServer.Ref

open MediaServer.Lib

namespace ClockFilter

variable {f : ClockFilter} {curr : Int64}

/-- The request is neither dropped nor sent at once. -/
def Deferred (f : ClockFilter) (curr : Int64) : Prop :=
  f.cached = false ∧ f.due curr = false

instance (f : ClockFilter) (curr : Int64) : Decidable (f.Deferred curr) :=
  inferInstanceAs (Decidable (_ ∧ _))

/-- What a deferred request does: it is cached, and the timer, if the filter
is running, is set for the delay. -/
theorem tryRequestKeyframe_deferred (h : f.Deferred curr) :
    f.tryRequestKeyframe curr =
      { f with cached := true }.refreshMaxIntervalTimer (f.delay curr) := by
  rw [tryRequestKeyframe, h.1, h.2]
  rfl

/-- The differences that the test and the delay are computed from are exact. -/
structure Exact (f : ClockFilter) (curr : Int64) : Prop where
  elapsed : Fits (curr.toInt - f.lasttime.toInt)
  rest : Fits (minInterval.toInt - curr.toInt)
  delay : Fits (minInterval.toInt - curr.toInt + f.lasttime.toInt)

/-- The delay is positive, at most the interval, and computed without
overflow. -/
structure Bounded (f : ClockFilter) (curr : Int64) : Prop where
  pos : 0 < f.delay curr
  le : f.delay curr ≤ minInterval
  exact : f.Exact curr

/-- The clock has not gone back since the last request, by the exact
difference the interval is not over, and the reading is not at the very
beginning of the 64-bit range. -/
structure Steady (f : ClockFilter) (curr : Int64) : Prop where
  forth : f.lasttime.toInt ≤ curr.toInt
  early : curr.toInt < f.lasttime.toInt + minInterval.toInt
  late : minInterval.toInt - 2 ^ 63 < curr.toInt

theorem minInterval_toInt : minInterval.toInt = 2000000000 := rfl

theorem Exact.delay_toInt (h : f.Exact curr) :
    (f.delay curr).toInt =
      minInterval.toInt - curr.toInt + f.lasttime.toInt := by
  have hrest := toInt_sub_of_fits h.rest
  rw [ClockFilter.delay, toInt_add_of_fits (by rw [hrest]; exact h.delay),
    hrest]

theorem Exact.due_iff (h : f.Exact curr) :
    f.due curr = true ↔
      minInterval.toInt ≤ curr.toInt - f.lasttime.toInt := by
  rw [due, decide_eq_true_iff, ge_iff_le, Int64.le_iff_toInt_le,
    toInt_sub_of_fits h.elapsed]

theorem Steady.exact (h : f.Steady curr) : f.Exact curr := by
  obtain ⟨hforth, hearly, hlate⟩ := h
  have hcurr := fits_toInt curr
  simp only [minInterval_toInt, Fits] at *
  refine ⟨?_, ?_, ?_⟩
  · simp only [Fits]; omega
  · simp only [minInterval_toInt, Fits]; omega
  · simp only [minInterval_toInt, Fits]; omega

theorem bounded_iff_steady (f : ClockFilter) (curr : Int64) :
    f.Bounded curr ↔ f.Steady curr := by
  constructor
  · intro h
    have hdelay := h.exact.delay_toInt
    have hpos := Int64.lt_iff_toInt_lt.mp h.pos
    have hle := Int64.le_iff_toInt_le.mp h.le
    have hrest := h.exact.rest.2
    rw [hdelay] at hpos hle
    have hzero : (0 : Int64).toInt = 0 := rfl
    refine ⟨?_, ?_, ?_⟩
    · omega
    · omega
    · omega
  · intro h
    have hdelay := h.exact.delay_toInt
    have hforth := h.forth
    have hearly := h.early
    have hzero : (0 : Int64).toInt = 0 := rfl
    refine ⟨?_, ?_, h.exact⟩
    · rw [Int64.lt_iff_toInt_lt, hdelay]
      omega
    · rw [Int64.le_iff_toInt_le, hdelay]
      omega

/-- A deferred request sets the timer for its delay, and that is in bounds
exactly if the clock was steady. -/
theorem deferred_delay_iff (f : ClockFilter) (curr : Int64)
    (h : f.Deferred curr) :
    f.tryRequestKeyframe curr =
        { f with cached := true }.refreshMaxIntervalTimer (f.delay curr) ∧
      (f.Bounded curr ↔ f.Steady curr) :=
  ⟨tryRequestKeyframe_deferred h, bounded_iff_steady f curr⟩

/-- A publisher of this pod whose last request was at `lasttime`. -/
def requestedAt (lasttime : Int64) : ClockFilter :=
  { create true with
    lasttime := lasttime, timer := true, armed := some maxInterval
    sendRequestKeyframe := true }

/-- A second after a request of November 2023. -/
theorem deferred_delay_second :
    (requestedAt 1700000000000000000).Deferred 1700000001000000000 ∧
      (requestedAt 1700000000000000000).Bounded 1700000001000000000 :=
  ⟨by decide, ((deferred_delay_iff _ 1700000001000000000 (by decide)).2).mpr
    ⟨by decide, by decide, by decide⟩⟩

/-- The clock is set back by an hour after a request: the next one is deferred
for an hour and two seconds. -/
theorem set_back_postpones :
    run step [.startup, .tryRequestKeyframe 1700000000000000000,
        .requestKeyframeNow 1700000000000000000] (create true) =
        some (requestedAt 1700000000000000000) ∧
      (requestedAt 1700000000000000000).Deferred 1699996400000000000 ∧
      (requestedAt 1700000000000000000).delay 1699996400000000000 =
        3602000000000 ∧
      ¬(requestedAt 1700000000000000000).Bounded 1699996400000000000 :=
  ⟨by decide, by decide, by decide, fun h => absurd h.le (by decide)⟩

/-! ## The filter with unbounded times -/

/-- The same filter, with the times of `Keyframe.lean`. -/
structure Agrees (f : ClockFilter) (g : KeyframeFilter) : Prop where
  tick : f.tick = g.tick
  cached : f.cached = g.cached
  lasttime : f.lasttime.toInt = g.lasttime
  timer : f.timer = g.timer.isSome
  send : f.sendRequestKeyframe = g.sendRequestKeyframe
  spawned : f.spawned = g.spawned
  fatal : f.fatal = g.fatal

variable {g : KeyframeFilter}

theorem Agrees.exact (h : Agrees f g) (hcurr : curr.toInt = g.now)
    (hpos : 0 ≤ g.lasttime) (hle : g.lasttime ≤ g.now) : f.Exact curr := by
  have hfits := fits_toInt curr
  have hlast := h.lasttime
  rw [hcurr] at hfits
  refine ⟨?_, ?_, ?_⟩
  · rw [hcurr, hlast]
    simp only [Fits] at *
    omega
  · rw [hcurr, minInterval_toInt]
    simp only [Fits] at *
    omega
  · rw [hcurr, hlast, minInterval_toInt]
    simp only [Fits] at *
    omega

theorem Agrees.refresh (h : Agrees f g) (d : Int64) (e : Int) :
    Agrees (f.refreshMaxIntervalTimer d) (g.refreshMaxIntervalTimer e) := by
  obtain ⟨htick, hcached, hlast, htimer, hsend, hspawned, hfatal⟩ := h
  unfold refreshMaxIntervalTimer KeyframeFilter.refreshMaxIntervalTimer
  by_cases hs : g.sendRequestKeyframe = true
  · rw [if_pos (hsend.trans hs), if_neg (by simp [hs])]
    split
    · exact ⟨htick, hcached, hlast, rfl, hsend, hspawned, hfatal⟩
    · next i hi =>
        refine ⟨htick, hcached, hlast, ?_, hsend, hspawned, hfatal⟩
        exact (congrArg Option.isSome hi).symm
  · rw [if_neg (hsend ▸ hs), if_pos (by simpa using hs)]
    exact ⟨htick, hcached, hlast, htimer, hsend, hspawned, hfatal⟩

/-- With a clock that does not go back, a request does the same in words, and
the delay is the same. -/
theorem Agrees.tryRequestKeyframe (h : Agrees f g)
    (hcurr : curr.toInt = g.now) (hpos : 0 ≤ g.lasttime)
    (hle : g.lasttime ≤ g.now) :
    Agrees (f.tryRequestKeyframe curr) g.tryRequestKeyframe ∧
      (f.delay curr).toInt = Ref.minInterval - g.now + g.lasttime := by
  have hexact := h.exact hcurr hpos hle
  have hmin : minInterval.toInt = Ref.minInterval := rfl
  have hdue := hexact.due_iff
  rw [hcurr, h.lasttime, hmin] at hdue
  constructor
  · unfold ClockFilter.tryRequestKeyframe KeyframeFilter.tryRequestKeyframe
    by_cases hc : g.cached = true
    · rw [if_pos (h.cached.trans hc), if_pos hc]
      exact h
    · rw [if_neg (h.cached ▸ hc), if_neg hc]
      by_cases hd : g.now - g.lasttime ≥ Ref.minInterval
      · rw [if_pos (hdue.mpr hd), if_pos hd]
        exact ⟨h.tick, h.cached, h.lasttime, h.timer, h.send,
          congrArg (· + 1) h.spawned, h.fatal⟩
      · rw [if_neg (mt hdue.mp hd), if_neg hd]
        refine Agrees.refresh ?_ _ _
        exact ⟨h.tick, rfl, h.lasttime, h.timer, h.send, h.spawned, h.fatal⟩
  · rw [hexact.delay_toInt, hcurr, h.lasttime, hmin]

theorem Agrees.requestKeyframeNow (h : Agrees f g)
    (hcurr : curr.toInt = g.now) :
    Agrees (f.requestKeyframeNow curr) g.requestKeyframeNow := by
  have hsent : Agrees { f with lasttime := curr, cached := false }
      { g with
        sends := g.sends ++ [g.now], lasttime := g.now, cached := false } :=
    ⟨h.tick, rfl, hcurr, h.timer, h.send, h.spawned, h.fatal⟩
  unfold ClockFilter.requestKeyframeNow KeyframeFilter.requestKeyframeNow
  by_cases hs : g.sendRequestKeyframe = true
  · have hsf : ¬(!f.sendRequestKeyframe) = true := by simp [h.send, hs]
    have hsg : ¬(!g.sendRequestKeyframe) = true := by simp [hs]
    rw [if_neg hsf, if_neg hsg]
    by_cases ht : g.tick = true
    · rw [if_pos (h.tick.trans ht), if_pos ht]
      exact hsent.refresh _ _
    · rw [if_neg (h.tick ▸ ht), if_neg ht]
      exact hsent
  · have hsf : (!f.sendRequestKeyframe) = true := by simpa [h.send] using hs
    have hsg : (!g.sendRequestKeyframe) = true := by simpa using hs
    rw [if_pos hsf, if_pos hsg]
    exact ⟨h.tick, h.cached, h.lasttime, h.timer, h.send, h.spawned, rfl⟩

end ClockFilter

end MediaServer.Ref
