import Mathlib.Data.List.Chain
import MediaServer.Ref.Keyframe

/-!
# When keyframes are asked for

`Pace` is what the filter is about, without its timers and goroutines: the
time of the last request that was sent, whether another one is remembered,
when the timer fires, and how many requests are under way. `Pace.Step` lists
all that can happen to it, and `step_pace` says that the filter does nothing
else while it is started. Both results of this module are invariants of
`Pace`.

All this is about a `Startup` that finds the filter down and is not
interrupted. Then no request is lost: whoever is remembered has a request under
way or a timer that will start one in time. A second `Startup` without a
`Shutdown` in between puts another timer in the place of the one that the
remembered request waits for. And the distance of two seconds is only kept if
a request is started while no other is under way, because `lasttime` does not
change before the first of them is sent.
-/

namespace MediaServer.Ref

open MediaServer.Lib

namespace KeyframeFilter

variable {f g : KeyframeFilter}

/-- When the timer of the filter fires. -/
def deadline (f : KeyframeFilter) : Option Int :=
  f.timer.bind fun i => (f.timers.cell i).deadline

/-- The timer has fired and nobody has taken the value yet. -/
def ready (f : KeyframeFilter) : Bool :=
  f.timer.any fun i => (f.timers.cell i).ready

/-- A `requestKeyframeNow` is under way, spawned or about to be. -/
def pending (f : KeyframeFilter) : Bool := 0 < f.spawned || f.ready

end KeyframeFilter

/-- The filter without its timers and goroutines. -/
structure Pace where
  tick : Bool
  cached : Bool
  lasttime : Int
  deadline : Option Int
  ready : Bool
  spawned : Nat
  sends : List Int
  now : Int

namespace Pace

def pending (p : Pace) : Bool := 0 < p.spawned || p.ready

def advance (now : Int) (p : Pace) : Pace := { p with now := now }

/-- What can happen to a filter that is started; `G` has to hold where a
request is started. -/
inductive Step (G : Pace → Prop) (p : Pace) : Pace → Prop where
  | idle : Step G p p
  | asks (hc : p.cached = false) (hlong : p.lasttime + minInterval ≤ p.now)
      (hG : G p) : Step G p { p with spawned := p.spawned + 1 }
  | caches (hc : p.cached = false) (hshort : p.now < p.lasttime + minInterval) :
      Step G p { p with
        cached := true, deadline := some (p.lasttime + minInterval) }
  | fires {d : Int} (hd : p.deadline = some d) (hdue : d ≤ p.now) (hG : G p) :
      Step G p { p with deadline := none, ready := true }
  | takes (hr : p.ready = true) :
      Step G p { p with ready := false, spawned := p.spawned + 1 }
  | sends (hs : 0 < p.spawned) :
      Step G p { p with
        spawned := p.spawned - 1
        sends := p.sends ++ [p.now]
        lasttime := p.now
        cached := false
        deadline := if p.tick then some (p.now + maxInterval) else p.deadline }

end Pace

namespace KeyframeFilter

variable {f g : KeyframeFilter} {a : Int × FilterAct} {G : Pace → Prop}

def pace (f : KeyframeFilter) : Pace where
  tick := f.tick
  cached := f.cached
  lasttime := f.lasttime
  deadline := f.deadline
  ready := f.ready
  spawned := f.spawned
  sends := f.sends
  now := f.now

/-- The filter is started, and nobody waits for any other timer than its
own. -/
structure Owns (f : KeyframeFilter) : Prop where
  send : f.sendRequestKeyframe = true
  waits : ∀ i, some i ∈ f.loops → f.timer = some i

/-! ## The filter does what `Pace` does -/

theorem startDelayTimer_pace (ho : Owns f) (hnone : f.timer = none) (d : Int) :
    Owns (f.startDelayTimer d) ∧
      (f.startDelayTimer d).pace =
        { f.pace with deadline := some (f.now + d) } := by
  refine ⟨⟨ho.send, fun i hi => ?_⟩, ?_⟩
  · have hold : some i ∈ f.loops := by simpa [startDelayTimer] using hi
    have htimer := ho.waits i hold
    rw [hnone] at htimer
    cases htimer
  · simp [pace, startDelayTimer, deadline, ready, hnone]

theorem refreshMaxIntervalTimer_pace (ho : Owns f) (d : Int) :
    Owns (f.refreshMaxIntervalTimer d) ∧
      (f.refreshMaxIntervalTimer d).pace =
        { f.pace with deadline := some (f.now + d) } := by
  unfold refreshMaxIntervalTimer
  rw [if_neg (by simp [ho.send])]
  split
  · next hnone => exact startDelayTimer_pace ho hnone d
  · next i hi =>
      refine ⟨⟨ho.send, ho.waits⟩, ?_⟩
      simp [pace, deadline, ready, hi, Timer.reset]

theorem tryRequestKeyframe_pace (ho : Owns f)
    (hG : f.cached = false → f.lasttime + minInterval ≤ f.now → G f.pace) :
    Owns f.tryRequestKeyframe ∧ Pace.Step G f.pace f.tryRequestKeyframe.pace := by
  unfold tryRequestKeyframe
  split
  · exact ⟨ho, .idle⟩
  · next hc =>
      have hc : f.cached = false := Bool.eq_false_iff.mpr hc
      split
      · next hlong =>
          have hlong : f.lasttime + minInterval ≤ f.now := by omega
          exact ⟨⟨ho.send, ho.waits⟩, .asks hc hlong (hG hc hlong)⟩
      · next hshort =>
          obtain ⟨howns, hpace⟩ := refreshMaxIntervalTimer_pace
            (f := { f with cached := true }) ⟨ho.send, ho.waits⟩
            (minInterval - f.now + f.lasttime)
          have hd : f.now + (minInterval - f.now + f.lasttime) =
              f.lasttime + minInterval := by omega
          refine ⟨howns, ?_⟩
          rw [hpace]
          simp only [hd]
          exact .caches (p := f.pace) hc (Int.not_le.mp fun h => hshort
            (by have h : f.lasttime + minInterval ≤ f.now := h; omega))

theorem requestKeyframeNow_pace (ho : Owns f) (hs : 0 < f.spawned) :
    Owns { f with spawned := f.spawned - 1 }.requestKeyframeNow ∧
      Pace.Step G f.pace
        { f with spawned := f.spawned - 1 }.requestKeyframeNow.pace := by
  have hsend := Pace.Step.sends (G := G) (p := f.pace) hs
  unfold requestKeyframeNow
  rw [if_neg (by simp [ho.send])]
  dsimp only
  split
  · next htick =>
      have htick : f.pace.tick = true := htick
      rw [if_pos htick] at hsend
      obtain ⟨howns, hpace⟩ := refreshMaxIntervalTimer_pace
        (f := { f with
          spawned := f.spawned - 1, sends := f.sends ++ [f.now]
          lasttime := f.now, cached := false }) ⟨ho.send, ho.waits⟩ maxInterval
      exact ⟨howns, by rw [hpace]; exact hsend⟩
  · next htick =>
      have htick : ¬f.pace.tick = true := htick
      rw [if_neg htick] at hsend
      exact ⟨⟨ho.send, ho.waits⟩, hsend⟩

/-- A timer that is not the filter's own may fire too, but nobody hears it. -/
theorem expire_pace (ho : Owns f) {i : Nat}
    (hdue : (f.timers.cell i).due f.now = true)
    (hG : f.timer = some i → G f.pace) :
    Owns { f with timers := f.timers.modify i Timer.expire } ∧
      Pace.Step G f.pace
        { f with timers := f.timers.modify i Timer.expire }.pace := by
  refine ⟨⟨ho.send, ho.waits⟩, ?_⟩
  by_cases hi : f.timer = some i
  · obtain ⟨d, hd, hle⟩ : ∃ d, (f.timers.cell i).deadline = some d ∧
        d ≤ f.now := by
      unfold Timer.due at hdue
      split at hdue
      · next d hd => exact ⟨d, hd, of_decide_eq_true hdue⟩
      · cases hdue
    have hfire := Pace.Step.fires (G := G) (p := f.pace) (d := d)
      (by rw [pace, deadline, hi]; exact hd) hle (hG hi)
    have hpace : { f with timers := f.timers.modify i Timer.expire }.pace =
        { f.pace with deadline := none, ready := true } := by
      simp [pace, deadline, ready, hi, Timer.expire]
    rw [hpace]
    exact hfire
  · have hpace : { f with timers := f.timers.modify i Timer.expire }.pace =
        f.pace := by
      cases ht : f.timer with
      | none => simp [pace, deadline, ready, ht]
      | some j =>
          have hne : j ≠ i := fun h => hi (by rw [ht, h])
          simp [pace, deadline, ready, ht, Heap.modify_cell_of_ne _ _ hne]
    rw [hpace]
    exact .idle

theorem receive_pace (ho : Owns f) {i l : Nat}
    (hl : f.loops[l]? = some (some i))
    (hr : (f.timers.cell i).ready = true) :
    let g := { f with
      timers := f.timers.modify i Timer.receive
      loops := f.loops.set l none
      spawned := f.spawned + 1 }
    Owns g ∧ Pace.Step G f.pace g.pace := by
  have hi : f.timer = some i := ho.waits i (List.mem_of_getElem? hl)
  refine ⟨⟨ho.send, fun j hj => ?_⟩, ?_⟩
  · exact ho.waits j ((List.mem_or_eq_of_mem_set hj).resolve_right nofun)
  · have htake := Pace.Step.takes (G := G) (p := f.pace)
      (by rw [pace, ready, hi]; exact hr)
    have hpace : { f with
          timers := f.timers.modify i Timer.receive
          loops := f.loops.set l none
          spawned := f.spawned + 1 }.pace =
        { f.pace with ready := false, spawned := f.spawned + 1 } := by
      simp [pace, deadline, ready, hi, Timer.receive]
    rw [hpace]
    exact htake

/-- The action starts a request, if it is not refused. -/
def starts (f : KeyframeFilter) (a : Int × FilterAct) : Bool :=
  match a.2 with
  | .tryRequestKeyframe =>
      !f.cached && decide (f.lasttime + minInterval ≤ a.1)
  | .expire i => f.timer = some i
  | _ => false

theorem select_pace (ho : Owns f) (l : Nat) :
    Owns (f.select l) ∧ (f.select l).pace = f.pace := by
  unfold select
  split
  · next i hi =>
      refine ⟨⟨ho.send, fun j hj => ?_⟩, rfl⟩
      rcases List.mem_or_eq_of_mem_set hj with hold | hnew
      · exact ho.waits j hold
      · rw [hnew]
        exact hi
  · exact ⟨⟨ho.send, ho.waits⟩, rfl⟩

theorem act_pace (ho : Owns f) {b : FilterAct}
    (hG : f.starts (f.now, b) = true → G f.pace) (h : f.act b = some g) :
    Owns g ∧ Pace.Step G f.pace g.pace := by
  cases act_cases h with
  | tryRequestKeyframe =>
      refine tryRequestKeyframe_pace ho fun hc hlong => hG ?_
      simp [starts, hc, hlong]
  | expire i due =>
      refine expire_pace ho due fun hi => hG ?_
      simp [starts, hi]
  | select l =>
      obtain ⟨howns, hpace⟩ := select_pace ho l
      exact ⟨howns, by rw [hpace]; exact .idle⟩
  | receive l i waits ready => exact receive_pace ho waits ready
  | exit l =>
      exact ⟨⟨ho.send, fun i hi => ho.waits i (List.mem_of_mem_eraseIdx hi)⟩,
        .idle⟩
  | requestKeyframeNow spawned => exact requestKeyframeNow_pace ho spawned

/-- What a step of the filter does: the clock goes on, and then one of the
things happens that `Pace.Step` lists. -/
theorem step_pace (ho : Owns f)
    (hG : f.starts a = true → G (f.pace.advance a.1))
    (h : step a f = some g) :
    f.now ≤ a.1 ∧ Owns g ∧ Pace.Step G (f.pace.advance a.1) g.pace := by
  unfold step at h
  split at h
  · cases h
  · next hok =>
      have hle : f.now ≤ a.1 := by
        rw [not_or] at hok
        exact Int.not_lt.mp hok.2
      exact ⟨hle, act_pace (f := f.advance a.1) ⟨ho.send, ho.waits⟩ hG h⟩

theorem startup_owns (hf : f.Down) :
    Owns f.startup ∧
      f.startup.pace =
        ⟨f.tick, false, f.lasttime,
          if f.tick then some (f.now + maxInterval) else none, false,
          f.spawned, f.sends, f.now⟩ := by
  have howns : Owns f.setSend :=
    ⟨rfl, fun i hi => by rw [setSend, hf.loops] at hi; cases hi⟩
  have hpace : f.setSend.pace = ⟨f.tick, false, f.lasttime, none, false,
      f.spawned, f.sends, f.now⟩ := by
    simp [pace, deadline, ready, setSend, hf.timer, hf.cached]
  unfold startup startTicking
  split
  · next htick =>
      have htick : f.tick = true := htick
      obtain ⟨howns', hpace'⟩ := startDelayTimer_pace howns hf.timer maxInterval
      refine ⟨howns', ?_⟩
      rw [hpace', hpace, if_pos htick]
      rfl
  · next htick =>
      have htick : ¬f.tick = true := htick
      refine ⟨howns, ?_⟩
      rw [hpace, if_neg htick]

/-! ## No request is lost -/

/-- The timer fires at `d` or before. -/
def ArmedBy (d : Int) (f : KeyframeFilter) : Prop := ∃ e ∈ f.deadline, e ≤ d

/-- Somebody who is remembered will be served within the interval, and so will
the next regular request; `t₀` is the time of `Startup`. -/
structure NoneLost (t₀ : Int) (f : KeyframeFilter) : Prop where
  cached : f.cached = true →
    f.pending = true ∨ f.ArmedBy (f.lasttime + minInterval)
  tick : f.tick = true →
    f.pending = true ∨ f.ArmedBy (max t₀ f.lasttime + maxInterval)

end KeyframeFilter

/-- `NoneLost`, said of the pace. -/
structure Pace.NoneLost (t₀ : Int) (p : Pace) : Prop where
  cached : p.cached = true →
    p.pending = true ∨ ∃ e ∈ p.deadline, e ≤ p.lasttime + minInterval
  tick : p.tick = true →
    p.pending = true ∨ ∃ e ∈ p.deadline, e ≤ max t₀ p.lasttime + maxInterval

theorem minInterval_le : minInterval ≤ maxInterval := by decide

theorem Pace.NoneLost.step {t₀ : Int} {p q : Pace} {G : Pace → Prop}
    (hp : p.NoneLost t₀) (h : Pace.Step G p q) : q.NoneLost t₀ := by
  have hmin := minInterval_le
  cases h with
  | idle => exact hp
  | asks hc hlong hG =>
      have hpend : { p with spawned := p.spawned + 1 }.pending = true := by
        simp [pending]
      exact ⟨fun _ => .inl hpend, fun _ => .inl hpend⟩
  | caches hc hshort =>
      refine ⟨fun _ => .inr ⟨_, rfl, Int.le_refl _⟩, fun _ => .inr ⟨_, rfl, ?_⟩⟩
      have hmax := Int.le_max_right t₀ p.lasttime
      show p.lasttime + minInterval ≤ max t₀ p.lasttime + maxInterval
      omega
  | fires hd hdue hG =>
      have hpend : { p with deadline := none, ready := true }.pending = true := by
        simp [pending]
      exact ⟨fun _ => .inl hpend, fun _ => .inl hpend⟩
  | takes hr =>
      have hpend : { p with
          ready := false, spawned := p.spawned + 1 }.pending = true := by
        simp [pending]
      exact ⟨fun _ => .inl hpend, fun _ => .inl hpend⟩
  | sends hs =>
      refine ⟨nofun, fun htick => .inr ?_⟩
      have htick : p.tick = true := htick
      refine ⟨p.now + maxInterval, ?_, ?_⟩
      · simp [htick]
      · have hmax := Int.le_max_right t₀ p.now
        show p.now + maxInterval ≤ max t₀ p.now + maxInterval
        omega

namespace KeyframeFilter

theorem step_noneLost {t₀ : Int} (ho : Owns f) (hf : f.pace.NoneLost t₀)
    (h : step a f = some g) : Owns g ∧ g.pace.NoneLost t₀ := by
  obtain ⟨-, hg, hstep⟩ := step_pace (G := fun _ => True) ho (fun _ => trivial) h
  have hadv : (f.pace.advance a.1).NoneLost t₀ := ⟨hf.cached, hf.tick⟩
  exact ⟨hg, hadv.step hstep⟩

/-- In every state that a filter reaches after a `Startup` that finds it down,
whatever calls and goroutines run in whatever order. -/
theorem requests_not_lost {f : KeyframeFilter} (hf : f.Down)
    (as : List (Int × FilterAct)) :
    Always step (NoneLost f.now) as f.startup := by
  have hinit : Owns f.startup ∧ f.startup.pace.NoneLost f.now := by
    obtain ⟨howns, hpace⟩ := startup_owns hf
    refine ⟨howns, ?_⟩
    rw [hpace]
    refine ⟨nofun, fun htick => .inr ⟨f.now + maxInterval, ?_, ?_⟩⟩
    · have htick : f.tick = true := htick
      simp [htick]
    · have hmax := Int.le_max_left f.now f.lasttime
      show f.now + maxInterval ≤ max f.now f.lasttime + maxInterval
      omega
  have hall : Always step (fun g => Owns g ∧ g.pace.NoneLost f.now) as
      f.startup :=
    always_of_guarded (fun _ _ _ hg _ h => step_noneLost hg.1 hg.2 h)
      (guarded_true as _) hinit
  exact hall.mono fun g hg => ⟨hg.2.cached, hg.2.tick⟩

/-- A filter from whose last life a request is still to run. -/
def leftOver : KeyframeFilter :=
  { createKeyframeFilter true (sec 100) with spawned := 1, tokens := 1 }

/-- After it has run, a request that comes too early is remembered. -/
theorem requests_not_lost_leftOver :
    ∃ g, run step [(sec 100, .requestKeyframeNow),
        (sec 101, .tryRequestKeyframe)] leftOver.startup = some g ∧
      g.cached = true ∧ g.pending = false ∧ NoneLost (sec 100) g := by
  have h : (run step [(sec 100, .requestKeyframeNow),
      (sec 101, .tryRequestKeyframe)] leftOver.startup).map (fun g =>
        (g.cached, g.pending)) = some (true, false) := by decide
  obtain ⟨g, hg, hfacts⟩ := Option.map_eq_some_iff.mp h
  obtain ⟨hcached, hpending⟩ := Prod.mk.inj hfacts
  exact ⟨g, hg, hcached, hpending,
    (requests_not_lost (f := leftOver) ⟨rfl, rfl, rfl⟩ _).last hg⟩

/-- A request is remembered until 102 s, and before that the publisher reports
Checking and Connected once more. The goroutines come to their `select` only
then. -/
def reconnects : List IceFeed.Act :=
  [.state .connected, .turn (sec 100) 0, .turn (sec 100) 0,
    .turn (sec 100) 0, .requestKeyframe, .turn (sec 100) 0,
    .turn (sec 100) 0, .filter (sec 100, .requestKeyframeNow),
    .requestKeyframe, .turn (sec 101) 0, .turn (sec 101) 0,
    .state .checking, .state .connected, .turn (sec 101) 0,
    .turn (sec 101) 0, .turn (sec 101) 0, .filter (sec 101, .select 0),
    .filter (sec 101, .select 1), .filter (sec 102, .expire 0)]

/-- Both goroutines wait for the timer of the second `Startup`, which fires at
131 s. -/
theorem second_startup_loses_request :
    ∃ w, run IceFeed.step reconnects
        (IceFeed.init (FilterPeer.create 0 "u" "1" false (sec 100))) = some w ∧
      w.sched.threads = [] ∧ w.sched.shared.up = true ∧
      w.sched.shared.filter.loops = [some 1, some 1] ∧
      w.sched.shared.filter.deadline = some (sec 131) ∧
      w.sched.shared.filter.sends = [sec 100] ∧
      ∀ t₀, ¬w.sched.shared.filter.NoneLost t₀ := by
  have h : (run IceFeed.step reconnects
      (IceFeed.init (FilterPeer.create 0 "u" "1" false (sec 100)))).map
      (fun w => decide (w.sched.threads = [] ∧ w.sched.shared.up = true ∧
        w.sched.shared.filter.loops = [some 1, some 1] ∧
        w.sched.shared.filter.deadline = some (sec 131) ∧
        w.sched.shared.filter.sends = [sec 100] ∧
        w.sched.shared.filter.cached = true ∧
        w.sched.shared.filter.pending = false ∧
        w.sched.shared.filter.lasttime = sec 100)) = some true := by decide
  obtain ⟨w, hw, hfacts⟩ := Option.map_eq_some_iff.mp h
  obtain ⟨hthreads, hup, hloops, hdead, hsends, hcached, hpending, hlast⟩ :=
    of_decide_eq_true hfacts
  refine ⟨w, hw, hthreads, hup, hloops, hdead, hsends, fun t₀ hall => ?_⟩
  rcases hall.cached hcached with hpend | ⟨e, he, hle⟩
  · rw [hpending] at hpend
    cases hpend
  · rw [hdead] at he
    cases he
    rw [hlast] at hle
    exact absurd hle (by decide)

end KeyframeFilter

/-! ## Two seconds between two requests -/

/-- Any two requests in a row are at least `minInterval` apart. -/
def Spaced (sends : List Int) : Prop :=
  sends.IsChain fun s t => minInterval ≤ t - s

instance (sends : List Int) : Decidable (Spaced sends) := by
  unfold Spaced
  infer_instance

/-- At most one request is under way, and it was started, or will be started
by the timer, a whole interval after the last one was sent. Before the first
one is sent, the regular timer may fire at any time. -/
structure Pace.Even (p : Pace) : Prop where
  spaced : Spaced p.sends
  last : ∀ s ∈ p.sends.getLast?, p.lasttime = s
  few : p.spawned + (if p.ready then 1 else 0) ≤ 1
  waited : p.pending = true →
    p.lasttime + minInterval ≤ p.now ∨ (p.tick = true ∧ p.sends = [])
  armed : ∀ d ∈ p.deadline,
    p.lasttime + minInterval ≤ d ∨ (p.tick = true ∧ p.sends = [])
  short : p.tick = false → p.deadline ≠ none →
    p.cached = true ∧ p.pending = false

theorem Pace.pending_eq_false {p : Pace} (h : p.pending = false) :
    p.spawned = 0 ∧ p.ready = false := by
  simpa [pending] using h

theorem Spaced.concat {l : List Int} {t : Int} (hl : Spaced l)
    (ht : ∀ s ∈ l.getLast?, minInterval ≤ t - s) : Spaced (l ++ [t]) := by
  refine List.isChain_append.mpr ⟨hl, .singleton t, ?_⟩
  intro s hs u hu
  cases hu
  exact ht s hs

theorem Pace.Even.step {p q : Pace} (hp : p.Even)
    (h : Pace.Step (fun p => p.pending = false) p q) : q.Even := by
  have hmin := minInterval_le
  cases h with
  | idle => exact hp
  | asks hc hlong hG =>
      obtain ⟨hs, hr⟩ := pending_eq_false hG
      refine ⟨hp.spaced, hp.last, by simp [hs, hr], fun _ => .inl hlong,
        hp.armed, fun htick hd => ?_⟩
      have hcached := (hp.short htick hd).1
      rw [hc] at hcached
      cases hcached
  | caches hc hshort =>
      have hpend : p.pending = true → p.tick = true ∧ p.sends = [] :=
        fun h => (hp.waited h).resolve_left (Int.not_le.mpr hshort)
      refine ⟨hp.spaced, hp.last, hp.few, fun h => .inr (hpend h),
        fun d hd => ?_, fun htick _ => ⟨rfl, ?_⟩⟩
      · cases hd
        exact .inl (Int.le_refl _)
      · refine Bool.eq_false_iff.mpr fun h => ?_
        have htrue := (hpend h).1
        rw [htick] at htrue
        cases htrue
  | @fires d hd hdue hG =>
      obtain ⟨hs, hr⟩ := pending_eq_false hG
      refine ⟨hp.spaced, hp.last, by simp [hs], fun _ => ?_, nofun,
        fun _ hne => absurd rfl hne⟩
      exact (hp.armed d hd).imp_left fun h => Int.le_trans h hdue
  | takes hr =>
      have hfew := hp.few
      rw [hr] at hfew
      have hpend : p.pending = true := by simp [pending, hr]
      refine ⟨hp.spaced, hp.last, by simpa using hfew,
        fun _ => hp.waited hpend, hp.armed, fun htick hd => ?_⟩
      have hnot := (hp.short htick hd).2
      rw [hpend] at hnot
      cases hnot
  | sends hs =>
      have hpend : p.pending = true := by simp [pending, hs]
      have hfew := hp.few
      have hready : p.ready = false := by
        cases hr : p.ready with
        | false => rfl
        | true => rw [hr, if_pos rfl] at hfew; omega
      have hone : p.spawned = 1 := by
        rw [hready] at hfew
        simp only [Bool.false_eq_true, if_false] at hfew
        omega
      have hoff : p.tick = false → p.deadline = none := by
        intro htick
        by_contra hd
        have hnot := (hp.short htick hd).2
        rw [hpend] at hnot
        cases hnot
      refine ⟨hp.spaced.concat fun s hlast => ?_, fun s hlast => ?_, ?_, ?_,
        fun d hd => ?_, fun htick hd => ?_⟩
      · have hlasttime := hp.last s hlast
        rcases hp.waited hpend with hw | ⟨-, hnil⟩
        · omega
        · rw [hnil] at hlast
          cases hlast
      · simpa using hlast
      · simp [hone, hready]
      · simp [pending, hone, hready]
      · left
        show p.now + minInterval ≤ d
        cases htick : p.tick with
        | true =>
            simp only [htick, if_true, Option.mem_def, Option.some.injEq] at hd
            omega
        | false => simp [htick, hoff htick] at hd
      · have htick : p.tick = false := htick
        simp [htick, hoff htick] at hd

namespace KeyframeFilter

/-- A request is started only while none is under way. -/
def Orderly (f : KeyframeFilter) (a : Int × FilterAct) : Prop :=
  f.starts a = true → f.pending = false

instance (f : KeyframeFilter) (a : Int × FilterAct) :
    Decidable (f.Orderly a) := by
  unfold Orderly
  infer_instance

theorem step_even (ho : Owns f) (hf : f.pace.Even) (ha : f.Orderly a)
    (h : step a f = some g) : Owns g ∧ g.pace.Even := by
  obtain ⟨hle, hg, hstep⟩ :=
    step_pace (G := fun p => p.pending = false) ho ha h
  have hadv : (f.pace.advance a.1).Even :=
    { hf with
      waited := fun h => (hf.waited h).imp_left (Int.le_trans · hle) }
  exact ⟨hg, hadv.step hstep⟩

/-- In every run after a `Startup` that finds the filter down and no request
under way, if each request is started while none is, any two that are sent in
a row are at least `minInterval` apart. -/
theorem sends_spaced {f : KeyframeFilter} (hf : f.Down) (hnone : f.spawned = 0)
    {as : List (Int × FilterAct)} (hg : Guarded step Orderly as f.started) :
    Always step (fun g => Spaced g.sends) as f.started := by
  have hinit : Owns f.started ∧ f.started.pace.Even := by
    obtain ⟨howns, hpace⟩ := startup_owns (f := { f with sends := [] })
      ⟨hf.timer, hf.loops, hf.cached⟩
    refine ⟨howns, ?_⟩
    rw [started, hpace]
    refine ⟨.nil, nofun, ?_, fun hpend => ?_, fun d hd => ?_,
      fun htick hd => ?_⟩
    · simp [hnone]
    · simp [Pace.pending, hnone] at hpend
    · cases htick : f.tick with
      | true => exact .inr ⟨rfl, rfl⟩
      | false => simp [htick] at hd
    · have htick : f.tick = false := htick
      simp [htick] at hd
  have hall : Always step (fun g => Owns g ∧ g.pace.Even) as f.started :=
    always_of_guarded (fun _ _ _ hg ha h => step_even hg.1 hg.2 ha h) hg hinit
  exact hall.mono fun g hg => hg.2.spaced

/-- Two requests in a row, both before the first is sent. -/
theorem requests_overlap :
    ∃ f, run step [(sec 100, .tryRequestKeyframe),
        (sec 100, .tryRequestKeyframe), (sec 100, .requestKeyframeNow),
        (sec 100, .requestKeyframeNow)]
        (createKeyframeFilter true (sec 100)).started = some f ∧
      f.sends = [sec 100, sec 100] ∧ ¬Spaced f.sends := by
  have h : (run step [(sec 100, .tryRequestKeyframe),
      (sec 100, .tryRequestKeyframe), (sec 100, .requestKeyframeNow),
      (sec 100, .requestKeyframeNow)]
      (createKeyframeFilter true (sec 100)).started).map
        (fun f => f.sends) = some [sec 100, sec 100] := by decide
  obtain ⟨f, hf, hsends⟩ := Option.map_eq_some_iff.mp h
  refine ⟨f, hf, hsends, ?_⟩
  rw [hsends]
  decide

/-- A request that comes too early is remembered and sent by the timer. -/
theorem sends_spaced_early :
    let as := [(sec 100, .tryRequestKeyframe), (sec 100, .requestKeyframeNow),
      (sec 101, .tryRequestKeyframe), (sec 102, .expire 0), (sec 102, .select 0),
      (sec 102, .receive 0), (sec 103, .requestKeyframeNow)]
    let f := (createKeyframeFilter true (sec 100)).started
    (run step as f).map (fun g => g.sends) = some [sec 100, sec 103] ∧
      Always step (fun g => Spaced g.sends) as f :=
  ⟨by decide, sends_spaced ⟨rfl, rfl, rfl⟩ rfl (by decide)⟩

end KeyframeFilter

end MediaServer.Ref
