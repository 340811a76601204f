import MediaServer.Ref.Keyframe

/-!
# The timer goroutine of a keyframe filter

`Startup` starts a goroutine that waits for a timer and `Shutdown` sends one
token, which one goroutine takes, and waits until none is left. That is right
as long as there is never a second one. But `Startup` does not look whether
there is one already, and a connection that was connected may become connected
again without a `Shutdown` in between, when it has gone back to checking. And
the first half of `Startup` allows a request to start the goroutine that its
second half starts then again.

If neither happens, there is one goroutine when there is a timer. What counts
for that is the `Timing` of a filter, and what a callback in progress may rely
on is said for every place it stands at (`At`).
-/

namespace MediaServer.Ref

open MediaServer.Lib

/-- What decides about the goroutines of a filter: whether the callback and
the timer are set, how many goroutines there are and how many tokens. -/
structure Timing where
  tick : Bool
  send : Bool
  timer : Bool
  loops : Nat
  tokens : Nat
  up : Bool

def KeyframeFilter.timing (f : KeyframeFilter) (up : Bool) : Timing where
  tick := f.tick
  send := f.sendRequestKeyframe
  timer := f.timer.isSome
  loops := f.loops.length
  tokens := f.tokens
  up := up

def FilterPeer.timing (w : FilterPeer) : Timing := w.filter.timing w.up

namespace Timing

variable {s t : Timing}

/-- What a request, a timer or a goroutine of the filter does. -/
inductive Effect (t : Timing) : Timing → Prop where
  | keeps : Effect t t
  | starts (hsend : t.send = true) (htimer : t.timer = false) :
      Effect t { t with timer := true, loops := t.loops + 1 }
  | exits (htokens : 0 < t.tokens) (hloops : 0 < t.loops) :
      Effect t { t with loops := t.loops - 1, tokens := t.tokens - 1 }

/-- There is a goroutine if there is a timer, and nobody sends a token. -/
structure Balanced (t : Timing) : Prop where
  tokens : t.tokens = 0
  loops : t.loops = t.timer.toNat

/-- What holds while no callback is in progress. On a publisher of this pod
there is a timer if and only if the filter is up. -/
structure Steady (t : Timing) : Prop extends Balanced t where
  timer : t.tick = true → t.timer = t.up
  send : t.tick = true → t.send = true → t.up = true

/-- What holds while a callback stands at a place. -/
def At : FilterPc → Timing → Prop
  | .ice st, t => Steady t ∧ (st = .connected → t.tick = true → t.up = false)
  | .startup, t => Steady t ∧ (t.tick = true → t.up = false)
  | .startTicking, t =>
      Balanced t ∧ t.up = true ∧ (t.tick = true → t.timer = false)
  | .shutdown _, t | .clearCache _, t | .close, t => Steady t
  | .clearSend _, t => Balanced t ∧ t.timer = true ∧ t.up = false
  | .sendToken _, t =>
      Balanced t ∧ t.timer = true ∧ t.send = false ∧ t.up = false
  | .wait _, t =>
      t.loops = 1 ∧ t.tokens = 1 ∧ t.timer = true ∧ t.send = false ∧
        t.up = false
  | .dropTimer _, t =>
      t.loops = 0 ∧ t.tokens = 0 ∧ t.timer = true ∧ t.send = false ∧
        t.up = false
  | .requestKeyframe, _ | .tryRequestKeyframe, _ => True

theorem Balanced.effect (h : Balanced s) (he : Effect s t) : Balanced t := by
  cases he with
  | keeps => exact h
  | starts hsend htimer =>
      refine ⟨h.tokens, ?_⟩
      simp [h.loops, htimer]
  | exits htokens => rw [h.tokens] at htokens; cases htokens

theorem Steady.effect (h : Steady s) (he : Effect s t) : Steady t := by
  refine ⟨h.toBalanced.effect he, ?_, ?_⟩
  · cases he with
    | keeps => exact h.timer
    | starts hsend htimer => exact fun htick => (h.send htick hsend).symm
    | exits => exact h.timer
  · cases he with
    | keeps => exact h.send
    | starts => exact h.send
    | exits => exact h.send

/-- A place keeps what it relies on, except that the goroutine may take the
token that a `Shutdown` waits for. -/
theorem At.effect {k : FilterPc} (h : At k s) (he : Effect s t)
    (hticking : k = .startTicking → t.timer = s.timer) :
    At k t ∨ t.tokens < s.tokens ∧ ∃ d, k = .wait d ∧ At (.dropTimer d) t := by
  have hup : t.up = s.up := by cases he <;> rfl
  have htick : t.tick = s.tick := by cases he <;> rfl
  have hsend : t.send = s.send := by cases he <;> rfl
  cases k with
  | ice st => exact .inl ⟨h.1.effect he, by rw [hup, htick]; exact h.2⟩
  | startup => exact .inl ⟨h.1.effect he, by rw [hup, htick]; exact h.2⟩
  | startTicking =>
      refine .inl ⟨h.1.effect he, hup.trans h.2.1, fun ht => ?_⟩
      exact (hticking rfl).trans (h.2.2 (htick.symm.trans ht))
  | shutdown d | clearCache d => exact .inl (Steady.effect h he)
  | close => exact .inl (Steady.effect h he)
  | clearSend d =>
      refine .inl ⟨h.1.effect he, ?_, hup.trans h.2.2⟩
      cases he with
      | keeps => exact h.2.1
      | starts => rfl
      | exits => exact h.2.1
  | sendToken d =>
      refine .inl ⟨h.1.effect he, ?_, hsend.trans h.2.2.1, hup.trans h.2.2.2⟩
      cases he with
      | keeps => exact h.2.1
      | starts => rfl
      | exits => exact h.2.1
  | wait d =>
      obtain ⟨hloops, htokens, htimer, hnil, hdown⟩ := h
      cases he with
      | keeps => exact .inl ⟨hloops, htokens, htimer, hnil, hdown⟩
      | starts hset => rw [hnil] at hset; cases hset
      | exits =>
          refine .inr ⟨?_, d, rfl, ?_, ?_, htimer, hnil, hdown⟩
          · simp [htokens]
          · simp [hloops]
          · simp [htokens]
  | dropTimer d =>
      obtain ⟨hloops, htokens, htimer, hnil, hdown⟩ := h
      cases he with
      | keeps => exact .inl ⟨hloops, htokens, htimer, hnil, hdown⟩
      | starts hset => rw [hnil] at hset; cases hset
      | exits hpos => rw [htokens] at hpos; cases hpos
  | requestKeyframe => exact .inl trivial
  | tryRequestKeyframe => exact .inl trivial

end Timing

/-! ## The blocks of the filter -/

namespace KeyframeFilter

variable {f g : KeyframeFilter} {b : FilterAct} {up : Bool}

end KeyframeFilter

/-! ## The blocks of a callback -/

namespace FilterPeer

open Timing

variable {w w' : FilterPeer} {k : FilterPc} {next : Option FilterPc}

end FilterPeer

/-! ## Runs -/

namespace FilterSched

open Timing

variable {t u : FilterSched} {k : FilterPc} {w : FilterPeer}

/-- The callbacks in progress. -/
def calls (t : FilterSched) : List FilterPc := t.threads.filter FilterPc.calling

/-- At most one callback is in progress, and it may rely on what it relies
on. -/
def Timely (t : FilterSched) : Prop :=
  t.calls = [] ∧ Steady t.shared.timing ∨
    ∃ k, t.calls = [k] ∧ At k t.shared.timing

theorem mem_calls : k ∈ t.calls ↔ k ∈ t.threads ∧ k.calling = true :=
  List.mem_filter

/-- Something that is not a callback happens to the filter. -/
theorem Timely.effect (h : Timely t) (hcalls : u.calls = t.calls)
    (he : Effect t.shared.timing u.shared.timing)
    (hticking : .startTicking ∈ t.threads →
      u.shared.timing.timer = t.shared.timing.timer) :
    Timely u ∨ u.shared.filter.tokens < t.shared.filter.tokens ∧
      ∃ d, u.calls = [.wait d] ∧ At (.dropTimer d) u.shared.timing := by
  rcases h with ⟨hnil, hs⟩ | ⟨k, hk, hat⟩
  · exact .inl (.inl ⟨hcalls.trans hnil, hs.effect he⟩)
  · have hmem : k ∈ t.threads := (mem_calls.mp (hk ▸ List.mem_cons_self)).1
    rcases hat.effect he (fun hs => hticking (hs ▸ hmem)) with
      hat | ⟨hlt, d, rfl, hd⟩
    · exact .inl (.inr ⟨k, hcalls.trans hk, hat⟩)
    · exact .inr ⟨hlt, d, hcalls.trans hk, hd⟩

/-- Where a thread stands when the last goroutine is gone. -/
def woken : FilterPc → FilterPc
  | .wait d => .dropTimer d
  | k => k

theorem woken_calling (k : FilterPc) : (woken k).calling = k.calling := by
  cases k with
  | _ => rfl

theorem wake_threads (h : t.shared.filter.loops = []) :
    t.wake.threads = t.threads.map woken := by
  unfold wake
  rw [if_pos h]
  refine List.map_congr_left fun k _ => ?_
  cases k with
  | _ => rfl

theorem wake_calls (h : t.shared.filter.loops = []) :
    t.wake.calls = t.calls.map woken := by
  rw [calls, wake_threads h, List.filter_map, calls]
  exact congrArg (List.map woken)
    (List.filter_congr fun k _ => woken_calling k)

theorem wake_shared (t : FilterSched) : t.wake.shared = t.shared := by
  unfold wake
  split
  · rfl
  · rfl

theorem Timely.wake (h : Timely t ∨ ∃ d, t.calls = [.wait d] ∧
    At (.dropTimer d) t.shared.timing) : Timely t.wake := by
  by_cases hnil : t.shared.filter.loops = []
  · have hzero : t.shared.timing.loops = 0 := congrArg List.length hnil
    rw [Timely, wake_calls hnil, wake_shared]
    rcases h with (⟨hcalls, hs⟩ | ⟨k, hk, hat⟩) | ⟨d, hd, hat⟩
    · exact .inl ⟨by rw [hcalls]; rfl, hs⟩
    · refine .inr ⟨woken k, by rw [hk]; rfl, ?_⟩
      cases k with
      | wait d => rw [hat.1] at hzero; cases hzero
      | _ => exact hat
    · exact .inr ⟨.dropTimer d, by rw [hd]; rfl, hat⟩
  · rw [show t.wake = t from if_neg hnil]
    refine h.resolve_right ?_
    rintro ⟨d, -, hat⟩
    exact hnil (List.length_eq_zero_iff.mp hat.1)

end FilterSched

namespace IceFeed

open Timing

variable {w w' : IceFeed} {a : Act}

/-- A publisher of this pod is not reported connected again unless something
else than the beginning of a connection was reported since, and no request is
made between the halves of a `Startup`. -/
def Apart (w : IceFeed) : Act → Prop
  | .state c => c = .connected → w.sched.shared.filter.tick = true →
      w.sched.shared.up = false
  | .turn _ i => w.sched.threads[i]? = some .tryRequestKeyframe →
      .startTicking ∉ w.sched.threads
  | .filter a => a.2 = .requestKeyframeNow →
      .startTicking ∉ w.sched.threads
  | .requestKeyframe => True

instance (w : IceFeed) : DecidablePred w.Apart
  | .state _ => by unfold Apart; infer_instance
  | .turn _ _ => by unfold Apart; infer_instance
  | .filter _ => by unfold Apart; infer_instance
  | .requestKeyframe => by unfold Apart; infer_instance

def setFilter (w : IceFeed) (f : KeyframeFilter) : IceFeed :=
  { w with sched := w.sched.setFilter f }

/-- The next blocks of the only call in progress. -/
def turns (n : Nat) : List Act := List.replicate n (.turn (sec 100) 0)

/-- It is lost, and the goroutine takes the token that `Shutdown` sends. -/
def loses : List Act :=
  .state .disconnected :: turns 4 ++ [.filter (sec 100, .select 0),
    .filter (sec 100, .exit 0)]

end IceFeed

end MediaServer.Ref
