import MediaServer.Ref.Keyframe

/-!
# The callback of a keyframe filter

`sendRequestKeyframe` is set by `Startup` and cleared by `Shutdown`, and
`requestKeyframeNow` calls it without looking. `Shutdown` waits for the
goroutine that waits for the timer, but not for a `requestKeyframeNow` that is
under way, and it clears the callback only if there is a timer.

So the callback is used properly if nothing is under way when `Shutdown`
begins and nothing is started until the next `Startup`, and if the two do not
overlap. Without these conditions the call hits a nil function, or the
function of a connection that is gone.
-/

namespace MediaServer.Ref

open MediaServer.Lib

namespace KeyframeFilter

variable {f g : KeyframeFilter} {b : FilterAct}

theorem refreshMaxIntervalTimer_send (d : Int) (f : KeyframeFilter) :
    (f.refreshMaxIntervalTimer d).sendRequestKeyframe =
        f.sendRequestKeyframe ∧
      (f.refreshMaxIntervalTimer d).spawned = f.spawned := by
  unfold refreshMaxIntervalTimer
  split
  · exact ⟨rfl, rfl⟩
  · split
    · exact ⟨rfl, rfl⟩
    · exact ⟨rfl, rfl⟩

theorem tryRequestKeyframe_send (f : KeyframeFilter) :
    f.tryRequestKeyframe.sendRequestKeyframe = f.sendRequestKeyframe := by
  unfold tryRequestKeyframe
  split
  · rfl
  · split
    · rfl
    · exact (refreshMaxIntervalTimer_send _ _).1

theorem startTicking_send (f : KeyframeFilter) :
    f.startTicking.sendRequestKeyframe = f.sendRequestKeyframe ∧
      f.startTicking.spawned = f.spawned := by
  unfold startTicking
  split
  · exact ⟨rfl, rfl⟩
  · exact ⟨rfl, rfl⟩

theorem requestKeyframeNow_send (f : KeyframeFilter) :
    f.requestKeyframeNow.sendRequestKeyframe = f.sendRequestKeyframe ∧
      f.requestKeyframeNow.spawned = f.spawned := by
  unfold requestKeyframeNow
  split
  · exact ⟨rfl, rfl⟩
  · dsimp only
    split
    · exact refreshMaxIntervalTimer_send _ _
    · exact ⟨rfl, rfl⟩

/-- The turns of the filter's goroutines leave the callback alone, and only
the one that takes an expiry starts a request. -/
theorem act_send (hb : b ≠ .tryRequestKeyframe) (h : f.act b = some g) :
    g.sendRequestKeyframe = f.sendRequestKeyframe ∧
      (g.spawned ≤ f.spawned ∨ ∃ l, b = .receive l) := by
  cases act_cases h with
  | tryRequestKeyframe => exact absurd rfl hb
  | expire | exit => exact ⟨rfl, .inl (Nat.le_refl _)⟩
  | select l =>
      unfold select
      split
      · exact ⟨rfl, .inl (Nat.le_refl _)⟩
      · exact ⟨rfl, .inl (Nat.le_refl _)⟩
  | receive l => exact ⟨rfl, .inr ⟨l, rfl⟩⟩
  | requestKeyframeNow =>
      obtain ⟨hsend, hspawned⟩ := requestKeyframeNow_send
        { f with spawned := f.spawned - 1 }
      exact ⟨hsend, .inl (by rw [hspawned]; exact Nat.sub_le _ _)⟩

end KeyframeFilter

/-- The place is in a `Shutdown` that has begun and not returned. -/
def FilterPc.closing : FilterPc → Bool
  | .clearSend _ | .sendToken _ | .wait _ | .dropTimer _ | .clearCache _ =>
      true
  | _ => false

namespace FilterPeer

variable {w w' : FilterPeer} {k : FilterPc} {next : Option FilterPc}

/-- Requests are under way only while the filter is up, and then its callback
is set and belongs to the connection there is. -/
structure Ok (w : FilterPeer) : Prop where
  spawned : 0 < w.filter.spawned → w.up = true
  send : w.up = true → w.filter.sendRequestKeyframe = true
  down : w.up = true → w.down = false

theorem Ok.of_same (h : Ok w) (hup : w'.up = w.up) (hdown : w'.down = w.down)
    (hsend : w'.filter.sendRequestKeyframe = w.filter.sendRequestKeyframe)
    (hspawned : 0 < w'.filter.spawned → 0 < w.filter.spawned ∨ w.up = true) :
    Ok w' where
  spawned h' := by
    rw [hup]
    exact (hspawned h').elim h.spawned id
  send h' := by rw [hsend]; exact h.send (by rwa [hup] at h')
  down h' := by rw [hdown]; exact h.down (by rwa [hup] at h')

/-- While no `Startup` has begun since, whatever a `Shutdown` does is fine. -/
theorem Ok.of_not_up (h : Ok w) (hup : w.up = false) (hup' : w'.up = false)
    (hspawned : w'.filter.spawned = w.filter.spawned) : Ok w' where
  spawned h' := by
    rw [hspawned] at h'
    rw [h.spawned h'] at hup
    cases hup
  send h' := by rw [hup'] at h'; cases h'
  down h' := by rw [hup'] at h'; cases h'

end FilterPeer

namespace FilterSched

variable {t u : FilterSched} {a : Act} {w w' : FilterPeer} {k k' : FilterPc}
variable {next : Option FilterPc}

/-- A call of the callback finds it set, and no `Shutdown` has returned since
the last `Startup`. -/
def CallsStarted (t : FilterSched) : Act → Prop
  | .filter (_, .requestKeyframeNow) =>
      t.shared.filter.sendRequestKeyframe = true ∧ t.shared.down = false
  | _ => True

instance (t : FilterSched) (a : Act) : Decidable (CallsStarted t a) := by
  unfold CallsStarted
  split
  · infer_instance
  · infer_instance

/-- A request is started only while the filter is up, a `Shutdown` begins only
while none is under way, and a `Startup` only while no `Shutdown` is in
progress. -/
def allows (t : FilterSched) : FilterPc → Bool
  | .tryRequestKeyframe => t.shared.up
  | .shutdown _ => t.shared.filter.spawned = 0
  | .startup => t.threads.all fun k => !k.closing
  | _ => true

def Apart (t : FilterSched) : Act → Prop
  | .turn _ i => ∀ k ∈ t.threads[i]?, t.allows k = true
  | .filter (_, .receive _) => t.shared.up = true
  | _ => True

instance (t : FilterSched) (a : Act) : Decidable (Apart t a) := by
  unfold Apart
  split
  · infer_instance
  · infer_instance
  · infer_instance

/-- A `Shutdown` in progress means that the filter is not up. -/
abbrev Ok : FilterSched → Prop :=
  Threads.Inv FilterPeer.Ok fun k w => k.closing = true → w.up = false

theorem exec_ok (hw : w.Ok) (hk : k.closing = true → w.up = false)
    (hallows : k = .tryRequestKeyframe → w.up = true)
    (hidle : ∀ d, k = .shutdown d → w.filter.spawned = 0)
    (h : w.exec k = some (w', next)) :
    w'.Ok ∧ (∀ k', next = some k' → k'.closing = true → w'.up = false) ∧
      (k ≠ .startup → w.up = false → w'.up = false) := by
  cases k with
  | ice st =>
      simp only [FilterPeer.exec] at h
      split at h
      · cases h; exact ⟨hw, nofun, fun _ h => h⟩
      · cases h
        refine ⟨hw.of_same rfl rfl rfl .inl, fun k' hk' hc => ?_, fun _ h => h⟩
        cases hk'
        split at hc
        · cases hc
        · cases hc
  | startup =>
      cases h
      refine ⟨⟨fun _ => rfl, fun _ => rfl, fun _ => rfl⟩, ?_, nofun⟩
      rintro k' ⟨⟩ hc
      cases hc
  | startTicking =>
      cases h
      obtain ⟨hsend, hspawned⟩ := w.filter.startTicking_send
      refine ⟨hw.of_same rfl rfl hsend fun h => .inl ?_, nofun, fun _ h => h⟩
      rwa [FilterPeer.setFilter, hspawned] at h
  | shutdown d =>
      cases h
      refine ⟨⟨fun h => ?_, nofun, nofun⟩, fun _ _ _ => rfl, fun _ _ => rfl⟩
      rw [hidle d rfl] at h
      cases h
  | clearSend d | sendToken d | dropTimer d | clearCache d =>
      cases h
      have hup := hk rfl
      exact ⟨hw.of_not_up hup hup rfl, fun _ _ _ => hup, fun _ h => h⟩
  | wait d => cases h
  | close => cases h; exact ⟨hw.of_same rfl rfl rfl .inl, nofun, fun _ h => h⟩
  | requestKeyframe =>
      cases h
      refine ⟨hw, fun k' hk' hc => ?_, fun _ h => h⟩
      split at hk'
      · cases hk'; cases hc
      · cases hk'
  | tryRequestKeyframe =>
      cases h
      exact ⟨hw.of_same rfl rfl w.filter.tryRequestKeyframe_send
        fun _ => .inr (hallows rfl), nofun, fun _ h => h⟩

theorem Ok.wake (h : Ok t) : Ok t.wake := by
  unfold FilterSched.wake
  split
  · refine ⟨h.shared, fun k hk hc => ?_⟩
    obtain ⟨k₀, hk₀, rfl⟩ := List.mem_map.mp hk
    refine h.each k₀ hk₀ ?_
    cases k₀ with
    | wait d => rfl
    | _ => exact hc
  · exact h

theorem step_ok (ht : Ok t) (ha : Apart t a) (h : step a t = some u) :
    Ok u := by
  unfold step at h
  dsimp only at h
  split at h
  · cases h
  · cases a with
    | ice st => cases h; exact ht.start nofun
    | destroy => cases h; exact ht.start nofun
    | requestKeyframe => cases h; exact ht.start nofun
    | turn now i =>
        dsimp only at h
        split at h
        · cases h
        · obtain ⟨k, w', next, hk, hx, rfl⟩ := Threads.turn_eq_some h
          have hadv : Ok (t.setFilter (t.shared.filter.advance now)) :=
            ht.of_shared (s := { t.shared with
              filter := t.shared.filter.advance now })
              (ht.shared.of_same rfl rfl rfl .inl) fun _ _ h => h
          have hmem : k ∈ t.threads := List.mem_of_getElem? hk
          have hallows := ha k hk
          obtain ⟨hw, hnext, hkeep⟩ := exec_ok hadv.shared (hadv.each k hmem)
            (fun hk => by subst hk; exact hallows)
            (fun d hk => by subst hk; exact of_decide_eq_true hallows) hx
          refine hadv.resume hw hnext fun k' hk' hA hc => ?_
          by_cases hstart : k = .startup
          · subst hstart
            have hno := List.all_eq_true.mp hallows k' hk'
            rw [hc] at hno
            cases hno
          · exact hkeep hstart (hA hc)
    | filter a =>
        dsimp only at h
        split at h
        · cases h
        · next hne =>
            obtain ⟨g, hg, rfl⟩ := Option.map_eq_some_iff.mp h
            unfold KeyframeFilter.step at hg
            split at hg
            · cases hg
            · obtain ⟨hsend, hspawned⟩ := KeyframeFilter.act_send hne hg
              refine Ok.wake (ht.of_shared (s := { t.shared with filter := g })
                (ht.shared.of_same rfl rfl hsend fun hpos => ?_) fun _ _ h => h)
              rcases hspawned with hle | ⟨l, hl⟩
              · exact .inl (Nat.lt_of_lt_of_le hpos hle)
              · obtain ⟨now, b⟩ := a
                have hl : b = .receive l := hl
                subst hl
                exact .inr ha

theorem Ok.calls (ht : Ok t) (h : step a t = some u) : CallsStarted t a := by
  unfold CallsStarted
  split
  · have hpos : 0 < t.shared.filter.spawned := by
      simp only [step, KeyframeFilter.step, KeyframeFilter.act] at h
      split at h
      · cases h
      · split at h
        · cases h
        · obtain ⟨g, hg, -⟩ := Option.map_eq_some_iff.mp h
          split at hg
          · cases hg
          · split at hg
            · next hpos => exact hpos
            · cases hg
    have hup := ht.shared.spawned hpos
    exact ⟨ht.shared.send hup, ht.shared.down hup⟩
  · trivial

/-- In every run that meets these conditions, for a publisher of this pod or a
stand-in for one of another pod. -/
theorem calls_started_of_apart {s : SessRef} {sid pid : String} {isFake : Bool}
    {now : Int} {as : List Act}
    (hg : Guarded step Apart as
      (init (FilterPeer.create s sid pid isFake now))) :
    AlwaysStep step (fun t a _ => CallsStarted t a) as
      (init (FilterPeer.create s sid pid isFake now)) := by
  have hinit : Ok (init (FilterPeer.create s sid pid isFake now)) :=
    ⟨⟨nofun, nofun, nofun⟩, nofun⟩
  exact alwaysStep_of_guarded (fun _ _ _ ht ha h =>
    ⟨step_ok ht ha h, ht.calls h⟩) hg hinit

/-! ## A callback that is not interrupted

The flags are those that the callback sets in the pod's own model, and the
blocks of a callback that reports a connection amount to `Startup`. -/

theorem setIceFlags_iceFlags (p : Pod) (x : PeerRef) (st : IceState) :
    (p.setIceFlags x st).peer x = (p.peer x).iceFlags st := by
  simp only [Pod.setIceFlags, Pod.setPeer, Pod.peer, Heap.modify_cell_self]
  rfl

theorem connected_alone {now : Int} (hopen : w.peer.closed = 0)
    (hfatal : w.filter.fatal = false) (hnow : w.filter.now ≤ now) :
    run step (.ice .connected :: List.replicate 3 (.turn now 0)) (init w) =
      some (init ⟨w.peer.iceFlags .connected, (w.filter.advance now).startup,
        true, false⟩) := by
  have hle : ¬now < w.filter.now := Int.not_lt.mpr hnow
  cases htick : w.filter.tick
  all_goals
    simp [run, step, init, Threads.start, Threads.turn, Threads.resume,
      FilterPeer.exec, FilterPeer.setFilter, FilterSched.setFilter, hopen,
      hfatal, hle, htick, KeyframeFilter.advance, KeyframeFilter.setSend,
      KeyframeFilter.startup, KeyframeFilter.startTicking]

/-! ## A request that comes late -/

/-- The next blocks of the only call in progress. -/
def turns (n : Nat) : List Act := List.replicate n (.turn (sec 100) 0)

/-- The connection comes up and somebody asks for a keyframe. -/
def asked : List Act :=
  .ice .connected :: turns 3 ++ .requestKeyframe :: turns 2

/-- The connection is lost, and `Shutdown` returns: after the goroutine that
waits for the timer has left, if there is one. -/
def lost (tick : Bool) : List Act :=
  if tick then
    .ice .disconnected :: turns 4 ++ .filter (sec 100, .select 0) ::
      .filter (sec 100, .exit 0) :: turns 2
  else .ice .disconnected :: turns 3

/-- The request is sent. -/
def sent : Act := .filter (sec 100, .requestKeyframeNow)

/-- The request is under way when the connection is lost. On a publisher of
this pod the callback is nil by then, and on a stand-in it is the one that
`Shutdown` should have cleared. -/
theorem callback_after_shutdown :
    (∃ t u, run step (asked ++ lost true)
        (init (FilterPeer.create 0 "u" "1" false (sec 100))) = some t ∧
      t.shared.filter.sendRequestKeyframe = false ∧ ¬CallsStarted t sent ∧
      step sent t = some u ∧ u.shared.filter.fatal = true) ∧
    ∃ t u, run step (asked ++ lost false)
        (init (FilterPeer.create 0 "u" "1" true (sec 100))) = some t ∧
      t.shared.down = true ∧ ¬CallsStarted t sent ∧
      step sent t = some u ∧ u.shared.filter.sends = [sec 100] := by
  have h : ((run step (asked ++ lost true)
      (init (FilterPeer.create 0 "u" "1" false (sec 100)))).bind fun t =>
        (step sent t).map fun u => (t.shared.filter.sendRequestKeyframe,
          decide (CallsStarted t sent), u.shared.filter.fatal)) =
      some (false, false, true) := by decide
  have h' : ((run step (asked ++ lost false)
      (init (FilterPeer.create 0 "u" "1" true (sec 100)))).bind fun t =>
        (step sent t).map fun u => (t.shared.down,
          decide (CallsStarted t sent), u.shared.filter.sends)) =
      some (true, false, [sec 100]) := by decide
  obtain ⟨t, ht, hrest⟩ := Option.bind_eq_some_iff.mp h
  obtain ⟨u, hu, hfacts⟩ := Option.map_eq_some_iff.mp hrest
  obtain ⟨t', ht', hrest'⟩ := Option.bind_eq_some_iff.mp h'
  obtain ⟨u', hu', hfacts'⟩ := Option.map_eq_some_iff.mp hrest'
  simp only [Prod.mk.injEq, decide_eq_false_iff_not] at hfacts hfacts'
  exact ⟨⟨t, u, ht, hfacts.1, hfacts.2.1, hu, hfacts.2.2⟩,
    t', u', ht', hfacts'.1, hfacts'.2.1, hu', hfacts'.2.2⟩

/-- The request is sent before the connection is lost and comes back. -/
theorem calls_started_sentInTime :
    let as := asked ++ sent :: lost true ++ asked ++ [sent]
    (run step as (init (FilterPeer.create 0 "u" "1" false (sec 100)))).map
      (fun t => t.shared.filter.sends) = some [sec 100, sec 100] ∧
    AlwaysStep step (fun t a _ => CallsStarted t a) as
      (init (FilterPeer.create 0 "u" "1" false (sec 100))) :=
  ⟨by decide, calls_started_of_apart (by decide)⟩

end FilterSched

end MediaServer.Ref
