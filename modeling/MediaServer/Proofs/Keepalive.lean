import MediaServer.Proofs.Departures

/-!
# Who is kicked for silence

`CheckKeepAlive` compares the clock with `alivetime` and, after more than 60
seconds, spawns `KickoutFromRoom` with the id of the user. The kick runs in a
goroutine of its own and looks at nothing again: a heartbeat or a new login in
between does not stop it. And while the pod is not registered, heartbeats do
not reach their session.

A run with a clock carries what the result speaks of: when each session was
created, and which heartbeats were delivered. The link to the code is that
`alivetime` of a session in its seat is no earlier than either, which holds as
long as heartbeats of those who sit there arrive while the pod is registered.
-/

namespace MediaServer.Ref

open MediaServer.Lib

variable {p q : Pod} {s : SessRef} {r : RoomRef} {rid u : String}
variable {a : Env × Input}

/-! ## Runs with a clock -/

/-- A pod, the time of its last step, the times at which its sessions were
created, and the heartbeats delivered to `roommgr.HandleMessage`: the room,
the user and the time. -/
structure Chronicle where
  pod : Pod
  now : Int
  born : SessRef → Int
  beats : List (String × String × Int)

/-- The heartbeat that an input delivers. -/
def Input.beat (now : Int) (a : Input) : List (String × String × Int) :=
  match a.msg? with
  | some m =>
      if command m = some .heartbeat then
        [(getValue m .roomId, getValue m .sessID, now)]
      else []
  | none => []

/-- The room and the user of a spawned `KickoutFromRoom`. Only
`CheckKeepAlive` spawns one; a logout calls the function itself. -/
def Goroutine.kicked : Goroutine → Option (RoomRef × String)
  | .kickoutFromRoom r u => some (r, u)
  | _ => none

namespace Chronicle

def init (conf : Config) (start : Int) : Chronicle :=
  ⟨Pod.createRoomMgr conf, start, fun _ => start, []⟩

/-- The clock does not go back. -/
def step (a : Env × Input) (w : Chronicle) : Option Chronicle :=
  if a.1.now < w.now then none
  else (Pod.step a w.pod).map fun q =>
    { pod := q
      now := a.1.now
      born := fun s => if s < w.pod.sessHeap.next then w.born s else a.1.now
      beats := a.2.beat a.1.now ++ w.beats }

/-- A session that a kick for silence removes is older than 60 seconds, and
no heartbeat of its user for the room was delivered in the last 60. -/
def KicksSilent (w : Chronicle) (a : Env × Input) (w' : Chronicle) : Prop :=
  ∀ r u s, a.2.call? w.pod = some (.kickoutFromRoom r u) →
    (w.pod.room r).sessions.lookup u = some s →
    (w'.pod.room r).sessions.lookup u ≠ some s →
    a.1.now - w.born s > 60 ∧
      ∀ t, ((w.pod.room r).roomid, u, t) ∈ w.beats → a.1.now - t > 60

/-- A kick runs only while the session it finds is still overdue, and a
heartbeat of someone who sits in the room arrives while the pod is
registered. -/
def Patient (w : Chronicle) (a : Env × Input) : Prop :=
  (∀ g ∈ a.2.call? w.pod, ∀ e ∈ g.kicked,
    ∀ s ∈ (w.pod.room e.1).sessions.lookup e.2,
      a.1.now - (w.pod.sess s).alivetime > 60) ∧
  ∀ m ∈ a.2.msg?, command m = some .heartbeat →
    w.pod.seat (getValue m .roomId) (getValue m .sessID) ≠ none →
    w.pod.regist = true

instance (w : Chronicle) (a : Env × Input) : Decidable (w.Patient a) :=
  inferInstanceAs (Decidable (_ ∧ _))

/-- `alivetime` of a session in its seat covers its creation and all
heartbeats of its user. -/
structure Covered (w : Chronicle) : Prop where
  inOrder : InOrder w.pod
  past : ∀ rid u t, (rid, u, t) ∈ w.beats → t ≤ w.now
  alive : ∀ rid u s, w.pod.seat rid u = some s →
    (w.pod.sess s).alivetime ≤ w.now
  born : ∀ rid u s, w.pod.seat rid u = some s →
    w.born s ≤ (w.pod.sess s).alivetime
  beats : ∀ rid u s t, w.pod.seat rid u = some s → (rid, u, t) ∈ w.beats →
    t ≤ (w.pod.sess s).alivetime

end Chronicle

/-! ## What a step does to `alivetime` -/

theorem newSession_alivetime (env : Env) (r : RoomRef) (m : JsonParser) :
    (newSession env r m).alivetime = env.now := by
  unfold newSession
  dsimp only
  split
  · rfl
  · rfl

/-- Whoever sits in a room after a step is a new session or sat there before,
and has the time of the step, which it owes to a heartbeat if it is not new,
or the one it had. -/
theorem step_seated (hp : InOrder p) (hs : Pod.step a p = some q)
    (hq : (q.room r).sessions.lookup u = some s) :
    (s < p.sessHeap.next → (p.room r).sessions.lookup u = some s) ∧
      ((q.sess s).alivetime = a.1.now ∧
          (s < p.sessHeap.next → Foot p a.1 a.2 (.beats s a.1.now)) ∨
        s < p.sessHeap.next ∧ (q.sess s).alivetime = (p.sess s).alivetime) := by
  revert r u s
  refine (step_induction (P := fun t => ∀ {s r u},
    (t.room r).sessions.lookup u = some s →
      (s < p.sessHeap.next → (p.room r).sessions.lookup u = some s) ∧
      ((t.sess s).alivetime = a.1.now ∧
          (s < p.sessHeap.next → Foot p a.1 a.2 (.beats s a.1.now)) ∨
        s < p.sessHeap.next ∧
          (t.sess s).alivetime = (p.sess s).alivetime)) hp hs
    (fun {s r u} h => ⟨fun _ => h, .inr ⟨(hp.sessions r u s h).2.2, rfl⟩⟩)
    fun {b t t'} hb hsound hafter _ hm ht s r u hq => ?_).1
  rw [hm.lookup hsound.toPodOk] at hq
  rw [hm.alivetime]
  cases hm with
  | seats i v x =>
      simp only [Act.lookup] at hq
      obtain ⟨m, -, -, -, -, rfl⟩ := hb
      split at hq
      · cases hq
        have hnew : ¬t.sessHeap.next < p.sessHeap.next :=
          fun hlt => absurd hafter.sessNext (Nat.not_le_of_lt hlt)
        refine ⟨fun hlt => absurd hlt hnew,
          .inl ⟨?_, fun hlt => absurd hlt hnew⟩⟩
        simp only [Act.alivetime, if_pos, newSession_alivetime]
      · have hne : s ≠ t.sessHeap.next :=
          Nat.ne_of_lt (hsound.sessions r u s hq).2.2
        simp only [Act.alivetime, if_neg hne]
        exact ht hq
  | beats i now =>
      have hbeat := hb
      obtain ⟨m, r', -, -, -, -, rfl⟩ := hb
      have hold := ht hq
      simp only [Act.alivetime]
      split
      · next hsi => exact ⟨hold.1, .inl ⟨rfl, fun _ => hsi ▸ hbeat⟩⟩
      · exact hold
  | unseats | vacates | opens =>
      simp only [Act.lookup] at hq
      split at hq
      · cases hq
      · exact ht hq
  | still | dies | sends | spawns | tells | unpush | leaves | withdraws
  | destroys | erases | clears | adds | offers | accepts | flags | announces
  | closes | takes => exact ht hq

/-- A heartbeat that arrives while the pod is registered reaches the session
of its user. -/
theorem step_beat {m : JsonParser} (hs : Pod.step a p = some q)
    (hm : a.2 = .message m) (hc : command m = some .heartbeat)
    (hreg : p.regist = true)
    (hseat : p.seat (getValue m .roomId) (getValue m .sessID) = some s) :
    (q.sess s).alivetime = a.1.now := by
  have hroute : route m = getValue m .sessID := by simp only [route, hc]
  rw [step_routed hs hm hc rfl hreg (by rw [hroute]; exact hseat)]
  simp only [Pod.sessionHandleMessage, hc]
  rw [Pod.setSess_sess, if_pos rfl]

/-! ## Runs -/

namespace Chronicle

variable {w w' : Chronicle}

theorem step_eq_some (h : step a w = some w') :
    w.now ≤ a.1.now ∧ ∃ q, Pod.step a w.pod = some q ∧ w' =
      { pod := q
        now := a.1.now
        born := fun s =>
          if s < w.pod.sessHeap.next then w.born s else a.1.now
        beats := a.2.beat a.1.now ++ w.beats } := by
  unfold step at h
  split at h
  · cases h
  · next hle =>
      obtain ⟨q, hq, rfl⟩ := Option.map_eq_some_iff.mp h
      exact ⟨by omega, q, hq, rfl⟩

theorem mem_beat {t : Int} (h : (rid, u, t) ∈ a.2.beat a.1.now) :
    t = a.1.now ∧ ∃ m, a.2 = .message m ∧ command m = some .heartbeat ∧
      getValue m .roomId = rid ∧ getValue m .sessID = u := by
  unfold Input.beat at h
  split at h
  · next m hm =>
      split at h
      · next hc =>
          cases List.mem_singleton.mp h
          exact ⟨rfl, m, Input.msg?_eq_some hm, hc, rfl, rfl⟩
      · cases h
  · cases h

theorem Covered.step (hw : Covered w) (ha : w.Patient a)
    (hs : step a w = some w') : Covered w' := by
  obtain ⟨hclock, q, hq, rfl⟩ := step_eq_some hs
  have hp := hw.inOrder
  have hpast : ∀ rid u t, (rid, u, t) ∈ a.2.beat a.1.now ++ w.beats →
      t ≤ a.1.now := by
    intro rid u t ht
    rcases List.mem_append.mp ht with ht | ht
    · rw [(mem_beat ht).1]
    · have := hw.past rid u t ht
      omega
  -- a seat after the step: a new session, or one that had it before
  have hcases : ∀ rid u s, q.seat rid u = some s →
      ¬s < w.pod.sessHeap.next ∧ (q.sess s).alivetime = a.1.now ∨
      s < w.pod.sessHeap.next ∧ w.pod.seat rid u = some s ∧
        ((q.sess s).alivetime = a.1.now ∨
          (q.sess s).alivetime = (w.pod.sess s).alivetime) := by
    intro rid u s hseat
    obtain ⟨r, hr, hlook⟩ := seat_eq_some.mp hseat
    obtain ⟨hback, htime⟩ := step_seated hp hq hlook
    by_cases hlt : s < w.pod.sessHeap.next
    · have hold := hp.toSound.seat (hback hlt)
      have hid := step_seat_room hp hq hold hseat
      rw [hid] at hold
      exact .inr ⟨hlt, hold, htime.imp And.left And.right⟩
    · exact .inl ⟨hlt, (htime.resolve_right fun h => hlt h.1).1⟩
  refine ⟨step_inOrder hp hq, hpast, ?_, ?_, ?_⟩
  · intro rid u s hseat
    rcases hcases rid u s hseat with ⟨-, ht⟩ | ⟨-, hold, ht | ht⟩
    · exact ht.le
    · exact ht.le
    · have := hw.alive rid u s hold
      dsimp only
      omega
  · intro rid u s hseat
    dsimp only
    rcases hcases rid u s hseat with ⟨hnew, ht⟩ | ⟨hlt, hold, ht⟩
    · rw [if_neg hnew, ht]
    · have hborn := hw.born rid u s hold
      have halive := hw.alive rid u s hold
      rw [if_pos hlt]
      omega
  · intro rid u s t hseat hbeat
    dsimp only at hbeat ⊢
    have hle := hpast rid u t hbeat
    rcases hcases rid u s hseat with ⟨-, ht⟩ | ⟨hlt, hold, ht | ht⟩
    · omega
    · omega
    · rcases List.mem_append.mp hbeat with hnow | hbefore
      · obtain ⟨rfl, m, hm, hc, rfl, rfl⟩ := mem_beat hnow
        have hreg := ha.2 m (by rw [hm]; rfl) hc (by rw [hold]; exact nofun)
        rw [step_beat hq hm hc hreg hold]
      · have := hw.beats rid u s t hold hbefore
        omega

theorem Covered.kicksSilent (hw : Covered w) (ha : w.Patient a) :
    KicksSilent w a w' := by
  intro r u s hcall hlook _
  have hover := ha.1 _ hcall (r, u) rfl s hlook
  have hseat := hw.inOrder.toSound.seat hlook
  have hborn := hw.born _ u s hseat
  refine ⟨by omega, fun t ht => ?_⟩
  have := hw.beats _ u s t hseat ht
  omega

theorem init_covered (conf : Config) (start : Int) :
    Covered (init conf start) where
  inOrder := createRoomMgr_inOrder conf
  past _ _ _ h := by cases h
  alive _ _ _ h := by cases h
  born _ _ _ h := by cases h
  beats _ _ _ _ h := by cases h

end Chronicle

/-- In every run that meets the condition, a kick for silence removes only
sessions older than 60 seconds whose user sent no heartbeat in the last 60. -/
theorem kicks_only_silent {conf : Config} {start : Int}
    {as : List (Env × Input)}
    (hg : Guarded Chronicle.step Chronicle.Patient as
      (Chronicle.init conf start)) :
    AlwaysStep Chronicle.step Chronicle.KicksSilent as
      (Chronicle.init conf start) :=
  alwaysStep_of_guarded (fun _ _ _ hw ha hs =>
    ⟨hw.step ha hs, hw.kicksSilent ha⟩) hg (Chronicle.init_covered conf start)

/-- The user is silent for 61 seconds and the kick is spawned. -/
def overdue : List (Env × Input) :=
  [(Env.calm, .setSendMessageHandler),
    (Env.calm, .message (Cmd.login.msg [(.roomId, "R"), (.sessID, "u")])),
    ({ Env.calm with now := 61 }, .keepaliveTick),
    ({ Env.calm with now := 61 }, .go 0)]

/-- A heartbeat of the user arrives before the kick runs. -/
def lateBeat : List (Env × Input) :=
  overdue ++ [({ Env.calm with now := 61 }, .message (Cmd.heartbeat.msg
    [(.roomId, "R"), (.sessID, "u")]))]

/-- The kick removes the session all the same. -/
theorem kick_ignores_heartbeat :
    ∃ w w', run Chronicle.step lateBeat
        (Chronicle.init (Config.standalone "podA") 0) = some w ∧
      Chronicle.step ({ Env.calm with now := 61 }, .go 0) w = some w' ∧
      ¬Chronicle.KicksSilent w ({ Env.calm with now := 61 }, .go 0) w' := by
  have h : (run Chronicle.step lateBeat
      (Chronicle.init (Config.standalone "podA") 0)).bind (fun w =>
        (Chronicle.step ({ Env.calm with now := 61 }, .go 0) w).map fun w' =>
          decide (w.pod.pending[0]? = some (.kickoutFromRoom 0 "u") ∧
            (w.pod.room 0).sessions.lookup "u" = some 0 ∧
            (w'.pod.room 0).sessions.lookup "u" = none ∧
            (w.pod.room 0).roomid = "R" ∧ w.beats = [("R", "u", 61)])) =
      some true := by decide
  obtain ⟨w, hw, hnext⟩ := Option.bind_eq_some_iff.mp h
  obtain ⟨w', hw', hfacts⟩ := Option.map_eq_some_iff.mp hnext
  obtain ⟨hcall, hin, hout, hid, hbeats⟩ := of_decide_eq_true hfacts
  refine ⟨w, w', hw, hw', fun hsilent => ?_⟩
  have hno := (hsilent 0 "u" 0 hcall hin (by rw [hout]; exact nofun)).2 61
    (by rw [hid, hbeats]; exact List.mem_singleton_self _)
  exact absurd hno (by decide)

/-- Without the heartbeat the kick is right. -/
theorem kicks_only_silent_overdue :
    ∃ w w', run Chronicle.step overdue
        (Chronicle.init (Config.standalone "podA") 0) = some w ∧
      Chronicle.step ({ Env.calm with now := 61 }, .go 0) w = some w' ∧
      w.pod.seat "R" "u" = some 0 ∧ w'.pod.seat "R" "u" = none ∧
      AlwaysStep Chronicle.step Chronicle.KicksSilent
        (overdue ++ [({ Env.calm with now := 61 }, .go 0)])
        (Chronicle.init (Config.standalone "podA") 0) := by
  have h : (run Chronicle.step overdue
      (Chronicle.init (Config.standalone "podA") 0)).bind (fun w =>
        (Chronicle.step ({ Env.calm with now := 61 }, .go 0) w).map fun w' =>
          decide (w.pod.seat "R" "u" = some 0 ∧
            w'.pod.seat "R" "u" = none)) = some true := by decide
  obtain ⟨w, hw, hnext⟩ := Option.bind_eq_some_iff.mp h
  obtain ⟨w', hw', hfacts⟩ := Option.map_eq_some_iff.mp hnext
  obtain ⟨hin, hout⟩ := of_decide_eq_true hfacts
  exact ⟨w, w', hw, hw', hin, hout, kicks_only_silent (by decide)⟩

end MediaServer.Ref
