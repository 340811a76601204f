import Mathlib.Data.List.InsertIdx
import MediaServer.Proofs.Effects
import MediaServer.Ref.Startup

/-!
# Messages before the handler is set

Nothing in `roommgr.HandleMessage` waits for `SetSendMessageHandler`. A
message that is answered before then is answered with a nil function: every
message but those of the registration on a pod that is not registered, and on
one that is, everything a client sends about a room. A login on a registered
pod is worse off, because the room that it creates keeps the nil function for
good.

So the condition is on what is handled while the function is not set: only
messages that need no answer, and a login that finds no room stops before it
creates one. The pod then has no rooms until the function is set, and no room
ever has a nil copy.
-/

namespace MediaServer.Ref

open MediaServer.Lib

variable {p q : Pod} {m : JsonParser} {env : Env} {b : Boot} {k : BootPc}

/-! ## What needs no answer -/

/-- The room manager, while it has no rooms, answers nobody about the
message. -/
def Pod.takesSilently (p : Pod) (m : JsonParser) : Bool :=
  match command m with
  | some .podRegist | some .podRegistNow => true
  | some .heartbeat | some .logout | some .push | some .stopPush | some .sub
  | some .stopSub | some .offer | some .answer | some .candidate => false
  | _ => p.regist

/-- Such a message is one of the registration, or it leaves the pod alone and
goes on to create a room at most. -/
theorem startMessage_silent (hrooms : ∀ rid, p.rooms.lookup rid = none)
    (hm : p.takesSilently m = true) :
    MgrPc.startMessage m p = (p.mgrHandleMessage .calm m, none) ∧
        (p.mgrHandleMessage .calm m).log = p.log ∧ command m ≠ some .login ∨
      MgrPc.startMessage m p = (p, none) ∨
      MgrPc.startMessage m p = (p, some (.insertRoom m)) := by
  unfold Pod.takesSilently at hm
  unfold MgrPc.startMessage Pod.mgrHandleMessage
  split at hm
  · next hc =>
      rw [hc]
      refine .inl ⟨rfl, ?_, by decide⟩
      dsimp only
      unfold Pod.handlePodRegist
      repeat' split
      all_goals rfl
  · next hc =>
      rw [hc]
      refine .inl ⟨rfl, ?_, by decide⟩
      dsimp only
      unfold Pod.handlePodRegistNow
      split
      all_goals rfl
  all_goals try cases hm
  next =>
      split
      · contradiction
      · contradiction
      · rw [if_pos hm, hrooms, if_pos rfl]
        exact .inr (.inr rfl)
      · rw [if_pos hm, hrooms, if_pos rfl]
        unfold Pod.notFoundRoom
        split
        · split
          all_goals first
            | contradiction
            | exact .inr (.inl rfl)
        · exact .inr (.inl rfl)

/-- Without a message no room is created. -/
theorem step_no_rooms {a : Env × Input} (hp : InOrder p)
    (hrooms : ∀ rid, p.rooms.lookup rid = none)
    (ha : ∀ m, a.2 = .message m → command m ≠ some .login)
    (hs : Pod.step a p = some q) :
    InOrder q ∧ ∀ rid, q.rooms.lookup rid = none := by
  refine ⟨step_inOrder hp hs, ?_⟩
  refine (step_induction (P := fun t => ∀ rid, t.rooms.lookup rid = none) hp
    hs hrooms ?_).1
  intro b t t' hb ht _ _ hmove hnone rid
  rw [hmove.rooms ht.toPodOk]
  cases b with
  | opens rid' =>
      obtain ⟨m, hm, _, hc, _⟩ := hb
      exact absurd hc (ha m hm)
  | closes rid' =>
      rw [Act.rooms]
      split
      · rfl
      · exact hnone rid
  | _ => exact hnone rid

/-! ## The pod before and after the handler is set -/

namespace Boot

/-- Until the function is set there is no room, and every room has a copy that
is not nil. -/
structure Ok (b : Boot) : Prop where
  unset : b.handler = false →
    InOrder b.pod ∧ ∀ rid, b.pod.rooms.lookup rid = none
  bare : b.bare = []

theorem Ok.of_set (h : b.handler = true) (hbare : b.bare = []) : b.Ok :=
  ⟨fun hf => absurd (h.symm.trans hf) (by decide), hbare⟩

end Boot

namespace BootPc

/-- A call gets past the creation of a room only when the function is set. -/
def Ok (b : Boot) : BootPc → Prop
  | .mgr (.start _) | .mgr (.insertRoom _) => True
  | .mgr _ => b.handler = true
  | .storeRoom _ copied => b.handler = true ∧ copied = true

theorem ok_of_set {k : MgrPc} (h : b.handler = true) : (BootPc.mgr k).Ok b := by
  cases k with
  | start m | insertRoom m => trivial
  | announce m | readRoom m | fetchRoom m | callRoom m r => exact h

/-- Places do not depend on more than the function, which is never taken
back. -/
theorem Ok.mono {b' : Boot} (h : k.Ok b)
    (hb : b.handler = true → b'.handler = true) : k.Ok b' := by
  cases k with
  | mgr k =>
      cases k with
      | start m | insertRoom m => trivial
      | announce m | readRoom m | fetchRoom m | callRoom m r => exact hb h
  | storeRoom m copied => exact ⟨hb h.1, h.2⟩

/-- The call does not go on before the function is set, unless nobody has to
be answered and no room is created. -/
def Patient (b : Boot) : BootPc → Prop
  | .mgr (.start m) => b.handler = true ∨ b.pod.takesSilently m = true
  | .mgr (.insertRoom _) => b.handler = true
  | _ => True

instance (b : Boot) : (k : BootPc) → Decidable (k.Patient b)
  | .mgr (.start _) => inferInstanceAs (Decidable (_ ∨ _))
  | .mgr (.insertRoom _) => inferInstanceAs (Decidable (_ = _))
  | .mgr (.announce _) | .mgr (.readRoom _) | .mgr (.fetchRoom _)
  | .mgr (.callRoom _ _) | .storeRoom _ _ => inferInstanceAs (Decidable True)

/-- Before the function is set only a silent first block runs. -/
theorem start_of_unset (hk : k.Ok b) (hpat : k.Patient b)
    (hunset : b.handler = false) :
    ∃ m, k = .mgr (.start m) ∧ b.pod.takesSilently m = true := by
  have hne : b.handler ≠ true := by rw [hunset]; decide
  cases k with
  | mgr k =>
      cases k with
      | start m => exact ⟨m, rfl, hpat.resolve_left hne⟩
      | insertRoom m => exact absurd hpat hne
      | announce m | readRoom m | fetchRoom m | callRoom m r =>
          exact absurd hk hne
  | storeRoom m copied => exact absurd hk.1 hne

theorem handlerSet_of_set (hset : b.handler = true) (hbare : b.bare = []) :
    k.handlerSet b = true := by
  unfold handlerSet
  split
  · rw [hbare]
    rfl
  · exact hset

/-- Apart from the creation of a room, the blocks are the room manager's. -/
theorem block_mgr {k : MgrPc} (hk : ∀ m, k ≠ .insertRoom m) :
    (BootPc.mgr k).block env b =
      ({ b with pod := (k.exec env b.pod).1 },
        (k.exec env b.pod).2.map .mgr) := by
  cases k with
  | insertRoom m => exact absurd rfl (hk m)
  | start m | announce m | readRoom m | fetchRoom m | callRoom m r => rfl

theorem block_start (m : JsonParser) :
    (BootPc.mgr (.start m)).block env b =
      ({ b with pod := (MgrPc.startMessage m b.pod).1 },
        (MgrPc.startMessage m b.pod).2.map .mgr) :=
  block_mgr fun _ h => by cases h

/-- The block calls no nil function. -/
theorem not_callsNil (hb : b.Ok) (hk : k.Ok b) (hpat : k.Patient b) :
    k.callsNil env b = false := by
  unfold callsNil
  cases hset : b.handler with
  | true => rw [handlerSet_of_set hset hb.bare, Bool.not_true, Bool.and_false]
  | false =>
      obtain ⟨m, rfl, hm⟩ := start_of_unset hk hpat hset
      have hlog : (MgrPc.startMessage m b.pod).1.log = b.pod.log := by
        rcases startMessage_silent (hb.unset hset).2 hm with ⟨h, hl, _⟩ | h | h
        · rw [h]; exact hl
        · rw [h]
        · rw [h]
      have hnew : newEvents b.pod (MgrPc.startMessage m b.pod).1 = [] :=
        newEvents_of_append (by rw [hlog, List.append_nil])
      rw [sends, block_start, hnew, List.any_nil, Bool.false_and]

theorem block_handler (env : Env) (b : Boot) (k : BootPc) :
    (k.block env b).1.handler = b.handler := by
  cases k with
  | mgr k => cases k <;> rfl
  | storeRoom m copied => rfl

/-- With the function set, a room gets a copy that is not nil. -/
theorem block_bare (hk : k.Ok b) : (k.block env b).1.bare = b.bare := by
  cases k with
  | mgr k => cases k <;> rfl
  | storeRoom m copied =>
      rw [block, Boot.insertRoom, hk.2]
      rfl

theorem block_next {k' : BootPc} (hset : b.handler = true)
    (hnext : (k.block env b).2 = some k') : k'.Ok b := by
  cases k with
  | mgr k =>
      by_cases hk : ∃ m, k = .insertRoom m
      · obtain ⟨m, rfl⟩ := hk
        cases hnext
        exact ⟨hset, hset⟩
      · rw [block_mgr fun m h => hk ⟨m, h⟩] at hnext
        obtain ⟨l, _, rfl⟩ := Option.map_eq_some_iff.mp hnext
        exact ok_of_set hset
  | storeRoom m copied => cases hnext; exact hset

/-- A block keeps the rooms in order, and leads where the call may stand. -/
theorem block_ok (env : Env) (hb : b.Ok) (hk : k.Ok b) (hpat : k.Patient b)
    (hf : b.pod.fatal = false) :
    (k.block env b).1.Ok ∧
      ∀ k', (k.block env b).2 = some k' → k'.Ok (k.block env b).1 := by
  cases hset : b.handler with
  | true =>
      refine ⟨.of_set ((block_handler env b k).trans hset)
        ((block_bare hk).trans hb.bare), fun k' hk' => ?_⟩
      exact (block_next hset hk').mono fun h => (block_handler env b k).trans h
  | false =>
      obtain ⟨m, rfl, hm⟩ := start_of_unset hk hpat hset
      obtain ⟨hord, hrooms⟩ := hb.unset hset
      rw [block_start]
      rcases startMessage_silent hrooms hm with ⟨h, _, hc⟩ | h | h
      · have hstep : Pod.step (.calm, .message m) b.pod =
            some (b.pod.mgrHandleMessage .calm m) := by
          rw [Pod.step, hf]
          rfl
        rw [h]
        refine ⟨⟨fun _ => step_no_rooms hord hrooms ?_ hstep, hb.bare⟩,
          fun k' hk' => by cases hk'⟩
        intro m' hm'
        cases hm'
        exact hc
      · rw [h]
        exact ⟨hb, fun k' hk' => by cases hk'⟩
      · rw [h]
        refine ⟨hb, fun k' hk' => ?_⟩
        cases hk'
        trivial

end BootPc

/-! ## Whole startups -/

namespace BootSched

variable {t u : BootSched}

/-- No turn of a call may come too early. -/
def Patient (t : BootSched) : Act → Prop
  | .turn i _ => ∀ k ∈ t.threads[i]?, k.Patient t.shared
  | _ => True

/-- The call whose turn it is calls no nil function. -/
def Safe (t : BootSched) : Act → Prop
  | .turn i env => ∀ k ∈ t.threads[i]?, k.callsNil env t.shared = false
  | _ => True

instance (t : BootSched) (a : Act) : Decidable (t.Patient a) := by
  cases a <;> unfold Patient <;> infer_instance

instance (t : BootSched) (a : Act) : Decidable (t.Safe a) := by
  cases a <;> unfold Safe <;> infer_instance

abbrev Ok : BootSched → Prop := Threads.Inv Boot.Ok fun k b => k.Ok b

theorem Ok.safe (h : Ok t) {a : Act} (ha : t.Patient a) : t.Safe a := by
  cases a with
  | turn i env =>
      intro k hk
      exact BootPc.not_callsNil h.shared (h.each k (List.mem_of_getElem? hk))
        (ha k hk)
  | main | receive tr m | other a => trivial

theorem runMain_ok (hb : b.Ok) (hf : b.pod.fatal = false) (k : MainStep) :
    (b.runMain k).Ok := by
  cases k with
  | interClusterStartup | crossClusterStartup | onReceivedMessage | init =>
      exact ⟨hb.unset, hb.bare⟩
  | setHandler => exact .of_set rfl hb.bare
  | register =>
      refine ⟨fun hunset => ?_, hb.bare⟩
      obtain ⟨hord, hrooms⟩ := hb.unset hunset
      refine step_no_rooms (a := (.calm, .setSendMessageHandler)) hord hrooms
        (fun m hm => by cases hm) ?_
      rw [Pod.step, hf]
      rfl

theorem runMain_handler (b : Boot) (k : MainStep) (h : b.handler = true) :
    (b.runMain k).handler = true := by
  cases k with
  | setHandler => rfl
  | interClusterStartup | crossClusterStartup | onReceivedMessage | init
  | register => exact h

theorem step_ok {a : Act} (h : Ok t) (ha : t.Patient a)
    (hs : step a t = some u) : Ok u := by
  unfold step at hs
  dsimp only at hs
  split at hs
  · cases hs
  · next hf =>
      have hf : t.shared.pod.fatal = false := Bool.not_eq_true _ ▸ hf
      cases a with
      | main =>
          dsimp only at hs
          split at hs
          · cases hs
          · next k rest _ =>
              cases hs
              have hrest : Boot.Ok { t.shared with main := rest } :=
                ⟨h.shared.unset, h.shared.bare⟩
              exact h.of_shared (runMain_ok hrest hf k) fun l _ hl =>
                hl.mono (runMain_handler { t.shared with main := rest } k)
      | receive tr m =>
          dsimp only at hs
          split at hs
          · cases hs; exact h.start trivial
          · cases hs
      | turn i env =>
          obtain ⟨k, b, next, hk, hexec, rfl⟩ := Threads.turn_eq_some hs
          have hkok := h.each k (List.mem_of_getElem? hk)
          have hpat := ha k hk
          have hblock : k.block env t.shared = (b, next) := by
            rw [← Option.some.inj hexec, BootPc.exec,
              BootPc.not_callsNil h.shared hkok hpat, if_neg Bool.false_ne_true]
          have hok := BootPc.block_ok env h.shared hkok hpat hf
          have hset := BootPc.block_handler env t.shared k
          rw [hblock] at hok hset
          exact h.resume hok.1 hok.2 fun l _ hl =>
            hl.mono fun hb => hset.trans hb
      | other a =>
          dsimp only at hs
          split at hs
          · next hin =>
              obtain ⟨q, hq, rfl⟩ := Option.map_eq_some_iff.mp hs
              refine h.of_shared ⟨fun hunset => ?_, h.shared.bare⟩
                fun l _ hl => hl.mono id
              obtain ⟨hord, hrooms⟩ := h.shared.unset hunset
              refine step_no_rooms hord hrooms (fun m hm => ?_) hq
              rw [hm] at hin
              cases hin
          · cases hs

theorem init_ok (conf : Config) : Ok (init conf) where
  shared := ⟨fun _ => ⟨createRoomMgr_inOrder conf, fun _ => rfl⟩, rfl⟩
  each k hk := by cases hk

/-- However the steps of `main` and the calls of `HandleMessage` are mixed:
if no call goes on too early, none of them calls `onSendMessageHandler` while
it is nil, neither the room manager's nor the copy of a room. -/
theorem safe_of_patient {conf : Config} {as : List Act}
    (hg : Guarded step Patient as (init conf)) :
    AlwaysStep step (fun t a _ => t.Safe a) as (init conf) :=
  alwaysStep_of_guarded
    (fun _ _ _ h ha hs => ⟨step_ok h ha hs, h.safe ha⟩) hg (init_ok conf)

/-- The reply of the load balancer, for a pod that knows its cluster. -/
def registered : JsonParser :=
  [(.cmd, .str Cmd.podRegist.text), (.code, .int 0)]

def loginOf (u : String) : JsonParser :=
  Cmd.login.msg [(.roomId, "r"), (.sessID, u)]

/-- A registration and a login that arrive before `main` is done. The login
stands before the creation of its room until the function is set. -/
def earlyLogin : List Act :=
  [.main, .receive .rmq registered, .turn 0 .calm, .main,
    .receive .crmq (loginOf "u"), .turn 0 .calm, .main, .main, .main,
    .turn 0 .calm, .turn 0 .calm, .turn 0 .calm, .turn 0 .calm]

theorem safe_earlyLogin :
    AlwaysStep step (fun t a _ => t.Safe a) (earlyLogin ++ [.turn 0 .calm])
        (init (Config.standalone "podA")) ∧
      ∃ t, run step earlyLogin (init (Config.standalone "podA")) = some t ∧
        t.threads = [.mgr (.callRoom (loginOf "u") (some 0))] ∧
        BootPc.sends .calm t.shared (.mgr (.callRoom (loginOf "u") (some 0))) =
          true := by
  refine ⟨safe_of_patient (by decide), ?_⟩
  have h : (run step earlyLogin (init (Config.standalone "podA"))).map
      (fun t => decide
        (t.threads = [.mgr (.callRoom (loginOf "u") (some 0))] ∧
        BootPc.sends .calm t.shared (.mgr (.callRoom (loginOf "u") (some 0))) =
          true)) = some true := by decide
  obtain ⟨t, ht, hd⟩ := Option.map_eq_some_iff.mp h
  exact ⟨t, ht, of_decide_eq_true hd⟩

/-- A heartbeat that arrives as soon as the first broker is started. -/
def earlyHeartbeat : List Act :=
  [.main, .receive .rmq (Cmd.heartbeat.msg [(.sessID, "u")])]

/-- The login goes on while the function is not set, and is called into its
room when it is. -/
def bareRoom : List Act :=
  [.main, .receive .rmq registered, .turn 0 .calm, .main,
    .receive .crmq (loginOf "u"), .turn 0 .calm, .turn 0 .calm, .main, .main,
    .main, .turn 0 .calm, .turn 0 .calm, .turn 0 .calm]

/-- The answer that the service is not available calls the nil function, and
so does the answer to a login in a room that was created too early, even
though the room manager has its function by then. Both are panics. -/
theorem early_messages_panic :
    (∃ t u, run step earlyHeartbeat (init (Config.standalone "podA")) = some t ∧
      ¬t.Safe (.turn 0 .calm) ∧ step (.turn 0 .calm) t = some u ∧
      u.shared.pod.fatal = true) ∧
    ∃ t u, run step bareRoom (init (Config.standalone "podA")) = some t ∧
      t.shared.handler = true ∧ ¬t.Safe (.turn 0 .calm) ∧
      step (.turn 0 .calm) t = some u ∧ u.shared.pod.fatal = true := by
  have hone : ((run step earlyHeartbeat (init (Config.standalone "podA"))).bind
      fun t => (step (.turn 0 .calm) t).map fun u => decide
        (¬t.Safe (.turn 0 .calm) ∧ u.shared.pod.fatal = true)) = some true := by
    decide
  have htwo : ((run step bareRoom (init (Config.standalone "podA"))).bind
      fun t => (step (.turn 0 .calm) t).map fun u => decide
        (t.shared.handler = true ∧ ¬t.Safe (.turn 0 .calm) ∧
          u.shared.pod.fatal = true)) = some true := by
    decide
  obtain ⟨t, ht, h⟩ := Option.bind_eq_some_iff.mp hone
  obtain ⟨u, hu, hd⟩ := Option.map_eq_some_iff.mp h
  obtain ⟨t', ht', h'⟩ := Option.bind_eq_some_iff.mp htwo
  obtain ⟨u', hu', hd'⟩ := Option.map_eq_some_iff.mp h'
  have hd := of_decide_eq_true hd
  have hd' := of_decide_eq_true hd'
  exact ⟨⟨t, u, ht, hd.1, hu, hd.2⟩, t', u', ht', hd'.1, hd'.2.1, hu', hd'.2.2⟩

/-! ## After the startup

With the function set, and with no room that was created without it, the calls
are those of `MgrSched.lean`. -/

structure Mirrors (t : BootSched) (v : MgrSched) : Prop where
  pod : t.shared.pod = v.shared
  threads : t.threads = v.threads.map .mgr
  handler : t.shared.handler = true
  bare : t.shared.bare = []

/-- A turn of a call, once the function is set. -/
theorem step_turn (env : Env) {i : Nat} (hset : t.shared.handler = true)
    (hbare : t.shared.bare = []) (hf : t.shared.pod.fatal = false)
    (hk : t.threads[i]? = some k) :
    step (.turn i env) t = some (t.resume i (k.block env t.shared).1
      (k.block env t.shared).2) := by
  have hexec : k.exec env t.shared = k.block env t.shared := by
    rw [BootPc.exec, BootPc.callsNil, BootPc.handlerSet_of_set hset hbare,
      Bool.not_true, Bool.and_false, if_neg Bool.false_ne_true]
  rw [step, hf, if_neg Bool.false_ne_true]
  simp only [Threads.turn, hk, hexec, Option.map_some]

theorem Mirrors.resume {v : MgrSched} {b : Boot} {q : Pod}
    (h : Mirrors t v) (i : Nat) (next : Option MgrPc) (hpod : b.pod = q)
    (hset : b.handler = true) (hbare : b.bare = []) :
    Mirrors (t.resume i b (next.map .mgr)) (v.resume i q next) := by
  cases next with
  | none =>
      exact ⟨hpod, by
        rw [Option.map_none, Threads.resume, Threads.resume, h.threads,
          List.eraseIdx_map], hset, hbare⟩
  | some k =>
      exact ⟨hpod, by
        rw [Option.map_some, Threads.resume, Threads.resume, h.threads,
          List.map_set], hset, hbare⟩

/-- Every turn of a call there is a turn here, or the two turns that create a
room. -/
theorem Mirrors.turn {v w : MgrSched} {i : Nat} (h : Mirrors t v)
    (hs : MgrSched.step (.turn i env) v = some w) :
    ∃ as u, run step as t = some u ∧ Mirrors u w := by
  unfold MgrSched.step at hs
  split at hs
  · cases hs
  · next hf =>
      have hf : t.shared.pod.fatal = false := by
        rw [h.pod]
        exact Bool.not_eq_true _ ▸ hf
      obtain ⟨k, q, next, hk, hexec, rfl⟩ := Threads.turn_eq_some hs
      have hexec : k.exec env t.shared.pod = (q, next) := by
        rw [h.pod]
        exact Option.some.inj hexec
      have hmgr : t.threads[i]? = some (.mgr k) := by
        rw [h.threads, List.getElem?_map, hk]
        rfl
      have hstep := step_turn env h.handler h.bare hf hmgr
      by_cases hins : ∃ m, k = .insertRoom m
      · obtain ⟨m, rfl⟩ := hins
        cases hexec
        rw [BootPc.block, h.handler] at hstep
        have hnext := step_turn env
          (t := t.resume i t.shared (some (.storeRoom m true))) h.handler
          h.bare hf (k := .storeRoom m true) (by
            rw [Threads.resume, List.getElem?_set_self
              (List.getElem?_eq_some_iff.mp hmgr).1])
        refine ⟨[.turn i env, .turn i env], _, ?_, h.resume
          (b := t.shared.insertRoom (getValue m .roomId) true) i
          (some (.announce m)) rfl h.handler h.bare⟩
        rw [run, hstep, Option.bind_some, run, hnext, Option.bind_some, run]
        simp only [BootPc.block, Threads.resume, List.set_set, Option.map_some]
      · rw [BootPc.block_mgr fun m hm => hins ⟨m, hm⟩, hexec] at hstep
        refine ⟨[.turn i env], _, ?_, h.resume
          (b := { t.shared with pod := q }) i next rfl h.handler h.bare⟩
        rw [run, hstep]
        rfl

end BootSched

end MediaServer.Ref
