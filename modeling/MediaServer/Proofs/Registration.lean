import MediaServer.Proofs.Frame
import MediaServer.Ref.RegistSched

/-!
# The registration loop

Every send on `stopRegist` needs a loop to end it, and every pod that is not
registered needs a loop that no old send will end. Both are counting
statements: with `n` handlers waiting in their send there are at least `n`
loops, and more than `n` while `regist` is false.

Two steps can break the count. A reply may be accepted when no loop is left
for it, because it is a duplicate or because the pod never ran a loop; and a
loop may leave on its own while the send that was meant for it is still
waiting. If neither happens, the counts hold in every state. A `regist_now`
needs no condition: it adds a loop.
-/

namespace MediaServer.Ref

open MediaServer.Lib

variable {t u : RegistSched}

def RegistPc.isSend : RegistPc → Bool
  | .send => true
  | _ => false

def RegistPc.isSpawn : RegistPc → Bool
  | .spawn => true
  | _ => false

/-- The handlers that wait in their send on `stopRegist`. -/
def RegistSched.sends (t : RegistSched) : Nat :=
  t.threads.countP RegistPc.isSend

/-- The handlers that are about to start a loop. -/
def RegistSched.spawns (t : RegistSched) : Nat :=
  t.threads.countP RegistPc.isSpawn

/-- While the pod is not registered there is a loop, or a handler about to
start one, that no waiting send will end; and every waiting send has a loop
that can take it. -/
structure RegistOk (t : RegistSched) : Prop where
  loop : t.shared.started = true → t.shared.pod.regist = false →
    t.sends < t.shared.pod.loops + t.spawns
  send : t.sends ≤ t.shared.pod.loops

/-- The next block of the handler accepts a reply. -/
def RegistPc.accepts (p : Pod) : RegistPc → Bool
  | .start m => command m = some .podRegist ∧ p.registAccepts m
  | _ => false

/-- A reply is accepted only while there is a loop for it, and a loop leaves
on its own only if the waiting sends can do without it. -/
def RegistSched.Paired (t : RegistSched) : RegistSched.Act → Prop
  | .turn i => ∀ k ∈ t.threads[i]?, k.accepts t.shared.pod = true →
      t.sends < t.shared.pod.loops
  | .tick _ => t.shared.pod.regist = true → t.sends < t.shared.pod.loops
  | _ => True

instance (t : RegistSched) (a : RegistSched.Act) : Decidable (t.Paired a) := by
  cases a <;> unfold RegistSched.Paired <;> infer_instance

section Resume

variable {i : Nat} {k : RegistPc} (l : RegistPod) (next : Option RegistPc)

theorem sends_resume (hk : t.threads[i]? = some k) :
    RegistSched.sends (t.resume i l next) + [k].countP RegistPc.isSend =
      t.sends + next.toList.countP RegistPc.isSend :=
  Threads.countP_resume hk

theorem spawns_resume (hk : t.threads[i]? = some k) :
    RegistSched.spawns (t.resume i l next) + [k].countP RegistPc.isSpawn =
      t.spawns + next.toList.countP RegistPc.isSpawn :=
  Threads.countP_resume hk

end Resume

/-- A block that only looks. -/
theorem RegistOk.same {i : Nat} {k : RegistPc} {l : RegistPod} (h : RegistOk t)
    (hk : t.threads[i]? = some k) (hstart : k.isSend = false)
    (hspawn : k.isSpawn = false)
    (hst : l.started = t.shared.started)
    (hreg : l.pod.regist = t.shared.pod.regist)
    (hloops : l.pod.loops = t.shared.pod.loops) :
    RegistOk (t.resume i l none) := by
  have hs := sends_resume l none hk
  have hp := spawns_resume l none hk
  simp only [List.countP_singleton, hstart, hspawn, Bool.false_eq_true,
    if_false, Option.toList_none, List.countP_nil, Nat.add_zero] at hs hp
  refine ⟨?_, ?_⟩
  · rw [Threads.resume_shared, hs, hp, hst, hreg, hloops]
    exact h.loop
  · rw [Threads.resume_shared, hs, hloops]
    exact h.send

/-- The pod changes and no handler moves. -/
theorem RegistOk.of_shared {l : RegistPod}
    (hloop : l.started = true → l.pod.regist = false →
      t.sends < l.pod.loops + t.spawns) (hsend : t.sends ≤ l.pod.loops) :
    RegistOk { t with shared := l } := ⟨hloop, hsend⟩

theorem RegistOk.turn {i : Nat} (h : RegistOk t) (ha : t.Paired (.turn i))
    (hs : t.turn RegistPod.exec i = some u) : RegistOk u := by
  obtain ⟨k, l, next, hk, hexec, rfl⟩ := Threads.turn_eq_some hs
  have hsend := sends_resume l next hk
  have hspawn := spawns_resume l next hk
  cases k with
  | start m =>
      simp only [RegistPod.exec] at hexec
      split at hexec
      · next hc =>
          split at hexec
          · cases hexec; exact h.same hk rfl rfl rfl rfl rfl
          · split at hexec
            · next haccept =>
                cases hexec
                have hroom := ha _ hk (by simp [RegistPc.accepts, hc, haccept])
                simp [RegistPc.isSend] at hsend
                refine ⟨fun _ hreg => (by cases hreg), ?_⟩
                rw [Threads.resume_shared, hsend]
                exact hroom
            · cases hexec; exact h.same hk rfl rfl rfl rfl rfl
      · split at hexec
        · cases hexec
          simp [RegistPc.isSend] at hsend
          simp [RegistPc.isSpawn] at hspawn
          have hle := h.send
          refine ⟨fun _ _ => ?_, ?_⟩
          · rw [Threads.resume_shared, hsend, hspawn]
            exact Nat.lt_succ_of_le (Nat.le_add_right_of_le hle)
          · rw [Threads.resume_shared, hsend]
            exact hle
        · cases hexec; exact h.same hk rfl rfl rfl rfl rfl
      · cases hexec
  | send => cases hexec
  | spawn =>
      cases hexec
      simp [RegistPc.isSend] at hsend
      simp [RegistPc.isSpawn] at hspawn
      refine ⟨fun hst hreg => ?_, ?_⟩
      · have hloop := h.loop hst hreg
        rw [Threads.resume_shared, hsend]
        dsimp only
        omega
      · rw [Threads.resume_shared, hsend]
        exact Nat.le_succ_of_le h.send

theorem RegistOk.stop {i : Nat} (h : RegistOk t)
    (hs : t.stop i = some u) : RegistOk u := by
  unfold RegistSched.stop at hs
  dsimp only at hs
  split at hs
  · next hk =>
      split at hs
      · next hpos =>
          cases hs
          have hsend := sends_resume { t.shared with
            pod := { t.shared.pod with loops := t.shared.pod.loops - 1 } }
            none hk
          have hspawn := spawns_resume { t.shared with
            pod := { t.shared.pod with loops := t.shared.pod.loops - 1 } }
            none hk
          simp [RegistPc.isSend] at hsend
          simp [RegistPc.isSpawn] at hspawn
          refine ⟨fun hst hreg => ?_, ?_⟩
          · have hloop := h.loop hst hreg
            rw [Threads.resume_shared, hspawn]
            dsimp only
            omega
          · have hle := h.send
            rw [Threads.resume_shared]
            dsimp only
            omega
      · cases hs
  · cases hs

theorem registStep_ok {a : RegistSched.Act} (h : RegistOk t)
    (ha : t.Paired a) (hs : RegistSched.step a t = some u) : RegistOk u := by
  unfold RegistSched.step at hs
  dsimp only at hs
  split at hs
  · cases hs
  · cases a with
    | setSendMessageHandler =>
        cases hs
        have hle := h.send
        unfold Pod.setSendMessageHandler
        split
        · exact .of_shared (fun _ _ => by dsimp only; omega)
            (Nat.le_succ_of_le hle)
        · exact .of_shared (fun _ hreg => (by cases hreg)) hle
    | receive m =>
        dsimp only at hs
        split at hs
        · cases hs
          have hsend : RegistSched.sends (t.start (.start m)) = t.sends := by
            simp [RegistSched.sends, Threads.start, RegistPc.isSend]
          have hspawn : RegistSched.spawns (t.start (.start m)) =
              t.spawns := by
            simp [RegistSched.spawns, Threads.start, RegistPc.isSpawn]
          exact ⟨by rw [hsend, hspawn]; exact h.loop,
            by rw [hsend]; exact h.send⟩
        · cases hs
    | turn i => exact h.turn ha hs
    | tick env =>
        dsimp only at hs
        split at hs
        · cases hs
          have hleave : t.shared.pod.regist = true →
              t.sends < t.shared.pod.loops := ha
          unfold Pod.registTick
          split
          · next hreg =>
              refine .of_shared (fun _ hno => ?_)
                (Nat.le_pred_of_lt (hleave hreg))
              rw [show t.shared.pod.regist = false from hno] at hreg
              cases hreg
          · exact .of_shared (by simpa [Pod.getSn] using h.loop)
              (by simpa [Pod.getSn] using h.send)
        · cases hs
    | stop i => exact h.stop hs

/-- In every run in which replies are accepted and loops leave only while the
count allows it, an unregistered pod keeps a loop that no old send can end,
and every send can be received. -/
theorem registOk_of_paired {conf : Config} {as : List RegistSched.Act}
    (hg : Guarded RegistSched.step RegistSched.Paired as
      (RegistSched.init conf)) :
    Always RegistSched.step RegistOk as (RegistSched.init conf) :=
  always_of_guarded (fun _ _ _ h ha hs => registStep_ok h ha hs) hg
    ⟨fun hst => (by cases hst), Nat.le_refl 0⟩

/-! ## A duplicated reply -/

/-- A pod that registers: its topic is a UUID. -/
def Config.balanced : Config :=
  ⟨"123e4567-e89b-12d3-a456-426614174000", 8, "c1", "podA", 0⟩

def registReply : JsonParser :=
  [(.cmd, .str Cmd.podRegist.text), (.clusterId, .str "c1"), (.code, .int 0)]

/-- The first reply stops the loop, and the second waits for one. -/
def duplicateReply : List RegistSched.Act :=
  [.setSendMessageHandler, .receive registReply, .turn 0, .stop 0,
    .receive registReply, .turn 0]

theorem duplicate_reply_blocks :
    ∃ t, run RegistSched.step duplicateReply
        (RegistSched.init Config.balanced) = some t ∧
      t.shared.started = true ∧ t.sends = 1 ∧ t.shared.pod.loops = 0 ∧
      ¬RegistOk t := by
  have h : (run RegistSched.step duplicateReply
      (RegistSched.init Config.balanced)).map (fun t =>
        (t.shared.started, t.sends, t.shared.pod.loops)) =
      some (true, 1, 0) := by decide
  obtain ⟨t, ht, hfacts⟩ := Option.map_eq_some_iff.mp h
  simp only [Prod.mk.injEq] at hfacts
  obtain ⟨hst, hsend, hloops⟩ := hfacts
  refine ⟨t, ht, hst, hsend, hloops, fun hok => ?_⟩
  have hle := hok.send
  rw [hsend, hloops] at hle
  exact absurd hle (by decide)

/-- The pod registers, is told to register again, and does. -/
theorem registOk_again :
    let again : JsonParser := [(.cmd, .str Cmd.podRegistNow.text)]
    let as : List RegistSched.Act :=
      [.setSendMessageHandler, .tick .calm, .receive registReply, .turn 0,
        .stop 0, .receive again, .turn 0, .turn 0, .receive registReply,
        .turn 0, .stop 0]
    (run RegistSched.step as (RegistSched.init Config.balanced)).isSome ∧
    Always RegistSched.step RegistOk as (RegistSched.init Config.balanced) :=
  ⟨by decide, registOk_of_paired (by decide)⟩

end MediaServer.Ref
