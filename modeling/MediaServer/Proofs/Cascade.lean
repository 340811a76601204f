import MediaServer.Lib.Cascade
import MediaServer.Proofs.Outcome
import MediaServer.Proofs.Sent
import MediaServer.Ref.Network

/-!
# Pods do not keep each other busy

One message can make a pod send others, to one pod or to all of them, and
start calls that do the same in turn. Every command and every call has a
weight, and what a call sends or starts is lighter than what it was called
for: a login asks for the streams of its room, which are announced, subscribed
to, offered and answered; a session that is taken down takes back its streams,
and that takes down stand-ins only.

The one loop that the names of the commands would allow is a `fakeunpublish`
that causes another. It does so only where it takes out a user who is logged
in, which takes a message without a pod id; the second message has one.
-/

namespace MediaServer.Ref

open MediaServer.Lib Relation

variable {p q : Pod} {m : JsonParser} {g : Goroutine} {a : Env × Input}
variable {conf : Config} {t t' : Network}

/-! ## Weights -/

variable {c : Cmd} {w : Nat}

/-- A message of a pod to another is signed and in the table. -/
theorem mem_sentTo {uuid : String} (hr : Pod.Reachable conf p)
    (hs : Pod.step a p = some q) (hm : m ∈ sentTo uuid p q) :
    Signed p.conf m ∧ ∃ c, command m = some c ∧ c ∈ p.replies a.2 := by
  obtain ⟨e, he, hto⟩ := List.mem_filterMap.mp hm
  have hin := step_events hr hs he
  cases e with
  | toPod key m' =>
      simp only [Event.crossTo] at hto
      split at hto
      · cases hto
        rcases hin with h | ⟨op, hop⟩
        · exact h
        · cases hop
      · cases hto
  | toCrossClusterPod key m' =>
      simp only [Event.crossTo] at hto
      split at hto
      · cases hto
        rcases hin with h | ⟨op, hop⟩
        · exact h
        · cases hop
      · cases hto
  | broadcastCrossCluster m' =>
      cases hto
      rcases hin with h | ⟨op, hop⟩
      · exact h
      · cases hop
  | sync | toClient | toLB | destroy | deliverAudio | deliverVideo
  | deliverApp => cases hto

namespace Network

/-- Every pod has run since its start. -/
def Grown (t : Network) : Prop := ∀ p ∈ t.pods, ∃ conf, Pod.Reachable conf p

theorem act_cases {i : Nat} (h : t.act i a = some t') :
    ∃ p q, t.pods[i]? = some p ∧ Pod.step a p = some q ∧
      t' = ⟨t.pods.set i q, t.wire ++ letters t.pods p q⟩ := by
  unfold act at h
  split at h
  · cases h
  · next p hp =>
      obtain ⟨q, hq, rfl⟩ := Option.map_eq_some_iff.mp h
      exact ⟨p, q, hp, hq, rfl⟩

theorem Grown.act {i : Nat} (ht : t.Grown) (h : t.act i a = some t') :
    t'.Grown := by
  obtain ⟨p, q, hp, hq, rfl⟩ := act_cases h
  intro p' hp'
  rcases List.mem_or_eq_of_mem_set hp' with hold | rfl
  · exact ht p' hold
  · obtain ⟨conf, hr⟩ := ht p (List.mem_of_getElem? hp)
    exact ⟨conf, hr.step hq⟩

theorem Grown.step {b : Act} (ht : t.Grown) (h : step b t = some t') :
    t'.Grown := by
  cases b with
  | input i env a => exact ht.act h
  | deliver env k =>
      simp only [Network.step] at h
      split at h
      · cases h
      · exact Grown.act (t := { t with wire := t.wire.eraseIdx k }) ht h
  | lose k =>
      simp only [Network.step] at h
      split at h
      · cases h
        exact ht
      · cases h

theorem reachable_grown {confs : List Config} (h : Reachable confs t) :
    t.Grown := by
  obtain ⟨as, hrun⟩ := h
  refine run_invariant (fun _ _ _ ht _ hs => Grown.step ht hs)
    (guarded_true as _) (fun p hp => ?_) hrun
  obtain ⟨conf, -, rfl⟩ := List.mem_map.mp hp
  exact ⟨conf, [], rfl⟩

/-- At rest nothing is on the way, and no pod that lives has a call left. -/
theorem atRest_iff : AtRest step Act.Inner t ↔
    t.wire = [] ∧ ∀ p ∈ t.pods, p.fatal = false → p.pending = [] := by
  constructor
  · intro hrest
    constructor
    · by_contra hne
      have hlose := hrest (.lose 0) trivial
      simp only [Network.step] at hlose
      rw [if_pos (List.length_pos_iff.mpr hne)] at hlose
      cases hlose
    · intro p hp hf
      by_contra hne
      obtain ⟨i, hi⟩ := List.mem_iff_getElem?.mp hp
      have hgo := hrest (.input i Env.calm (.go 0)) trivial
      have hg := List.getElem?_eq_getElem (List.length_pos_iff.mpr hne)
      have hsome : Pod.step (Env.calm, .go 0) p ≠ none := by
        unfold Pod.step
        rw [if_neg (by simp [hf])]
        simp only [hg]
        exact Option.some_ne_none _
      obtain ⟨q, hq⟩ := Option.ne_none_iff_exists'.mp hsome
      simp only [Network.step, act, hi, hq] at hgo
      cases hgo
  · rintro ⟨hwire, hpods⟩ b hb
    cases b with
    | input i env a =>
        cases a with
        | go j =>
            simp only [Network.step, act]
            split
            · rfl
            · next p hp =>
                have hnone : Pod.step (env, .go j) p = none := by
                  cases hf : p.fatal with
                  | true => simp [Pod.step, hf]
                  | false =>
                      have hpend := hpods p (List.mem_of_getElem? hp) hf
                      simp [Pod.step, hf, hpend]
                rw [hnone]
                rfl
        | setSendMessageHandler | message | keepaliveTick | registTick
        | registStop | ice | checkTimer | dataChannel | audio | video
        | appData => exact hb.elim
    | deliver env k => simp [Network.step, hwire]
    | lose k => simp [Network.step, hwire]

end Network

end MediaServer.Ref
