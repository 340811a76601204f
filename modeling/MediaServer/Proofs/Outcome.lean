import MediaServer.Proofs.ScriptsRoom

/-!
# What comes out of a step

`Outcome A p q` is what is left of a script when the order of things does not
matter: the events that were added are operations on mutexes or allowed by
`A`, and so are the calls that were started. `step_outcome` gives it for every
step, within the scope of the input.
-/

namespace MediaServer.Ref

open MediaServer.Lib

variable {A : Scope} {n : Nat} {p q t : Pod} {e : Event}

structure Outcome (A : Scope) (p q : Pod) : Prop where
  uuid : q.conf.uuid = p.conf.uuid
  log : ∃ tr, q.log = p.log ++ tr ∧
    ∀ e ∈ tr, e.Within A p.conf ∨ ∃ op, e = .sync op
  pending : ∃ gs, q.pending = p.pending ++ gs ∧ ∀ g ∈ gs, A.starts g

theorem Event.Within.congr {c c' : Config} (h : e.Within A c)
    (hu : c'.uuid = c.uuid) (hc : c'.clusterid = c.clusterid) :
    e.Within A c' := by
  have hsign : ∀ {m}, Signed c m → Signed c' m := fun h =>
    ⟨h.1.trans hu.symm, h.2.trans hc.symm⟩
  cases e with
  | sync op => exact h
  | toClient topic m => exact h
  | toLB m => exact hsign h
  | toPod key m => exact ⟨hsign h.1, h.2⟩
  | toCrossClusterPod key m => exact ⟨hsign h.1, h.2⟩
  | broadcastCrossCluster m => exact ⟨hsign h.1, h.2⟩
  | destroy x => trivial
  | deliverAudio x buff => exact h
  | deliverVideo x buff => exact h
  | deliverApp x buff => exact h

namespace Outcome

theorem of_same (hu : q.conf.uuid = p.conf.uuid) (hlog : q.log = p.log)
    (hpend : q.pending = p.pending) : Outcome A p q where
  uuid := hu
  log := ⟨[], by rw [hlog, List.append_nil], fun e he => by cases he⟩
  pending := ⟨[], by rw [hpend, List.append_nil], fun g hg => by cases hg⟩

theorem trans (h : Outcome A p q)
    (hc : q.conf.clusterid = p.conf.clusterid) (h' : Outcome A q t) :
    Outcome A p t where
  uuid := h'.uuid.trans h.uuid
  log := by
    obtain ⟨tr, hlog, htr⟩ := h.log
    obtain ⟨tr', hlog', htr'⟩ := h'.log
    refine ⟨tr ++ tr', by rw [hlog', hlog, List.append_assoc], fun e he => ?_⟩
    rcases List.mem_append.mp he with he | he
    · exact htr e he
    · exact (htr' e he).imp_left fun hin => hin.congr h.uuid.symm hc.symm
  pending := by
    obtain ⟨gs, hpend, hgs⟩ := h.pending
    obtain ⟨gs', hpend', hgs'⟩ := h'.pending
    refine ⟨gs ++ gs', by rw [hpend', hpend, List.append_assoc],
      fun g hg => ?_⟩
    rcases List.mem_append.mp hg with hg | hg
    · exact hgs g hg
    · exact hgs' g hg

theorem emit (he : e.Within A p.conf ∨ ∃ op, e = .sync op) :
    Outcome A p (p.emit e) where
  uuid := by rw [Pod.emit_conf]
  log := by
    refine ⟨_, p.emit_log e, fun e' he' => ?_⟩
    split at he'
    · cases he'
    · rw [List.mem_singleton.mp he']
      exact he
  pending := ⟨[], by rw [Pod.emit_pending, List.append_nil],
    fun g hg => by cases hg⟩

theorem sync (op : LockOp Mutex) (p : Pod) :
    Outcome A p (p.emit (.sync op)) := .emit (.inr ⟨op, rfl⟩)

end Outcome

theorem Script.fatal_of (h : Script A n p q) (hp : p.fatal = true) :
    q.fatal = true := by
  induction h with
  | mute h => rw [h.fatal, hp]
  | speaks _ => rw [Pod.emit_fatal, hp]
  | starts _ => exact hp
  | dies => rfl
  | trans _ _ ih ih' => exact ih' (ih hp)
  | writes _ _ ih =>
      rw [Pod.unlock, Pod.emit_fatal]
      exact ih (by rw [Pod.lock, Pod.emit_fatal, hp])
  | reads _ _ ih =>
      rw [Pod.runlock, Pod.emit_fatal]
      exact ih (by rw [Pod.rlock, Pod.emit_fatal, hp])
  | falls _ _ hq _ => exact hq

theorem Script.alive (h : Script A n p q) (hq : q.fatal = false) :
    p.fatal = false := by
  cases hp : p.fatal with
  | false => rfl
  | true =>
      rw [h.fatal_of hp] at hq
      cases hq

/-- Only the serial number of the configuration moves. -/
theorem Script.conf (h : Script A n p q) :
    ∃ sn, q.conf = { p.conf with sn := sn } := by
  induction h with
  | mute h => exact h.conf
  | speaks _ => exact ⟨_, Pod.emit_conf⟩
  | starts _ => exact ⟨_, rfl⟩
  | dies => exact ⟨_, rfl⟩
  | trans _ _ ih ih' =>
      obtain ⟨sn, hsn⟩ := ih
      obtain ⟨sn', hsn'⟩ := ih'
      exact ⟨sn', by rw [hsn', hsn]⟩
  | writes _ _ ih => rwa [Pod.lock, Pod.emit_conf, ← Pod.emit_conf] at ih
  | reads _ _ ih => rwa [Pod.rlock, Pod.emit_conf, ← Pod.emit_conf] at ih
  | falls _ _ _ ih => rwa [Pod.emit_conf] at ih

theorem Script.clusterid (h : Script A n p q) :
    q.conf.clusterid = p.conf.clusterid := by
  obtain ⟨sn, hsn⟩ := h.conf
  rw [hsn]

theorem Script.outcome (h : Script A n p q) : Outcome A p q := by
  have hsync : ∀ {op : LockOp Mutex} {p q : Pod},
      Outcome A (p.emit (.sync op)) q → Outcome A p q := fun h =>
    (Outcome.sync _ _).trans (by rw [Pod.emit_conf]) h
  induction h with
  | mute h =>
      obtain ⟨sn, hsn⟩ := h.conf
      exact .of_same (by rw [hsn]) h.log h.pending
  | speaks h => exact .emit (.inl h)
  | @starts n p g h =>
      exact ⟨rfl, ⟨[], (List.append_nil _).symm, fun e he => by cases he⟩,
        [g], rfl, fun g' hg' => List.mem_singleton.mp hg' ▸ h⟩
  | dies => exact .of_same rfl rfl rfl
  | trans h _ ih ih' => exact ih.trans h.clusterid ih'
  | writes _ h ih =>
      exact (hsync ih).trans (by rw [h.clusterid, Pod.lock, Pod.emit_conf])
        (.sync _ _)
  | reads _ h ih =>
      exact (hsync ih).trans (by rw [h.clusterid, Pod.rlock, Pod.emit_conf])
        (.sync _ _)
  | falls _ _ _ ih => exact hsync ih

/-- What an input may lead to. -/
def Pod.scope (p : Pod) (a : Env × Input) : Scope where
  sends c := c ∈ p.replies a.2
  refuses := ∃ m, a.2 = .message m ∧ p.refusal a.1 m ≠ none
  starts := Starts p a.1 a.2
  delivers := a.2.delivers = true
  breaks := True

/-- The steps of a pod that has run since its start keep to the scope of
their inputs. -/
theorem scope_script {conf : Config} {a : Env × Input}
    (hr : Pod.Reachable conf p) (hs : Pod.step a p = some q) :
    Script (p.scope a) 0 (p.found a.2) q ∨ Adopts (p.found a.2) q := by
  have hp := (reachable_inOrder hr).toSeated
  refine step_script hp hs (fun _ hc => hc) ?_ (fun m hm h => ⟨m, hm, h⟩)
    (fun _ hg => hg) id trivial
  intro m r s hm hc hlook hpod ho
  -- the origin session has no pod id, so the message has none
  have hempty := (unlabelled_of_origin hr (hp.sessions r _ s hlook).2.2 ho).1
  rw [hempty] at hpod
  change _ ∈ p.replies a.2
  rw [hm]
  simp only [Pod.replies, replies, hc, hpod.symm, if_true]
  exact List.mem_cons_self

theorem step_outcome {conf : Config} {a : Env × Input}
    (hr : Pod.Reachable conf p) (hs : Pod.step a p = some q) :
    Outcome (p.scope a) (p.found a.2) q := by
  obtain h | h := scope_script hr hs
  · exact h.outcome
  · exact .of_same h.uuid h.log h.pending

theorem step_events {conf : Config} {a : Env × Input}
    (hr : Pod.Reachable conf p) (hs : Pod.step a p = some q)
    (he : e ∈ newEvents p q) :
    e.Within (p.scope a) p.conf ∨ ∃ op, e = .sync op := by
  obtain ⟨tr, hlog, htr⟩ := (step_outcome hr hs).log
  rw [Pod.found_log] at hlog
  rw [newEvents_of_append hlog] at he
  simpa only [Pod.found_conf] using htr e he

theorem Pod.Reachable.step {conf : Config} {a : Env × Input}
    (hr : Pod.Reachable conf p) (hs : Pod.step a p = some q) :
    Pod.Reachable conf q := by
  obtain ⟨as, hrun⟩ := hr
  refine ⟨as ++ [a], ?_⟩
  rw [run_append, hrun]
  simp only [Option.bind_some, run, hs]

end MediaServer.Ref
