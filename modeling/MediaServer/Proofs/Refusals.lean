import MediaServer.Proofs.Outcome
import MediaServer.Ref.Conference

/-!
# What clients are refused

A client hears of an error through a message with a code other than zero. This
file says when: `Conference.refusal` reads the code off the conference alone,
and over every run the errors that were sent are those that were due, one for
each message that is refused, to whoever sent it. A message that is refused
for what is not there changes nothing and starts nothing.

That nothing else is reported follows from the scope of the step's script.
That what is due is reported is a matter of following the handler to the one
place where it says so.
-/

namespace MediaServer.Ref

open MediaServer.Lib

variable {A : Scope} {n : Nat} {p q t : Pod} {e : Event} {s : SessRef}
variable {env : Env} {m : JsonParser} {conf : Config} {c : Int}

/-! ## The error is read off the conference -/

theorem sessRefusal_eq : p.sessRefusal env s m =
    (p.seatView s).refusal env.createOk m := by
  unfold Pod.sessRefusal Seat.refusal
  cases command m with
  | none => rfl
  | some k =>
      cases k with
      | sub | offer =>
          by_cases h : (p.sess s).publishers.lookup (getValue m .peerID) = none
          · simp [Pod.seatView, h]
          · simp [Pod.seatView, h]
      | answer => simp [Pod.seatView]
      | _ => rfl

theorem seatRefusal_eq (u : String) (code : Int) :
    p.seatRefusal env m u code =
      p.conference.seatRefusal env.createOk m u code := by
  unfold Pod.seatRefusal Conference.seatRefusal Pod.conference
  cases p.rooms.lookup (getValue m .roomId) with
  | none => rfl
  | some r =>
      simp only [Option.map_some, Pod.hall]
      cases (p.room r).sessions.lookup u with
      | none => rfl
      | some s => exact sessRefusal_eq

/-- A pod refuses everything but the replies of the load balancer until it is
registered, and then what the conference refuses. -/
theorem refusal_eq : p.refusal env m =
    if command m = some .podRegist ∨ command m = some .podRegistNow then none
    else if p.regist then p.conference.refusal env.createOk m
    else some codeNotAvailable := by
  unfold Pod.refusal
  split
  · rfl
  · cases p.regist with
    | false => rfl
    | true =>
        simp only [Bool.true_eq_false, if_false, if_true]
        unfold Conference.refusal
        cases hc : command m with
        | none => rfl
        | some k =>
            cases k with
            | heartbeat | push | offer | stopPush | sub | stopSub | answer =>
                exact seatRefusal_eq _ _
            | logout | candidate =>
                simp only [Pod.conference]
                cases p.rooms.lookup (getValue m .roomId) with
                | none => rfl
                | some r => rfl
            | _ => rfl

/-! ## Traces with and without errors -/

/-- The error that an event reports: to whom, about which command, and the
code. -/
def Event.refusal? : Event → Option (String × String × ℚ)
  | .toClient topic m =>
      match m.lookup .code with
      | some (.num v _) =>
          if v = 0 then none else some (topic, getValue m .cmd, v)
      | _ => none
  | _ => none

def refusals (tr : List Event) : List (String × String × ℚ) :=
  tr.filterMap Event.refusal?

theorem refusals_append (tr tr' : List Event) :
    refusals (tr ++ tr') = refusals tr ++ refusals tr' := List.filterMap_append

/-- From `p` to `q` the errors in `l` were reported. -/
def Reports (l : List (String × String × ℚ)) (p q : Pod) : Prop :=
  ∃ tr, q.log = p.log ++ tr ∧ refusals tr = l

theorem Reports.trans {l l' : List (String × String × ℚ)} (h : Reports l p q)
    (h' : Reports l' q t) : Reports (l ++ l') p t := by
  obtain ⟨tr, hlog, htr⟩ := h
  obtain ⟨tr', hlog', htr'⟩ := h'
  exact ⟨tr ++ tr', by rw [hlog', hlog, List.append_assoc],
    by rw [refusals_append, htr, htr']⟩

theorem Reports.emit {x : String × String × ℚ} (hp : p.fatal = false)
    (he : e.refusal? = some x) : Reports [x] p (p.emit e) := by
  refine ⟨[e], by rw [Pod.emit_log, hp]; rfl, ?_⟩
  rw [refusals, List.filterMap_cons_some he]
  rfl

theorem Event.Within.refuses {cf : Config} (h : e.Within A cf)
    (he : e.refusal? ≠ none) : A.refuses := by
  cases e with
  | toClient topic m =>
      refine h fun hzero => he ?_
      unfold getIntValue at hzero
      simp only [Event.refusal?]
      split at hzero
      · next v _ hl =>
          simp only [hl]
          exact if_pos (Option.some.inj hzero)
      · cases hzero
      · next hl => simp only [hl]
  | sync | toLB | toPod | toCrossClusterPod | broadcastCrossCluster | destroy
  | deliverAudio | deliverVideo | deliverApp => exact absurd rfl he

/-- Nothing is reported where nothing may be. -/
theorem Outcome.reports (h : Outcome A p q) (hA : ¬A.refuses) :
    Reports [] p q := by
  obtain ⟨tr, hlog, htr⟩ := h.log
  refine ⟨tr, hlog, List.filterMap_eq_nil_iff.mpr fun e he => ?_⟩
  by_contra hne
  obtain hin | ⟨op, rfl⟩ := htr e he
  · exact hA (hin.refuses hne)
  · exact hne rfl

/-- Nothing may be reported. -/
def Scope.civil : Scope :=
  ⟨fun _ => True, False, fun _ => True, True, True⟩

theorem Script.reports (h : Script Scope.civil n p q) : Reports [] p q :=
  h.outcome.reports id

theorem Reports.sync (op : LockOp Mutex) (p : Pod) :
    Reports [] p (p.emit (.sync op)) :=
  (Outcome.sync (A := Scope.civil) op p).reports id

/-! ## Answers to a message that is refused -/

/-- The event is nobody's business but the pod's. -/
def Event.Private : Event → Prop
  | .sync _ => True
  | _ => False

/-- From `p` to `q` the one error `x` was reported; unless a peer could not be
created, nothing else has happened. -/
structure Answers (c : Int) (x : String × String × ℚ) (p q : Pod) : Prop where
  reports : Reports [x] p q
  else_same : c ≠ codeCreatePeerError → ∃ tr e tr',
    q = p.logged (tr ++ e :: tr') ∧ e.refusal? = some x ∧
      ∀ e ∈ tr ++ tr', e.Private

theorem Answers.emit {x : String × String × ℚ} (hp : p.fatal = false)
    (he : e.refusal? = some x) : Answers c x p (p.emit e) := by
  refine ⟨.emit hp he, fun _ => ⟨[], e, [], ?_, he, fun e' he' => by cases he'⟩⟩
  exact if_neg (by simp [hp])

/-- The same while a mutex is held. -/
theorem Answers.inside {x : String × String × ℚ} (op op' : LockOp Mutex)
    (h : Answers c x (p.emit (.sync op)) q) :
    Answers c x p (q.emit (.sync op')) := by
  have hsync : ∀ (op : LockOp Mutex) (p : Pod), ∃ tr,
      p.emit (.sync op) = p.logged tr ∧ ∀ e ∈ tr, e.Private := by
    intro op p
    unfold Pod.emit
    split
    · exact ⟨[], p.logged_nil.symm, fun e he => by cases he⟩
    · exact ⟨[.sync op], rfl, fun e he => by
        rw [List.mem_singleton.mp he]; trivial⟩
  constructor
  · exact ((Reports.sync op p).trans h.reports).trans (.sync op' q)
  · intro hc
    obtain ⟨tr₀, h₀, hpriv₀⟩ := hsync op p
    obtain ⟨tr, e, tr', h', he, hpriv⟩ := h.else_same hc
    obtain ⟨tr₁, h₁, hpriv₁⟩ := hsync op' q
    refine ⟨tr₀ ++ tr, e, tr' ++ tr₁, ?_, he, fun e he => ?_⟩
    · rw [h₁, h', h₀]
      simp [Pod.logged]
    · simp only [List.mem_append] at he hpriv
      obtain (he | he) | (he | he) := he
      · exact hpriv₀ e he
      · exact hpriv e (.inl he)
      · exact hpriv e (.inr he)
      · exact hpriv₁ e he

theorem notifyPeerError_answers {sid pid desc cmd : String}
    (hp : p.fatal = false) (hc : c ≠ 0) :
    Answers c (sid, cmd, (c : ℚ)) p (p.notifyPeerError c desc cmd sid pid) :=
  .emit hp (if_neg (by exact_mod_cast hc))

theorem notifyError_answers {sid cmd desc : String} (hp : p.fatal = false)
    (hc : c ≠ 0) :
    Answers c (sid, cmd, (c : ℚ)) p (p.emit (.toClient sid
      [(.cmd, .str cmd), (.sessID, .str sid), (.code, .int c),
        (.desc, .str desc)])) :=
  .emit hp (if_neg (by exact_mod_cast hc))

/-- Where the creation of a peer fails, an old subscriber of the same key may
have been taken out. -/
theorem handleSub_answers (hp : Ready p) (hf : p.fatal = false)
    (hpub : (p.sess s).publishers.lookup (getValue m .peerID) ≠ none)
    (hno : env.createOk = false) : Answers codeCreatePeerError
      (getValue m .sessID, getValue m .cmd, (codeCreatePeerError : ℚ)) p
      (p.handleSub env s m) := by
  refine ⟨?_, fun h => absurd rfl h⟩
  have hbase : Base (fun _ : Act => True) none :=
    ⟨trivial, trivial, fun _ _ => trivial⟩
  have htouch : Touch (fun _ : Act => True) s :=
    ⟨fun _ => trivial, fun _ _ => trivial, fun _ => trivial⟩
  obtain ⟨-, hf₁, hp₁⟩ := readPublisher_calm hbase _ hpub hp hf
  have hread := readPublisher_script (A := Scope.civil) s
    (getValue m .peerID) p
  simp only [Pod.handleSub, Pod.subscribe, if_neg hpub, hno]
  generalize p.readPublisher s (getValue m .peerID) = o at *
  obtain ⟨o, sdp⟩ := o
  dsimp only at hf₁ hp₁ hread ⊢
  rw [if_neg Bool.false_ne_true]
  split
  · exact hread.reports.trans
      (notifyPeerError_answers hf₁ (by decide)).reports
  · next hsub =>
      obtain ⟨y, hy⟩ := Option.ne_none_iff_exists'.mp hsub
      obtain ⟨-, hf₂, -⟩ := replaceSubscriber_calm hbase htouch hy hp₁ hf₁
      have hreplace : Script Scope.civil 2 o (o.replaceSubscriber s
          (subKey (getValue m .sessID) (getValue m .srcSessID)
            (getValue m .peerID))) := replaceSubscriber_script o
      exact (hread.reports.trans hreplace.reports).trans
        (notifyPeerError_answers hf₂ (by decide)).reports

/-- The session answers with the error that is due. -/
theorem sessionHandleMessage_answers (hp : Ready p) (hf : p.fatal = false)
    (h : p.sessRefusal env s m = some c) :
    Answers c (getValue m .sessID, getValue m .cmd, (c : ℚ)) p
      (p.sessionHandleMessage env s m) := by
  unfold Pod.sessRefusal at h
  cases hc : command m with
  | none =>
      rw [hc] at h
      cases h
  | some k =>
      simp only [hc] at h
      simp only [Pod.sessionHandleMessage, hc]
      cases k with
      | sub =>
          dsimp only at h ⊢
          split at h
          · next hnone =>
              cases h
              simp only [Pod.handleSub, Pod.subscribe, hnone, if_true]
              exact notifyPeerError_answers hf (by decide)
          · next hpub =>
              split at h
              · cases h
              · next hno =>
                  cases h
                  exact handleSub_answers hp hf hpub (by simpa using hno)
      | offer =>
          dsimp only at h ⊢
          split at h
          · next hnone =>
              cases h
              refine Answers.inside (.rlock (.subs s)) (.runlock (.subs s)) ?_
              have hlook : ((p.rlock (.subs s)).sess s).publishers.lookup
                  (getValue m .peerID) = none := by
                rwa [Pod.rlock, Pod.emit_sess]
              simp only [hlook]
              exact notifyPeerError_answers (by rwa [Pod.emit_fatal])
                (by decide)
          · cases h
      | answer =>
          dsimp only at h ⊢
          split at h
          · next hnone =>
              cases h
              refine Answers.inside (.rlock (.subs s)) (.runlock (.subs s)) ?_
              have hlook : ((p.rlock (.subs s)).sess s).subscribers.lookup
                  (subKey (getValue m .sessID) (getValue m .srcSessID)
                    (getValue m .peerID)) = none := by
                rwa [Pod.rlock, Pod.emit_sess]
              simp only [hlook]
              exact notifyPeerError_answers (by rwa [Pod.emit_fatal])
                (by decide)
          · cases h
      | _ => cases h

/-- A message that goes to the session of `u`, if there is one. -/
theorem seat_answers {u : String} {code : Int} {f : Pod → Pod}
    (hp : Ready p) (hf : p.fatal = false)
    (hnone : p.rooms.lookup (getValue m .roomId) = none →
      p.mgrHandleMessage env m =
        p.notifyNotLogin (getValue m .cmd) (getValue m .sessID))
    (hsome : ∀ r, p.rooms.lookup (getValue m .roomId) = some r →
      p.mgrHandleMessage env m = p.toSession env r u m f)
    (hnf : Answers code (getValue m .sessID, getValue m .cmd, (code : ℚ)) p
      (f p))
    (h : p.seatRefusal env m u code = some c) :
    Answers c (getValue m .sessID, getValue m .cmd, (c : ℚ)) p
      (p.mgrHandleMessage env m) := by
  unfold Pod.seatRefusal at h
  cases hr : p.rooms.lookup (getValue m .roomId) with
  | none =>
      rw [hr] at h
      cases h
      rw [hnone hr]
      exact notifyError_answers hf (by decide)
  | some r =>
      simp only [hr] at h
      rw [hsome r hr]
      unfold Pod.toSession
      cases hs : (p.room r).sessions.lookup u with
      | none =>
          rw [hs] at h
          cases h
          exact hnf
      | some s =>
          rw [hs] at h
          exact sessionHandleMessage_answers hp hf h

/-- A message that is refused is answered with the error that is due. -/
theorem mgrHandleMessage_answers (hp : Ready p) (hf : p.fatal = false)
    (h : p.refusal env m = some c) :
    Answers c (getValue m .sessID, getValue m .cmd, (c : ℚ)) p
      (p.mgrHandleMessage env m) := by
  unfold Pod.refusal at h
  split at h
  · cases h
  next hlb =>
  rw [not_or] at hlb
  split at h
  · next hreg =>
      cases h
      unfold Pod.mgrHandleMessage
      rw [hreg]
      split
      · next hc => exact absurd hc hlb.1
      · next hc => exact absurd hc hlb.2
      · exact notifyError_answers hf (by decide)
      · exact notifyError_answers hf (by decide)
  next hreg =>
  have hreg : p.regist = true := by simpa using hreg
  cases hc : command m with
  | none =>
      rw [hc] at h
      cases h
  | some k =>
      rw [hc] at h
      cases k with
      | heartbeat | push | offer | stopPush =>
          refine seat_answers (f := fun p => p.notifyNotLogin
            (getValue m .cmd) (getValue m .sessID)) hp hf
            (fun hr => ?_) (fun r hr => ?_)
            (notifyError_answers hf (by decide)) h
          · simp only [Pod.mgrHandleMessage, hc, hreg, if_true, Pod.mgrForward,
              Pod.forwards, hr, Pod.notFoundRoom]
          · simp only [Pod.mgrHandleMessage, hc, hreg, if_true, Pod.mgrForward,
              Pod.forwards, hr, Pod.roomHandleMessage]
      | sub | stopSub | answer =>
          refine seat_answers (f := fun p => p.notifyNotFoundPublishSession
            (getValue m .cmd) (getValue m .sessID) (getValue m .srcSessID))
            hp hf (fun hr => ?_) (fun r hr => ?_)
            (notifyError_answers hf (by decide)) h
          · simp only [Pod.mgrHandleMessage, hc, hreg, if_true, Pod.mgrForward,
              Pod.forwards, hr, Pod.notFoundRoom]
          · simp only [Pod.mgrHandleMessage, hc, hreg, if_true, Pod.mgrForward,
              Pod.forwards, hr, Pod.roomHandleMessage]
      | logout | candidate =>
          dsimp only at h
          split at h
          · next hnone =>
              cases h
              simp only [Pod.mgrHandleMessage, hc, hreg, if_true,
                Pod.mgrForward, Pod.forwards, hnone, Pod.notFoundRoom]
              exact notifyError_answers hf (by decide)
          · cases h
      | _ => cases h

/-! ## Runs -/

/-- The error that a message is owed: none if it is a reply of the load
balancer, that the service is not available while the pod is not registered,
and otherwise what the conference makes of it. -/
noncomputable def Pod.error (p : Pod) (env : Env) (m : JsonParser) :
    Option Int :=
  if command m = some .podRegist ∨ command m = some .podRegistNow then none
  else if p.regist then p.conference.refusal env.createOk m
  else some codeNotAvailable

/-- The error that an input is owed, with whom it is owed to. -/
noncomputable def Pod.due (p : Pod) (a : Env × Input) :
    Option (String × String × ℚ) :=
  a.2.msg?.bind fun m => (p.error a.1 m).map fun c =>
    (getValue m .sessID, getValue m .cmd, (c : ℚ))

/-- The errors that are owed over a run. -/
noncomputable def dues : List (Env × Input) → Pod → List (String × String × ℚ)
  | [], _ => []
  | a :: as, p =>
      match Pod.step a p with
      | none => []
      | some q => (p.due a).toList ++ dues as q

theorem step_reports {a : Env × Input} (hr : Pod.Reachable conf p)
    (hs : Pod.step a p = some q) : Reports (p.due a).toList p q := by
  have hp := reachable_inOrder hr
  by_cases href : ∃ m c, a.2 = .message m ∧ p.refusal a.1 m = some c
  · obtain ⟨m, c, ha, hc⟩ := href
    have hdue : p.due a =
        some (getValue m .sessID, getValue m .cmd, (c : ℚ)) := by
      rw [Pod.due, ha, Input.msg?, Option.bind_some, Pod.error, ← refusal_eq,
        hc]
      rfl
    rw [hdue, step_message hs ha]
    exact (mgrHandleMessage_answers hp.ready (step_fatal hs) hc).reports
  · have hdue : p.due a = none := by
      unfold Pod.due
      cases hm : a.2.msg? with
      | none => rfl
      | some m =>
          rw [Option.bind_some, Pod.error, ← refusal_eq]
          cases hc : p.refusal a.1 m with
          | none => rfl
          | some c => exact absurd ⟨m, c, Input.msg?_eq_some hm, hc⟩ href
    rw [hdue]
    obtain ⟨tr, hlog, htr⟩ := (step_outcome hr hs).reports (by
      rintro ⟨m, ha, hne⟩
      obtain ⟨c, hc⟩ := Option.ne_none_iff_exists'.mp hne
      exact href ⟨m, c, ha, hc⟩)
    exact ⟨tr, by rw [hlog, Pod.found_log], htr⟩

theorem run_reports {as : List (Env × Input)} (hr : Pod.Reachable conf p)
    (hrun : run Pod.step as p = some q) : Reports (dues as p) p q := by
  induction as generalizing p with
  | nil =>
      cases hrun
      exact ⟨[], (List.append_nil _).symm, rfl⟩
  | cons a as ih =>
      obtain ⟨t, ht, hrest⟩ := run_cons hrun
      rw [dues, ht]
      exact (step_reports hr ht).trans (ih (hr.step ht) hrest)

/-- Over every run the errors that clients were sent are those they were owed,
in this order: one for every message that comes before the pod is registered
and for every one that the conference of the moment refuses, to the user that
it names as its sender, and no others. -/
theorem clients_hear_what_is_due (conf : Config) (as : List (Env × Input))
    (q : Pod) (hrun : run Pod.step as (Pod.createRoomMgr conf) = some q) :
    refusals q.log = dues as (Pod.createRoomMgr conf) := by
  obtain ⟨tr, hlog, htr⟩ := run_reports ⟨[], rfl⟩ hrun
  rw [hlog, ← htr]
  rfl

/-- A stream is published before its user has logged in, and asked for under
a wrong user and under a wrong name. -/
def threeMistakes : List (Env × Input) :=
  [(Env.calm, .setSendMessageHandler),
    (Env.calm, .message (Cmd.login.msg [(.roomId, "R"), (.sessID, "w")])),
    (Env.calm, .message (Cmd.push.msg
      [(.roomId, "R"), (.sessID, "u"), (.peerID, "1")])),
    (Env.calm, .message (Cmd.sub.msg [(.roomId, "R"), (.sessID, "w"),
      (.srcSessID, "u"), (.peerID, "1")])),
    (Env.calm, .message (Cmd.login.msg [(.roomId, "R"), (.sessID, "u")])),
    (Env.calm, .message (Cmd.sub.msg [(.roomId, "R"), (.sessID, "w"),
      (.srcSessID, "u"), (.peerID, "1")]))]

theorem threeMistakes_heard :
    dues threeMistakes (Pod.createRoomMgr (.standalone "podA")) =
      [("u", Cmd.push.text, 101), ("w", Cmd.sub.text, 102),
        ("w", Cmd.sub.text, 103)] := by
  have h : (run Pod.step threeMistakes
      (Pod.createRoomMgr (.standalone "podA"))).map (fun q => refusals q.log) =
      some [("u", Cmd.push.text, 101), ("w", Cmd.sub.text, 102),
        ("w", Cmd.sub.text, 103)] := by decide
  obtain ⟨q, hq, herrors⟩ := Option.map_eq_some_iff.mp h
  rw [← clients_hear_what_is_due _ _ q hq, herrors]

/-- A message that is refused for what is not there is as good as not sent:
apart from the log, the pod is the one it was, and the log has the one error
and operations on mutexes besides. -/
theorem refused_changes_nothing (hr : Pod.Reachable conf p)
    (hs : Pod.step (env, .message m) p = some q) (hc : p.error env m = some c)
    (hne : c ≠ codeCreatePeerError) :
    ∃ tr e tr', q = p.logged (tr ++ e :: tr') ∧
      e.refusal? = some (getValue m .sessID, getValue m .cmd, (c : ℚ)) ∧
      ∀ e ∈ tr ++ tr', e.Private := by
  rw [step_message hs rfl]
  exact (mgrHandleMessage_answers (reachable_inOrder hr).ready
    (step_fatal hs) (refusal_eq.trans hc)).else_same hne

/-- User `u` publishes into a room where only `w` is. -/
def strayPush : JsonParser :=
  Cmd.push.msg [(.roomId, "R"), (.sessID, "u"), (.peerID, "1")]

theorem strayPush_changes_nothing :
    ∃ p q tr e tr', Pod.Reachable (.standalone "podA") p ∧
      p.seat "R" "w" = some 0 ∧
      Pod.step (Env.calm, .message strayPush) p = some q ∧
      q = p.logged (tr ++ e :: tr') ∧
      e.refusal? = some ("u", Cmd.push.text, 101) := by
  have h : (run Pod.step (threeMistakes.take 2)
      (Pod.createRoomMgr (.standalone "podA"))).bind (fun p =>
        (Pod.step (Env.calm, .message strayPush) p).map fun _ =>
          (p.seat "R" "w", p.refusal Env.calm strayPush)) =
      some (some 0, some codeNotLogin) := by decide
  obtain ⟨p, hp, hnext⟩ := Option.bind_eq_some_iff.mp h
  obtain ⟨q, hq, hfacts⟩ := Option.map_eq_some_iff.mp hnext
  obtain ⟨hseat, href⟩ := Prod.mk.inj hfacts
  have hr : Pod.Reachable (.standalone "podA") p := ⟨_, hp⟩
  obtain ⟨tr, e, tr', hsame, he, -⟩ := refused_changes_nothing hr hq
    (refusal_eq.symm.trans href) (by decide)
  exact ⟨p, q, tr, e, tr', hr, hseat, hq, hsame, he⟩

end MediaServer.Ref
