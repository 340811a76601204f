import MediaServer.Proofs.Lifecycle
import MediaServer.Ref.MgrSched

/-!
# A call that is not interrupted

The handlers of `Session.lean` and `Roommgr.lean` run their blocks one after
the other; the schedulers of `Sched.lean` and `MgrSched.lean` run one block per
turn. Here the two are shown to be the same program: a thread that gets all
the turns leaves the pod as the handler does. The one difference is what comes
after a panic: the machine stops there, so the statement about sessions is
about calls that return. A call of the room manager can panic only in its last
block.
-/

namespace MediaServer.Ref

open MediaServer.Lib

variable {p q : Pod} {s : SessRef} {env : Env} {j : JsonParser}

/-- The call as one function. -/
def Op.run (env : Env) (s : SessRef) (p : Pod) : Op → Pod
  | .message j => p.sessionHandleMessage env s j
  | .releasePublisher pid => p.releasePublisher env s pid
  | .releaseSubscriberPeer sid ssid pid =>
      p.releaseSubscriberPeer s sid ssid pid
  | .handleSubscriberLeaved sid => p.handleSubscriberLeaved s sid
  | .doLeave => p.doLeave s

/-- The blocks from `k` on lead from `p` to `q`. -/
inductive Runs (env : Env) : Pc → Pod → Pod → Prop where
  | last {k : Pc} {p q : Pod} (h : k.exec env p = (q, none)) : Runs env k p q
  | more {k l : Pc} {p q r : Pod} (h : k.exec env p = (q, some l))
      (rest : Runs env l q r) : Runs env k p r

theorem Runs.sameStore {k : Pc} (h : Runs env k p q) : SameStore p q := by
  induction h with
  | @last k p q h =>
      have hs : SameStore p (k.exec env p).1 := exec_sameStore k
      rw [h] at hs
      exact hs
  | @more k l p q r h _ ih =>
      have hs : SameStore p (k.exec env p).1 := exec_sameStore k
      rw [h] at hs
      exact hs.trans ih

theorem locked_exec_false (k : Pc) :
    Locked.exec env false k ⟨p, []⟩ =
      some (⟨(k.exec env p).1, []⟩, (k.exec env p).2) := by
  unfold Locked.exec
  rw [if_pos (fun s _ h => by cases h)]
  cases k <;> rfl

theorem Runs.solo {k : Pc} (h : Runs env k p q) (hq : q.fatal = false) :
    Threads.Solo (Locked.exec env false) (fun l => l.pod.fatal = false) k
      ⟨p, []⟩ ⟨q, []⟩ := by
  have halive : ∀ {p : Pod}, SameStore p q → p.fatal = false := by
    intro p hs
    cases hp : p.fatal with
    | false => rfl
    | true => rw [hs.fatal hp] at hq; cases hq
  induction h with
  | @last k p q h =>
      refine .last (halive (Runs.last h).sameStore) ?_
      rw [locked_exec_false, h]
  | @more k l p q r h rest ih =>
      refine .more (halive (Runs.more h rest).sameStore) ?_ (ih hq halive)
      rw [locked_exec_false, h]

/-! ## The branches with several blocks -/

theorem insertPush_runs (hc : command j = some .push) :
    Runs env (.insertPub s j) p
      (if env.createOk then
        (p.insertPublisher s (getValue j .peerID)
          (createPublishPeer s (getValue j .sessID) (getValue j .peerID)
            false)).answerPush j
      else p) := by
  split
  · next hok =>
      refine .more (l := .answerPub j p.peerHeap.next)
        (q := p.insertPublisher s (getValue j .peerID) (createPublishPeer s
          (getValue j .sessID) (getValue j .peerID) false)) ?_ (.last ?_)
      · simp [Pc.exec, hok, hc]
      · simp [Pc.exec, hc]
  · next hno => exact .last (by simp [Pc.exec, hno])

theorem insertFakeOffer_runs (hc : command j = some .fakeOffer) :
    Runs env (.insertPub s j) p
      (if env.createOk then
        (p.insertPublisher s (getValue j .peerID)
          (createPublishPeer s (getValue j .sessID) (getValue j .peerID)
            true)).peerHandleMessage env p.peerHeap.next j
      else p) := by
  split
  · next hok =>
      refine .more (l := .answerPub j p.peerHeap.next)
        (q := p.insertPublisher s (getValue j .peerID) (createPublishPeer s
          (getValue j .sessID) (getValue j .peerID) true)) ?_ (.last ?_)
      · simp [Pc.exec, hok, hc]
      · simp [Pc.exec, hc]
  · next hno => exact .last (by simp [Pc.exec, hno])

/-- The unlocked test of the two publishing calls, and the section that
follows if it found a publisher. -/
theorem testPub_runs (hc : command j = some .push ∨ command j = some .fakeOffer)
    (h : Runs env (.insertPub s j)
      (match (p.sess s).publishers.lookup (getValue j .peerID) with
        | some x => p.replacePublisher s x (getValue j .peerID)
        | none => p) q) : Runs env (.start s (.message j)) p q := by
  split at h
  · next x hx =>
      refine .more (l := .replacePub s j x) ?_ (.more rfl h)
      rcases hc with hc | hc
      · simp [Pc.exec, Pc.startMessage, hc, hx]
      · simp [Pc.exec, Pc.startMessage, hc, hx]
  · next hx =>
      refine .more (l := .insertPub s j) ?_ h
      rcases hc with hc | hc
      · simp [Pc.exec, Pc.startMessage, hc, hx]
      · simp [Pc.exec, Pc.startMessage, hc, hx]

theorem insertSub_runs {sdp : Option Sdp} {isFake : Bool}
    {failed : Pod → Pod}
    (hfake : decide (command j = some .fakeSubscribe) = isFake)
    (hfailed : (if command j = some .fakeSubscribe then p
      else p.notifyCreatePeerFailed s (getValue j .cmd) (getValue j .sessID)
        (getValue j .peerID)) = failed p) :
    Runs env (.insertSub s j sdp) p
      (if env.createOk then
        (p.insertSubscriber s (subscriberKey j)
          (createSubscribePeer s (subscriberId j) (getValue j .srcSessID)
            (getValue j .peerID) sdp isFake)).peerHandleMessage env
              p.peerHeap.next j
      else failed p) := by
  split
  · next hok =>
      refine .more (l := .offerSub j p.peerHeap.next)
        (q := p.insertSubscriber s (subscriberKey j) (createSubscribePeer s
          (subscriberId j) (getValue j .srcSessID) (getValue j .peerID) sdp
          isFake)) ?_ (.last rfl)
      simp only [Pc.exec, hok, if_true, hfake]
  · next hno =>
      refine .last ?_
      simp only [Pc.exec, hno, hfailed]
      rfl

/-- The two subscribing calls, from the reading section on. -/
theorem subscribe_runs {isFake : Bool} {notFound failed : Pod → Pod}
    (hc : command j = some .sub ∨ command j = some .fakeSubscribe)
    (hfake : decide (command j = some .fakeSubscribe) = isFake)
    (hself : p.sessionHandleMessage env s j =
      p.subscribe env s j (subscriberId j) isFake notFound failed)
    (hfailed : ∀ p : Pod, (if command j = some .fakeSubscribe then p
      else p.notifyCreatePeerFailed s (getValue j .cmd) (getValue j .sessID)
        (getValue j .peerID)) = failed p) :
    Runs env (.start s (.message j)) p (p.sessionHandleMessage env s j) := by
  cases hx : (p.sess s).publishers.lookup (getValue j .peerID) with
  | none =>
      refine .last ?_
      rcases hc with hc | hc
      · simp [Pc.exec, Pc.startMessage, hc, hx]
      · simp [Pc.exec, Pc.startMessage, hc, hx]
  | some x =>
      refine .more (l := .readPub s j) (q := p) ?_ (.more rfl ?_)
      · rcases hc with hc | hc
        · simp [Pc.exec, Pc.startMessage, hc, hx]
        · simp [Pc.exec, Pc.startMessage, hc, hx]
      rw [hself]
      simp only [Pod.subscribe, hx, reduceCtorEq, if_false]
      generalize p.readPublisher s (getValue j .peerID) = r
      have hins := fun p => @insertSub_runs p s env j r.2 isFake failed
        hfake (hfailed p)
      by_cases hy : (r.1.sess s).subscribers.lookup (subscriberKey j) = none
      · refine .more (l := .insertSub s j r.2) (q := r.1) ?_ ?_
        · simp only [Pc.exec, hy, if_true]
        · simp only [subscriberKey] at hy hins
          rw [if_pos hy]
          exact hins r.1
      · refine .more (l := .replaceSub s j r.2) (q := r.1) ?_ (.more rfl ?_)
        · simp only [Pc.exec, hy, if_false]
        · simp only [subscriberKey] at hy hins
          rw [if_neg hy]
          exact hins _

/-! ## Every call -/

theorem message_runs (hq : (p.sessionHandleMessage env s j).fatal = false) :
    Runs env (.start s (.message j)) p (p.sessionHandleMessage env s j) := by
  cases hc : command j with
  | none => exact .last (by simp [Pc.exec, Pc.startMessage, hc])
  | some c =>
      cases c with
      | push =>
          simp only [Pod.sessionHandleMessage, hc, Pod.handlePush]
          exact testPub_runs (.inl hc) (insertPush_runs hc)
      | fakeOffer =>
          simp only [Pod.sessionHandleMessage, hc, Pod.handleFakeOfferMsg]
          exact testPub_runs (.inr hc) (insertFakeOffer_runs hc)
      | stopPush =>
          simp only [Pod.sessionHandleMessage, hc, Pod.handleStopPush] at hq ⊢
          split
          · next x hx =>
              -- the unlock of `stoppush` has thrown
              have hdead : ((p.stopPublisher s x
                  (getValue j .peerID)).answerStopPush env s j).fatal =
                  true :=
                ((Pod.emit_quiet _ _).trans
                  (Pod.notifyReleasePublish_quiet env s _ _)).fatal rfl
              simp only [hx] at hq
              rw [hdead] at hq
              cases hq
          · next hx => exact .last (by simp [Pc.exec, Pc.startMessage, hc, hx])
      | sub =>
          have hid : subscriberId j = getValue j .sessID := by
            simp only [subscriberId, hc]
          have hself : p.sessionHandleMessage env s j =
              p.handleSub env s j := by
            simp only [Pod.sessionHandleMessage, hc]
          rw [Pod.handleSub, ← hid] at hself
          exact subscribe_runs (.inl hc) (decide_eq_false (by simp [hc])) hself
            fun p => by simp [hc, hid]
      | fakeSubscribe =>
          have hid : subscriberId j = getValue j .podId := by
            simp only [subscriberId, hc]
          have hself : p.sessionHandleMessage env s j =
              p.handleFakeSub env s j := by
            simp only [Pod.sessionHandleMessage, hc]
          rw [Pod.handleFakeSub, ← hid] at hself
          exact subscribe_runs (.inr hc) (decide_eq_true hc) hself
            fun p => by simp [hc]
      | _ => exact .last (by simp [Pc.exec, Pc.startMessage, hc])

theorem op_runs (op : Op) (hq : (op.run env s p).fatal = false) :
    Runs env (.start s op) p (op.run env s p) := by
  cases op with
  | message j => exact message_runs hq
  | releasePublisher pid => exact .more rfl (.last rfl)
  | releaseSubscriberPeer sid ssid pid => exact .last rfl
  | handleSubscriberLeaved sid => exact .more rfl (.last rfl)
  | doLeave => exact .more rfl (.more rfl (.last rfl))

/-- A call on a session that gets all the turns from its start leaves the pod
as the handler does, next to whatever other calls are in progress. -/
theorem sched_run_alone {op : Op} (hq : (op.run env s p).fatal = false)
    (ks ls : List Pc) :
    ∃ n, run Sched.step (List.replicate n (.turn ks.length env false))
        (⟨⟨p, []⟩, ks ++ .start s op :: ls⟩ : Sched) =
      some ⟨⟨op.run env s p, []⟩, ks ++ ls⟩ := by
  refine Threads.run_solo (fun t ht => ?_) ((op_runs op hq).solo hq)
  unfold Sched.step
  simp only [ht]
  rfl

/-! ## The room manager -/

theorem mgr_solo {m : JsonParser} (hp : p.fatal = false) :
    Threads.Solo (fun k p => some (MgrPc.exec env p k))
      (fun p => p.fatal = false) (.start m) p (p.mgrHandleMessage env m) := by
  have hread : ∀ p : Pod, p.fatal = false →
      Threads.Solo (fun k p => some (MgrPc.exec env p k))
        (fun p => p.fatal = false) (.readRoom m) p
        (((p.rlock .rooms).runlock .rooms).callRoom env
          (p.rooms.lookup (getValue m .roomId)) m) := fun p hp =>
    .more hp rfl (.last (by simp [Pod.rlock, Pod.runlock, hp]) rfl)
  have hrooms : ∀ p : Pod,
      ((p.rlock .rooms).runlock .rooms).rooms = p.rooms := fun p => by
    simp [Pod.rlock, Pod.runlock]
  by_cases hl : command m = some .login
  · simp only [Pod.mgrHandleMessage, hl]
    by_cases hreg : p.regist = true
    · simp only [hreg, if_true, Pod.mgrLogin, hrooms]
      by_cases hroom : p.rooms.lookup (getValue m .roomId) = none
      · rw [if_pos hroom]
        refine .more (l := .insertRoom m) hp
          (by simp [MgrPc.exec, MgrPc.startMessage, hl, hreg, hroom])
          (.more hp rfl (.more ?_ rfl (hread _ ?_)))
        · simpa [Pod.insertRoom, Pod.unlock, Pod.lock, Pod.storeRoom,
            Pod.allocRoom] using hp
        · simpa [Pod.insertRoom, Pod.unlock, Pod.lock, Pod.storeRoom,
            Pod.allocRoom, Pod.broadcastRoomCreated, Pod.getSn] using hp
      · rw [if_neg hroom]
        exact .more (l := .readRoom m) hp
          (by simp [MgrPc.exec, MgrPc.startMessage, hl, hreg, hroom])
          (hread p hp)
    · exact .last hp (by simp [MgrPc.exec, MgrPc.startMessage, hl, hreg])
  by_cases hr : command m = some .podRegist
  · exact .last hp (by
      simp [MgrPc.exec, MgrPc.startMessage, Pod.mgrHandleMessage, hr])
  by_cases hn : command m = some .podRegistNow
  · exact .last hp (by
      simp [MgrPc.exec, MgrPc.startMessage, Pod.mgrHandleMessage, hn])
  -- every other command goes to its room, if there is one
  simp only [Pod.mgrHandleMessage]
  by_cases hreg : p.regist = true
  · by_cases hfwd : p.forwards m = true
    · cases hroom : p.rooms.lookup (getValue m .roomId) with
      | none =>
          exact .last hp (by simp [MgrPc.exec, MgrPc.startMessage, hreg, hfwd,
            hroom, Pod.mgrForward])
      | some r =>
          refine .more (l := .fetchRoom m) (t := p) hp ?_
            (.more hp rfl (.last hp ?_))
          · simp [MgrPc.exec, MgrPc.startMessage, hreg, hfwd, hroom]
          · simp [MgrPc.exec, hreg, hfwd, hroom, Pod.mgrForward, Pod.callRoom]
    · exact .last hp (by
        simp [MgrPc.exec, MgrPc.startMessage, hreg, hfwd, Pod.mgrForward])
  · exact .last hp (by simp [MgrPc.exec, MgrPc.startMessage, hreg])

/-- A call of the room manager that gets all the turns handles its message as
`roommgr.HandleMessage` does. -/
theorem mgr_run_alone {m : JsonParser} (hp : p.fatal = false)
    (ks ls : List MgrPc) :
    ∃ n, run MgrSched.step (List.replicate n (.turn ks.length env))
        (⟨p, ks ++ .start m :: ls⟩ : MgrSched) =
      some ⟨p.mgrHandleMessage env m, ks ++ ls⟩ := by
  refine Threads.run_solo (fun t ht => ?_) (mgr_solo hp)
  unfold MgrSched.step
  simp only [ht]
  rfl

end MediaServer.Ref
