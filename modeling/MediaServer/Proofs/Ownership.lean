import MediaServer.Proofs.Effects

/-!
# Who may take a session away

A pod withdraws the stream of one of its users with a `fakeunpublish`, and the
others drop the stand-in they have for the user. The room decides whether the
session that the message names is such a stand-in by comparing pod ids: the
one the session recorded when it was created, and the one of the message. A
session of a user who is logged in here has recorded none, and a message that
names no pod has the same empty id. The room manager lets such a message pass,
since it only keeps out its own.
-/

namespace MediaServer.Ref

open MediaServer.Lib

variable {p q t : Pod} {s i : SessRef} {r : RoomRef} {k u rid : String}
variable {x y : PeerRef} {m : JsonParser} {env : Env}

/-! ## What a session that leaves does not touch -/

/-- The session `i` and the peer `y` are as they were. -/
structure Aside (i : SessRef) (y : PeerRef) (p q : Pod) : Prop where
  sess : q.sess i = p.sess i
  peer : q.peer y = p.peer y

namespace Aside

theorem refl (i : SessRef) (y : PeerRef) (p : Pod) : Aside i y p p := ⟨rfl, rfl⟩

theorem trans (h : Aside i y p q) (h' : Aside i y q t) : Aside i y p t :=
  ⟨h'.sess.trans h.sess, h'.peer.trans h.peer⟩

theorem foldl {α : Type} {f : Pod → α → Pod} {l : List α}
    (hf : ∀ p, ∀ a ∈ l, Aside i y p (f p a)) (p : Pod) :
    Aside i y p (l.foldl f p) := by
  induction l generalizing p with
  | nil => exact .refl i y p
  | cons a l ih =>
      exact (hf p a List.mem_cons_self).trans
        (ih (fun p b hb => hf p b (List.mem_cons_of_mem _ hb)) (f p a))

theorem emit (p : Pod) (e : Event) : Aside i y p (p.emit e) :=
  ⟨Pod.emit_sess, Pod.emit_peer⟩

theorem setSess (p : Pod) {f : Session → Session} (hi : i ≠ s) :
    Aside i y p (p.setSess s f) :=
  ⟨by rw [Pod.setSess_sess, if_neg hi], rfl⟩

theorem destroy (p : Pod) (hy : y ≠ x) : Aside i y p (p.destroy x) :=
  ⟨Pod.destroy_sess p x i, by rw [Pod.destroy_peer, if_neg hy]⟩

theorem stopNotify (p : Pod) (hy : y ≠ x) :
    Aside i y p (p.stopNotify s x k) :=
  ⟨stopNotify_sess s x k p i, by rw [Pod.stopNotify_peer, if_neg hy]⟩

end Aside

/-- `DoLeave` is about one session and its peers. -/
theorem doLeave_aside (hp : Placed p) (hi : i ≠ s)
    (hy : ∀ role k, p.entry role s k ≠ some y) :
    Aside i y p (p.doLeave s) := by
  have hne : ∀ {q : Pod} {role : Role},
      (∀ k, q.entry role s k ≠ some y) →
      ∀ e ∈ ((q.sess s).peers role).entries, y ≠ e.2 := by
    rintro q role hq ⟨l, z⟩ he rfl
    exact hq l (GoMap.mem_entries.mp he)
  have hpubs : Aside i y p (p.doLeavePubs s) := by
    have hlock : ∀ k, (p.lock (.pubs s)).entry .publisher s k ≠ some y :=
      fun k => by rw [Pod.lock, (p.emit_quiet _).entry]; exact hy _ k
    have hlocked : Aside i y p (p.lock (.pubs s)) := .emit p _
    refine (hlocked.trans ?_).trans (.emit _ _)
    refine Aside.trans (.foldl (fun p e he => ?_) _) (.setSess _ hi)
    have hye := hne hlock e he
    exact (Aside.stopNotify p hye).trans (.destroy _ hye)
  have hsubs : Aside i y (p.doLeavePubs s)
      ((p.doLeavePubs s).doLeaveSubs s) := by
    have hlock : ∀ k, ((p.doLeavePubs s).lock (.subs s)).entry .subscriber s k ≠
        some y := by
      intro k hk
      rw [Pod.lock, (Pod.emit_quiet _ _).entry] at hk
      exact hy _ k (((Pod.doLeavePubs_removes hp).entry _ _ _ _).mp hk).1
    have hlocked : Aside i y (p.doLeavePubs s)
        ((p.doLeavePubs s).lock (.subs s)) := .emit _ _
    refine (hlocked.trans ?_).trans (.emit _ _)
    refine Aside.trans (.foldl (fun p e he => ?_) _) (.setSess _ hi)
    exact .destroy p (hne hlock e he)
  exact (hpubs.trans hsubs).trans (.setSess _ hi)

/-! ## The withdrawal -/

/-- The session keeps its seat, its fields and its peers. -/
structure LeftAlone (rid u : String) (s : SessRef) (p q : Pod) : Prop where
  seat : q.seat rid u = some s
  sess : q.sess s = p.sess s
  peers : ∀ role k x, p.entry role s k = some x → q.peer x = p.peer x

/-- Only a stand-in for a user of the pod that the message names is not left
alone. -/
def RespectsOwner (m : JsonParser) (p q : Pod) : Prop :=
  ∀ rid u s, p.seat rid u = some s → LeftAlone rid u s p q ∨
    (p.sess s).origin = false ∧ (p.sess s).podid = getValue m .podId

/-- Messages that are sent leave everybody alone. -/
theorem LeftAlone.of_spoke (h : Spoke p q) (hs : p.seat rid u = some s) :
    LeftAlone rid u s p q := by
  obtain ⟨tr, rfl⟩ := h
  exact ⟨hs, rfl, fun _ _ _ _ => rfl⟩

/-- The user's session goes if it recorded the pod of the message, and nothing
happens otherwise. -/
theorem handleFakeUnpublish_eq (r : RoomRef) (m : JsonParser) (p : Pod) :
    (∃ s, (p.room r).sessions.lookup (getValue m .sessID) = some s ∧
      (p.sess s).podid = getValue m .podId ∧
      p.handleFakeUnpublish r m = (((p.lock (.sessions r)).doLeave
        s).eraseSession r (getValue m .sessID)).unlock (.sessions r)) ∨
    (∀ s, (p.room r).sessions.lookup (getValue m .sessID) = some s →
      (p.sess s).podid ≠ getValue m .podId) ∧
      Spoke p (p.handleFakeUnpublish r m) := by
  have hspoke : Spoke p ((p.lock (.sessions r)).unlock (.sessions r)) :=
    (p.emit_spoke _).trans (Pod.emit_spoke _ _)
  unfold Pod.handleFakeUnpublish
  dsimp only
  rw [Pod.lock, Pod.emit_room]
  cases hs : (p.room r).sessions.lookup (getValue m .sessID) with
  | none => exact .inr ⟨fun s h => (by cases h), hspoke⟩
  | some s =>
      dsimp only
      rw [Pod.emit_sess]
      split
      · next hpod => exact .inl ⟨s, rfl, hpod, rfl⟩
      · next hpod =>
          refine .inr ⟨fun s' hs' => ?_, hspoke⟩
          cases hs'
          exact hpod

/-- A session other than the one that goes is left alone. -/
theorem leaveErase_leftAlone (hp : InOrder p)
    (hr : p.rooms.lookup rid = some r)
    (hs : (p.room r).sessions.lookup u = some s) {rid' u' : String}
    (hseat : p.seat rid' u' = some i) (hne : i ≠ s) :
    LeftAlone rid' u' i p ((((p.lock (.sessions r)).doLeave s).eraseSession r
      u).unlock (.sessions r)) := by
  have hlock := p.emit_quiet (.sync (.lock (.sessions r)))
  have hplaced := hp.placed.of_quiet hlock
  have haside : ∀ y, (∀ role k, p.entry role s k ≠ some y) → Aside i y p
      ((((p.lock (.sessions r)).doLeave s).eraseSession r u).unlock
        (.sessions r)) := by
    intro y hy
    have hleave := doLeave_aside (i := i) (y := y) hplaced hne
      fun role k => by rw [hlock.entry]; exact hy role k
    have herase : Aside i y ((p.lock (.sessions r)).doLeave s)
        (((p.lock (.sessions r)).doLeave s).eraseSession r u) := ⟨rfl, rfl⟩
    exact (((Aside.emit p _).trans hleave).trans herase).trans (.emit _ _)
  refine ⟨?_, ?_, fun role k x hx => ?_⟩
  · obtain ⟨r', hr', hlook⟩ := seat_eq_some.mp hseat
    have he : Edits r u p ((((p.lock (.sessions r)).doLeave s).eraseSession r
        u).unlock (.sessions r)) :=
      ((hlock.toSameStore.edits r u).trans
        (Pod.leaveErase_edits r s u _)).trans
          ((Pod.emit_quiet _ _).toSameStore.edits r u)
    refine seat_eq_some.mpr ⟨r', by rw [he.rooms]; exact hr', ?_⟩
    by_cases hrr : r' = r
    · subst hrr
      rw [he.keep u']
      · exact hlook
      · rintro rfl
        exact hne (Option.some.inj (hlook.symm.trans hs))
    · rw [he.other r' hrr]
      exact hlook
  · exact (haside p.peerHeap.next fun role k hk =>
      Nat.lt_irrefl _ (hp.placed _ _ _ _ hk).1).sess
  · refine (haside x fun role' k' hx' => ?_).peer
    exact hne (hp.placed.unique hx hx').2.1.symm

/-- The session that goes has lost its seat. -/
theorem leaveErase_seat (hr : p.rooms.lookup rid = some r) :
    Pod.seat ((((p.lock (.sessions r)).doLeave s).eraseSession r u).unlock
      (.sessions r)) rid u = none := by
  have hrooms : ((((p.lock (.sessions r)).doLeave s).eraseSession r u).unlock
      (.sessions r)).rooms = p.rooms := by
    rw [Pod.unlock, Pod.emit_rooms,
      (Pod.leaveErase_edits r s u (p.lock (.sessions r))).rooms, Pod.lock,
      Pod.emit_rooms]
  rw [Pod.seat, hrooms, hr, Option.bind_some, Pod.unlock, Pod.emit_room]
  exact Pod.eraseSession_lookup_self r u _

/-- A `fakeunpublish` that the room manager accepts respects who owns a
session if and only if it names a pod or its user is not logged in here. -/
theorem respectsOwner_iff {conf : Config} (env : Env)
    (hr : Pod.Reachable conf p) (hf : p.fatal = false)
    (hc : command m = some .fakeUnpublish) (hreg : p.regist = true)
    (hpod : getValue m .podId ≠ p.conf.uuid) :
    ∃ q, Pod.step (env, .message m) p = some q ∧
      (RespectsOwner m p q ↔ ¬∃ s,
        p.seat (getValue m .roomId) (getValue m .sessID) = some s ∧
          (p.sess s).origin = true ∧ getValue m .podId = "") := by
  have hp := reachable_inOrder hr
  have hstep : Pod.step (env, .message m) p =
      some (p.mgrHandleMessage env m) := by simp [Pod.step, hf]
  refine ⟨_, hstep, ?_⟩
  have hq := step_announced hstep rfl (.inr hc) hreg hpod
  generalize p.mgrHandleMessage env m = q at hq
  cases hroom : p.rooms.lookup (getValue m .roomId) with
  | none =>
      rw [hroom] at hq
      dsimp only at hq
      subst hq
      constructor
      · rintro - ⟨s, hs, -⟩
        rw [Pod.seat, hroom] at hs
        cases hs
      · intro _ rid u s hs
        exact .inl (.of_spoke (.refl _) hs)
  | some r =>
      rw [hroom] at hq
      simp only [Pod.roomHandleMessage, hc] at hq
      have hseat : ∀ s, p.seat (getValue m .roomId) (getValue m .sessID) =
          some s ↔ (p.room r).sessions.lookup (getValue m .sessID) =
          some s := fun s => by rw [Pod.seat, hroom, Option.bind_some]
      rcases handleFakeUnpublish_eq r m p with
        ⟨s, hs, hsame, heq⟩ | ⟨hno, hspoke⟩
      · rw [heq] at hq
        have hlost := leaveErase_seat (s := s) (u := getValue m .sessID) hroom
        rw [← hq] at hlost
        constructor
        · rintro hresp ⟨s', hs', ho, -⟩
          rcases hresp _ _ s' hs' with halone | ⟨hfake, -⟩
          · rw [halone.seat] at hlost
            cases hlost
          · rw [hfake] at ho
            cases ho
        · intro hcond rid u i hi
          by_cases his : i = s
          · subst his
            refine .inr ⟨Bool.not_eq_true _ ▸ fun ho => hcond ⟨i, ?_, ho, ?_⟩,
              hsame⟩
            · exact (hseat i).mpr hs
            · rw [← hsame]
              exact (unlabelled_of_origin hr (hp.sessions r _ i hs).2.2 ho).1
          · rw [hq]
            exact .inl (leaveErase_leftAlone hp hroom hs hi his)
      · rw [← hq] at hspoke
        constructor
        · rintro - ⟨s, hs, ho, hempty⟩
          have hlook := (hseat s).mp hs
          refine hno s hlook ?_
          rw [hempty]
          exact (unlabelled_of_origin hr (hp.sessions r _ s hlook).2.2 ho).1
        · intro _ rid u s hs
          exact .inl (.of_spoke hspoke hs)

/-- User `u` logs in, and `podB` announces a stream of `w`. -/
def userAndStandIn : List (Env × Input) :=
  [(Env.calm, .setSendMessageHandler),
    (Env.calm, .message (Cmd.login.msg [(.roomId, "R"), (.sessID, "u")])),
    (Env.calm, .message (Cmd.fakePublish.msg [(.podId, "podB"),
      (.roomId, "R"), (.sessID, "w"), (.peerID, "1")]))]

theorem userAndStandIn_reaches :
    ∃ p, Pod.Reachable (Config.standalone "podA") p ∧ p.fatal = false ∧
      p.regist = true ∧ p.conf.uuid = "podA" ∧ p.seat "R" "u" = some 0 ∧
      (p.sess 0).origin = true ∧ p.seat "R" "w" = some 1 ∧
      (p.sess 1).origin = false := by
  have h : (run Pod.step userAndStandIn
      (Pod.createRoomMgr (Config.standalone "podA"))).map (fun p =>
        decide (p.fatal = false ∧ p.regist = true ∧ p.conf.uuid = "podA" ∧
          p.seat "R" "u" = some 0 ∧ (p.sess 0).origin = true ∧
          p.seat "R" "w" = some 1 ∧ (p.sess 1).origin = false)) =
      some true := by decide
  obtain ⟨p, hp, hfacts⟩ := Option.map_eq_some_iff.mp h
  exact ⟨p, ⟨_, hp⟩, of_decide_eq_true hfacts⟩

/-- A message that names no pod takes out the user who is logged in here. -/
theorem nameless_withdrawal_evicts :
    ∃ p q, Pod.Reachable (Config.standalone "podA") p ∧
      p.seat "R" "u" = some 0 ∧ (p.sess 0).origin = true ∧
      Pod.step (Env.calm, .message (Cmd.fakeUnpublish.msg
        [(.roomId, "R"), (.sessID, "u")])) p = some q ∧
      q.seat "R" "u" = none ∧
      ¬RespectsOwner (Cmd.fakeUnpublish.msg
        [(.roomId, "R"), (.sessID, "u")]) p q := by
  have h : ((run Pod.step userAndStandIn
      (Pod.createRoomMgr (Config.standalone "podA"))).map (fun p =>
        decide (p.seat "R" "u" = some 0 ∧ (p.sess 0).origin = true ∧
          (Pod.step (Env.calm, .message (Cmd.fakeUnpublish.msg
            [(.roomId, "R"), (.sessID, "u")])) p).map (·.seat "R" "u") =
            some none))) = some true := by decide
  obtain ⟨p, hp, hfacts⟩ := Option.map_eq_some_iff.mp h
  obtain ⟨hseat, ho, hlost⟩ := of_decide_eq_true hfacts
  obtain ⟨q, hq, hlost⟩ := Option.map_eq_some_iff.mp hlost
  refine ⟨p, q, ⟨_, hp⟩, hseat, ho, hq, hlost, fun hresp => ?_⟩
  rcases hresp _ _ _ hseat with halone | ⟨hfake, -⟩
  · rw [halone.seat] at hlost
    cases hlost
  · rw [hfake] at ho
    cases ho

/-- The pod of the stand-in takes it out, and leaves the user. -/
theorem respectsOwner_standIn :
    ∃ p q, Pod.Reachable (Config.standalone "podA") p ∧
      p.seat "R" "w" = some 1 ∧ (p.sess 1).origin = false ∧
      Pod.step (Env.calm, .message (Cmd.fakeUnpublish.msg
        [(.podId, "podB"), (.roomId, "R"), (.sessID, "w")])) p = some q ∧
      LeftAlone "R" "u" 0 p q := by
  obtain ⟨p, hr, hf, hreg, huuid, hu, ho, hw, how⟩ := userAndStandIn_reaches
  obtain ⟨q, hq, hiff⟩ := respectsOwner_iff Env.calm
    (m := Cmd.fakeUnpublish.msg
      [(.podId, "podB"), (.roomId, "R"), (.sessID, "w")]) hr hf
    (command_msg _ _) hreg (by rw [huuid]; decide)
  refine ⟨p, q, hr, hw, how, hq, ?_⟩
  have hresp := hiff.mpr fun ⟨_, _, _, hempty⟩ => absurd hempty (by decide)
  rcases hresp "R" "u" 0 hu with halone | ⟨hfake, -⟩
  · exact halone
  · rw [hfake] at ho
    cases ho

end MediaServer.Ref
