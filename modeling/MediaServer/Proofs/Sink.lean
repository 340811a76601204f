import MediaServer.Proofs.Leaving
import MediaServer.Proofs.Source

/-!
# A pod as the sink of a user's streams

On a pod where user `u` of room `rid` is not logged in, their streams are the
publishers of a stand-in session (`Pod.sink`). What other inputs do to it is
what the sink of `Mirror.lean` does by itself (`Away.turns`): the room is
released, or opened with a request to all pods, and otherwise the stand-in
stays as it is. A word of the source makes the sink do what it should hear
(`Away.hears`).

This asks that the user's own messages go to the other pod, and that none of
the connections between the two pods fails: then a release is spawned that may
hit a publisher that was stored since.
-/

namespace MediaServer.Ref

open MediaServer.Lib Relation

variable {p q t : Pod} {s : SessRef} {x y : PeerRef} {r : RoomRef}
variable {src rid u k pod : String} {m : JsonParser} {a : Env × Input}

/-! ## Sessions and pending calls -/

/-- Whatever is not yet a session stays as it is. -/
theorem Move.sess_free {b : Act} (h : Move b p q) (hp : PodOk p)
    (hs : ¬s < q.sessHeap.next) : (q.sess s).ident = (p.sess s).ident := by
  cases hb : b.inner with
  | true => exact (h.shrinks hb).ident s
  | false =>
      cases h with
      | adds i t hseat hpar ht hfree =>
          obtain ⟨r, u, hlook⟩ := hseat
          exact (Pod.insertEntry_inserts (hp.sessions r u i hlook).2.2 hpar
            ht.1 hfree).ident s
      | seats r u t =>
          rw [Pod.insertSession_sessNext] at hs
          rw [Pod.insertSession_sess, if_neg]
          rintro rfl
          exact hs (Nat.lt_succ_self _)
      | opens rid => rw [Pod.sess, insertRoom_sessHeap]; rfl
      | unseats | vacates | closes | takes => rfl
      | still | dies | sends | spawns | tells | unpush | leaves | withdraws
      | destroys | erases | clears | offers | accepts | flags | announces
      | beats => cases hb

/-- What is not a session is no origin session. -/
def Blank (p : Pod) : Prop :=
  ∀ s, ¬s < p.sessHeap.next → (p.sess s).origin = false

theorem step_blank (hp : InOrder p) (hb : Blank p)
    (hs : Pod.step a p = some q) : Blank q := by
  refine (step_induction (P := Blank) hp hs hb
    fun {b t t'} _ hsound _ _ hm ht s hs => ?_).1
  rw [show (t'.sess s).origin = (t.sess s).origin from
    congrArg (·.2.2.2.2.1) (hm.sess_free hsound.toPodOk hs)]
  exact ht s fun hlt => hs (Nat.lt_of_lt_of_le hlt
    (hm.after hsound.toPodOk).sessNext)

/-- A call that is pending was so before or is one that the input starts. -/
theorem step_spawned {g : Goroutine} (hp : InOrder p)
    (hs : Pod.step a p = some q) (hg : g ∈ q.pending)
    (hne : ∀ r sid name pid, g ≠ .onPublisherReady r sid name pid) :
    g ∈ p.pending ∨ Spawns p a.1 a.2 g := by
  refine (step_induction (P := fun t => g ∈ t.pending →
    g ∈ p.pending ∨ Spawns p a.1 a.2 g) hp hs .inl
    fun {b t t'} hb hsound _ _ hm ht hg => ?_).1 hg
  rw [hm.pending hsound.toPodOk] at hg
  cases hm with
  | spawns g' =>
      rcases List.mem_append.mp hg with hg | hg
      · exact ht hg
      · cases List.mem_singleton.mp hg
        exact .inr hb
  | announces x =>
      rcases List.mem_append.mp hg with hg | hg
      · exact ht hg
      · exact absurd (List.mem_singleton.mp hg) (hne _ _ _ _)
  | takes i => exact ht (List.mem_of_mem_eraseIdx hg)
  | still | dies | sends | tells | unpush | leaves | withdraws | destroys
  | erases | clears | adds | offers | accepts | flags | beats | seats
  | unseats | vacates | opens | closes => exact ht hg

/-- The room and the user whose publishers a spawned call takes away. -/
def Goroutine.ousts : Goroutine → Option (RoomRef × String)
  | .kickoutFromRoom r u | .onPublisherPeerFailed r u _ _
  | .onPublisherPeerClosed r u _ _ => some (r, u)
  | _ => none

/-- User `u` of room `rid` is known here only through the pod `src`, and no
call is pending that takes a stream of theirs away. -/
structure Away (src rid u : String) (p : Pod) : Prop extends InOrder p where
  rooted : Rooted p
  blank : Blank p
  guest : ∀ s, s < p.sessHeap.next → p.Named s rid u →
    (p.sess s).origin = false ∧ (p.sess s).podid = src
  calm : ∀ g ∈ p.pending, ∀ r v, g.ousts = some (r, v) →
    r < p.roomHeap.next ∧ ¬((p.room r).roomid = rid ∧ v = u)

/-- What keeps it so: messages that name the user come from the pod `src`,
which does not ask for their streams, and no connection to it fails. -/
structure Abroad (src rid u : String) (p : Pod) (a : Input) : Prop where
  named : ∀ m, a = .message m → getValue m .roomId = rid →
    getValue m .sessID = u → Spoken src m ∧ command m ≠ some .fakeSubscribe
  asked : ∀ m, a = .message m → command m = some .fakeSubscribe →
    getValue m .srcSessID = getValue m .sessID
  up : ∀ x st, a = .ice x st → st = .failed ∨ st = .closed →
    (p.peer x).role = .publisher → (p.peer x).userid = u → p.roomidOf x ≠ rid

theorem Quiet.of_ice {st : IceState} (x : PeerRef) (p : Pod)
    (hst : ¬(st = .failed ∨ st = .closed)) :
    Quiet p (p.onICEConnectionStateChange x st) := by
  unfold Pod.onICEConnectionStateChange
  split
  · exact .refl p
  · refine (p.setIceFlags_quiet x st).trans ?_
    cases st with
    | connected => exact Pod.onIceReady_quiet _ _ _ _ _
    | disconnected =>
        unfold Pod.reportIce
        dsimp only
        split
        · exact Pod.onIceDisconnected_quiet _ _ _
        · exact .refl _
    | failed => exact absurd (.inl rfl) hst
    | closed => exact absurd (.inr rfl) hst

namespace Away

/-- The user stays away. -/
theorem step_guest (hp : Away src rid u p) (hin : Abroad src rid u p a.2)
    (hs : Pod.step a p = some q) (hlt : s < q.sessHeap.next)
    (hn : q.Named s rid u) :
    (q.sess s).origin = false ∧ (q.sess s).podid = src := by
  have hafter := step_after hp.toInOrder hs
  by_cases hold : s < p.sessHeap.next
  · have hid := hafter.sess s hold
    rw [show (q.sess s).origin = (p.sess s).origin from
      congrArg (·.2.2.2.2.1) hid, show (q.sess s).podid = (p.sess s).podid
        from congrArg (·.2.2.2.1) hid]
    exact hp.guest s hold ((hafter.named hp.rooted hold).mp hn)
  · obtain ⟨m, r, hm, hc, hid, hn'⟩ :=
      step_new_session hp.toInOrder hp.rooted hs hlt hold
    obtain ⟨⟨hpod, c, hcmd, hcross, -⟩, -⟩ := hin.named m hm
      (hn'.1.symm.trans hn.1) (hn'.2.symm.trans hn.2)
    have hlogin : command m ≠ some .login := by
      rw [hcmd]
      rintro ⟨⟩
      cases hcross
    rw [show (q.sess s).origin = (newSession a.1 r m).origin from
      congrArg (·.2.2.2.2.1) hid, show (q.sess s).podid =
        (newSession a.1 r m).podid from congrArg (·.2.2.2.1) hid]
    unfold newSession
    dsimp only
    rw [if_neg hlogin]
    exact ⟨rfl, hpod⟩

/-- A release that the step spawns is for a peer whose connection failed. -/
theorem step_release {g : Goroutine} {v : String} (hp : Away src rid u p)
    (hin : Abroad src rid u p a.2) (hs : Pod.step a p = some q)
    (hg : g ∈ q.pending) (hrel : g.releases r v k) :
    g ∈ p.pending ∨
      r < p.roomHeap.next ∧ ¬((p.room r).roomid = rid ∧ v = u) := by
  have hisrel : g.isRelease = true := by
    cases g with
    | onPublisherPeerFailed | onPublisherPeerClosed => rfl
    | _ => exact hrel.elim
  rcases pending_of_micros (step_does hs hp.toPodOk) hg hisrel with
    hold | ⟨m, r', -, -, s, -, -, y, -, rfl⟩ | ⟨x, st, ha, hx, hc, hfor⟩
  · exact .inl hold
  · exact hrel.elim
  · by_cases hst : st = .failed ∨ st = .closed
    · right
      have hup := hin.up x st ha hst
      have hpar := hp.rooted.sess _ (hp.rooted.peer x hx)
      unfold Pod.ReleaseFor at hfor
      dsimp only at hfor
      split at hfor
      · next hrole =>
          rcases hfor with rfl | rfl
          · obtain ⟨rfl, rfl, -⟩ := hrel
            exact ⟨hpar, fun h => hup hrole h.2 h.1⟩
          · obtain ⟨rfl, rfl, -⟩ := hrel
            exact ⟨hpar, fun h => hup hrole h.2 h.1⟩
      · rcases hfor with rfl | rfl
        · exact hrel.elim
        · exact hrel.elim
    · have hquiet := Quiet.of_ice x p hst
      rw [← (step_ice hs ha).2] at hquiet
      exact (hquiet.spawned g hg hisrel).imp_right False.elim

theorem step_calm {g : Goroutine} {v : String} (hp : Away src rid u p)
    (hin : Abroad src rid u p a.2) (hs : Pod.step a p = some q)
    (hg : g ∈ q.pending) (ho : g.ousts = some (r, v)) :
    r < q.roomHeap.next ∧ ¬((q.room r).roomid = rid ∧ v = u) := by
  have hafter := step_after hp.toInOrder hs
  suffices h : r < p.roomHeap.next ∧ ¬((p.room r).roomid = rid ∧ v = u) by
    rw [hafter.roomid r h.1]
    exact ⟨Nat.lt_of_lt_of_le h.1 hafter.roomNext, h.2⟩
  have hold : g ∈ p.pending →
      r < p.roomHeap.next ∧ ¬((p.room r).roomid = rid ∧ v = u) :=
    fun hg => hp.calm g hg r v ho
  cases g with
  | kickoutFromRoom r' v' =>
      cases ho
      rcases step_spawned hp.toInOrder hs hg nofun with
        hg | ⟨i, s, -, -, horigin, -, rfl, rfl⟩
      · exact hold hg
      · have hlt : s < p.sessHeap.next := by
          by_contra hlt
          rw [hp.blank s hlt] at horigin
          cases horigin
        refine ⟨hp.rooted.sess s hlt, fun hn => ?_⟩
        rw [(hp.guest s hlt hn).1] at horigin
        cases horigin
  | onPublisherPeerFailed r' v' k c =>
      cases ho
      exact (hp.step_release hin hs hg ⟨rfl, rfl, rfl⟩).elim hold id
  | onPublisherPeerClosed r' v' k c =>
      cases ho
      exact (hp.step_release hin hs hg ⟨rfl, rfl, rfl⟩).elim hold id
  | _ => cases ho

theorem step (hp : Away src rid u p) (hin : Abroad src rid u p a.2)
    (hs : Pod.step a p = some q) : Away src rid u q where
  toInOrder := step_inOrder hp.toInOrder hs
  rooted := step_rooted hp.toInOrder hp.rooted hs
  blank := step_blank hp.toInOrder hp.blank hs
  guest _ hlt hn := hp.step_guest hin hs hlt hn
  calm _ hg _ _ ho := hp.step_calm hin hs hg ho

/-! ## No word from here -/

/-- Whoever speaks for an origin session does not speak for the user. -/
theorem not_named (hp : Away src rid u p) (hafter : After p t)
    (hlt : s < p.sessHeap.next) (ho : (t.sess s).origin = true) :
    ¬t.Named s rid u := by
  intro hn
  rw [show (t.sess s).origin = (p.sess s).origin from
    congrArg (·.2.2.2.2.1) (hafter.sess s hlt),
    (hp.guest s hlt ((hafter.named hp.rooted hlt).mp hn)).1] at ho
  cases ho

theorem silent_created (hp : Away src rid u p) (hs : Pod.step a p = some q)
    (hm : a.2 = .message m) (hc : command m = some .roomCreated) :
    ∀ msg ∈ sentTo pod p q, word rid u msg = none := by
  obtain ⟨-, hsent | ⟨r, rfl⟩⟩ := step_created pod hs hm hc
  · rw [hsent]
    exact nofun
  · intro msg hmsg
    rw [sentTo, newEvents_of_append rfl, mem_answerEvents hp.toSound] at hmsg
    obtain ⟨-, v, s, k, x, hlook, hans, -, rfl⟩ := hmsg
    rw [word_fakePublishMsg, if_neg (hp.not_named (.refl p)
      (hp.sessions r v s hlook).2.2 hans.1)]

theorem silent_subscribed (hp : Away src rid u p)
    (hin : Abroad src rid u p a.2) (hs : Pod.step a p = some q)
    (hq : q.fatal = false) (hm : a.2 = .message m)
    (hc : command m = some .fakeSubscribe) :
    ∀ msg ∈ sentTo pod p q, word rid u msg = none := by
  have hroute : route m = getValue m .sessID := by
    simp only [route, hc, hin.asked m hm hc]
  by_cases hno : p.regist = true →
      p.seat (getValue m .roomId) (route m) = none
  · rw [(step_unrouted hs hm hc rfl hno).sent.sentTo]
    simp
  obtain ⟨hreg, hseat⟩ := Classical.not_imp.mp hno
  obtain ⟨s, hseat⟩ := Option.ne_none_iff_exists'.mp hseat
  have hstep := step_routed hs hm hc rfl hreg hseat
  simp only [Pod.sessionHandleMessage, hc] at hstep
  rw [hstep] at hq ⊢
  obtain ⟨ms, hsent, hoffers, -⟩ := handleFakeSub_sent hc hq
  rw [hsent.sentTo]
  intro msg hmsg
  obtain ⟨hu, hrid, -, -⟩ := hp.toSound.of_seat hseat
  rw [word_of_offers (hoffers msg hmsg).1 (hroute.symm.trans hu.symm),
    if_neg]
  intro hn
  exact (hin.named m hm (hrid.symm.trans hn.1)
    (hroute.symm.trans (hu.symm.trans hn.2))).2 hc

theorem silent (hp : Away src rid u p) (hin : Abroad src rid u p a.2)
    (hs : Pod.step a p = some q) (hq : q.fatal = false) :
    ∀ msg ∈ sentTo pod p q, word rid u msg = none := by
  by_cases hc : ∃ m, a.2 = .message m ∧ command m = some .roomCreated
  · obtain ⟨m, hm, hc⟩ := hc
    exact hp.silent_created hs hm hc
  by_cases hf : ∃ m, a.2 = .message m ∧ command m = some .fakeSubscribe
  · obtain ⟨m, hm, hf⟩ := hf
    exact hp.silent_subscribed hin hs hq hm hf
  refine (step_sent (P := fun t ms => Within p a.2 t ∧
    ∀ msg ∈ ms, word rid u msg = none) hp.toInOrder hs
    ⟨fun _ _ _ hx => .inl hx, nofun⟩
    fun {b t t' ms} hb hsound hafter _ _ hmove ht => ?_).2
  obtain ⟨hwithin, hms⟩ := ht
  refine ⟨hwithin.move hb hsound.toPodOk hmove, fun msg hmsg => ?_⟩
  rcases List.mem_append.mp hmsg with hmsg | hmsg
  · exact hms msg hmsg
  cases hmove with
  | sends he =>
      refine word_of_for hb ?_ ?_ (Option.mem_toList.mp hmsg)
      · intro hcmd
        obtain ⟨m, hm, hcmd⟩ := Option.bind_eq_some_iff.mp hcmd
        exact hc ⟨m, Input.msg?_eq_some hm, hcmd⟩
      · intro hcmd
        obtain ⟨m, hm, hcmd⟩ := Option.bind_eq_some_iff.mp hcmd
        exact hf ⟨m, Input.msg?_eq_some hm, hcmd⟩
  | withdraws i l y hy =>
      simp only [Act.sent] at hmsg
      split at hmsg
      · next ho =>
          rw [List.mem_singleton.mp hmsg, word_fakeUnpublishMsg,
            if_neg (hp.not_named hafter (hwithin.lt hp.toSound hy) ho)]
      · cases hmsg
  | announces y hy =>
      simp only [Act.sent] at hmsg
      split at hmsg
      · next ho =>
          rw [List.mem_singleton.mp hmsg, (hsound.publisher hy).1,
            word_fakePublishMsg,
            if_neg (hp.not_named hafter (hwithin.lt hp.toSound hy) ho)]
      · cases hmsg
  | still | dies | spawns | tells | unpush | leaves | destroys | erases
  | clears | adds | offers | accepts | flags | beats | seats | unseats
  | vacates | opens | closes | takes => cases hmsg

end Away

/-! ## The stand-in -/

/-- The ids of the streams that the session of user `u` publishes. -/
def Pod.copy (p : Pod) (rid u : String) : Option (Set String) :=
  (p.seat rid u).map fun s => {k | p.entry .publisher s k ≠ none}

/-- The same, if the room is there. -/
def Pod.sink (p : Pod) (rid u : String) : Option (Option (Set String)) :=
  (p.rooms.lookup rid).map fun _ => p.copy rid u

/-- What a message asks of the pod on which user `u` is logged in. -/
def request (rid u : String) (m : JsonParser) : Option (Request String) :=
  if getValue m .roomId = rid then
    match command m with
    | some .roomCreated =>
        if getValue m .sessID = u then none else some .opened
    | some .fakeSubscribe =>
        if getValue m .sessID = u then some (.ask (getValue m .peerID))
        else none
    | _ => none
  else none

theorem SamePubs.sink (h : SamePubs p q) (rid u : String) :
    q.sink rid u = p.sink rid u := by
  simp only [Pod.sink, Pod.copy, h.rooms, h.seat, h.entry]

/-- The input releases the room, or a login opens it. -/
def TurnsRoom (rid : String) (p : Pod) (a : Input) : Prop :=
  (∃ i, a = .go i ∧ p.pending[i]? = some (.releaseRoom rid)) ∨
  ∃ m, a = .message m ∧ p.regist = true ∧ command m = some .login ∧
    getValue m .roomId = rid ∧ p.rooms.lookup rid = none

namespace Away

/-- A message that names the user and is no word changes nothing here. -/
theorem cmd_of_named (hin : Abroad src rid u p a.2)
    (hnw : ∀ m, a.2 = .message m → word rid u m = none)
    (hm : a.2 = .message m) (hr : getValue m .roomId = rid)
    (hu : getValue m .sessID = u) :
    command m = some .roomCreated ∨ command m = some .fakeAnswer := by
  obtain ⟨⟨-, c, hc, hcross, -⟩, hne⟩ := hin.named m hm hr hu
  have hword := hnw m hm
  rw [word, if_pos ⟨hr, hu⟩, hc] at hword
  cases c with
  | roomCreated => exact .inl hc
  | fakeAnswer => exact .inr hc
  | fakeSubscribe => exact absurd hc hne
  | fakePublish | fakeUnpublish | fakeOffer => cases hword
  | _ => cases hcross

/-- The room and the seat stay. -/
theorem step_seats (hp : Away src rid u p) (hin : Abroad src rid u p a.2)
    (hnw : ∀ m, a.2 = .message m → word rid u m = none)
    (hmv : ¬TurnsRoom rid p a.2) (hs : Pod.step a p = some q) :
    q.rooms.lookup rid = p.rooms.lookup rid ∧
      q.seat rid u = p.seat rid u := by
  have hmid := (step_induction (P := fun t =>
    t.rooms.lookup rid = p.rooms.lookup rid ∧
      ∀ r, p.rooms.lookup rid = some r →
        (t.room r).sessions.lookup u = (p.room r).sessions.lookup u)
    hp.toInOrder hs ⟨rfl, fun _ _ => rfl⟩
    fun {b t t'} hb hsound hafter _ hm ht => ?_).1
  · refine ⟨hmid.1, ?_⟩
    unfold Pod.seat
    rw [hmid.1]
    cases hr : p.rooms.lookup rid with
    | none => rfl
    | some r => exact hmid.2 r hr
  have hcmd : ∀ {m r}, a.2 = .message m → Reaches p m r →
      p.rooms.lookup rid = some r → getValue m .sessID = u →
      command m = some .roomCreated ∨ command m = some .fakeAnswer :=
    fun hm hreach hr hu =>
      cmd_of_named hin hnw hm (hreach.roomId_eq hp.toPodOk hr) hu
  rw [hm.rooms hsound.toPodOk]
  simp only [hm.lookup hsound.toPodOk]
  cases hm with
  | opens rid' hfree =>
      obtain ⟨m, hm, hreg, hc, rfl, hnone⟩ := hb
      refine ⟨?_, fun r hr => ?_⟩
      · simp only [Act.rooms]
        rw [if_neg]
        · exact ht.1
        · rintro rfl
          exact hmv (.inr ⟨m, hm, hreg, hc, rfl, hnone⟩)
      · simp only [Act.lookup]
        rw [if_neg (Nat.ne_of_lt (Nat.lt_of_lt_of_le (hp.rooms rid r hr).2
          hafter.roomNext))]
        exact ht.2 r hr
  | closes rid' =>
      obtain ⟨i, hi, hg⟩ := hb
      refine ⟨?_, ht.2⟩
      simp only [Act.rooms]
      rw [if_neg]
      · exact ht.1
      · rintro rfl
        exact hmv (.inl ⟨i, hi, hg⟩)
  | seats r' u' y =>
      obtain ⟨m, hm, hreach, hc, rfl, -⟩ := hb
      refine ⟨ht.1, fun r hr => ?_⟩
      simp only [Act.lookup]
      rw [if_neg]
      · exact ht.2 r hr
      · rintro ⟨rfl, rfl⟩
        rcases hcmd hm hreach hr rfl with h | h
        · rw [h] at hc; rcases hc with hc | hc <;> cases hc
        · rw [h] at hc; rcases hc with hc | hc <;> cases hc
  | unseats r' u' =>
      refine ⟨ht.1, fun r hr => ?_⟩
      simp only [Act.lookup]
      rw [if_neg]
      · exact ht.2 r hr
      · rintro ⟨rfl, rfl⟩
        rcases hb with (⟨m, hm, hreach, hc, hu⟩ | ⟨i, hi, hg⟩) |
          ⟨m, hm, hreach, hu, hc⟩
        · rcases hcmd hm hreach hr hu with h | h
          · rw [h] at hc; cases hc
          · rw [h] at hc; cases hc
        · exact (hp.calm _ (List.mem_of_getElem? hg) _ _ rfl).2
            ⟨(hp.rooms rid _ hr).1, rfl⟩
        · rcases hcmd hm hreach hr hu.symm with h | h
          · rw [h] at hc; rcases hc with hc | hc | ⟨hc, -⟩ <;> cases hc
          · rw [h] at hc; rcases hc with hc | hc | ⟨hc, -⟩ <;> cases hc
  | vacates r' =>
      obtain ⟨i, rid', hi, hg, hr'⟩ := hb
      refine ⟨ht.1, fun r hr => ?_⟩
      simp only [Act.lookup]
      rw [if_neg]
      · exact ht.2 r hr
      · rintro rfl
        have hrid := (hp.rooms rid' _ hr').1.symm.trans (hp.rooms rid _ hr).1
        subst hrid
        exact hmv (.inl ⟨i, hi, hg⟩)
  | still | dies | sends | spawns | tells | unpush | leaves | withdraws
  | destroys | erases | clears | adds | offers | accepts | flags | announces
  | beats | takes => exact ht

end Away

theorem route_of_not_serves (h : ∀ c, command m = some c → c.serves = false) :
    route m = getValue m .sessID := by
  unfold route
  split
  · next hc => cases h _ hc
  · next hc => cases h _ hc
  · next hc => cases h _ hc
  · next hc => cases h _ hc
  · rfl

namespace Away

/-- The stand-in keeps its publishers. -/
theorem step_publishers (hp : Away src rid u p)
    (hin : Abroad src rid u p a.2)
    (hnw : ∀ m, a.2 = .message m → word rid u m = none)
    (hmv : ¬TurnsRoom rid p a.2) (hs : Pod.step a p = some q)
    (hseat : p.seat rid u = some s) :
    q.entry .publisher s k = p.entry .publisher s k := by
  obtain ⟨hu, hrid, hroom, -⟩ := hp.toSound.of_seat hseat
  by_cases hhit : Hits p a.2 s
  case neg => exact step_entry_kept hp.toInOrder hs hhit
  have hcalm : ∀ {i : Nat} {g : Goroutine} {r v}, p.pending[i]? = some g →
      g.ousts = some (r, v) → (p.room r).sessions.lookup v ≠ some s := by
    intro i g r v hg ho hlook
    obtain ⟨huid, hpar, -⟩ := hp.sessions r v s hlook
    refine (hp.calm g (List.mem_of_getElem? hg) r v ho).2 ⟨?_, ?_⟩
    · rw [← hpar]; exact hrid
    · rw [← huid]; exact hu
  rcases hhit with ⟨m, r, hm, hreach, hlook⟩ | ⟨i, g, hi, hg, hhits⟩
  · by_cases hserves : ∃ c, command m = some c ∧ c.serves = true
    · obtain ⟨c, hc, hserves⟩ := hserves
      exact (step_samePubs hs hm hc hserves).entry s k
    · obtain ⟨huid, hpar, -⟩ := hp.sessions r _ s hlook
      rw [route_of_not_serves fun c hc => by
        simpa using fun h => hserves ⟨c, hc, h⟩] at huid
      have hrm := hreach.roomId_eq hp.toPodOk (hpar ▸ hroom)
      rcases cmd_of_named hin hnw hm hrm (huid.symm.trans hu) with hc | hc
      · exact (step_created src hs hm hc).1.samePubs.entry s k
      · exact absurd ⟨_, hc, rfl⟩ hserves
  · cases g with
    | releaseRoom rid' =>
        obtain ⟨r, v, hr, hlook⟩ := hhits
        have hname := (hp.rooms rid' r hr).1
        rw [← (hp.sessions r v s hlook).2.1, hrid] at hname
        subst hname
        exact absurd (.inl ⟨i, hi, hg⟩) hmv
    | kickoutFromRoom r v => exact absurd hhits (hcalm hg rfl)
    | onPublisherPeerFailed r v l c => exact absurd hhits (hcalm hg rfl)
    | onPublisherPeerClosed r v l c => exact absurd hhits (hcalm hg rfl)
    | onSubscriberPeerFailed | onSubscriberPeerClosed | handleSubscriberLeaved
    | releaseSubscriberPeer =>
        exact (step_serves_go hs hi hg rfl).entry s k
    | checkKeepAlive | onPublisherReady | fakePublisherReConnect
    | requestKeyframe => exact hhits.elim

theorem step_sink (hp : Away src rid u p) (hin : Abroad src rid u p a.2)
    (hnw : ∀ m, a.2 = .message m → word rid u m = none)
    (hmv : ¬TurnsRoom rid p a.2) (hs : Pod.step a p = some q) :
    q.sink rid u = p.sink rid u := by
  obtain ⟨hrooms, hseat⟩ := hp.step_seats hin hnw hmv hs
  have hcopy : q.copy rid u = p.copy rid u := by
    unfold Pod.copy
    rw [hseat]
    cases hs' : p.seat rid u with
    | none => rfl
    | some s =>
        simp only [Option.map_some,
          hp.step_publishers hin hnw hmv hs hs']
  rw [Pod.sink, Pod.sink, hrooms, hcopy]

end Away

/-! ## Closing and opening the room -/

theorem Path.sent {A : Act → Prop} (h : Path A p q) (hp : PodOk p) :
    ∃ ms, Sent pod p q ms :=
  h.invariant (P := fun t => ∃ ms, Sent pod p t ms) hp ⟨[], .of_log rfl⟩
    fun _ hok hf hm ⟨_, hms⟩ => ⟨_, hms.trans (hm.sent hok hf)⟩

/-- The room that a login opens is made known to the other pods first. -/
theorem mgrLogin_sent {env : Env} (hp : Ready p) (hf : p.fatal = false)
    (hc : command m = some .login)
    (hnone : p.rooms.lookup (getValue m .roomId) = none) :
    ∃ msg ms, Sent pod p (p.mgrLogin env m) (msg :: ms) ∧
      command msg = some .roomCreated ∧
      getValue msg .roomId = getValue m .roomId ∧
      getValue msg .sessID = getValue m .sessID := by
  have hfatal : (p.insertRoom (getValue m .roomId)).getSn.fatal = false := by
    simp [Pod.insertRoom, Pod.unlock, Pod.lock, Pod.storeRoom, Pod.allocRoom,
      Pod.getSn, hf]
  obtain ⟨msg, hopen, hmsg⟩ : ∃ msg, Sent pod p (p.opened env m) [msg] ∧
      command msg = some .roomCreated ∧
      getValue msg .roomId = getValue m .roomId ∧
      getValue msg .sessID = getValue m .sessID := by
    rw [Pod.opened, if_pos hnone]
    exact ⟨_, ((insertRoom_sent _ p).trans (Pod.getSn_still _).sent).trans
      (emit_sent hfatal _), command_cons _ _, rfl, rfl⟩
  have hread : Still (p.opened env m)
      (((p.opened env m).rlock .rooms).runlock .rooms) :=
    (Pod.rlock_still _ _).trans (Pod.runlock_still _ _)
  have hcalm : Calm (fun _ => True) p (p.opened env m) :=
    opened_calm (c := none) ⟨trivial, trivial, fun _ _ => trivial⟩
      fun _ => trivial
  obtain ⟨-, hf', hq⟩ := hcalm hp hf
  obtain ⟨ms, hms⟩ : ∃ ms, Sent pod (p.opened env m) (p.mgrLogin env m) ms := by
    rw [mgrLogin_eq hc]
    refine Path.sent ((Calm.still hread trivial).trans (handleLogin_calm
      (A := fun _ => True) (c := none)
      ⟨trivial, trivial, fun _ _ => trivial⟩
      (fun _ _ => ⟨fun _ => trivial, fun _ _ => trivial, fun _ => trivial⟩)
      trivial trivial (fun _ _ _ => trivial) ?_) hq hf').1 hq.toPodOk
    rw [hread.rooms, hread.room, (hq.rooms _ _ (opened_rooms env m p)).1]
    exact opened_rooms env m p
  exact ⟨msg, ms, hopen.trans hms, hmsg⟩

namespace Away

/-- A login that opens the room asks for its streams, and the user has no seat
there. -/
theorem step_opens (hp : Away src rid u p) (hin : Abroad src rid u p a.2)
    (hs : Pod.step a p = some q) (hm : a.2 = .message m)
    (hreg : p.regist = true) (hc : command m = some .login)
    (hrid : getValue m .roomId = rid) (hnone : p.rooms.lookup rid = none) :
    q.sink rid u = some none ∧
      .opened ∈ (sentTo pod p q).filterMap (request rid u) := by
  have hu : getValue m .sessID ≠ u := by
    intro hu
    obtain ⟨⟨-, c, hcmd, hcross, -⟩, -⟩ := hin.named m hm hrid hu
    rw [hc] at hcmd
    cases hcmd
    cases hcross
  constructor
  · obtain ⟨r, hr, -⟩ := seat_eq_some.mp (step_login hs
      ⟨m, hm, hreg, hc, hrid, rfl⟩).1
    have hfree := (step_induction (P := fun t => ∀ r,
      t.rooms.lookup rid = some r → (t.room r).sessions.lookup u = none)
      hp.toInOrder hs (fun r hr => by rw [hnone] at hr; cases hr)
      fun {b t t'} hb hsound _ _ hmove ht r hr => ?_).1 r hr
    · rw [Pod.sink, hr, Pod.copy, Pod.seat, hr, Option.bind_some, hfree]
      rfl
    rw [hmove.rooms hsound.toPodOk] at hr
    rw [hmove.lookup hsound.toPodOk]
    cases hmove with
    | seats r' u' y =>
        obtain ⟨m', hm', -, -, rfl, -⟩ := hb
        rw [hm] at hm'
        cases hm'
        simp only [Act.lookup]
        rw [if_neg fun h => hu h.2.symm]
        exact ht r hr
    | unseats | vacates =>
        simp only [Act.lookup]
        split
        · rfl
        · exact ht r hr
    | opens rid' =>
        simp only [Act.lookup]
        split
        · rfl
        · next hne =>
            simp only [Act.rooms] at hr
            split at hr
            · cases hr
              exact absurd rfl hne
            · exact ht r hr
    | closes rid' =>
        simp only [Act.rooms] at hr
        split at hr
        · cases hr
        · exact ht r hr
    | still | dies | sends | spawns | tells | unpush | leaves | withdraws
    | destroys | erases | clears | adds | offers | accepts | flags | announces
    | beats | takes => exact ht r hr
  · have hf := step_fatal hs
    obtain rfl := step_message hs hm
    simp only [Pod.mgrHandleMessage, hc, hreg, if_true]
    obtain ⟨msg, ms, hsent, hcmd, hroom, hsid⟩ :=
      mgrLogin_sent hp.ready hf hc (hrid ▸ hnone)
    rw [hsent.sentTo]
    refine List.mem_filterMap.mpr ⟨msg, List.mem_cons_self, ?_⟩
    rw [request, if_pos (hroom.trans hrid), hcmd]
    exact if_neg fun h => hu (hsid.symm.trans h)

/-- What the pod does by itself. -/
theorem turns (hp : Away src rid u p) (hin : Abroad src rid u p a.2)
    (hnw : ∀ m, a.2 = .message m → word rid u m = none)
    (hs : Pod.step a p = some q) :
    Mirror.Turns (.releaseRoom rid ∈ p.pending) (p.sink rid u)
      ((sentTo pod p q).filterMap (request rid u)) (q.sink rid u)
      (.releaseRoom rid ∈ q.pending) := by
  by_cases hmv : TurnsRoom rid p a.2
  · rcases hmv with ⟨i, hi, hg⟩ | ⟨m, hm, hreg, hc, hrid, hnone⟩
    · have hnone := step_released hs hi hg
      rw [show q.sink rid u = none by rw [Pod.sink, hnone]; rfl]
      exact .close
    · obtain ⟨hsink, hopened⟩ := hp.step_opens hin hs hm hreg hc hrid hnone
      rw [show p.sink rid u = none by rw [Pod.sink, hnone]; rfl, hsink]
      exact .opens (message_pending hp.toInOrder hs hm (.releaseRoom rid))
        hopened
  · rw [hp.step_sink hin hnw hmv hs]
    refine .still fun h => step_pending hp.toInOrder hs h fun hcall => hmv ?_
    cases ha : a.2 with
    | go i => rw [ha] at hcall; exact .inl ⟨i, rfl, hcall⟩
    | _ => rw [ha] at hcall; cases hcall

end Away

/-! ## Words that arrive -/

/-- The message asks for the stream `pid` of user `sid`. -/
def Asking (rid sid pid : String) (msg : JsonParser) : Prop :=
  command msg = some .fakeSubscribe ∧ getValue msg .roomId = rid ∧
    getValue msg .sessID = sid ∧ getValue msg .peerID = pid

theorem fakeSubscribe_sent (s : SessRef) (sid pid : String) (n : Nat)
    (hf : p.fatal = false) :
    ∃ msg, Asking (p.room (p.sess s).parent).roomid sid pid msg ∧
      Sent (p.sess s).podid p (p.fakeSubscribe s sid pid n) [msg] := by
  have hemit : ∀ msg, Sent (p.sess s).podid p
      (p.emit (.toCrossClusterPod (p.sess s).podid msg)) [msg] := by
    intro msg
    have h : Sent (p.sess s).podid p (p.emit (.toCrossClusterPod
      (p.sess s).podid msg)) _ := toCross_sent hf msg
    rwa [if_pos rfl] at h
  refine ⟨_, ?_, (hemit _).trans (.of_log rfl)⟩
  exact ⟨command_cons _ _, rfl, rfl, rfl⟩

/-- A `fakepublish` is refused if nobody is logged in; else the user gets a
new stand-in, which asks for the stream. -/
theorem handleFakePublish_cases (env : Env) (r : RoomRef) (hp : Ready p)
    (hf : p.fatal = false) (hc : command m = some .fakePublish) :
    (p.handleFakePublish env r m).rooms = p.rooms ∧
    (((p.handleFakePublish env r m).room r).sessions.lookup
        (getValue m .sessID) = none ∧
      .releaseRoom (p.room r).roomid ∈
        (p.handleFakePublish env r m).pending ∨
    ((p.handleFakePublish env r m).room r).sessions.lookup
        (getValue m .sessID) = some p.sessHeap.next ∧
      ∃ ms msg, Sent (getValue m .podId) p (p.handleFakePublish env r m)
          (ms ++ [msg]) ∧
        Asking (p.room r).roomid (getValue m .sessID) (getValue m .peerID)
          msg) := by
  have he := p.dropIfPresent_edits r (getValue m .sessID)
  have hfree := p.dropIfPresent_lookup_self r (getValue m .sessID)
  obtain ⟨hpath, hf₁, -⟩ := dropIfPresent_calm (A := fun _ => True) (p := p)
    (r := r) (u := getValue m .sessID) (c := none)
    ⟨trivial, trivial, fun _ _ => trivial⟩
    (fun _ _ => ⟨fun _ => trivial, fun _ _ => trivial, fun _ => trivial⟩)
    trivial hp hf
  obtain ⟨ms, hms⟩ : ∃ ms, Sent (getValue m .podId) p _ ms :=
    hpath.sent hp.toPodOk
  unfold Pod.handleFakePublish
  dsimp only
  generalize (if (p.room r).sessions.lookup (getValue m .sessID) = none then p
    else p.dropSession r (getValue m .sessID)) = p₁ at he hfree hf₁ hms ⊢
  have hread : Still p₁ ((p₁.rlock (.sessions r)).runlock (.sessions r)) :=
    (p₁.rlock_still _).trans (Pod.runlock_still _ _)
  generalize (p₁.rlock (.sessions r)).runlock (.sessions r) = p₂ at hread ⊢
  split
  · simp only [Pod.sessionHandleMessage, hc]
    generalize ht : Session.setFakeSession _ _ _ = t
    have hsess : (p₂.insertSession r (getValue m .sessID) t).sess
        p₂.sessHeap.next = t := by
      rw [Pod.insertSession_sess, if_pos rfl]
    have hquiet := Pod.fakeSubscribe_quiet p₂.sessHeap.next
      (getValue m .sessID) (getValue m .peerID) clusterReconnectionMaxtimes
      (p₂.insertSession r (getValue m .sessID) t)
    have hf₃ : (p₂.insertSession r (getValue m .sessID) t).fatal = false := by
      rw [insertSession_fatal, hread.fatal]
      exact hf₁
    obtain ⟨msg, hask, hsent⟩ := fakeSubscribe_sent p₂.sessHeap.next
      (getValue m .sessID) (getValue m .peerID) clusterReconnectionMaxtimes hf₃
    have hroom : ((p₂.insertSession r (getValue m .sessID) t).room
        t.parent).roomid = (p.room r).roomid := by
      rw [show t.parent = r by rw [← ht]; rfl, Pod.insertSession_room,
        if_pos rfl]
      exact (congrArg (·.roomid) (hread.room r)).trans he.roomid
    rw [hsess, hroom] at hask
    rw [hsess, show t.podid = getValue m .podId by rw [← ht]; rfl] at hsent
    refine ⟨?_, .inr ⟨?_, ms, msg, ?_, hask⟩⟩
    · rw [hquiet.rooms, Pod.insertSession_rooms, hread.rooms, he.rooms]
    · rw [hquiet.room, Pod.insertSession_lookup, if_pos ⟨rfl, rfl⟩,
        hread.sessNext, he.sessNext]
    · exact ((hms.trans_nil hread.sent).trans_nil
        (insertSession_sent _ _ _ _)).trans hsent
  · refine ⟨?_, .inl ⟨?_, ?_⟩⟩
    · exact hread.rooms.trans he.rooms
    · refine (congrArg (fun t => Room.sessions t |>.lookup _)
        (hread.room r)).trans hfree
    · rw [← he.roomid, ← hread.room]
      exact List.mem_append_right _ (List.mem_singleton.mpr rfl)

/-- A `fakeunpublish` of the pod that the stand-in is for takes it out. -/
theorem handleFakeUnpublish_gone (h : ∀ s,
      (p.room r).sessions.lookup (getValue m .sessID) = some s →
      (p.sess s).podid = getValue m .podId) :
    ((p.handleFakeUnpublish r m).room r).sessions.lookup
      (getValue m .sessID) = none := by
  have hroom : (p.lock (.sessions r)).room r = p.room r := Pod.emit_room
  unfold Pod.handleFakeUnpublish
  dsimp only
  rw [Pod.unlock, Pod.emit_room, hroom]
  cases hs : (p.room r).sessions.lookup (getValue m .sessID) with
  | none =>
      dsimp only
      rw [hroom]
      exact hs
  | some s =>
      have hsess : (p.lock (.sessions r)).sess s = p.sess s := Pod.emit_sess
      dsimp only
      rw [hsess, if_pos (h s hs), eraseSession_lookup, if_pos ⟨rfl, rfl⟩]

theorem publish_entry {p₁ : Pod} {isFake : Bool} {l : String} (hp : PodOk p)
    (hrem : Removes {x | p.entry .publisher s k = some x} p p₁)
    (hlt : s < p.sessHeap.next) (sid : String) :
    (p₁.insertPublisher s k (createPublishPeer s sid k isFake)).entry
        .publisher s l ≠ none ↔
      l = k ∨ p.entry .publisher s l ≠ none := by
  have hins : Inserts s _ p₁ (p₁.insertPublisher s k
      (createPublishPeer s sid k isFake)) :=
    Pod.insertPublisher_inserts (by rw [hrem.sessNext]; exact hlt) rfl rfl rfl
      hrem.free
  rw [hins.entry .publisher s l]
  by_cases hl : l = k
  · rw [if_pos ⟨rfl, rfl, hl⟩]
    simp [hl]
  · rw [if_neg fun h => hl h.2.2, Option.ne_none_iff_exists',
      Option.ne_none_iff_exists']
    simp only [hl, false_or]
    refine exists_congr fun x => ?_
    rw [hrem.entry]
    refine and_iff_left_of_imp fun hx hk => hl ?_
    have hkey := (hp.placed _ _ _ _ hx).2.2.2.2
    rw [(hp.placed _ _ _ _ hk).2.2.2.2] at hkey
    exact hkey.symm

/-- A `fakeoffer` adds its stream. -/
theorem handleFakeOfferMsg_entry {env : Env} {l : String} (hp : PodOk p)
    (hok : env.createOk = true) (hlt : s < p.sessHeap.next) :
    (p.handleFakeOfferMsg env s m).entry .publisher s l ≠ none ↔
      l = getValue m .peerID ∨ p.entry .publisher s l ≠ none := by
  unfold Pod.handleFakeOfferMsg
  dsimp only
  rw [if_pos hok, (Pod.peerHandleMessage_quiet env _ m _).entry]
  exact publish_entry hp (retirePublisher_removes hp.placed s _) hlt _

theorem sink_of_room (hr : p.rooms.lookup rid = some r) :
    p.sink rid u = some (p.copy rid u) := by
  rw [Pod.sink, hr]
  rfl

theorem sink_of_no_room (hr : p.rooms.lookup rid = none) :
    p.sink rid u = none := by
  rw [Pod.sink, hr]
  rfl

namespace Away

section Hears

variable (hp : Away src rid u p) (hs : Pod.step a p = some q)
variable (hm : a.2 = .message m) (hreg : p.regist = true)
variable (hrid : getValue m .roomId = rid) (hu : getValue m .sessID = u)
include hp hs hm hreg hrid hu

theorem hears_announce (hc : command m = some .fakePublish)
    (hpod : getValue m .podId = src) (hne : src ≠ p.conf.uuid) :
    Mirror.Hears (.releaseRoom rid ∈ p.pending)
      (.announce (getValue m .peerID)) (p.sink rid u)
      ((sentTo src p q).filterMap (request rid u)) (q.sink rid u)
      (.releaseRoom rid ∈ q.pending) := by
  have hstep := step_announced hs hm (.inl hc) hreg (hpod ▸ hne)
  rw [hrid] at hstep
  cases hr : p.rooms.lookup rid with
  | none =>
      rw [hr] at hstep
      subst hstep
      rw [sink_of_no_room hr]
      exact .deaf
  | some r =>
      have hname := (hp.rooms rid r hr).1
      have hwithin := step_within hp.toInOrder hs
      have hpend := message_pending hp.toInOrder hs hm (.releaseRoom rid)
      rw [hr] at hstep
      simp only [Pod.roomHandleMessage, hc] at hstep
      obtain ⟨hrooms, hcases⟩ := handleFakePublish_cases a.1 r hp.ready
        (step_fatal hs) hc
      rw [← hstep, hu, hname, hpod] at hcases
      rw [← hstep] at hrooms
      have hr' : q.rooms.lookup rid = some r := by rw [hrooms]; exact hr
      rw [sink_of_room hr, sink_of_room hr']
      rcases hcases with ⟨hnone, hclosing⟩ | ⟨hseat, ms, msg, hsent, hask⟩
      · rw [show q.copy rid u = none by
          rw [Pod.copy, Pod.seat, hr', Option.bind_some, hnone]; rfl]
        exact .refuse hclosing
      · have hempty : ∀ l, q.entry .publisher p.sessHeap.next l = none := by
          intro l
          refine Option.eq_none_iff_forall_ne_some.mpr fun x hx => ?_
          rcases hwithin _ _ _ hx with hx | ⟨m', hm', hstore, -⟩
          · exact Nat.lt_irrefl _ (hp.placed _ _ _ _ hx).2.1
          · rw [hm] at hm'
            cases hm'
            rw [hc] at hstore
            rcases hstore with h | h <;> cases h
        rw [show q.copy rid u = some ∅ by
          rw [Pod.copy, seat_eq_some.mpr ⟨r, hr', hseat⟩]
          simp [hempty]]
        refine .takes hpend fun k hk => ?_
        cases hk
        obtain ⟨hcmd, hroom, hsid, hpid⟩ := hask
        rw [hsent.sentTo]
        refine List.mem_filterMap.mpr ⟨msg, by simp, ?_⟩
        simp only [request, hroom, hcmd, hsid, hpid, if_true]

theorem hears_withdraw (hc : command m = some .fakeUnpublish)
    (hpod : getValue m .podId = src) (hne : src ≠ p.conf.uuid) :
    Mirror.Hears (.releaseRoom rid ∈ p.pending) .withdraw (p.sink rid u)
      ((sentTo src p q).filterMap (request rid u)) (q.sink rid u)
      (.releaseRoom rid ∈ q.pending) := by
  have hstep := step_announced hs hm (.inr hc) hreg (hpod ▸ hne)
  rw [hrid] at hstep
  cases hr : p.rooms.lookup rid with
  | none =>
      rw [hr] at hstep
      subst hstep
      rw [sink_of_no_room hr]
      exact .deaf
  | some r =>
      have hpend := message_pending hp.toInOrder hs hm (.releaseRoom rid)
      rw [hr] at hstep
      simp only [Pod.roomHandleMessage, hc] at hstep
      have hrooms := (p.handleFakeUnpublish_edits r m).rooms
      have hgone := handleFakeUnpublish_gone (p := p) (r := r) (m := m)
        fun s hlook => by
          obtain ⟨huid, hpar, hlt⟩ := hp.sessions r _ s hlook
          rw [(hp.guest s hlt ⟨?_, huid.trans hu⟩).2, hpod]
          rw [hpar]
          exact (hp.rooms rid r hr).1
      rw [← hstep] at hrooms hgone
      have hr' : q.rooms.lookup rid = some r := by rw [hrooms]; exact hr
      rw [sink_of_room hr, sink_of_room hr', show q.copy rid u = none by
        rw [Pod.copy, Pod.seat, hr', Option.bind_some, ← hu, hgone]; rfl]
      exact .takes hpend (by simp)

theorem hears_offer (hc : command m = some .fakeOffer)
    (hok : a.1.createOk = true) :
    Mirror.Hears (.releaseRoom rid ∈ p.pending)
      (.offer (getValue m .peerID)) (p.sink rid u)
      ((sentTo src p q).filterMap (request rid u)) (q.sink rid u)
      (.releaseRoom rid ∈ q.pending) := by
  have hroute : route m = u := by simp only [route, hc, hu]
  have hpend := message_pending hp.toInOrder hs hm (.releaseRoom rid)
  cases hseat : p.seat rid u with
  | none =>
      have hstill := step_unrouted hs hm hc rfl fun _ => by
        rw [hrid, hroute]; exact hseat
      rw [hstill.samePubs.sink]
      cases hr : p.rooms.lookup rid with
      | none => rw [sink_of_no_room hr]; exact .deaf
      | some r =>
          have hcopy : p.copy rid u = none := by rw [Pod.copy, hseat]; rfl
          rw [sink_of_room hr, hcopy]
          exact .takes hpend (by simp)
  | some s =>
      obtain ⟨-, -, hr, hlt⟩ := hp.toSound.of_seat hseat
      have hstep := step_routed hs hm hc rfl hreg (by
        rw [hrid, hroute]; exact hseat)
      simp only [Pod.sessionHandleMessage, hc] at hstep
      have hsame := p.handleFakeOfferMsg_sameStore a.1 s m
      have hentry := fun l => handleFakeOfferMsg_entry (l := l) (m := m)
        hp.toPodOk hok hlt
      rw [← hstep] at hsame hentry
      have hr' : q.rooms.lookup rid = some (p.sess s).parent := by
        rw [hsame.rooms]; exact hr
      have hseat' : q.seat rid u = some s := by
        rw [Pod.seat, hsame.rooms]
        simp only [hsame.room]
        exact hseat
      rw [sink_of_room hr, sink_of_room hr', show q.copy rid u =
        Mirror.hear (p.copy rid u) (.offer (getValue m .peerID)) by
          rw [Pod.copy, Pod.copy, hseat, hseat']
          exact congrArg some (Set.ext fun l => hentry l)]
      exact .takes hpend (by simp)

end Hears

/-- A word of the source. -/
theorem hears {w : Word String} (hp : Away src rid u p)
    (hs : Pod.step a p = some q) (hm : a.2 = .message m)
    (hw : word rid u m = some w) (hsp : Spoken src m)
    (hne : src ≠ p.conf.uuid) (hreg : p.regist = true)
    (hok : command m = some .fakeOffer → a.1.createOk = true) :
    Mirror.Hears (.releaseRoom rid ∈ p.pending) w (p.sink rid u)
      ((sentTo src p q).filterMap (request rid u)) (q.sink rid u)
      (.releaseRoom rid ∈ q.pending) := by
  unfold word at hw
  split at hw
  · next hname =>
      obtain ⟨hrid, hu⟩ := hname
      split at hw
      · next hc =>
          cases hw
          exact hp.hears_announce hs hm hreg hrid hu hc hsp.1 hne
      · next hc =>
          cases hw
          exact hp.hears_withdraw hs hm hreg hrid hu hc hsp.1 hne
      · next hc =>
          cases hw
          exact hp.hears_offer hs hm hreg hrid hu hc (hok hc)
      · cases hw
  · cases hw

end Away

end MediaServer.Ref
