import MediaServer.Proofs.MovesRoom

/-!
# What one input can do

`Foot p env a` are the moves that the input `a` can make on the pod `p`: for
each name of a move, what the input must be and which rooms, users, sessions
and peers of `p` it is about. `step_moves` says that a step is a sequence of
such moves. An invariant of the machine is then checked against single moves,
and only those that its input allows.

The pod in the footprint is the one before the input. A login may open its
room first, so the room of a message is named by `roomFor`.
-/

namespace MediaServer.Ref

open MediaServer.Lib Relation

variable {p q : Pod} {s : SessRef} {r : RoomRef} {u : String}
variable {env : Env} {m : JsonParser}

/-! ## The names of the parties -/

/-- The room of this id, or the one that a login would open for it. -/
def Pod.roomFor (p : Pod) (rid : String) : RoomRef :=
  (p.rooms.lookup rid).getD p.roomHeap.next

/-- The message is handed to room `r`. -/
structure Reaches (p : Pod) (m : JsonParser) (r : RoomRef) : Prop where
  regist : p.regist = true
  room : p.roomFor (getValue m .roomId) = r
  known : command m ≠ some .login →
    p.rooms.lookup (getValue m .roomId) = some r ∧ p.forwards m = true

/-- The session that a spawned call works on. -/
def Goroutine.Hits (p : Pod) (s : SessRef) : Goroutine → Prop
  | .releaseRoom rid => ∃ r u, p.rooms.lookup rid = some r ∧
      (p.room r).sessions.lookup u = some s
  | .kickoutFromRoom r u | .onPublisherPeerFailed r u _ _
  | .onPublisherPeerClosed r u _ _ | .onSubscriberPeerFailed r _ u _ _
  | .onSubscriberPeerClosed r _ u _ _ =>
      (p.room r).sessions.lookup u = some s
  | .handleSubscriberLeaved i _ | .releaseSubscriberPeer i _ _ _ _ => i = s
  | _ => False

/-- The sessions whose peers an input can take away. -/
def Hits (p : Pod) (a : Input) (s : SessRef) : Prop :=
  (∃ m r, a = .message m ∧ Reaches p m r ∧
    (p.room r).sessions.lookup (route m) = some s) ∨
  ∃ i g, a = .go i ∧ p.pending[i]? = some g ∧ g.Hits p s

/-- The input sends the user out: a logout, or the kick after a timeout. -/
def Kicks (p : Pod) (a : Input) (r : RoomRef) (u : String) : Prop :=
  (∃ m, a = .message m ∧ Reaches p m r ∧ command m = some .logout ∧
    getValue m .sessID = u) ∨
  ∃ i, a = .go i ∧ p.pending[i]? = some (.kickoutFromRoom r u)

/-- The calls that an input starts. -/
def Spawns (p : Pod) (env : Env) (a : Input) : Goroutine → Prop
  | .kickoutFromRoom r u => ∃ i s, a = .go i ∧
      p.pending[i]? = some (.checkKeepAlive s) ∧ (p.sess s).origin = true ∧
      env.now - (p.sess s).alivetime > 60 ∧ r = (p.sess s).parent ∧
      u = (p.sess s).userid
  | .handleSubscriberLeaved s u => ∃ r u', Kicks p a r u ∧
      (p.room r).sessions.lookup u' = some s
  | .onPublisherReady .. => False
  | _ => True

/-- A release of the publisher `pid` of user `u`. -/
def Goroutine.releases (r : RoomRef) (u pid : String) : Goroutine → Prop
  | .onPublisherPeerFailed r' u' pid' _ | .onPublisherPeerClosed r' u' pid' _ =>
      r' = r ∧ u' = u ∧ pid' = pid
  | _ => False

/-- The moves that an input can make. -/
def Foot (p : Pod) (env : Env) (a : Input) : Act → Prop
  | .still | .dies => True
  | .sends e => e.For (a.msg?.bind command)
  | .spawns g => Spawns p env a g
  | .tells topic r sid name pid =>
      (∃ m, a = .message m ∧ Reaches p m r ∧ command m = some .login ∧
        topic = getValue m .sessID) ∨
      ∃ i u s, a = .go i ∧ p.pending[i]? = some (.onPublisherReady r sid name
        pid) ∧ (p.room r).sessions.lookup u = some s ∧
        (p.sess s).origin = true ∧ topic = (p.sess s).userid
  | .unpush s pid => ∃ i g r u, a = .go i ∧ p.pending[i]? = some g ∧
      g.releases r u pid ∧ (p.room r).sessions.lookup u = some s
  | .leaves r u => Kicks p a r u ∧ ∃ s,
      (p.room r).sessions.lookup u = some s ∧ (p.sess s).origin = true
  | .withdraws _ _ x => a = .ice x .disconnected
  | .destroys s _ | .erases _ s _ | .clears _ s => Hits p a s
  | .adds s t => ∃ m r, a = .message m ∧ Reaches p m r ∧ RoomAdds p r m s t
  | .offers x => x = p.peerHeap.next ∧ ∃ m r, a = .message m ∧
      Reaches p m r ∧
      (command m = some .sub ∨ command m = some .fakeSubscribe)
  | .accepts y => ∃ m r s, a = .message m ∧ Reaches p m r ∧
      (p.room r).sessions.lookup (route m) = some s ∧ Accepts p s m y
  | .flags x st => a = .ice x st
  | .announces x => a = .ice x .connected
  | .beats s now => ∃ m r, a = .message m ∧ Reaches p m r ∧
      command m = some .heartbeat ∧
      (p.room r).sessions.lookup (route m) = some s ∧ now = env.now
  | .seats r u t => ∃ m, a = .message m ∧ Reaches p m r ∧
      (command m = some .login ∨ command m = some .fakePublish) ∧
      u = getValue m .sessID ∧ t = newSession env r m
  | .unseats r u => Kicks p a r u ∨
      ∃ m, a = .message m ∧ Reaches p m r ∧ u = getValue m .sessID ∧
        (command m = some .login ∨ command m = some .fakePublish ∨
          command m = some .fakeUnpublish ∧ ∃ s,
            (p.room r).sessions.lookup u = some s ∧
            (p.sess s).podid = getValue m .podId)
  | .vacates r => ∃ i rid, a = .go i ∧
      p.pending[i]? = some (.releaseRoom rid) ∧ p.rooms.lookup rid = some r
  | .closes rid => ∃ i, a = .go i ∧ p.pending[i]? = some (.releaseRoom rid)
  | .opens rid => ∃ m, a = .message m ∧ p.regist = true ∧
      command m = some .login ∧ rid = getValue m .roomId ∧
      p.rooms.lookup rid = none
  | .takes i => a = .go i

variable {a : Input}

theorem Foot.base : Base (Foot p env a) (a.msg?.bind command) :=
  ⟨trivial, trivial, fun _ h => h⟩

theorem Foot.touch (h : Hits p a s) : Touch (Foot p env a) s :=
  ⟨fun _ => h, fun _ _ => h, fun _ => h⟩

/-! ## Messages -/

/-- Whatever a message does to the session it is for, the input may do. -/
theorem Foot.of_sess (hr : Reaches p m r)
    (hs : (p.room r).sessions.lookup (route m) = some s) (b : Act)
    (h : SessFoot p env s m b) : Foot p env (.message m) b := by
  have hhit : Hits p (.message m) s := .inl ⟨m, r, rfl, hr, hs⟩
  cases b with
  | still | dies => trivial
  | sends => exact h
  | spawns g =>
      obtain ⟨-, y, -, rfl⟩ := h
      trivial
  | destroys i x => cases h; exact hhit
  | erases role i k => cases h; exact hhit
  | clears role i => cases h; exact hhit
  | adds i t =>
      obtain ⟨rfl, h⟩ := h
      exact ⟨m, r, rfl, hr, hs, h⟩
  | offers x => exact ⟨h.1, m, r, rfl, hr, h.2⟩
  | accepts y => exact ⟨m, r, s, rfl, hr, hs, h⟩
  | beats i now =>
      obtain ⟨rfl, hc, hnow⟩ := h
      exact ⟨m, r, rfl, hr, hc, hs, hnow⟩
  | tells | unpush | leaves | withdraws | flags | announces | seats | unseats
  | vacates | opens | closes | takes => cases h

theorem toSession_ends {notFound : Pod → Pod} (hr : Reaches p m r)
    (hu : u = route m) (hn : ∀ p, Still p (notFound p)) :
    Ends (Foot p env (.message m)) p (p.toSession env r u m notFound) := by
  subst hu
  unfold Pod.toSession
  split
  · next s hs =>
      intro hp hf
      exact (sessionHandleMessage_ends ⟨r, _, hs⟩ hp hf).mono
        (Foot.of_sess hr hs)
  · exact (Calm.still (hn p) trivial).ends

/-- A candidate is for the peers, which do not get it. -/
theorem candidate_ends {notFound : Pod → Pod}
    (hc : command m = some .candidate) (hn : ∀ p, Still p (notFound p)) :
    Ends (Foot p env (.message m)) p (p.toSession env r u m notFound) := by
  unfold Pod.toSession
  split
  · simp only [Pod.sessionHandleMessage, hc]
    exact (Calm.refl p).ends
  · exact (Calm.still (hn p) trivial).ends

theorem roomHandleMessage_ends (hr : Reaches p m r)
    (hreg : p.rooms.lookup (p.room r).roomid = some r) :
    Ends (Foot p env (.message m)) p (p.roomHandleMessage env r m) := by
  have hhit : ∀ s, (p.room r).sessions.lookup (route m) = some s →
      Touch (Foot p env (.message m)) s :=
    fun s hs => Foot.touch (.inl ⟨m, r, rfl, hr, hs⟩)
  unfold Pod.roomHandleMessage
  dsimp only
  split
  case h_1 hc =>
      have hroute : route m = getValue m .sessID := by simp only [route, hc]
      rw [hroute] at hhit
      refine (handleLogin_calm Foot.base hhit
        (.inr ⟨m, rfl, hr, rfl, .inl hc⟩) ⟨m, rfl, hr, .inl hc, rfl, ?_⟩
        (fun _ _ _ => .inl ⟨m, rfl, hr, hc, rfl⟩) hreg).ends
      simp only [newSession, hc, if_true]
  case h_6 hc =>
      have hroute : route m = getValue m .sessID := by simp only [route, hc]
      rw [hroute] at hhit
      have hk : Kicks p (.message m) r (getValue m .sessID) :=
        .inl ⟨m, rfl, hr, hc, rfl⟩
      exact (kickoutFromRoom_calm Foot.base hhit (.inl hk)
        (fun s hs ho => ⟨hk, s, hs, ho⟩) (fun u' s hs => ⟨r, u', hk, hs⟩)
        trivial).ends
  case h_10 hc => exact candidate_ends hc Still.refl
  case h_11 hc => exact (answerRoomCreated_calm Foot.base hc p).ends
  case h_12 hc =>
      have hroute : route m = getValue m .sessID := by simp only [route, hc]
      rw [hroute] at hhit
      refine (handleFakePublish_calm Foot.base hc hhit
        (.inr ⟨m, rfl, hr, rfl, .inr (.inl hc)⟩)
        ⟨m, rfl, hr, .inr hc, rfl, ?_⟩ trivial hreg).ends
      simp only [newSession, hc]
      rfl
  case h_13 hc =>
      have hroute : route m = getValue m .sessID := by simp only [route, hc]
      rw [hroute] at hhit
      exact (handleFakeUnpublish_calm Foot.base hhit fun s hs hpod =>
        .inr ⟨m, rfl, hr, rfl, .inr (.inr ⟨hc, s, hs, hpod⟩)⟩).ends
  case h_18 => exact (Calm.refl p).ends
  all_goals rename_i hc
  all_goals refine toSession_ends hr (by simp only [route, hc]) fun p => ?_
  all_goals first
    | exact p.emit_still rfl
    | exact .refl p

/-! ## The manager -/

theorem insertRoom_calm {A : Act → Prop} {rid : String} (hA : A (.opens rid))
    (hfree : p.rooms.lookup rid = none) : Calm A p (p.insertRoom rid) :=
  .micro (G := fun _ => False) (I := fun _ _ => False)
    (fun _ => .opens rid hfree) (fun _ => .openRoom rid) hA
    (by simp [Pod.insertRoom, Pod.unlock, Pod.lock, Pod.storeRoom,
      Pod.allocRoom])

theorem broadcastRoomCreated_calm {A : Act → Prop} {c : Option Cmd}
    (hb : Base A c) (p : Pod) :
    Calm A p (p.broadcastRoomCreated env m) := by
  refine (Calm.still p.getSn_still hb.still).trans (.sends _
    ⟨⟨rfl, _, command_cons _ _, rfl, by simp⟩, command_cons _ _⟩
    (hb.sends _ ?_))
  simp [Event.For, Event.cmd, command_cons]

/-- The pod in which a login finds its room. -/
def Pod.opened (env : Env) (m : JsonParser) (p : Pod) : Pod :=
  if p.rooms.lookup (getValue m .roomId) = none then
    (p.insertRoom (getValue m .roomId)).broadcastRoomCreated env m
  else p

theorem opened_calm {A : Act → Prop} {c : Option Cmd} (hb : Base A c)
    (hA : p.rooms.lookup (getValue m .roomId) = none →
      A (.opens (getValue m .roomId))) : Calm A p (p.opened env m) := by
  unfold Pod.opened
  split
  · next h =>
      exact (insertRoom_calm (hA h) h).trans (broadcastRoomCreated_calm hb _)
  · exact .refl p

theorem opened_sessHeap : (p.opened env m).sessHeap = p.sessHeap := by
  unfold Pod.opened
  split
  · rw [Pod.broadcastRoomCreated, Pod.emit_sessHeap]
    exact insertRoom_sessHeap _ p
  · rfl

theorem opened_rooms (env : Env) (m : JsonParser) (p : Pod) :
    (p.opened env m).rooms.lookup (getValue m .roomId) =
      some (p.roomFor (getValue m .roomId)) := by
  unfold Pod.opened Pod.roomFor
  cases hr : p.rooms.lookup (getValue m .roomId) with
  | none =>
      rw [if_pos rfl, Pod.broadcastRoomCreated, Pod.emit_rooms]
      change (p.insertRoom _).rooms.lookup _ = _
      rw [insertRoom_rooms, GoMap.lookup_insert_eq, if_pos rfl]
      rfl
  | some r =>
      rw [if_neg nofun, hr]
      rfl

/-- The room was there before, or it is new and empty. -/
theorem opened_seat
    (hs : ((p.opened env m).room
      (p.roomFor (getValue m .roomId))).sessions.lookup u = some s) :
    (p.room (p.roomFor (getValue m .roomId))).sessions.lookup u = some s := by
  unfold Pod.opened at hs
  split at hs
  · next hr =>
      have hfor : p.roomFor (getValue m .roomId) = p.roomHeap.next := by
        rw [Pod.roomFor, hr]; rfl
      rw [hfor, Pod.broadcastRoomCreated, Pod.emit_room] at hs
      change ((p.insertRoom _).room _).sessions.lookup u = some s at hs
      rw [insertRoom_room, if_pos rfl] at hs
      cases hs
  · exact hs

/-- A login is handled by the room that it found or opened. -/
theorem mgrLogin_eq (hc : command m = some .login) :
    p.mgrLogin env m =
      (((p.opened env m).rlock .rooms).runlock .rooms).handleLogin env
        (p.roomFor (getValue m .roomId)) m := by
  have hread : Still (p.opened env m)
      (((p.opened env m).rlock .rooms).runlock .rooms) :=
    (Pod.rlock_still _ _).trans (Pod.runlock_still _ _)
  have hrooms := (congrArg (AList.lookup _) hread.rooms).trans
    (opened_rooms env m p)
  unfold Pod.mgrLogin
  simp only [Pod.opened] at hrooms ⊢
  rw [hrooms]
  simp only [Pod.callRoom, Pod.roomHandleMessage, hc]

theorem mgrLogin_ends (hreg : p.regist = true)
    (hc : command m = some .login) :
    Ends (Foot p env (.message m)) p (p.mgrLogin env m) := by
  have hroute : route m = getValue m .sessID := by simp only [route, hc]
  have hreach : Reaches p m (p.roomFor (getValue m .roomId)) :=
    ⟨hreg, rfl, fun h => absurd hc h⟩
  have hread : Still (p.opened env m)
      (((p.opened env m).rlock .rooms).runlock .rooms) :=
    (Pod.rlock_still _ _).trans (Pod.runlock_still _ _)
  have hopen : Calm (Foot p env (.message m)) p (p.opened env m) :=
    opened_calm Foot.base fun h => ⟨m, rfl, hreg, hc, rfl, h⟩
  rw [mgrLogin_eq hc]
  refine hopen.trans_ends (.of fun hq _ => ?_)
  refine (Calm.still hread trivial).trans_ends (handleLogin_calm Foot.base
    (fun s hs => Foot.touch (.inl ⟨m, _, rfl, hreach, ?_⟩))
    (.inr ⟨m, rfl, hreach, rfl, .inl hc⟩) ⟨m, rfl, hreach, .inl hc, rfl, ?_⟩
    (fun _ _ _ => .inl ⟨m, rfl, hreach, hc, rfl⟩) ?_).ends
  · rw [hread.room] at hs
    rw [hroute]
    exact opened_seat hs
  · simp only [newSession, hc, if_true]
  · rw [hread.rooms, hread.room, (hq.rooms _ _ (opened_rooms env m p)).1]
    exact opened_rooms env m p

theorem mgrForward_ends (hreg : p.regist = true) :
    Ends (Foot p env (.message m)) p (p.mgrForward env m) := by
  refine .of fun hp _ => ?_
  unfold Pod.mgrForward
  split
  · next hfwd =>
      split
      · next r hr =>
          refine roomHandleMessage_ends ⟨hreg, ?_, fun _ => ⟨hr, hfwd⟩⟩ ?_
          · rw [Pod.roomFor, hr]; rfl
          · rw [(hp.rooms _ r hr).1]; exact hr
      · exact (Calm.still (p.notFoundRoom_still m) trivial).ends
  · exact (Calm.refl p).ends

theorem handlePodRegist_ends {A : Act → Prop} {c : Option Cmd} (hb : Base A c) :
    Ends A p (p.handlePodRegist m) := by
  unfold Pod.handlePodRegist
  split
  · exact .throw p hb.dies
  · split
    · refine (Calm.still ?_ hb.still).ends
      exact { Still.refl p with }
    · exact (Calm.refl p).ends

theorem handlePodRegistNow_still (p : Pod) :
    Still p p.handlePodRegistNow := by
  unfold Pod.handlePodRegistNow
  split
  · exact { Still.refl p with }
  · exact .refl p

theorem mgrHandleMessage_ends (env : Env) (m : JsonParser) (p : Pod) :
    Ends (Foot p env (.message m)) p (p.mgrHandleMessage env m) := by
  unfold Pod.mgrHandleMessage
  split
  · exact handlePodRegist_ends Foot.base
  · exact (Calm.still (handlePodRegistNow_still p) trivial).ends
  · next hc =>
      split
      · next hreg => exact mgrLogin_ends hreg hc
      · exact (Calm.still (p.emit_still rfl) trivial).ends
  · split
    · next hreg => exact mgrForward_ends hreg
    · exact (Calm.still (p.emit_still rfl) trivial).ends

/-! ## Spawned calls -/

theorem runGoroutine_calm {i : Nat} {g : Goroutine}
    (hg : p.pending[i]? = some g) :
    Calm (Foot p env (.go i)) { p with pending := p.pending.eraseIdx i }
      (Pod.runGoroutine env g { p with pending := p.pending.eraseIdx i }) := by
  have hhit : ∀ s, g.Hits p s → Touch (Foot p env (.go i)) s :=
    fun s hs => Foot.touch (.inr ⟨i, g, rfl, hg, hs⟩)
  have hb : Base (Foot p env (.go i)) none := Foot.base
  have hpub : ∀ r u pid, g.releases r u pid →
      (∀ s, (p.room r).sessions.lookup u = some s → g.Hits p s) →
      Calm (Foot p env (.go i)) { p with pending := p.pending.eraseIdx i }
        (Pod.onPublisherPeerFailed env r u pid
          { p with pending := p.pending.eraseIdx i }) := by
    intro r u pid hrel hh
    unfold Pod.onPublisherPeerFailed
    split
    · next s hs =>
        exact releasePublisher_calm env hb (hhit s (hh s hs))
          ⟨i, g, r, u, rfl, hg, hrel, hs⟩ _
    · exact .refl _
  have hsub : ∀ r sid ssid pid,
      (∀ s, (p.room r).sessions.lookup ssid = some s → g.Hits p s) →
      Calm (Foot p env (.go i)) { p with pending := p.pending.eraseIdx i }
        (Pod.onSubscriberPeerFailed r sid ssid pid
          { p with pending := p.pending.eraseIdx i }) := by
    intro r sid ssid pid hh
    unfold Pod.onSubscriberPeerFailed
    split
    · next s hs => exact releaseSubscriberPeer_calm hb (hhit s (hh s hs)) _ _ _ _
    · exact .refl _
  cases g with
  | releaseRoom rid =>
      exact releaseRoom_calm hb (fun r u s hr hs => hhit s ⟨r, u, hr, hs⟩)
        (fun r hr => ⟨i, rid, rfl, hg, hr⟩) ⟨i, rfl, hg⟩
  | kickoutFromRoom r u =>
      have hk : Kicks p (.go i) r u := .inr ⟨i, rfl, hg⟩
      exact kickoutFromRoom_calm hb hhit (.inl hk)
        (fun s hs ho => ⟨hk, s, hs, ho⟩) (fun u' s hs => ⟨r, u', hk, hs⟩)
        trivial
  | checkKeepAlive s =>
      exact checkKeepAlive_calm fun ho hlate =>
        ⟨i, s, rfl, hg, ho, hlate, rfl, rfl⟩
  | handleSubscriberLeaved s sid =>
      exact handleSubscriberLeaved_calm hb (hhit s rfl) sid _
  | onPublisherReady r sid name pid =>
      exact onPublisherReady_calm fun u s hs ho =>
        .inr ⟨i, u, s, rfl, hg, hs, ho, rfl⟩
  | onPublisherPeerFailed r sid pid x =>
      exact hpub r sid pid ⟨rfl, rfl, rfl⟩ fun s hs => hs
  | onPublisherPeerClosed r sid pid x =>
      exact hpub r sid pid ⟨rfl, rfl, rfl⟩ fun s hs => hs
  | onSubscriberPeerFailed r sid ssid pid x =>
      exact hsub r sid ssid pid fun s hs => hs
  | onSubscriberPeerClosed r sid ssid pid x =>
      exact hsub r sid ssid pid fun s hs => hs
  | releaseSubscriberPeer s sid ssid pid x =>
      exact releaseSubscriberPeer_calm hb (hhit s rfl) sid ssid pid _
  | fakePublisherReConnect s sid pid n =>
      exact fakePublisherReConnect_calm hb sid pid n _
  | requestKeyframe x => exact .refl _

/-! ## The machine -/

/-- What the callback of a peer does, the input may do. -/
theorem Foot.of_ice {x : PeerRef} {st : IceState} (b : Act)
    (h : IceFoot p x st b) : Foot p env (.ice x st) b := by
  cases b with
  | still | dies => trivial
  | sends => exact h
  | spawns g =>
      rcases h with h | ⟨y, rfl⟩
      · unfold Pod.ReleaseFor at h
        dsimp only at h
        split at h
        · rcases h with rfl | rfl <;> trivial
        · rcases h with rfl | rfl <;> trivial
      · trivial
  | withdraws i k y =>
      obtain ⟨rfl, rfl⟩ := h
      rfl
  | flags y st' =>
      obtain ⟨rfl, rfl⟩ := h
      rfl
  | announces y =>
      obtain ⟨rfl, rfl⟩ := h
      rfl
  | unpush | leaves | destroys | erases | clears | adds | offers | accepts
  | beats | tells | seats | unseats | vacates | opens | closes | takes => cases h

/-- A step is a sequence of the moves of its input. -/
theorem step_moves {a : Env × Input} (hp : Ready p)
    (hs : Pod.step a p = some q) : Path (Foot p a.1 a.2) p q := by
  obtain ⟨env, inp⟩ := a
  unfold Pod.step at hs
  split at hs
  · cases hs
  · next hfatal =>
    have hf : p.fatal = false := by simpa using hfatal
    have hstill : ∀ {q}, Still p q → Path (Foot p env inp) p q :=
      fun h => (Calm.still h trivial hp hf).1
    cases inp with
    | setSendMessageHandler =>
        cases hs; exact hstill p.setSendMessageHandler_still
    | message m => cases hs; exact mgrHandleMessage_ends env m p hp hf
    | keepaliveTick =>
        cases hs
        exact (keepaliveTick_calm Foot.base (fun _ => trivial) p hp hf).1
    | registTick =>
        dsimp only at hs
        split at hs
        · cases hs; exact hstill (p.registTick_still env)
        · cases hs
    | registStop =>
        dsimp only at hs
        split at hs
        · cases hs; exact hstill { Still.refl p with }
        · cases hs
    | ice x st =>
        dsimp only at hs
        split at hs
        · next hx =>
            cases hs
            exact (onICEConnectionStateChange_calm st hx hp hf).1.mono
              Foot.of_ice
        · cases hs
    | checkTimer s i =>
        cases hs
        exact (checkTimer_calm Foot.base i p (fun _ _ _ => trivial) hp hf).1
    | dataChannel x => cases hs; exact hstill (p.onDataChannel_still x)
    | audio x buff =>
        cases hs; exact hstill (p.onReceivedAudioData_still _ _ _)
    | video x buff =>
        cases hs; exact hstill (p.onReceivedVideoData_still _ _ _)
    | appData x buff =>
        cases hs; exact hstill (p.onReceivedAppData_still _ _ _ _)
    | go i =>
        dsimp only at hs
        split at hs
        · next g hg =>
            cases hs
            have htake : Micro (fun _ => False) (fun _ _ => False) p
              { p with pending := p.pending.eraseIdx i } := .take i
            exact .head (.move (.takes i) hf rfl (.takes i))
              (runGoroutine_calm hg (.of_micro htake hp) hf).1
        · cases hs

end MediaServer.Ref
