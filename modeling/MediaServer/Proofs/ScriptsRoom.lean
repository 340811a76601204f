import MediaServer.Proofs.Scripts

/-!
# The scripts of rooms and of the manager

The rest of the walk that `Scripts.lean` begins, up to `step_script`: every
step of a pod is a script within the scope of its input.
-/

namespace MediaServer.Ref

open MediaServer.Lib

variable {A : Scope} {n : Nat} {p q : Pod} {r : RoomRef} {s : SessRef}
variable {x : PeerRef} {u pid rid : String} {env : Env} {j m : JsonParser}

/-! ## `room.go` -/

theorem onPublisherReady_script {sid name : String} (p : Pod) :
    Script A n p (p.onPublisherReady r sid name pid) := by
  refine Script.foldl (fun q e _ => ?_) p
  split
  · exact Script.tells (.inl rfl) q
  · exact .refl q

theorem dropIfPresent_script (hA : A.sends .fakeUnpublish) (r : RoomRef)
    (u : String) (p : Pod) :
    Script A 1 p (if (p.room r).sessions.lookup u = none then p
      else p.dropSession r u) := by
  split
  · exact .refl p
  · unfold Pod.dropSession
    dsimp only
    split
    · exact .falls (.inl fun _ => rfl) .dies rfl
    · exact .writes (Nat.le_refl 1)
        ((doLeave_script fun _ => hA).trans (setRoom_script r _ _))

theorem insertSession_script (t : Session) (p : Pod) :
    Script A 1 p (p.insertSession r u t) :=
  .trans (.mute (q := p.allocSess t) ⟨⟨_, rfl⟩, rfl, rfl, rfl⟩)
    (.writes (Nat.le_refl 1) (setRoom_script r _ _))

theorem tellStreams_script (p : Pod) : Script A 1 p (p.tellStreams r u) := by
  refine Script.foldl (fun q e _ => ?_) p
  have hpeek : Script A 1 q ((q.rlock (.pubs e.2)).runlock (.pubs e.2)) :=
    .peeks (Nat.le_succ 1) q
  dsimp only
  split
  · exact hpeek.trans (Script.tells (.inl rfl) _)
  · exact hpeek

theorem handleLogin_script (hA : A.sends .fakeUnpublish) (p : Pod) :
    Script A 1 p (p.handleLogin env r j) :=
  (((dropIfPresent_script hA r _ p).trans (insertSession_script _ _)).trans
    (Script.tells (.inr rfl) _)).trans (tellStreams_script _)

theorem notifyLeaveRoom_script (p : Pod) :
    Script A n p (p.notifyLeaveRoom env r u) :=
  (getSn_script p).trans (.speaks ⟨rfl, rfl⟩)

theorem kickSession_script (hA : A.sends .fakeUnpublish) (p : Pod) :
    Script A 1 p (p.kickSession env r u) := by
  unfold Pod.kickSession
  dsimp only
  refine .writes (Nat.le_refl 1) ?_
  split
  · next s hs =>
      have hleave : Script A 2 (p.lock (.sessions r))
          (((p.lock (.sessions r)).doLeave s).eraseSession r
            ((p.lock (.sessions r)).sess s).userid) :=
        (doLeave_script fun _ => hA).trans (setRoom_script r _ _)
      split
      · exact hleave.trans (notifyLeaveRoom_script _)
      · exact hleave
  · exact .refl _

theorem spreadLeaved_script
    (hA : ∀ v s, (p.room r).sessions.lookup v = some s →
      A.starts (.handleSubscriberLeaved s u)) :
    Script A 1 p (p.spreadLeaved r u) := by
  refine .reads (Nat.le_refl 1) (Script.foldl (fun q e he => .starts ?_) _)
  rw [Pod.rlock, Pod.emit_room] at he
  exact hA e.1 e.2 (GoMap.mem_entries.mp he)

theorem releaseIfEmpty_script (hA : A.starts (.releaseRoom (p.room r).roomid)) :
    Script A 1 p (p.releaseIfEmpty r) := by
  have hpeek : Script A 1 p ((p.rlock (.sessions r)).runlock (.sessions r)) :=
    .peeks (Nat.le_refl 1) p
  unfold Pod.releaseIfEmpty
  dsimp only
  split
  · exact hpeek
  · refine hpeek.trans (.starts ?_)
    rw [Pod.runlock, Pod.emit_room, Pod.rlock, Pod.emit_room]
    exact hA

theorem kickoutFromRoom_script (hp : Seated p) (hsend : A.sends .fakeUnpublish)
    (hleft : ∀ v s, (p.room r).sessions.lookup v = some s →
      A.starts (.handleSubscriberLeaved s u))
    (hrel : A.starts (.releaseRoom (p.room r).roomid)) :
    Script A 1 p (p.kickoutFromRoom env r u) := by
  have hedit : Edits r u p (p.kickSession env r u) :=
    Pod.kickSession_edits env r u fun s hs => (hp.sessions r u s hs).1
  have hspread := ((p.kickSession env r u).spreadLeaved_quiet r u).toSameStore
  refine ((kickSession_script hsend p).trans (spreadLeaved_script
    fun v s hs => ?_)).trans (releaseIfEmpty_script ?_)
  · by_cases hv : v = u
    · subst hv
      exact hleft v s (hedit.lose s hs)
    · rw [hedit.keep v hv] at hs
      exact hleft v s hs
  · rw [hspread.room, hedit.roomid]
    exact hrel

theorem destroyRoom_script (hA : A.sends .fakeUnpublish) (p : Pod) :
    Script A 1 p (p.destroyRoom r) :=
  .writes (Nat.le_refl 1) ((Script.foldl (fun _ _ _ =>
    doLeave_script fun _ => hA) _).trans (setRoom_script r _ _))

theorem answerRoomCreated_script (hc : command j = some .roomCreated)
    (hsend : ∀ c ∈ replies j, A.sends c) (p : Pod) :
    Script A 1 p (p.answerRoomCreated env r j) := by
  refine Script.foldl (fun q e _ => ?_) p
  have hpeek : Script A 1 q ((q.rlock (.pubs e.2)).runlock (.pubs e.2)) :=
    .peeks (Nat.le_succ 1) q
  dsimp only
  split
  · split
    · refine hpeek.trans (Script.mono (sessionHandleMessage_script hsend
        (fun h => absurd ?_ h) (fun h => ?_) fun h => ?_) (Nat.le_succ 1))
      · simp only [Pod.sessRefusal, hc]
      · rw [hc] at h
        cases h
      · rw [hc] at h
        cases h
    · exact hpeek
  · exact .refl q

theorem handleFakePublish_script (hc : command j = some .fakePublish)
    (hsend : ∀ c ∈ replies j, A.sends c)
    (hrel : A.starts (.releaseRoom (p.room r).roomid)) :
    Script A 1 p (p.handleFakePublish env r j) := by
  have hlist := hsend
  simp only [replies, hc] at hlist
  have hroomid : ((if (p.room r).sessions.lookup (getValue j .sessID) = none
      then p else p.dropSession r (getValue j .sessID)).room r).roomid =
      (p.room r).roomid := (Pod.dropIfPresent_edits r _ p).roomid
  have hdrop := dropIfPresent_script (hlist _ List.mem_cons_self) r
    (getValue j .sessID) p
  unfold Pod.handleFakePublish
  dsimp only
  generalize (if (p.room r).sessions.lookup (getValue j .sessID) = none then p
    else p.dropSession r (getValue j .sessID)) = p₁ at hroomid hdrop ⊢
  refine (hdrop.trans (.peeks (m := .sessions r) (Nat.le_refl 1) p₁)).trans ?_
  split
  · simp only [Pod.sessionHandleMessage, hc]
    exact (insertSession_script _ _).trans
      (fakeSubscribe_script (hlist _ (by simp)) _)
  · refine .starts ?_
    rw [Pod.runlock, Pod.emit_room, Pod.rlock, Pod.emit_room, hroomid]
    exact hrel

/-- Only a stand-in leaves without a word to the other pods. -/
theorem handleFakeUnpublish_script
    (hA : ∀ s, (p.room r).sessions.lookup (getValue j .sessID) = some s →
      (p.sess s).podid = getValue j .podId → (p.sess s).origin = true →
      A.sends .fakeUnpublish) :
    Script A 1 p (p.handleFakeUnpublish r j) := by
  unfold Pod.handleFakeUnpublish
  dsimp only
  refine .writes (Nat.le_refl 1) ?_
  rw [Pod.lock, Pod.emit_room]
  split
  · next s hs =>
      rw [Pod.emit_sess]
      split
      · next hpod =>
          refine (doLeave_script fun ho => hA s hs hpod ?_).trans
            (setRoom_script r _ _)
          rwa [Pod.emit_sess] at ho
      · exact .refl _
  · exact .refl _

theorem toSession_script {uid : String} {notFound : Pod → Pod}
    (hnf : (p.room r).sessions.lookup uid = none → Script A 1 p (notFound p))
    (hs : ∀ s, (p.room r).sessions.lookup uid = some s →
      Script A 2 p (p.sessionHandleMessage env s j)) :
    Script A 1 p (p.toSession env r uid j notFound) := by
  unfold Pod.toSession
  split
  · next s hlook => exact (hs s hlook).mono (Nat.le_succ 1)
  · next hno => exact hnf hno

theorem onPublisherPeerFailed_script (hA : A.sends .fakeUnpublish) (p : Pod) :
    Script A 1 p (p.onPublisherPeerFailed env r u pid) := by
  unfold Pod.onPublisherPeerFailed
  split
  · exact (releasePublisher_script fun _ => hA).mono (Nat.le_succ 1)
  · exact .refl p

theorem onSubscriberPeerFailed_script {sid ssid : String} (p : Pod) :
    Script A 1 p (p.onSubscriberPeerFailed r sid ssid pid) := by
  unfold Pod.onSubscriberPeerFailed
  split
  · exact (releaseSubscriberPeer_script p).mono (Nat.le_succ 1)
  · exact .refl p

theorem onReceivedAppData_script {sid : String} {buff : List UInt8}
    (hA : A.delivers) (p : Pod) :
    Script A 1 p (p.onReceivedAppData r sid pid buff) :=
  .reads (Nat.le_refl 1) (Script.foldl (fun q _ _ =>
    broadcastAppData_script hA q) _)

/-! ## What a message is refused with -/

/-- The error of a command that goes to the session of `u`; `code` says that
there is none. -/
def Pod.seatRefusal (p : Pod) (env : Env) (m : JsonParser) (u : String)
    (code : Int) : Option Int :=
  match p.rooms.lookup (getValue m .roomId) with
  | none => some codeNotLogin
  | some r =>
      match (p.room r).sessions.lookup u with
      | none => some code
      | some s => p.sessRefusal env s m

/-- The error that a message is answered with. -/
def Pod.refusal (p : Pod) (env : Env) (m : JsonParser) : Option Int :=
  if command m = some .podRegist ∨ command m = some .podRegistNow then none
  else if p.regist = false then some codeNotAvailable
  else
    match command m with
    | some .heartbeat | some .push | some .offer | some .stopPush =>
        p.seatRefusal env m (getValue m .sessID) codeNotLogin
    | some .sub | some .stopSub | some .answer =>
        p.seatRefusal env m (getValue m .srcSessID) codeNotFoundPublishUser
    | some .logout | some .candidate =>
        if p.rooms.lookup (getValue m .roomId) = none then some codeNotLogin
        else none
    | _ => none

/-! ## `roommgr.go` -/

section Message

variable (hsend : ∀ c ∈ replies m, A.sends c)
  (hrefuse : p.refusal env m ≠ none → A.refuses)
  (hstart : ∀ g, Starts p env (.message m) g → A.starts g)
  (hbreak : A.breaks)
include hsend hrefuse hstart hbreak

/-- A command for the session of `u`. -/
theorem seat_script {notFound : Pod → Pod} (code : Int)
    (hr : p.rooms.lookup (getValue m .roomId) = some r)
    (heq : p.refusal env m = p.seatRefusal env m u code)
    (hnf : A.refuses → Script A 1 p (notFound p))
    (hsub : command m = some .stopSub → u = getValue m .srcSessID) :
    Script A 1 p (p.toSession env r u m notFound) := by
  simp only [Pod.seatRefusal, hr] at heq
  refine toSession_script (fun hno => hnf (hrefuse ?_)) fun s hs =>
    sessionHandleMessage_script hsend (fun hne => hrefuse ?_)
      (fun _ _ => hbreak) fun hc sid ssid pid y => hstart _ ?_
  · rw [heq, hno]
    exact Option.some_ne_none _
  · rw [heq, hs]
    exact hne
  · rw [hsub hc] at hs
    exact .stopped hc hr hs sid ssid pid y

variable (hp : Seated p) (hreg : p.regist = true)
  (hown : ∀ r s, (p.room r).sessions.lookup (getValue m .sessID) = some s →
    (p.sess s).podid = getValue m .podId → (p.sess s).origin = true →
    command m = some .fakeUnpublish → A.sends .fakeUnpublish)
include hp hreg hown

theorem roomHandleMessage_script
    (hr : p.rooms.lookup (getValue m .roomId) = some r)
    (hlogin : command m ≠ some .login) :
    Script A 1 p (p.roomHandleMessage env r m) := by
  have hroomid := (hp.rooms _ r hr).1
  have hquiet : ∀ {u}, (∀ s, p.sessRefusal env s m = none) →
      command m ≠ some .stopSub →
      Script A 1 p (p.toSession env r u m fun p => p) := fun hno hne =>
    toSession_script (fun _ => .refl p) fun s _ =>
      sessionHandleMessage_script hsend (fun h => absurd (hno s) h)
        (fun _ _ => hbreak) fun h => absurd h hne
  cases hc : command m with
  | none =>
      simp only [Pod.roomHandleMessage, hc]
      exact .refl p
  | some c =>
      have hlist := hsend
      simp only [replies, hc] at hlist
      simp only [Pod.roomHandleMessage, hc]
      cases c with
      | login => exact absurd hc hlogin
      | heartbeat | push | offer | stopPush =>
          exact seat_script hsend hrefuse hstart hbreak codeNotLogin hr
            (by simp [Pod.refusal, hc, hreg]) (fun h => .refuses h p)
            fun h => by rw [hc] at h; cases h
      | sub | stopSub | answer =>
          exact seat_script hsend hrefuse hstart hbreak codeNotFoundPublishUser hr
            (by simp [Pod.refusal, hc, hreg]) (fun h => .refuses h p)
            fun _ => rfl
      | logout =>
          refine kickoutFromRoom_script hp (hlist _ List.mem_cons_self)
            (fun v s hs => hstart _ (.left hc hr hs)) (hstart _ ?_)
          rw [hroomid]
          exact .emptied (.inl hc)
      | candidate | fakeSubscribe | fakeOffer | fakeAnswer | fakeCandidate =>
          exact hquiet (fun s => by simp [Pod.sessRefusal, hc])
            (by rw [hc]; decide)
      | roomCreated => exact answerRoomCreated_script hc hsend p
      | fakePublish =>
          refine handleFakePublish_script hc hsend (hstart _ ?_)
          rw [hroomid]
          exact .emptied (.inr hc)
      | fakeUnpublish =>
          exact handleFakeUnpublish_script fun s hs hpod ho =>
            hown r s hs hpod ho hc
      | pub | unpub | podRegist | podRegistNow | podReleasePublish
      | podLeaveRoom => exact .refl p

theorem mgrForward_script (hlogin : command m ≠ some .login) :
    Script A 1 p (p.mgrForward env m) := by
  unfold Pod.mgrForward
  split
  · split
    · next r hr =>
        exact roomHandleMessage_script hsend hrefuse hstart hbreak hp hreg
          hown hr hlogin
    · next hno =>
        have hmissing : ∀ {u k}, p.seatRefusal env m u k ≠ none := by
          intro u k
          simp only [Pod.seatRefusal, hno]
          exact Option.some_ne_none _
        unfold Pod.notFoundRoom
        split
        case h_10 => exact .refl p
        all_goals rename_i hc
        all_goals refine .refuses (hrefuse ?_) p
        all_goals simp only [Pod.refusal, hc, hreg]
        all_goals first
          | exact hmissing
          | simp [hno]
  · exact .refl p

end Message

theorem insertRoom_script (p : Pod) : Script A 0 p (p.insertRoom rid) :=
  .trans (.mute (q := p.allocRoom (createRoom rid)) ⟨⟨_, rfl⟩, rfl, rfl, rfl⟩)
    (.writes (Nat.le_refl 0) (.mute ⟨⟨_, rfl⟩, rfl, rfl, rfl⟩))

theorem broadcastRoomCreated_script (hA : A.sends .roomCreated) (p : Pod) :
    Script A n p (p.broadcastRoomCreated env m) :=
  (getSn_script p).trans (.speaks ⟨⟨rfl, rfl⟩, _, command_cons _ _, hA⟩)

theorem mgrLogin_script (hc : command m = some .login)
    (hsend : ∀ c ∈ replies m, A.sends c) (p : Pod) :
    Script A 0 p (p.mgrLogin env m) := by
  simp only [replies, hc] at hsend
  have hopen : Script A 0 p (p.opened env m) := by
    unfold Pod.opened
    split
    · exact (insertRoom_script p).trans
        (broadcastRoomCreated_script (hsend _ List.mem_cons_self) _)
    · exact .refl p
  rw [mgrLogin_eq hc]
  exact (hopen.trans (.peeks (m := .rooms) (Nat.le_refl 0) _)).trans
    ((handleLogin_script (hsend _ (by simp)) _).mono (Nat.zero_le 1))

theorem releaseRoom_script (hA : A.sends .fakeUnpublish) (p : Pod) :
    Script A 0 p (p.releaseRoom rid) := by
  unfold Pod.releaseRoom
  dsimp only
  refine .writes (Nat.le_refl 0) ?_
  split
  · exact (destroyRoom_script hA _).trans (.mute ⟨⟨_, rfl⟩, rfl, rfl, rfl⟩)
  · exact .refl _

theorem keepaliveTick_script
    (hA : ∀ g, Starts p env .keepaliveTick g → A.starts g) :
    Script A 0 p p.keepaliveTick := by
  unfold Pod.keepaliveTick
  dsimp only
  refine .reads (Nat.le_refl 0) (Script.foldl_of
    (I := fun q => q.roomHeap = p.roomHeap) (fun q e he hq => ?_)
    (Pod.emit_roomHeap))
  have hroom : q.room e.2 = p.room e.2 := by rw [Pod.room, hq, Pod.room]
  have hquiet := (q.onCheckKeepalive_quiet e.2).toSameStore
  refine ⟨hquiet.roomHeap.trans hq, .reads (Nat.le_refl 1)
    (Script.foldl (fun t f hf => .starts ?_) _)⟩
  rw [Pod.rlock, Pod.emit_rooms] at he
  rw [Pod.rlock, Pod.emit_room, hroom] at hf
  exact hA _ (.due (GoMap.mem_entries.mp he) (GoMap.mem_entries.mp hf))

/-! ## A step of the pod -/

/-- The commands that a spawned call may send to other pods. -/
def Goroutine.replies : Goroutine → List Cmd
  | .releaseRoom _ | .kickoutFromRoom .. | .onPublisherPeerFailed ..
  | .onPublisherPeerClosed .. => [.fakeUnpublish]
  | .fakePublisherReConnect .. => [.fakeSubscribe]
  | _ => []

/-- The commands that a pod may send to others on an input. -/
def Pod.replies (p : Pod) : Input → List Cmd
  | .message m => Ref.replies m
  | .ice _ st => st.replies
  | .go i =>
      match p.pending[i]? with
      | some g => g.replies
      | none => []
  | _ => []

/-- The pod as the call of the input finds it. -/
def Pod.found (p : Pod) : Input → Pod
  | .go i => { p with pending := p.pending.eraseIdx i }
  | _ => p

/-- The input is data to be handed on. -/
def Input.delivers : Input → Bool
  | .audio .. | .video .. | .appData .. => true
  | _ => false

@[simp] theorem Pod.found_conf (p : Pod) (i : Input) :
    (p.found i).conf = p.conf := by
  cases i <;> rfl

@[simp] theorem Pod.found_log (p : Pod) (i : Input) :
    (p.found i).log = p.log := by
  cases i <;> rfl

/-- The pod takes over what the load balancer says, and nothing shows. -/
structure Adopts (p q : Pod) : Prop where
  uuid : q.conf.uuid = p.conf.uuid
  pending : q.pending = p.pending
  log : q.log = p.log

theorem runGoroutine_script {i : Nat} {g : Goroutine} (hp : Seated p)
    (hg : p.pending[i]? = some g) (hsend : ∀ c ∈ g.replies, A.sends c)
    (hstart : ∀ g', Starts p env (.go i) g' → A.starts g') :
    Script A 0 (p.found (.go i)) ((p.found (.go i)).runGoroutine env g) := by
  have hp' : Seated (p.found (.go i)) := ⟨hp.rooms, hp.sessions, hp.known⟩
  cases g with
  | releaseRoom rid => exact releaseRoom_script (hsend _ List.mem_cons_self) _
  | kickoutFromRoom r u =>
      exact (kickoutFromRoom_script hp' (hsend _ List.mem_cons_self)
        (fun v s hs => hstart _ (.kicked hg hs)) (hstart _ (.vacated hg))).mono
          (Nat.zero_le 1)
  | checkKeepAlive s =>
      simp only [Pod.runGoroutine, Pod.checkKeepAlive]
      split
      · exact .refl _
      · next ho =>
          have horigin : (p.sess s).origin = true := by
            change ¬(!(p.sess s).origin) = true at ho
            simpa using ho
          split
          · next hnow => exact .starts (hstart _ (.expired hg horigin hnow))
          · exact .refl _
  | handleSubscriberLeaved s sid =>
      exact (handleSubscriberLeaved_script _).mono (Nat.zero_le 2)
  | onPublisherReady r sid name pid => exact onPublisherReady_script _
  | onPublisherPeerFailed r sid pid y | onPublisherPeerClosed r sid pid y =>
      exact (onPublisherPeerFailed_script (hsend _ List.mem_cons_self) _).mono
        (Nat.zero_le 1)
  | onSubscriberPeerFailed r sid ssid pid y
  | onSubscriberPeerClosed r sid ssid pid y =>
      exact (onSubscriberPeerFailed_script _).mono (Nat.zero_le 1)
  | releaseSubscriberPeer s sid ssid pid y =>
      exact (releaseSubscriberPeer_script _).mono (Nat.zero_le 2)
  | fakePublisherReConnect s sid pid curtime =>
      exact fakePublisherReConnect_script (hsend _ List.mem_cons_self) _
  | requestKeyframe y => exact .refl _

theorem handlePodRegist_adopts (p : Pod) :
    p.handlePodRegist m = p.throw ∨ Adopts p (p.handlePodRegist m) := by
  unfold Pod.handlePodRegist
  split
  · exact .inl rfl
  · split
    · exact .inr ⟨rfl, rfl, rfl⟩
    · exact .inr ⟨rfl, rfl, rfl⟩

/-- Every step is a script within the bounds of its input, or the reply of the
load balancer is taken over. -/
theorem step_script {a : Env × Input} (hp : Seated p)
    (hs : Pod.step a p = some q) (hsend : ∀ c ∈ p.replies a.2, A.sends c)
    (hown : ∀ m r s, a.2 = .message m → command m = some .fakeUnpublish →
      (p.room r).sessions.lookup (getValue m .sessID) = some s →
      (p.sess s).podid = getValue m .podId → (p.sess s).origin = true →
      A.sends .fakeUnpublish)
    (hrefuse : ∀ m, a.2 = .message m → p.refusal a.1 m ≠ none → A.refuses)
    (hstart : ∀ g, Starts p a.1 a.2 g → A.starts g)
    (hdeliver : a.2.delivers = true → A.delivers) (hbreak : A.breaks) :
    Script A 0 (p.found a.2) q ∨ Adopts (p.found a.2) q := by
  have hf := step_fatal hs
  unfold Pod.step at hs
  rw [if_neg (by simp [hf])] at hs
  obtain ⟨env, a⟩ := a
  dsimp only at hs hsend hown hrefuse hstart hdeliver ⊢
  cases a with
  | setSendMessageHandler =>
      cases hs
      refine .inr ?_
      unfold Pod.setSendMessageHandler
      split
      · exact ⟨rfl, rfl, rfl⟩
      · exact ⟨rfl, rfl, rfl⟩
  | message m =>
      cases hs
      have hno : p.regist = false → command m ≠ some .podRegist →
          command m ≠ some .podRegistNow → A.refuses := fun hreg h h' =>
        hrefuse m rfl (by simp [Pod.refusal, h, h', hreg])
      unfold Pod.mgrHandleMessage
      split
      · obtain heq | hadopt := handlePodRegist_adopts (m := m) p
        · rw [heq]
          exact .inl .dies
        · exact .inr hadopt
      · refine .inr ?_
        unfold Pod.handlePodRegistNow
        split
        · exact ⟨rfl, rfl, rfl⟩
        · exact ⟨rfl, rfl, rfl⟩
      · next hc =>
          refine .inl ?_
          split
          · exact mgrLogin_script hc hsend p
          · next hreg =>
              exact .refuses (hno (by simpa using hreg) (by rw [hc]; decide)
                (by rw [hc]; decide)) p
      · next h₁ h₂ h₃ =>
          refine .inl ?_
          split
          · next hreg =>
              exact (mgrForward_script hsend (hrefuse m rfl) hstart hbreak hp
                hreg (fun r s hs hpod ho hc => hown m r s rfl hc hs hpod ho)
                h₃).mono (Nat.zero_le 1)
          · next hreg => exact .refuses (hno (by simpa using hreg) h₁ h₂) p
  | keepaliveTick =>
      cases hs
      exact .inl (keepaliveTick_script hstart)
  | registTick =>
      dsimp only at hs
      split at hs
      · cases hs
        unfold Pod.registTick
        split
        · exact .inr ⟨rfl, rfl, rfl⟩
        · exact .inl ((getSn_script p).trans (.speaks ⟨rfl, rfl⟩))
      · cases hs
  | registStop =>
      dsimp only at hs
      split at hs
      · cases hs
        exact .inr ⟨rfl, rfl, rfl⟩
      · cases hs
  | ice x st =>
      dsimp only at hs
      split at hs
      · cases hs
        exact .inl ((onICEConnectionStateChange_script hstart hsend).mono
          (Nat.zero_le 2))
      · cases hs
  | checkTimer s i =>
      cases hs
      exact .inl (checkTimer_script (fun sid pid k => hstart _
        (.retried sid pid k)) p)
  | dataChannel x =>
      cases hs
      unfold Pod.onDataChannel
      split
      · exact .inl (setPeer_script x _ p)
      · exact .inl (.refl p)
  | audio x buff =>
      cases hs
      exact .inl ((packet_script (hdeliver rfl) (.inl rfl) p).mono
        (Nat.zero_le 2))
  | video x buff =>
      cases hs
      exact .inl ((packet_script (hdeliver rfl) (.inr rfl) p).mono
        (Nat.zero_le 2))
  | appData x buff =>
      cases hs
      exact .inl ((onReceivedAppData_script (hdeliver rfl) p).mono
        (Nat.zero_le 1))
  | go i =>
      dsimp only at hs
      split at hs
      · next g hg =>
          cases hs
          simp only [Pod.replies, hg] at hsend
          exact .inl (runGoroutine_script hp hg hsend hstart)
      · cases hs

end MediaServer.Ref
