import MediaServer.Proofs.MovesSession

/-!
# The moves of a room, of the manager and of a spawned call

The handlers of `room.go` and `roommgr.go` as sequences of moves. Each lemma
asks for the moves it uses by name, so that a caller can say, for the message
or the goroutine at hand, which rooms, users and sessions they are about.

A session leaves its seat with all its peers gone, and it takes one in a room
that is registered under its own id. Both are conditions of the moves
`unseats`, `vacates` and `seats`, and are read off the code here.
-/

namespace MediaServer.Ref

open MediaServer.Lib Relation

variable {p q : Pod} {s : SessRef} {r : RoomRef} {u : String}
variable {env : Env} {j : JsonParser} {A : Act → Prop} {c : Option Cmd}

/-- A change of the store that keeps the process alive. -/
theorem Calm.micro {G : Goroutine → Prop} {I : SessRef → Peer → Prop} {a : Act}
    (hm : Ready p → Move a p q) (hs : Ready p → Micro G I p q) (hA : A a)
    (hf : q.fatal = p.fatal) : Calm A p q := fun hp hfp =>
  ⟨.single (.move a hfp hA (hm hp)), hf.trans hfp, .of_micro (hs hp) hp⟩

/-! ## Seats -/

/-- `DoLeave`, then out of the room. -/
theorem leaveErase_calm (hb : Base A c) (ht : Touch A s)
    (hs : (p.room r).sessions.lookup u = some s) (hA : A (.unseats r u)) :
    Calm A p ((p.doLeave s).eraseSession r u) := by
  refine .of fun hp _ => (doLeave_calm hb ht p).trans ?_
  have hleft : ∀ s', ((p.doLeave s).room r).sessions.lookup u = some s' →
      ∀ role k, (p.doLeave s).entry role s' k = none := by
    intro s' hs' role k
    rw [(p.doLeave_sameStore s).room, hs] at hs'
    cases hs'
    exact doLeave_empty hp.placed role k
  exact .micro (G := fun _ => False) (I := fun _ _ => False)
    (fun _ => .unseats r u hleft) (fun _ => .unseat r u hleft) hA rfl

theorem dropIfPresent_calm (hb : Base A c)
    (ht : ∀ s, (p.room r).sessions.lookup u = some s → Touch A s)
    (hA : A (.unseats r u)) :
    Calm A p (if (p.room r).sessions.lookup u = none then p
      else p.dropSession r u) := by
  split
  · exact .refl p
  · next hs =>
      obtain ⟨s, hs⟩ := Option.ne_none_iff_exists'.mp hs
      have hlook : ((p.lock (.sessions r)).room r).sessions.lookup u =
          some s := by rw [Pod.lock, Pod.emit_room]; exact hs
      unfold Pod.dropSession
      simp only [hlook]
      exact bracket_calm hb
        (leaveErase_calm hb (ht s hs) hlook hA)

theorem insertSession_fatal {t : Session} :
    (p.insertSession r u t).fatal = p.fatal := by
  simp [Pod.insertSession, Pod.unlock, Pod.lock, Pod.storeSession,
    Pod.setRoom, Pod.allocSess]

theorem insertSession_calm {t : Session} (hA : A (.seats r u t))
    (hr : p.rooms.lookup (p.room r).roomid = some r)
    (hfree : (p.room r).sessions.lookup u = none) (hu : t.userid = u)
    (hpar : t.parent = r) (hpubs : t.publishers = ∅)
    (hsubs : t.subscribers = ∅) : Calm A p (p.insertSession r u t) := by
  refine .of fun hp _ => ?_
  have hlt := (hp.rooms _ r hr).2
  exact .micro (G := fun _ => False) (I := fun _ _ => False)
    (fun _ => .seats r u t hlt hr hfree hu hpar hpubs hsubs)
    (fun _ => .seat r u t hlt hfree hu hpar hpubs hsubs) hA insertSession_fatal

/-- What the two handlers that seat a session need of the room after they took
out the old one. -/
theorem Edits.registered (h : Edits r u p q)
    (hr : p.rooms.lookup (p.room r).roomid = some r) :
    q.rooms.lookup (q.room r).roomid = some r := by
  rw [h.rooms, h.roomid]; exact hr

theorem tellStreams_calm (hb : Base A c)
    (hA : ∀ sid name pid, A (.tells u r sid name pid))
    (hr : r < p.roomHeap.next) : Calm A p (p.tellStreams r u) := by
  unfold Pod.tellStreams
  generalize (p.room r).sessions.entries = l
  induction l generalizing p with
  | nil => exact .refl p
  | cons e l ih =>
      have hread := (p.rlock_still (.pubs e.2)).trans
        (Pod.runlock_still _ (.pubs e.2))
      rw [List.foldl_cons]
      refine (Calm.still hread hb.still).trans ?_
      rw [← hread.roomHeap] at hr
      dsimp only
      split
      · exact (Calm.asks (Pod.emit_quiet _ _) (fun _ => .tells u r _ _ _ hr)
          (hA _ _ _) Pod.emit_fatal).trans
          (ih (by rw [Pod.emit_roomHeap]; exact hr))
      · exact ih hr

theorem handleLogin_calm (hb : Base A c)
    (ht : ∀ s, (p.room r).sessions.lookup (getValue j .sessID) = some s →
      Touch A s)
    (hun : A (.unseats r (getValue j .sessID)))
    (hseat : A (.seats r (getValue j .sessID)
      (createSession r (getValue j .sessID) (getValue j .userName) env.now)))
    (htell : ∀ sid name pid, A (.tells (getValue j .sessID) r sid name pid))
    (hr : p.rooms.lookup (p.room r).roomid = some r) :
    Calm A p (p.handleLogin env r j) := by
  have he := p.dropIfPresent_edits r (getValue j .sessID)
  have hfree := p.dropIfPresent_lookup_self r (getValue j .sessID)
  refine .of fun hp _ => ?_
  unfold Pod.handleLogin
  dsimp only
  refine (((dropIfPresent_calm hb ht hun).trans (insertSession_calm hseat
    (he.registered hr) hfree rfl rfl rfl rfl)).trans
    (.emit _ rfl hb.still)).trans (tellStreams_calm hb htell ?_)
  rw [Pod.emit_roomHeap, Pod.insertSession_roomNext, he.roomNext]
  exact (hp.rooms _ r hr).2

theorem handleFakePublish_calm (hb : Base A c)
    (hc : command j = some .fakePublish)
    (ht : ∀ s, (p.room r).sessions.lookup (getValue j .sessID) = some s →
      Touch A s)
    (hun : A (.unseats r (getValue j .sessID)))
    (hseat : A (.seats r (getValue j .sessID)
      ((createSession r (getValue j .sessID) (getValue j .userName)
        env.now).setFakeSession (getValue j .clusterId) (getValue j .podId))))
    (hgo : A (.spawns (.releaseRoom (p.room r).roomid)))
    (hr : p.rooms.lookup (p.room r).roomid = some r) :
    Calm A p (p.handleFakePublish env r j) := by
  have he := p.dropIfPresent_edits r (getValue j .sessID)
  have hfree := p.dropIfPresent_lookup_self r (getValue j .sessID)
  unfold Pod.handleFakePublish
  dsimp only
  refine (dropIfPresent_calm hb ht hun).trans ?_
  generalize (if (p.room r).sessions.lookup (getValue j .sessID) = none then p
    else p.dropSession r (getValue j .sessID)) = p₁ at he hfree ⊢
  have hread : Still p₁ ((p₁.rlock (.sessions r)).runlock (.sessions r)) :=
    (p₁.rlock_still _).trans (Pod.runlock_still _ _)
  refine (Calm.still hread hb.still).trans ?_
  split
  · simp only [Pod.sessionHandleMessage, hc]
    refine (insertSession_calm hseat ?_ ?_ rfl rfl rfl rfl).trans
      (fakeSubscribe_calm hb _ _ _ _)
    · rw [hread.rooms, hread.room]; exact he.registered hr
    · rw [hread.room]; exact hfree
  · refine .go _ ?_
    rw [hread.room, he.roomid]
    exact hgo

theorem handleFakeUnpublish_calm (hb : Base A c)
    (ht : ∀ s, (p.room r).sessions.lookup (getValue j .sessID) = some s →
      Touch A s)
    (hun : ∀ s, (p.room r).sessions.lookup (getValue j .sessID) = some s →
      (p.sess s).podid = getValue j .podId →
      A (.unseats r (getValue j .sessID))) :
    Calm A p (p.handleFakeUnpublish r j) := by
  unfold Pod.handleFakeUnpublish
  refine bracket_calm (o := .lock (.sessions r)) hb ?_
  split
  · next s hs =>
      have hs' : (p.room r).sessions.lookup (getValue j .sessID) = some s := by
        rwa [Pod.lock, Pod.emit_room] at hs
      split
      · next hpod =>
          rw [Pod.lock, Pod.emit_sess] at hpod
          exact leaveErase_calm hb (ht s hs') hs (hun s hs' hpod)
      · exact .refl _
  · exact .refl _

/-! ## Kicks -/

theorem leaves_calm (env : Env) (p : Pod) (hA : A (.leaves r u)) :
    Calm A p (p.notifyLeaveRoom env r u) :=
  .asks (p.notifyLeaveRoom_quiet env r u) (fun _ => .leaves env r u) hA
    Pod.emit_fatal

theorem kickSession_calm (hb : Base A c)
    (ht : ∀ s, (p.room r).sessions.lookup u = some s → Touch A s)
    (hun : A (.unseats r u))
    (hleave : ∀ s, (p.room r).sessions.lookup u = some s →
      (p.sess s).origin = true → A (.leaves r u)) :
    Calm A p (p.kickSession env r u) := by
  refine .of fun hp _ => ?_
  unfold Pod.kickSession
  refine bracket_calm (o := .lock (.sessions r)) hb ?_
  dsimp only [Pod.lock]
  split
  · next s hs =>
      have hs' : (p.room r).sessions.lookup u = some s := by
        rwa [Pod.emit_room] at hs
      have hout : Calm A (p.emit (.sync (.lock (.sessions r))))
          (((p.emit (.sync (.lock (.sessions r)))).doLeave s).eraseSession r
            ((p.emit (.sync (.lock (.sessions r)))).sess s).userid) := by
        rw [Pod.emit_sess, (hp.sessions r u s hs').1]
        exact leaveErase_calm hb (ht s hs') hs hun
      split
      · next ho =>
          refine hout.trans (leaves_calm env _ (hleave s hs' ?_))
          have hsame := (p.emit (.sync (.lock (.sessions r)))).doLeave_sameStore s
          rw [← ho, ← Pod.emit_sess (p := p) (e := .sync (.lock (.sessions r)))]
          exact (hsame.origin s).symm
      · exact hout
  · exact .refl _

theorem spreadLeaved_calm (hb : Base A c)
    (hA : ∀ u' s, (p.room r).sessions.lookup u' = some s →
      A (.spawns (.handleSubscriberLeaved s u))) :
    Calm A p (p.spreadLeaved r u) := by
  unfold Pod.spreadLeaved
  dsimp only
  refine ((Calm.still (p.rlock_still (.sessions r)) hb.still).trans
    (Calm.foldl (fun p' e he => .go p' (hA e.1 e.2 ?_)) _)).trans
    (.emit _ rfl hb.still)
  rw [Pod.rlock, Pod.emit_room] at he
  exact GoMap.mem_entries.mp he

theorem releaseIfEmpty_calm (hb : Base A c)
    (hA : A (.spawns (.releaseRoom (p.room r).roomid))) :
    Calm A p (p.releaseIfEmpty r) := by
  have hread : Still p ((p.rlock (.sessions r)).runlock (.sessions r)) :=
    (p.rlock_still _).trans (Pod.runlock_still _ _)
  unfold Pod.releaseIfEmpty
  dsimp only
  refine (Calm.still hread hb.still).trans ?_
  split
  · exact .refl _
  · refine .go _ ?_
    rw [hread.room]
    exact hA

/-- `KickoutFromRoom`: the sessions that stay are told to drop the
subscriptions of the user. -/
theorem kickoutFromRoom_calm (hb : Base A c)
    (ht : ∀ s, (p.room r).sessions.lookup u = some s → Touch A s)
    (hun : A (.unseats r u))
    (hleave : ∀ s, (p.room r).sessions.lookup u = some s →
      (p.sess s).origin = true → A (.leaves r u))
    (hgo : ∀ u' s, (p.room r).sessions.lookup u' = some s →
      A (.spawns (.handleSubscriberLeaved s u)))
    (hrel : A (.spawns (.releaseRoom (p.room r).roomid))) :
    Calm A p (p.kickoutFromRoom env r u) := by
  refine .of fun hp _ => ?_
  have he := Pod.kickSession_edits env r u (p := p)
    fun s hs => (hp.sessions r u s hs).1
  refine ((kickSession_calm hb ht hun hleave).trans (spreadLeaved_calm hb
    fun u' s hs => hgo u' s (he.back hs))).trans (releaseIfEmpty_calm hb ?_)
  rw [(Pod.spreadLeaved_quiet r u _).room, he.roomid]
  exact hrel

/-! ## Releasing a room -/

theorem destroyRoom_calm (hb : Base A c)
    (ht : ∀ u s, (p.room r).sessions.lookup u = some s → Touch A s)
    (hA : A (.vacates r)) : Calm A p (p.destroyRoom r) := by
  unfold Pod.destroyRoom
  refine bracket_calm (o := .lock (.sessions r)) hb (.of fun hp _ => ?_)
  have hall : Calm A (p.emit (.sync (.lock (.sessions r))))
      (((p.emit (.sync (.lock (.sessions r)))).room r).sessions.entries.foldl
        (fun p e => p.doLeave e.2) (p.emit (.sync (.lock (.sessions r))))) := by
    refine Calm.foldl (fun p' e he => doLeave_calm hb (ht e.1 e.2 ?_) p') _
    rw [Pod.emit_room] at he
    exact GoMap.mem_entries.mp he
  obtain ⟨X, hX, hempty⟩ := leaveAll
    ((p.emit (.sync (.lock (.sessions r)))).room r).sessions.entries
    (p.emit (.sync (.lock (.sessions r)))) hp.placed
  refine hall.trans ?_
  have hleft : ∀ u s, ((((p.emit (.sync (.lock (.sessions r)))).room
      r).sessions.entries.foldl (fun p e => p.doLeave e.2)
      (p.emit (.sync (.lock (.sessions r))))).room r).sessions.lookup u =
      some s → ∀ role k, ((((p.emit (.sync (.lock (.sessions r)))).room
      r).sessions.entries.foldl (fun p e => p.doLeave e.2)
      (p.emit (.sync (.lock (.sessions r)))))).entry role s k = none := by
    intro u s hs
    rw [hX.room] at hs
    exact hempty ⟨u, s⟩ (GoMap.mem_entries.mpr hs)
  exact .micro (G := fun _ => False) (I := fun _ _ => False)
    (fun _ => .vacates r hleft) (fun _ => .vacate r hleft) hA rfl

theorem releaseRoom_calm (hb : Base A c) {rid : String}
    (ht : ∀ r u s, p.rooms.lookup rid = some r →
      (p.room r).sessions.lookup u = some s → Touch A s)
    (hv : ∀ r, p.rooms.lookup rid = some r → A (.vacates r))
    (hA : A (.closes rid)) : Calm A p (p.releaseRoom rid) := by
  unfold Pod.releaseRoom
  refine bracket_calm (o := .lock .rooms) hb ?_
  dsimp only [Pod.lock]
  split
  · next r hr =>
      have hr' : p.rooms.lookup rid = some r := by rwa [Pod.emit_rooms] at hr
      have hcl := destroyRoom_clears r (p.emit (.sync (.lock .rooms)))
      refine (destroyRoom_calm hb (fun u s hs => ht r u s hr' ?_)
        (hv r hr')).trans ?_
      · rwa [Pod.emit_room] at hs
      · refine .micro (G := fun _ => False) (I := fun _ _ => False)
          (fun _ => .closes rid fun r' h => ?_) (fun _ => .closeRoom rid) hA rfl
        rw [hcl.rooms, hr] at h
        cases h
        exact hcl.empty
  · exact .refl _

/-! ## Spawned calls and data -/

theorem onPublisherReady_calm {sid name pid : String}
    (hA : ∀ u s, (p.room r).sessions.lookup u = some s →
      (p.sess s).origin = true →
      A (.tells (p.sess s).userid r sid name pid)) :
    Calm A p (p.onPublisherReady r sid name pid) := by
  refine .of fun hp _ => ?_
  have hloop : ∀ (l : List ((_ : String) × SessRef)) (q : Pod),
      (∀ s, q.sess s = p.sess s) → q.roomHeap = p.roomHeap →
      (∀ e ∈ l, (p.room r).sessions.lookup e.1 = some e.2) →
      Calm A q (l.foldl (fun p e =>
        if (p.sess e.2).origin then
          p.emit (.toClient (p.sess e.2).userid (p.pubMsg r sid name pid))
        else p) q) := by
    intro l
    induction l with
    | nil => intro q _ _ _; exact .refl q
    | cons e l ih =>
        intro q hq hh hl
        rw [List.foldl_cons]
        have hmem := hl e List.mem_cons_self
        have hrest := fun e' he' => hl e' (List.mem_cons_of_mem _ he')
        split
        · next ho =>
            rw [hq] at ho
            have hr : r < q.roomHeap.next := by
              rw [hh]
              exact hp.known r e.1 e.2 hmem
            refine Calm.trans ?_ (ih _ (fun s => ?_) ?_ hrest)
            · refine .asks (Pod.emit_quiet _ _)
                (fun _ => .tells _ r _ _ _ hr) ?_ Pod.emit_fatal
              rw [hq]
              exact hA e.1 e.2 hmem ho
            · rw [Pod.emit_sess]; exact hq s
            · rw [Pod.emit_roomHeap]; exact hh
        · exact ih q hq hh hrest
  exact hloop _ p (fun _ => rfl) rfl fun e he => GoMap.mem_entries.mp he

theorem checkKeepAlive_calm (hA : (p.sess s).origin = true →
      env.now - (p.sess s).alivetime > 60 →
      A (.spawns (.kickoutFromRoom (p.sess s).parent (p.sess s).userid))) :
    Calm A p (p.checkKeepAlive env s) := by
  unfold Pod.checkKeepAlive
  split
  · exact .refl p
  · next ho =>
      split
      · next hlate => exact .go p (hA (by simpa using ho) hlate)
      · exact .refl p

theorem keepaliveTick_calm (hb : Base A c)
    (hA : ∀ s, A (.spawns (.checkKeepAlive s))) (p : Pod) :
    Calm A p p.keepaliveTick := by
  have hroom : ∀ (p : Pod) (r : RoomRef), Calm A p (p.onCheckKeepalive r) :=
    fun p r => ((Calm.still (p.rlock_still (.sessions r)) hb.still).trans
      (Calm.foldl (fun p e _ => .go p (hA e.2)) _)).trans
      (.emit _ rfl hb.still)
  exact ((Calm.still (p.rlock_still .rooms) hb.still).trans
    (Calm.foldl (fun p e _ => hroom p e.2) _)).trans (.emit _ rfl hb.still)

namespace Pod

theorem onReceivedAudioData_still (s : SessRef) (buff : List UInt8)
    (pid : String) (p : Pod) : Still p (p.onReceivedAudioData s buff pid) := by
  refine ((p.rlock_still _).trans (Still.foldl (fun p e => ?_) _ _)).trans
    (runlock_still _ _)
  split
  · exact p.emit_still rfl
  · exact .refl p

theorem onReceivedVideoData_still (s : SessRef) (buff : List UInt8)
    (pid : String) (p : Pod) : Still p (p.onReceivedVideoData s buff pid) := by
  refine ((p.rlock_still _).trans (Still.foldl (fun p e => ?_) _ _)).trans
    (runlock_still _ _)
  split
  · exact p.emit_still rfl
  · exact .refl p

theorem deliverAppTo_still (sid pid : String) (buff : List UInt8)
    (peers : GoMap PeerRef) (p : Pod) :
    Still p (p.deliverAppTo sid pid buff peers) := by
  refine Still.foldl (fun p e => ?_) _ p
  split
  · exact p.emit_still rfl
  · exact .refl p

theorem broadcastAppData_still (s : SessRef) (sid pid : String)
    (buff : List UInt8) (p : Pod) :
    Still p (p.broadcastAppData s sid pid buff) :=
  (((p.rlock_still _).trans (deliverAppTo_still _ _ _ _ _)).trans
    (runlock_still _ _)).trans (((rlock_still _ _).trans
      (deliverAppTo_still _ _ _ _ _)).trans (runlock_still _ _))

theorem onReceivedAppData_still (r : RoomRef) (sid pid : String)
    (buff : List UInt8) (p : Pod) :
    Still p (p.onReceivedAppData r sid pid buff) :=
  ((p.rlock_still _).trans (Still.foldl
    (fun p _ => p.broadcastAppData_still _ _ _ _) _ _)).trans
    (runlock_still _ _)

theorem onDataChannel_still (x : PeerRef) (p : Pod) :
    Still p (p.onDataChannel x) := by
  unfold onDataChannel
  split
  · exact p.setPeer_still x (fun _ => rfl) fun _ h => h
  · exact .refl p

theorem registTick_still (env : Env) (p : Pod) :
    Still p (p.registTick env) := by
  unfold registTick
  dsimp only
  split
  · exact { Still.refl p with }
  · exact p.getSn_still.trans (emit_still _ rfl)

theorem setSendMessageHandler_still (p : Pod) :
    Still p p.setSendMessageHandler := by
  unfold setSendMessageHandler
  split
  · exact { Still.refl p with }
  · exact { Still.refl p with }

theorem notFoundRoom_still (m : JsonParser) (p : Pod) :
    Still p (p.notFoundRoom m) := by
  unfold notFoundRoom
  split
  all_goals first
    | exact p.emit_still rfl
    | exact .refl p

end Pod

theorem answerRoomCreated_calm (hb : Base A (command j))
    (hc : command j = some .roomCreated) (p : Pod) :
    Calm A p (p.answerRoomCreated env r j) := by
  refine Calm.foldl (fun p e _ => ?_) p
  dsimp only
  split
  · refine Calm.trans (.still ((p.rlock_still (.pubs e.2)).trans
      (Pod.runlock_still _ (.pubs e.2))) hb.still) ?_
    split
    · simp only [Pod.sessionHandleMessage, hc]
      exact handleRoomCreated_calm (hc ▸ hb) _
    · exact .refl _
  · exact .refl p

end MediaServer.Ref
