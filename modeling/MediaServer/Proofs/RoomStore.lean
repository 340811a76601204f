import MediaServer.Proofs.Store

/-!
# Every call keeps the room store

One lemma per call that edits the store, then one for the machine of
`Roommgr.lean`: whatever message arrives, whichever ticker fires and whichever
spawned call is run next, the store invariant holds again when the call is
over. The assumption on the messages is the one the emitting pods guarantee:
`fakepublish` and `fakeunpublish` name the pod they come from.
-/

namespace MediaServer.Ref

open MediaServer.Lib

variable {p q : Pod} {r : RoomRef} {uid : String} {t : Session}

/-! ## Insertions -/

theorem insertSession_shape (h : StoreShape p)
    (hr : r < p.roomHeap.next) (hu : t.userid = uid)
    (hpar : t.parent = r) (htag : (t.origin = true → t.podid = "") ∧
      (t.origin = false → t.podid ≠ "")) :
    StoreShape (p.insertSession r uid t) where
  toSeated := h.toSeated.insertSession hr hu hpar
  tagged s hs := by
    rw [Pod.insertSession_sess]
    rw [Pod.insertSession_sessNext] at hs
    split
    · exact htag
    · rename_i hne
      exact h.tagged s (Nat.lt_of_le_of_ne (Nat.le_of_lt_succ hs) hne)

/-- An origin session that the insertion does not overwrite stays one. -/
theorem insertSession_hasOrigin (h : StoreShape p) {i : RoomRef} {u : String}
    {s : SessRef} (hs : (p.room i).sessions.lookup u = some s)
    (ho : (p.sess s).origin = true) (hne : ¬(i = r ∧ u = uid)) :
    (p.insertSession r uid t).hasOrigin i = true := by
  have hlt := (h.sessions i u s hs).2.2
  refine Pod.hasOrigin_iff.mpr ⟨u, s, ?_, ?_⟩
  · rw [Pod.insertSession_lookup, if_neg hne]; exact hs
  · rw [Pod.insertSession_sess, if_neg (Nat.ne_of_lt hlt)]; exact ho

theorem insertSession_aliveBut (h : StoreShape p) (hb : AliveBut p r) :
    AliveBut (p.insertSession r uid t) r := by
  intro rid i hi hne
  rw [Pod.insertSession_rooms] at hi
  rcases hb rid i hi hne with ho | hpend
  · obtain ⟨u, s, hs, ho⟩ := Pod.hasOrigin_iff.mp ho
    exact .inl (insertSession_hasOrigin h hs ho fun hiu => hne hiu.1)
  · exact .inr (by rw [Pod.insertSession_pending]; exact hpend)

/-- Closing the invariant around room `r` after an insertion. -/
theorem insertSession_inv (h : StoreShape p) (hb : AliveBut p r)
    (hr : r < p.roomHeap.next) (hu : t.userid = uid) (hpar : t.parent = r)
    (htag : (t.origin = true → t.podid = "") ∧
      (t.origin = false → t.podid ≠ ""))
    (ho : (p.insertSession r uid t).hasOrigin r = true) :
    StoreInv (p.insertSession r uid t) where
  toStoreShape := insertSession_shape h hr hu hpar htag
  alive rid i hi := by
    by_cases hir : i = r
    · subst hir; exact .inl ho
    · exact insertSession_aliveBut h hb rid i hi hir

theorem insertRoom_shape (h : StoreShape p) (rid : String) :
    StoreShape (p.insertRoom rid) where
  toSeated := h.toSeated.insertRoom rid
  tagged s hs := by
    simp only [Pod.insertRoom, Pod.unlock, Pod.lock, Pod.storeRoom,
      Pod.allocRoom, Pod.emit_sessHeap, Pod.sess] at hs ⊢
    exact h.tagged s hs

theorem insertRoom_aliveBut (h : StoreInv p) (rid : String) :
    AliveBut (p.insertRoom rid) p.roomHeap.next := by
  intro id i hi hne
  have hlook : p.rooms.lookup id = some i := by
    simp only [Pod.insertRoom, Pod.unlock, Pod.lock, Pod.storeRoom,
      Pod.allocRoom, Pod.emit_rooms, GoMap.lookup_insert_eq] at hi
    split at hi
    · cases hi; exact absurd rfl hne
    · exact hi
  have hroom : (p.insertRoom rid).room i = p.room i := by
    simp only [Pod.insertRoom, Pod.unlock, Pod.lock, Pod.storeRoom,
      Pod.allocRoom, Pod.emit_roomHeap, Pod.room]
    exact Heap.alloc_cell_of_ne _ _ hne
  have hsess : ∀ s, (p.insertRoom rid).sess s = p.sess s := by
    intro s
    simp [Pod.insertRoom, Pod.unlock, Pod.lock, Pod.storeRoom, Pod.allocRoom,
      Pod.sess]
  rcases h.alive id i hlook with ho | hpend
  · obtain ⟨u, s, hs, ho⟩ := Pod.hasOrigin_iff.mp ho
    refine .inl (Pod.hasOrigin_iff.mpr ⟨u, s, ?_, ?_⟩)
    · rw [hroom]; exact hs
    · rw [hsess]; exact ho
  · refine .inr ?_
    simpa [Pod.insertRoom, Pod.unlock, Pod.lock, Pod.storeRoom, Pod.allocRoom]
      using hpend

theorem insertRoom_lookup (rid : String) (p : Pod) :
    (p.insertRoom rid).rooms.lookup rid = some p.roomHeap.next := by
  simp [Pod.insertRoom, Pod.unlock, Pod.lock, Pod.storeRoom, Pod.allocRoom]

/-! ## The calls into a room -/

/-- After `login` the room has an origin session, whatever it had before. -/
theorem handleLogin_inv (env : Env) (j : JsonParser) (h : StoreShape p)
    (hr : r < p.roomHeap.next) (hb : AliveBut p r) :
    StoreInv (p.handleLogin env r j) := by
  have he := p.dropIfPresent_edits r (getValue j .sessID)
  have hshape := h.of_edits he
  unfold Pod.handleLogin
  dsimp only
  generalize (if (p.room r).sessions.lookup (getValue j .sessID) = none then p
    else p.dropSession r (getValue j .sessID)) = p₁ at he hshape ⊢
  refine StoreInv.of_sameStore ?_ (Pod.tellStreams_quiet r _ _).toSameStore
  refine StoreInv.of_sameStore ?_ (Pod.emit_quiet _ _).toSameStore
  refine insertSession_inv hshape (hb.of_edits he)
    (by rw [he.roomNext]; exact hr) rfl rfl
    ⟨fun _ => rfl, fun h => by cases h⟩ ?_
  refine Pod.hasOrigin_iff.mpr ⟨getValue j .sessID, p₁.sessHeap.next, ?_, ?_⟩
  · rw [Pod.insertSession_lookup, if_pos ⟨rfl, rfl⟩]
  · rw [Pod.insertSession_sess, if_pos rfl]; rfl

theorem handleFakePublish_inv (env : Env) (j : JsonParser) (h : StoreInv p)
    (hr : r < p.roomHeap.next) (hpod : getValue j .podId ≠ "") :
    StoreInv (p.handleFakePublish env r j) := by
  have he := p.dropIfPresent_edits r (getValue j .sessID)
  have hnone := p.dropIfPresent_lookup_self r (getValue j .sessID)
  unfold Pod.handleFakePublish
  dsimp only
  generalize (if (p.room r).sessions.lookup (getValue j .sessID) = none then p
    else p.dropSession r (getValue j .sessID)) = p₁ at he hnone ⊢
  have hread : SameStore p₁ ((p₁.rlock (.sessions r)).runlock (.sessions r)) :=
    ((p₁.emit_quiet _).trans (Pod.emit_quiet _ _)).toSameStore
  have he₂ := he.trans (hread.edits r (getValue j .sessID))
  rw [← hread.room r] at hnone
  generalize (p₁.rlock (.sessions r)).runlock (.sessions r) = p₂
    at he₂ hnone ⊢
  have hshape := h.toStoreShape.of_edits he₂
  have hbut := (h.aliveBut r).of_edits he₂
  split
  · rename_i ho
    refine StoreInv.of_sameStore ?_
      (Pod.sessionHandleMessage_sameStore env _ j _)
    refine insertSession_inv hshape hbut (by rw [he₂.roomNext]; exact hr) rfl
      rfl
      ⟨fun h => (by cases h), fun _ => hpod⟩ ?_
    obtain ⟨u, s, hs, hso⟩ := Pod.hasOrigin_iff.mp ho
    refine insertSession_hasOrigin hshape hs hso ?_
    rintro ⟨-, rfl⟩
    rw [hnone] at hs
    cases hs
  · exact storeInv_of_release hshape (p₂.go_quiet rfl).toSameStore hbut
      (.inr (by simp [Pod.go]))

theorem handleFakeUnpublish_inv (j : JsonParser) (h : StoreInv p)
    (hpod : getValue j .podId ≠ "") : StoreInv (p.handleFakeUnpublish r j) := by
  have he := p.handleFakeUnpublish_edits r j
  refine ⟨h.toStoreShape.of_edits he, fun rid i hi => ?_⟩
  have hi' : p.rooms.lookup rid = some i := by rw [← he.rooms]; exact hi
  rcases h.alive rid i hi' with ho | hpend
  · obtain ⟨u, s, hs, ho⟩ := Pod.hasOrigin_iff.mp ho
    refine .inl ?_
    by_cases hiu : i = r ∧ u = getValue j .sessID
    · obtain ⟨rfl, rfl⟩ := hiu
      have htag := h.tagged s (h.sessions i _ s hs).2.2
      have hkeep : (p.sess s).podid ≠ getValue j .podId := by
        rw [htag.1 ho]; exact hpod.symm
      have hsame : SameStore p (p.handleFakeUnpublish i j) := by
        unfold Pod.handleFakeUnpublish
        simp only [Pod.lock, Pod.emit_room, Pod.emit_sess, hs, if_neg hkeep]
        exact ((p.emit_quiet _).trans (Pod.emit_quiet _ _)).toSameStore
      refine Pod.hasOrigin_iff.mpr ⟨getValue j .sessID, s, ?_, ?_⟩
      · rw [hsame.room]; exact hs
      · rw [hsame.origin]; exact ho
    · exact hasOrigin_of_edits he hs ho (by tauto)
  · exact .inr (he.pending.subset hpend)

/-- A kick that takes the last origin session spawns the release. -/
theorem kickoutFromRoom_inv (env : Env) (sid : String) (h : StoreInv p) :
    StoreInv (p.kickoutFromRoom env r sid) := by
  have he := Pod.kickSession_edits env r sid fun s hs => (h.sessions r sid s hs).1
  have hs := (Pod.spreadLeaved_quiet r sid (p.kickSession env r sid)).toSameStore
  have he₂ := he.trans (hs.edits r sid)
  unfold Pod.kickoutFromRoom
  generalize (p.kickSession env r sid).spreadLeaved r sid = p₁ at he₂ ⊢
  have hread : SameStore p₁ ((p₁.rlock (.sessions r)).runlock (.sessions r)) :=
    ((p₁.emit_quiet _).trans (Pod.emit_quiet _ _)).toSameStore
  have he₃ := he₂.trans (hread.edits r sid)
  unfold Pod.releaseIfEmpty
  dsimp only
  generalize (p₁.rlock (.sessions r)).runlock (.sessions r) = p₂ at he₃ ⊢
  have hshape := h.toStoreShape.of_edits he₃
  have hbut := (h.aliveBut r).of_edits he₃
  split
  · rename_i ho
    exact storeInv_of_release hshape (.refl p₂) hbut (.inl ho)
  · exact storeInv_of_release hshape (p₂.go_quiet rfl).toSameStore hbut
      (.inr (by simp [Pod.go]))

/-- The pods that announce a stream, or withdraw it, name themselves. -/
def NamesPod (m : JsonParser) : Prop :=
  command m = some .fakePublish ∨ command m = some .fakeUnpublish →
    getValue m .podId ≠ ""

instance (m : JsonParser) : Decidable (NamesPod m) :=
  inferInstanceAs (Decidable (_ → _))

theorem roomHandleMessage_inv (env : Env) (j : JsonParser) (h : StoreInv p)
    (hr : r < p.roomHeap.next) (hpod : NamesPod j) :
    StoreInv (p.roomHandleMessage env r j) := by
  have hquiet : ∀ {uid notFound}, (∀ p, Quiet p (notFound p)) →
      StoreInv (p.toSession env r uid j notFound) :=
    fun hn => h.of_sameStore (Pod.toSession_sameStore hn p)
  unfold Pod.roomHandleMessage
  dsimp only
  split
  case h_1 => exact handleLogin_inv env j h.toStoreShape hr (h.aliveBut r)
  case h_6 => exact kickoutFromRoom_inv env _ h
  case h_11 =>
    exact h.of_sameStore (Pod.answerRoomCreated_sameStore env r j p)
  case h_12 hc => exact handleFakePublish_inv env j h hr (hpod (.inl hc))
  case h_13 hc => exact handleFakeUnpublish_inv j h (hpod (.inr hc))
  case h_18 => exact h
  all_goals refine hquiet fun p => ?_
  all_goals first
    | exact p.emit_quiet _
    | exact .refl p

/-! ## The room manager -/

theorem StoreShape.of_clears (h : StoreShape p) (hc : Clears r p q) :
    StoreShape q where
  toSeated := h.toSeated.of_clears hc
  tagged s hs := by
    rw [hc.sessNext] at hs
    have hpod : (q.sess s).podid = (p.sess s).podid :=
      congrArg (·.2.2.2.1) (hc.ident s)
    have ho : (q.sess s).origin = (p.sess s).origin :=
      congrArg (·.2.2.2.2.1) (hc.ident s)
    rw [hpod, ho]
    exact h.tagged s hs

theorem Alive.of_clears {rid : String} {i : RoomRef} (h : Alive p rid i)
    (hc : Clears r p q) (hi : i ≠ r) : Alive q rid i := by
  rcases h with ho | hpend
  · obtain ⟨u, s, hu, ho⟩ := Pod.hasOrigin_iff.mp ho
    refine .inl (Pod.hasOrigin_iff.mpr ⟨u, s, ?_, ?_⟩)
    · rw [hc.other i hi]; exact hu
    · rw [← ho]; exact congrArg (·.2.2.2.2.1) (hc.ident s)
  · exact .inr (hc.pending.subset hpend)

/-- Releasing a room takes it out of the store, so it no longer needs to be
alive; a room under another id is another room. -/
theorem releaseRoom_inv (rid : String) (h : StoreShape p)
    (ha : ∀ id r, p.rooms.lookup id = some r → id ≠ rid → Alive p id r) :
    StoreInv (p.releaseRoom rid) := by
  have hlock : SameStore p (p.lock .rooms) := (p.emit_quiet _).toSameStore
  have h₁ : StoreShape (p.lock .rooms) := h.of_edits (hlock.edits 0 "")
  have ha₁ : ∀ id r, (p.lock .rooms).rooms.lookup id = some r → id ≠ rid →
      Alive (p.lock .rooms) id r := by
    intro id r hr hne
    rw [hlock.rooms] at hr
    exact (ha id r hr hne).of_sameStore hlock
  unfold Pod.releaseRoom
  dsimp only
  refine StoreInv.of_sameStore ?_ (Pod.emit_quiet _ _).toSameStore
  generalize p.lock .rooms = p₁ at h₁ ha₁ ⊢
  split
  · rename_i r hr
    have hc := destroyRoom_clears r p₁
    have hshape := h₁.of_clears hc
    have hback : ∀ id i, ((p₁.destroyRoom r).eraseRoom rid).rooms.lookup id =
        some i → id ≠ rid ∧ p₁.rooms.lookup id = some i := by
      intro id i hi
      have hi' : ((p₁.destroyRoom r).rooms.erase rid).lookup id = some i := hi
      rw [GoMap.lookup_erase_eq, hc.rooms] at hi'
      split at hi'
      · cases hi'
      · rename_i hne; exact ⟨hne, hi'⟩
    refine ⟨⟨hshape.toSeated.eraseRoom rid, hshape.tagged⟩, fun id i hi => ?_⟩
    · obtain ⟨hne, hlook⟩ := hback id i hi
      change Alive (p₁.destroyRoom r) id i
      refine (ha₁ id i hlook hne).of_clears hc ?_
      rintro rfl
      exact hne ((h₁.rooms id i hlook).1.symm.trans (h₁.rooms rid i hr).1)
  · rename_i hnone
    refine ⟨h₁, fun id i hi => ha₁ id i hi ?_⟩
    rintro rfl
    rw [hnone] at hi
    cases hi

theorem mgrLogin_inv (env : Env) (m : JsonParser) (h : StoreInv p)
    (hc : command m = some .login) : StoreInv (p.mgrLogin env m) := by
  have hcall : ∀ {p : Pod} {rid : String} {r : RoomRef}, StoreShape p →
      p.rooms.lookup rid = some r → AliveBut p r →
      StoreInv (p.callRoom env (some r) m) := by
    intro p rid r hs hr hb
    simp only [Pod.callRoom, Pod.roomHandleMessage, hc]
    exact handleLogin_inv env m hs (hs.rooms rid r hr).2 hb
  have hread : ∀ p : Pod, SameStore p ((p.rlock .rooms).runlock .rooms) :=
    fun p => ((p.emit_quiet _).trans (Pod.emit_quiet _ _)).toSameStore
  unfold Pod.mgrLogin
  dsimp only
  by_cases hroom : p.rooms.lookup (getValue m .roomId) = none
  · rw [if_pos hroom]
    have hb : SameStore (p.insertRoom (getValue m .roomId))
        ((p.insertRoom (getValue m .roomId)).broadcastRoomCreated env m) :=
      ((Pod.getSn_quiet _).trans (Pod.emit_quiet _ _)).toSameStore
    have hs := hb.trans (hread _)
    rw [hs.rooms, insertRoom_lookup]
    exact hcall ((insertRoom_shape h.toStoreShape _).of_edits (hs.edits 0 ""))
      (by rw [hs.rooms]; exact insertRoom_lookup _ p)
      ((insertRoom_aliveBut h _).of_edits (hs.edits _ ""))
  · rw [if_neg hroom]
    obtain ⟨r, hr⟩ := Option.ne_none_iff_exists'.mp hroom
    rw [(hread p).rooms, hr]
    have h' := h.of_sameStore (hread p)
    exact hcall h'.toStoreShape (by rw [(hread p).rooms]; exact hr)
      (h'.aliveBut r)

theorem mgrHandleMessage_inv (env : Env) (m : JsonParser) (h : StoreInv p)
    (hpod : NamesPod m) : StoreInv (p.mgrHandleMessage env m) := by
  have hna : StoreInv (p.notifyServiceNotAvailable (getValue m .cmd)
      (getValue m .sessID)) := h.of_sameStore (p.emit_quiet _).toSameStore
  unfold Pod.mgrHandleMessage
  split
  · exact h.of_sameStore (p.handlePodRegist_quiet m).toSameStore
  · exact h.of_sameStore p.handlePodRegistNow_quiet.toSameStore
  · rename_i hc
    split
    · exact mgrLogin_inv env m h hc
    · exact hna
  · split
    · unfold Pod.mgrForward
      split
      · split
        · next hr =>
            exact roomHandleMessage_inv env m h (h.rooms _ _ hr).2 hpod
        · exact h.of_sameStore (p.notFoundRoom_quiet m).toSameStore
      · exact h
    · exact hna

theorem runGoroutine_inv (env : Env) {i : Nat} {g : Goroutine} (h : StoreInv p)
    (hi : p.pending[i]? = some g) : StoreInv (Pod.runGoroutine env g
      { p with pending := p.pending.eraseIdx i }) := by
  have hshape : StoreShape { p with pending := p.pending.eraseIdx i } :=
    ⟨⟨h.rooms, h.sessions, h.known⟩, h.tagged⟩
  have halive : ∀ id r, p.rooms.lookup id = some r →
      Goroutine.releaseRoom id ≠ g →
      Alive { p with pending := p.pending.eraseIdx i } id r := by
    intro id r hr hne
    rcases h.alive id r hr with ho | hpend
    · exact .inl ho
    · exact .inr (mem_eraseIdx_of_ne hi hpend hne)
  have hinv : (∀ id, Goroutine.releaseRoom id ≠ g) →
      StoreInv { p with pending := p.pending.eraseIdx i } :=
    fun hne => ⟨hshape, fun id r hr => halive id r hr (hne id)⟩
  by_cases hseat : g.staysSeated = true
  · refine (hinv fun id hg => ?_).of_sameStore
      (Pod.runGoroutine_sameStore env hseat _)
    rw [← hg] at hseat
    cases hseat
  · cases g with
    | releaseRoom rid =>
        exact releaseRoom_inv rid hshape fun id r hr hne =>
          halive id r hr fun hg => hne (Goroutine.releaseRoom.inj hg)
    | kickoutFromRoom r sid =>
        exact kickoutFromRoom_inv env sid (hinv fun _ => by simp)
    | _ => exact absurd rfl hseat

/-- The condition on an input of the machine. -/
def Input.NamesPod : Input → Prop
  | .message m => Ref.NamesPod m
  | _ => True

instance : (a : Input) → Decidable a.NamesPod
  | .message m => inferInstanceAs (Decidable (Ref.NamesPod m))
  | .setSendMessageHandler | .keepaliveTick | .registTick | .registStop
  | .ice _ _ | .checkTimer _ _ | .dataChannel _ | .audio _ _ | .video _ _
  | .appData _ _ | .go _ => .isTrue trivial

theorem step_inv {a : Env × Input} (h : StoreInv p) (hok : a.2.NamesPod)
    (hs : Pod.step a p = some q) : StoreInv q := by
  obtain ⟨env, inp⟩ := a
  cases inp with
  | message m =>
      unfold Pod.step at hs
      split at hs
      · cases hs
      · cases hs; exact mgrHandleMessage_inv env m h hok
  | go i =>
      unfold Pod.step at hs
      split at hs
      · cases hs
      · dsimp only at hs
        split at hs
        · rename_i g hg; cases hs; exact runGoroutine_inv env h hg
        · cases hs
  | _ =>
      exact h.of_sameStore (Pod.step_sameStore rfl (fun _ => by simp) hs)

theorem createRoomMgr_inv (conf : Config) :
    StoreInv (Pod.createRoomMgr conf) where
  rooms _ _ h := by cases h
  sessions _ _ _ h := by cases h
  known _ _ _ h := by cases h
  tagged _ h := by cases h
  alive _ _ h := by cases h

/-- The store between calls, as it can be read off the maps. -/
structure RoomStoreOk (p : Pod) : Prop where
  origin : ∀ rid r, p.rooms.lookup rid = some r →
    Goroutine.releaseRoom rid ∉ p.pending →
    ∃ uid s, (p.room r).sessions.lookup uid = some s ∧
      (p.sess s).origin = true
  roomid : ∀ rid r, p.rooms.lookup rid = some r → (p.room r).roomid = rid
  userid : ∀ r uid s, (p.room r).sessions.lookup uid = some s →
    (p.sess s).userid = uid
  podid : ∀ r uid s, (p.room r).sessions.lookup uid = some s →
    ((p.sess s).origin = true → (p.sess s).podid = "") ∧
      ((p.sess s).origin = false → (p.sess s).podid ≠ "")

theorem StoreInv.ok (h : StoreInv p) : RoomStoreOk p where
  origin rid r hr hpend := by
    rcases h.alive rid r hr with ho | hpend'
    · exact Pod.hasOrigin_iff.mp ho
    · exact absurd hpend' hpend
  roomid rid r hr := (h.rooms rid r hr).1
  userid r uid s hs := (h.sessions r uid s hs).1
  podid r uid s hs := h.tagged s (h.sessions r uid s hs).2.2

/-- In every run of whole calls every room has an origin session, except
while the call that will release it waits for its turn; rooms and sessions are
stored under their own ids; and the pod id is empty exactly for the origin
sessions. Once no spawned call is left the exception is void. -/
theorem roomStore_ok {conf : Config} {as : List (Env × Input)}
    (hok : ∀ a ∈ as, a.2.NamesPod)
    (hrun : run Pod.step as (Pod.createRoomMgr conf) = some p) :
    RoomStoreOk p ∧ (p.pending = [] → ∀ rid r, p.rooms.lookup rid = some r →
      ∃ uid s, (p.room r).sessions.lookup uid = some s ∧
        (p.sess s).origin = true) := by
  have hg : Guarded Pod.step (fun _ a => a.2.NamesPod) as
      (Pod.createRoomMgr conf) := guarded_of_forall hok
  have hinv : StoreInv p :=
    run_invariant (fun a s s' hi hk hs => step_inv hi hk hs) hg
      (createRoomMgr_inv conf) hrun
  refine ⟨hinv.ok, fun hnil rid r hr => hinv.ok.origin rid r hr ?_⟩
  rw [hnil]
  exact List.not_mem_nil

/-- A user logs in, another pod announces a stream of `w`, the user leaves
and the release of the room takes its turn. -/
def releaseRun : List (Env × Input) :=
  [(Env.calm, .setSendMessageHandler),
    (Env.calm, .message (Cmd.login.msg [(.roomId, "R"), (.sessID, "u")])),
    (Env.calm, .message (Cmd.fakePublish.msg
      [(.roomId, "R"), (.sessID, "w"), (.peerID, "1"), (.podId, "podB")])),
    (Env.calm, .message (Cmd.logout.msg [(.roomId, "R"), (.sessID, "u")])),
    (Env.calm, .go 1)]

theorem roomStore_ok_releaseRun :
    ∃ p, run Pod.step releaseRun
        (Pod.createRoomMgr (Config.standalone "podA")) = some p ∧
      p.rooms.lookup "R" = none ∧ RoomStoreOk p := by
  have hrooms : (run Pod.step releaseRun (Pod.createRoomMgr
      (Config.standalone "podA"))).map (fun p => p.rooms.lookup "R") =
      some none := by decide
  obtain ⟨p, hp, hnone⟩ := Option.map_eq_some_iff.mp hrooms
  exact ⟨p, hp, hnone, (roomStore_ok (by decide) hp).1⟩

end MediaServer.Ref
