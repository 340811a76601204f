import MediaServer.Proofs.Frame

/-!
# The room store

Who is in which room changes in four places: a session is taken out of a room
(`login` and `fakepublish` over an old one, `fakeunpublish`, a kick), a session
is put in, a room is put in, a room is released. `Edits r uid` is the frame of
the first: only the entry of `uid` in room `r` may go, everything else about
the store stays. The others have their own lookups.

With these the invariant is short. Its only delicate clause is the one that
keeps rooms from leaking: a room without an origin session has its release
pending. A kick that empties a room spawns the release in the same call, and
so does a `fakepublish` that replaces the last origin session; `fakeunpublish`
compares pod ids, so it can only take out a session whose pod id is the
message's, and an origin session has the empty one.
-/

namespace MediaServer.Ref

open MediaServer.Lib

/-- Only the entry of `uid` in room `r` may have been taken out. -/
structure Edits (r : RoomRef) (uid : String) (p q : Pod) : Prop where
  rooms : q.rooms = p.rooms
  roomNext : q.roomHeap.next = p.roomHeap.next
  other : ∀ i, i ≠ r → q.room i = p.room i
  roomid : (q.room r).roomid = (p.room r).roomid
  keep : ∀ u, u ≠ uid →
    (q.room r).sessions.lookup u = (p.room r).sessions.lookup u
  lose : ∀ s, (q.room r).sessions.lookup uid = some s →
    (p.room r).sessions.lookup uid = some s
  sessNext : q.sessHeap.next = p.sessHeap.next
  ident : ∀ s, (q.sess s).ident = (p.sess s).ident
  pending : p.pending <+: q.pending
  uuid : q.conf.uuid = p.conf.uuid

theorem SameStore.edits {p q : Pod} (h : SameStore p q) (r : RoomRef)
    (uid : String) : Edits r uid p q where
  rooms := h.rooms
  roomNext := by rw [h.roomHeap]
  other i _ := h.room i
  roomid := by rw [h.room]
  keep u _ := by rw [h.room]
  lose s hs := by rwa [h.room] at hs
  sessNext := h.sessNext
  ident := h.ident
  pending := h.pending
  uuid := h.uuid

theorem Edits.trans {r : RoomRef} {uid : String} {p q t : Pod}
    (h : Edits r uid p q) (h' : Edits r uid q t) : Edits r uid p t where
  rooms := h'.rooms.trans h.rooms
  roomNext := h'.roomNext.trans h.roomNext
  other i hi := (h'.other i hi).trans (h.other i hi)
  roomid := h'.roomid.trans h.roomid
  keep u hu := (h'.keep u hu).trans (h.keep u hu)
  lose s hs := h.lose s (h'.lose s hs)
  sessNext := h'.sessNext.trans h.sessNext
  ident s := (h'.ident s).trans (h.ident s)
  pending := h.pending.trans h'.pending
  uuid := h'.uuid.trans h.uuid

theorem Edits.origin {r : RoomRef} {uid : String} {p q : Pod}
    (h : Edits r uid p q) (s : SessRef) :
    (q.sess s).origin = (p.sess s).origin := congrArg (·.2.2.2.2.1) (h.ident s)

/-- Every session that is in a room after the edit was there before. -/
theorem Edits.back {r i : RoomRef} {uid u : String} {s : SessRef} {p q : Pod}
    (h : Edits r uid p q) (hs : (q.room i).sessions.lookup u = some s) :
    (p.room i).sessions.lookup u = some s := by
  by_cases hi : i = r
  · subst hi
    by_cases hu : u = uid
    · subst hu; exact h.lose s hs
    · rwa [h.keep u hu] at hs
  · rwa [h.other i hi] at hs

/-- Taking a call off the pending list touches no other call. -/
theorem mem_eraseIdx_of_ne {α : Type} {l : List α} {i : Nat} {a b : α}
    (hi : l[i]? = some a) (hb : b ∈ l) (hne : b ≠ a) : b ∈ l.eraseIdx i := by
  obtain ⟨k, hk, rfl⟩ := List.getElem_of_mem hb
  refine List.mem_eraseIdx_iff_getElem.mpr ⟨k, hk, ?_, rfl⟩
  rintro rfl
  rw [List.getElem?_eq_getElem hk] at hi
  exact hne (Option.some.inj hi)

/-- A spawned call other than a kick and the release of a room. -/
def Goroutine.staysSeated : Goroutine → Bool
  | .releaseRoom _ | .kickoutFromRoom _ _ => false
  | _ => true

namespace Pod

variable {p q : Pod}

theorem eraseSession_edits (r : RoomRef) (uid : String) (p : Pod) :
    Edits r uid p (p.eraseSession r uid) where
  rooms := rfl
  roomNext := rfl
  other i hi := by simp [eraseSession, setRoom_room, hi]
  roomid := by simp [eraseSession, setRoom_room]
  keep u hu := by simp [eraseSession, setRoom_room, hu]
  lose s hs := by simp [eraseSession, setRoom_room] at hs
  sessNext := rfl
  ident _ := rfl
  pending := List.prefix_refl _
  uuid := rfl

theorem eraseSession_lookup_self (r : RoomRef) (uid : String) (p : Pod) :
    ((p.eraseSession r uid).room r).sessions.lookup uid = none := by
  simp [eraseSession, setRoom_room]

/-! ## Taking a session out -/

theorem leaveErase_edits (r : RoomRef) (s : SessRef) (uid : String) (p : Pod) :
    Edits r uid p ((p.doLeave s).eraseSession r uid) :=
  ((p.doLeave_sameStore s).edits r uid).trans
    (eraseSession_edits r uid _)

theorem dropSession_edits (r : RoomRef) (uid : String) (p : Pod) :
    Edits r uid p (p.dropSession r uid) := by
  have hlock := (p.emit_quiet (.sync (.lock (.sessions r)))).toSameStore.edits
    r uid
  unfold dropSession
  dsimp only
  split
  · exact hlock.trans ((throw_quiet _).toSameStore.edits r uid)
  · exact (hlock.trans (leaveErase_edits r _ uid _)).trans
      ((emit_quiet _ _).toSameStore.edits r uid)

theorem dropSession_lookup_self (r : RoomRef) (uid : String) (p : Pod) :
    ((p.dropSession r uid).room r).sessions.lookup uid = none := by
  unfold dropSession
  dsimp only
  split
  · rename_i h; exact h
  · simp only [unlock, emit_room]
    exact eraseSession_lookup_self r uid _

/-- The test and the section of `login` and `fakepublish` together: the user
has no session afterwards. -/
theorem dropIfPresent_edits (r : RoomRef) (uid : String) (p : Pod) :
    Edits r uid p (if (p.room r).sessions.lookup uid = none then p
      else p.dropSession r uid) := by
  split
  · exact (SameStore.refl p).edits r uid
  · exact p.dropSession_edits r uid

theorem dropIfPresent_lookup_self (r : RoomRef) (uid : String) (p : Pod) :
    ((if (p.room r).sessions.lookup uid = none then p
      else p.dropSession r uid).room r).sessions.lookup uid = none := by
  split
  · rename_i h; exact h
  · exact p.dropSession_lookup_self r uid

theorem notifyLeaveRoom_quiet (env : Env) (r : RoomRef) (sid : String)
    (p : Pod) : Quiet p (p.notifyLeaveRoom env r sid) :=
  p.getSn_quiet.trans (emit_quiet _ _)

/-- `KickoutFromRoom` deletes under the session's own user id. -/
theorem kickSession_edits (env : Env) (r : RoomRef) (sid : String) {p : Pod}
    (hid : ∀ s, (p.room r).sessions.lookup sid = some s →
      (p.sess s).userid = sid) : Edits r sid p (p.kickSession env r sid) := by
  have hlock := (p.emit_quiet (.sync (.lock (.sessions r)))).toSameStore.edits
    r sid
  unfold kickSession
  dsimp only
  refine Edits.trans ?_ ((emit_quiet _ _).toSameStore.edits r sid)
  split
  · rename_i s hs
    have hu : ((p.lock (.sessions r)).sess s).userid = sid := by
      simp only [lock, emit_room, emit_sess] at hs ⊢
      exact hid s hs
    rw [hu]
    have hdrop := hlock.trans (leaveErase_edits r s sid _)
    split
    · exact hdrop.trans ((notifyLeaveRoom_quiet env r sid _).toSameStore.edits
        r sid)
    · exact hdrop
  · exact hlock

theorem spreadLeaved_quiet (r : RoomRef) (sid : String) (p : Pod) :
    Quiet p (p.spreadLeaved r sid) :=
  ((p.emit_quiet _).trans (Asks.foldl (fun p _ => p.go_quiet rfl) _ _)).trans
    (emit_quiet _ _)

theorem releaseIfEmpty_quiet (r : RoomRef) (p : Pod) :
    Quiet p (p.releaseIfEmpty r) := by
  have h := (p.emit_quiet (.sync (.rlock (.sessions r)))).trans
    (emit_quiet _ (.sync (.runlock (.sessions r))))
  unfold releaseIfEmpty
  dsimp only
  split
  · exact h
  · exact h.trans (go_quiet _ rfl)

theorem kickoutFromRoom_edits {env : Env} {r : RoomRef} {sid : String}
    {p : Pod} (hid : ∀ s, (p.room r).sessions.lookup sid = some s →
      (p.sess s).userid = sid) :
    Edits r sid p (p.kickoutFromRoom env r sid) :=
  ((kickSession_edits _ _ _ hid).trans
    ((spreadLeaved_quiet r sid _).toSameStore.edits r sid)).trans
    ((releaseIfEmpty_quiet r _).toSameStore.edits r sid)

theorem handleFakeUnpublish_edits (r : RoomRef) (j : JsonParser) (p : Pod) :
    Edits r (getValue j .sessID) p (p.handleFakeUnpublish r j) := by
  have hlock := (p.emit_quiet (.sync (.lock (.sessions r)))).toSameStore.edits
    r (getValue j .sessID)
  unfold handleFakeUnpublish
  dsimp only
  refine Edits.trans ?_ ((emit_quiet _ _).toSameStore.edits r _)
  split
  · split
    · exact hlock.trans (leaveErase_edits r _ _ _)
    · exact hlock
  · exact hlock

/-! ## Calls that leave the store alone -/

theorem tellStreams_quiet (r : RoomRef) (uid : String) (p : Pod) :
    Quiet p (p.tellStreams r uid) := by
  refine Asks.foldl (fun p a => ?_) _ p
  have h := (p.emit_quiet (.sync (.rlock (.pubs a.2)))).trans
    (emit_quiet _ (.sync (.runlock (.pubs a.2))))
  dsimp only
  split
  · exact h.trans (emit_quiet _ _)
  · exact h

theorem toSession_sameStore {env : Env} {r : RoomRef} {uid : String}
    {j : JsonParser} {notFound : Pod → Pod} (hn : ∀ p, Quiet p (notFound p))
    (p : Pod) : SameStore p (p.toSession env r uid j notFound) := by
  unfold toSession
  split
  · exact sessionHandleMessage_sameStore env _ j p
  · exact (hn p).toSameStore

theorem answerRoomCreated_sameStore (env : Env) (r : RoomRef) (j : JsonParser)
    (p : Pod) : SameStore p (p.answerRoomCreated env r j) := by
  refine SameStore.foldl (fun p a => ?_) _ p
  have h := ((p.emit_quiet (.sync (.rlock (.pubs a.2)))).trans
    (emit_quiet _ (.sync (.runlock (.pubs a.2))))).toSameStore
  dsimp only
  split
  · split
    · exact h.trans (sessionHandleMessage_sameStore env a.2 j _)
    · exact h
  · exact .refl p

theorem onPublisherReady_quiet (r : RoomRef) (sid name pid : String)
    (p : Pod) : Quiet p (p.onPublisherReady r sid name pid) := by
  refine Asks.foldl (fun p a => ?_) _ p
  split
  · exact p.emit_quiet _
  · exact .refl p

theorem onPublisherPeerFailed_sameStore (env : Env) (r : RoomRef)
    (sid pid : String) (p : Pod) :
    SameStore p (p.onPublisherPeerFailed env r sid pid) := by
  unfold onPublisherPeerFailed
  split
  · exact p.releasePublisher_sameStore env _ pid
  · exact .refl p

theorem onSubscriberPeerFailed_sameStore (r : RoomRef) (sid ssid pid : String)
    (p : Pod) : SameStore p (p.onSubscriberPeerFailed r sid ssid pid) := by
  unfold onSubscriberPeerFailed
  split
  · exact p.releaseSubscriberPeer_sameStore _ sid ssid pid
  · exact .refl p

theorem onCheckKeepalive_quiet (r : RoomRef) (p : Pod) :
    Quiet p (p.onCheckKeepalive r) :=
  ((p.emit_quiet _).trans (Asks.foldl (fun p _ => p.go_quiet rfl) _ _)).trans
    (emit_quiet _ _)

theorem keepaliveTick_quiet (p : Pod) : Quiet p p.keepaliveTick :=
  ((p.emit_quiet _).trans
    (Asks.foldl (fun p _ => p.onCheckKeepalive_quiet _) _ _)).trans
    (emit_quiet _ _)

theorem onReceivedAppData_quiet (r : RoomRef) (sid pid : String)
    (buff : List UInt8) (p : Pod) :
    Quiet p (p.onReceivedAppData r sid pid buff) :=
  ((p.emit_quiet _).trans
    (Asks.foldl (fun p _ => p.broadcastAppData_quiet _ sid pid buff) _ _)).trans
    (emit_quiet _ _)

theorem onDataChannel_quiet (x : PeerRef) (p : Pod) :
    Quiet p (p.onDataChannel x) := by
  unfold onDataChannel
  split
  · exact p.setPeer_quiet x fun _ => ⟨rfl, rfl⟩
  · exact .refl p

theorem notFoundRoom_quiet (m : JsonParser) (p : Pod) :
    Quiet p (p.notFoundRoom m) := by
  unfold notFoundRoom
  split
  all_goals first
    | exact p.emit_quiet _
    | exact .refl p

theorem registTick_quiet (env : Env) (p : Pod) :
    Quiet p (p.registTick env) := by
  unfold registTick
  split
  · exact { Asks.refl p with }
  · exact p.getSn_quiet.trans (emit_quiet _ _)

theorem handlePodRegist_quiet (m : JsonParser) (p : Pod) :
    Quiet p (p.handlePodRegist m) := by
  unfold handlePodRegist
  split
  · exact p.throw_quiet
  · split
    · exact { Asks.refl p with }
    · exact .refl p

theorem handlePodRegistNow_quiet (p : Pod) : Quiet p p.handlePodRegistNow := by
  unfold handlePodRegistNow
  split
  · exact { Asks.refl p with }
  · exact .refl p

theorem setSendMessageHandler_quiet (p : Pod) :
    Quiet p p.setSendMessageHandler := by
  unfold setSendMessageHandler
  split
  · exact { Asks.refl p with }
  · exact { Asks.refl p with }

theorem runGoroutine_sameStore (env : Env) {g : Goroutine}
    (hg : g.staysSeated = true) (p : Pod) :
    SameStore p (p.runGoroutine env g) := by
  cases g with
  | releaseRoom rid => cases hg
  | kickoutFromRoom r sid => cases hg
  | checkKeepAlive s => exact (p.checkKeepAlive_quiet env s).toSameStore
  | handleSubscriberLeaved s sid => exact p.handleSubscriberLeaved_sameStore s sid
  | onPublisherReady r sid name pid =>
      exact (p.onPublisherReady_quiet r sid name pid).toSameStore
  | onPublisherPeerFailed r sid pid x | onPublisherPeerClosed r sid pid x =>
      exact p.onPublisherPeerFailed_sameStore env r sid pid
  | onSubscriberPeerFailed r sid ssid pid x
  | onSubscriberPeerClosed r sid ssid pid x =>
      exact p.onSubscriberPeerFailed_sameStore r sid ssid pid
  | releaseSubscriberPeer s sid ssid pid x =>
      exact p.releaseSubscriberPeer_sameStore s sid ssid pid
  | fakePublisherReConnect s sid pid n =>
      exact (p.fakePublisherReConnect_quiet s sid pid n).toSameStore
  | requestKeyframe x => exact .refl p

/-- Everything but a message, a callback and the turn of a spawned call. -/
theorem step_quiet {a : Env × Input} (hm : a.2.msg? = none)
    (hice : ∀ x st, a.2 ≠ .ice x st) (hgo : ∀ i, a.2 ≠ .go i)
    (hs : step a p = some q) : Quiet p q := by
  obtain ⟨env, inp⟩ := a
  unfold step at hs
  split at hs
  · cases hs
  · cases inp with
    | setSendMessageHandler => cases hs; exact p.setSendMessageHandler_quiet
    | message m => cases hm
    | keepaliveTick => cases hs; exact p.keepaliveTick_quiet
    | registTick =>
        dsimp only at hs
        split at hs
        · cases hs; exact p.registTick_quiet env
        · cases hs
    | registStop =>
        dsimp only at hs
        split at hs
        · cases hs; exact { Asks.refl p with }
        · cases hs
    | ice x st => exact absurd rfl (hice x st)
    | checkTimer s i => cases hs; exact p.checkTimer_quiet s i
    | dataChannel x => cases hs; exact p.onDataChannel_quiet x
    | audio x buff => cases hs; exact p.onReceivedAudioData_quiet _ _ _
    | video x buff => cases hs; exact p.onReceivedVideoData_quiet _ _ _
    | appData x buff => cases hs; exact p.onReceivedAppData_quiet _ _ _ _
    | go i => exact absurd rfl (hgo i)

/-- Everything but a message and the turn of a spawned call. -/
theorem step_sameStore {a : Env × Input} (hm : a.2.msg? = none)
    (hgo : ∀ i, a.2 ≠ .go i) (hs : step a p = some q) : SameStore p q := by
  by_cases hice : ∃ x st, a.2 = .ice x st
  · obtain ⟨x, st, ha⟩ := hice
    simp only [step, ha] at hs
    split at hs
    · cases hs
    · split at hs
      · cases hs
        exact (p.onICEConnectionStateChange_asks x st).toSameStore
      · cases hs
  · exact (step_quiet hm (fun x st ha => hice ⟨x, st, ha⟩) hgo hs).toSameStore

/-! ## Putting a session in -/

variable (r : RoomRef) (uid : String) (t : Session)

@[simp] theorem insertSession_rooms :
    (p.insertSession r uid t).rooms = p.rooms := by
  simp [insertSession, unlock, lock, storeSession, setRoom, allocSess]

@[simp] theorem insertSession_pending :
    (p.insertSession r uid t).pending = p.pending := by
  simp [insertSession, unlock, lock, storeSession, setRoom, allocSess]

@[simp] theorem insertSession_roomNext :
    (p.insertSession r uid t).roomHeap.next = p.roomHeap.next := by
  simp [insertSession, unlock, lock, storeSession, setRoom, allocSess]

@[simp] theorem insertSession_sessNext :
    (p.insertSession r uid t).sessHeap.next = p.sessHeap.next + 1 := by
  simp [insertSession, unlock, lock, storeSession, setRoom, allocSess]

theorem insertSession_sess (i : SessRef) :
    (p.insertSession r uid t).sess i =
      if i = p.sessHeap.next then t else p.sess i := by
  simp [insertSession, unlock, lock, storeSession, setRoom, allocSess, sess,
    Heap.alloc_cell]

theorem insertSession_room (i : RoomRef) :
    (p.insertSession r uid t).room i =
      if i = r then
        { p.room i with
          sessions := (p.room i).sessions.insert uid p.sessHeap.next }
      else p.room i := by
  simp only [insertSession, unlock, lock, storeSession, emit_room,
    setRoom_room]
  rfl

theorem insertSession_lookup (i : RoomRef) (u : String) :
    ((p.insertSession r uid t).room i).sessions.lookup u =
      if i = r ∧ u = uid then some p.sessHeap.next
      else (p.room i).sessions.lookup u := by
  rw [insertSession_room]
  by_cases hi : i = r
  · simp [hi, GoMap.lookup_insert_eq]
  · simp [hi]

theorem hasOrigin_iff {p : Pod} {r : RoomRef} :
    p.hasOrigin r = true ↔ ∃ u s, (p.room r).sessions.lookup u = some s ∧
      (p.sess s).origin = true := by
  simp only [hasOrigin, List.any_eq_true]
  constructor
  · rintro ⟨⟨u, s⟩, hmem, ho⟩
    exact ⟨u, s, GoMap.mem_entries.mp hmem, ho⟩
  · rintro ⟨u, s, hu, ho⟩
    exact ⟨⟨u, s⟩, GoMap.mem_entries.mpr hu, ho⟩

end Pod

/-! ## Releasing a room -/

section Clears

variable {p q : Pod} {r : RoomRef}

/-- Room `r` was emptied and nothing else about the store changed. -/
structure Clears (r : RoomRef) (p q : Pod) : Prop where
  rooms : q.rooms = p.rooms
  roomNext : q.roomHeap.next = p.roomHeap.next
  other : ∀ i, i ≠ r → q.room i = p.room i
  roomid : (q.room r).roomid = (p.room r).roomid
  empty : (q.room r).sessions = ∅
  sessNext : q.sessHeap.next = p.sessHeap.next
  ident : ∀ s, (q.sess s).ident = (p.sess s).ident
  pending : p.pending <+: q.pending
  uuid : q.conf.uuid = p.conf.uuid

theorem clearSessions_clears (r : RoomRef) (p : Pod) :
    Clears r p (p.clearSessions r) where
  rooms := rfl
  roomNext := rfl
  other i hi := by simp [Pod.clearSessions, Pod.setRoom_room, hi]
  roomid := by simp [Pod.clearSessions, Pod.setRoom_room]
  empty := by simp [Pod.clearSessions, Pod.setRoom_room]
  sessNext := rfl
  ident _ := rfl
  pending := List.prefix_refl _
  uuid := rfl

theorem Clears.of_sameStore {p' q' : Pod} (hp : SameStore p' p)
    (h : Clears r p q) (hq : SameStore q q') : Clears r p' q' where
  rooms := by rw [hq.rooms, h.rooms, hp.rooms]
  roomNext := by rw [hq.roomHeap, h.roomNext, hp.roomHeap]
  other i hi := by rw [hq.room, h.other i hi, hp.room]
  roomid := by rw [hq.room, h.roomid, hp.room]
  empty := by rw [hq.room, h.empty]
  sessNext := by rw [hq.sessNext, h.sessNext, hp.sessNext]
  ident s := by rw [hq.ident, h.ident, hp.ident]
  pending := (hp.pending.trans h.pending).trans hq.pending
  uuid := by rw [hq.uuid, h.uuid, hp.uuid]

theorem destroyRoom_clears (r : RoomRef) (p : Pod) :
    Clears r p (p.destroyRoom r) := by
  have hleave : SameStore p
      (((p.lock (.sessions r)).room r).sessions.entries.foldl
        (fun p e => p.doLeave e.2) (p.lock (.sessions r))) :=
    (p.emit_quiet _).toSameStore.trans
      (SameStore.foldl (fun p _ => p.doLeave_sameStore _) _ _)
  exact (clearSessions_clears r _).of_sameStore hleave
    (Pod.emit_quiet _ _).toSameStore

theorem Clears.back {i : RoomRef} {u : String} {s : SessRef}
    (h : Clears r p q) (hs : (q.room i).sessions.lookup u = some s) :
    (p.room i).sessions.lookup u = some s := by
  by_cases hi : i = r
  · subst hi; rw [h.empty] at hs; cases hs
  · rwa [h.other i hi] at hs

end Clears

/-! ## The invariant -/

/-- Rooms and sessions are stored under their own ids. -/
structure Seated (p : Pod) : Prop where
  rooms : ∀ rid r, p.rooms.lookup rid = some r →
    (p.room r).roomid = rid ∧ r < p.roomHeap.next
  sessions : ∀ r u s, (p.room r).sessions.lookup u = some s →
    (p.sess s).userid = u ∧ (p.sess s).parent = r ∧ s < p.sessHeap.next
  known : ∀ r u s, (p.room r).sessions.lookup u = some s → r < p.roomHeap.next

theorem Seated.of_edits {r : RoomRef} {uid : String} {p q : Pod}
    (h : Seated p) (he : Edits r uid p q) : Seated q where
  rooms rid i hi := by
    rw [he.rooms] at hi
    obtain ⟨hid, hlt⟩ := h.rooms rid i hi
    refine ⟨?_, by rw [he.roomNext]; exact hlt⟩
    by_cases hir : i = r
    · subst hir; rw [he.roomid]; exact hid
    · rw [he.other i hir]; exact hid
  sessions i u s hs := by
    obtain ⟨hu, hpar, hlt⟩ := h.sessions i u s (he.back hs)
    have hid := he.ident s
    refine ⟨?_, ?_, by rw [he.sessNext]; exact hlt⟩
    · rw [← hu]; exact congrArg (·.1) hid
    · rw [← hpar]; exact congrArg (·.2.2.2.2.2) hid
  known i u s hs := by rw [he.roomNext]; exact h.known i u s (he.back hs)

theorem Seated.of_sameStore {p q : Pod} (h : Seated p) (hs : SameStore p q) :
    Seated q := h.of_edits (hs.edits 0 "")

theorem Seated.of_clears {r : RoomRef} {p q : Pod} (h : Seated p)
    (hc : Clears r p q) : Seated q where
  rooms rid i hi := by
    rw [hc.rooms] at hi
    obtain ⟨hid, hlt⟩ := h.rooms rid i hi
    refine ⟨?_, by rw [hc.roomNext]; exact hlt⟩
    by_cases hir : i = r
    · subst hir; rw [hc.roomid]; exact hid
    · rw [hc.other i hir]; exact hid
  sessions i u s hs := by
    obtain ⟨hu, hpar, hlt⟩ := h.sessions i u s (hc.back hs)
    have hid := hc.ident s
    refine ⟨?_, ?_, by rw [hc.sessNext]; exact hlt⟩
    · rw [← hu]; exact congrArg (·.1) hid
    · rw [← hpar]; exact congrArg (·.2.2.2.2.2) hid
  known i u s hs := by rw [hc.roomNext]; exact h.known i u s (hc.back hs)

theorem Seated.insertSession {r : RoomRef} {uid : String} {t : Session}
    {p : Pod} (h : Seated p) (hr : r < p.roomHeap.next) (hu : t.userid = uid)
    (hpar : t.parent = r) : Seated (p.insertSession r uid t) where
  rooms rid i hi := by
    rw [Pod.insertSession_rooms] at hi
    obtain ⟨hid, hlt⟩ := h.rooms rid i hi
    refine ⟨?_, by rw [Pod.insertSession_roomNext]; exact hlt⟩
    rw [Pod.insertSession_room]
    split
    · exact hid
    · exact hid
  sessions i u s hs := by
    rw [Pod.insertSession_sess, Pod.insertSession_sessNext]
    rw [Pod.insertSession_lookup] at hs
    split at hs
    · rename_i hiu
      obtain ⟨rfl, rfl⟩ := hiu
      cases hs
      rw [if_pos rfl]
      exact ⟨hu, hpar, Nat.lt_succ_self _⟩
    · obtain ⟨hu', hpar', hlt⟩ := h.sessions i u s hs
      rw [if_neg (Nat.ne_of_lt hlt)]
      exact ⟨hu', hpar', Nat.lt_succ_of_lt hlt⟩
  known i u s hs := by
    rw [Pod.insertSession_roomNext]
    rw [Pod.insertSession_lookup] at hs
    split at hs
    · rename_i hiu; rw [hiu.1]; exact hr
    · exact h.known i u s hs

theorem Seated.insertRoom {p : Pod} (h : Seated p) (rid : String) :
    Seated (p.insertRoom rid) where
  rooms id i hi := by
    simp only [Pod.insertRoom, Pod.unlock, Pod.lock, Pod.storeRoom,
      Pod.allocRoom, Pod.emit_rooms, Pod.emit_roomHeap, Pod.room,
      GoMap.lookup_insert_eq, Heap.alloc_next, Heap.alloc_cell] at hi ⊢
    split at hi
    · rename_i hid
      cases hi
      rw [if_pos rfl]
      exact ⟨hid.symm, Nat.lt_succ_self _⟩
    · obtain ⟨hid, hlt⟩ := h.rooms id i hi
      rw [if_neg (Nat.ne_of_lt hlt)]
      exact ⟨hid, Nat.lt_succ_of_lt hlt⟩
  sessions i u s hs := by
    simp only [Pod.insertRoom, Pod.unlock, Pod.lock, Pod.storeRoom,
      Pod.allocRoom, Pod.emit_roomHeap, Pod.emit_sessHeap, Pod.room, Pod.sess,
      Heap.alloc_cell] at hs ⊢
    split at hs
    · cases hs
    · exact h.sessions i u s hs
  known i u s hs := by
    simp only [Pod.insertRoom, Pod.unlock, Pod.lock, Pod.storeRoom,
      Pod.allocRoom, Pod.emit_roomHeap, Pod.room, Heap.alloc_cell,
      Heap.alloc_next] at hs ⊢
    split at hs
    · cases hs
    · exact Nat.lt_succ_of_lt (h.known i u s hs)

theorem Seated.eraseRoom {p : Pod} (h : Seated p) (rid : String) :
    Seated (p.eraseRoom rid) where
  rooms id i hi := h.rooms id i (GoMap.lookup_of_erase hi)
  sessions := h.sessions
  known := h.known

/-- In addition the pod id tells a stand-in from a session that logged in
here. -/
structure StoreShape (p : Pod) : Prop extends Seated p where
  tagged : ∀ s, s < p.sessHeap.next →
    ((p.sess s).origin = true → (p.sess s).podid = "") ∧
      ((p.sess s).origin = false → (p.sess s).podid ≠ "")

/-- A room has an origin session or is about to be released. -/
def Alive (p : Pod) (rid : String) (r : RoomRef) : Prop :=
  p.hasOrigin r = true ∨ Goroutine.releaseRoom rid ∈ p.pending

theorem Alive.of_sameStore {p q : Pod} {rid : String} {i : RoomRef}
    (h : Alive p rid i) (hs : SameStore p q) : Alive q rid i := by
  rcases h with ho | hpend
  · obtain ⟨u, s, hu, ho⟩ := Pod.hasOrigin_iff.mp ho
    refine .inl (Pod.hasOrigin_iff.mpr ⟨u, s, ?_, ?_⟩)
    · rw [hs.room]; exact hu
    · rw [hs.origin]; exact ho
  · exact .inr (hs.pending.subset hpend)

/-- Every room but `r` is alive. -/
def AliveBut (p : Pod) (r : RoomRef) : Prop :=
  ∀ rid i, p.rooms.lookup rid = some i → i ≠ r → Alive p rid i

structure StoreInv (p : Pod) : Prop extends StoreShape p where
  alive : ∀ rid r, p.rooms.lookup rid = some r → Alive p rid r

theorem StoreInv.aliveBut {p : Pod} (h : StoreInv p) (r : RoomRef) :
    AliveBut p r := fun rid i hi _ => h.alive rid i hi

theorem StoreShape.of_edits {r : RoomRef} {uid : String} {p q : Pod}
    (h : StoreShape p) (he : Edits r uid p q) : StoreShape q where
  toSeated := h.toSeated.of_edits he
  tagged s hs := by
    rw [he.sessNext] at hs
    have hpod : (q.sess s).podid = (p.sess s).podid :=
      congrArg (·.2.2.2.1) (he.ident s)
    rw [hpod, he.origin]
    exact h.tagged s hs

/-- An origin session that is not the one taken out keeps its room alive. -/
theorem hasOrigin_of_edits {r : RoomRef} {uid : String} {p q : Pod}
    (he : Edits r uid p q) {i : RoomRef} {u : String} {s : SessRef}
    (hs : (p.room i).sessions.lookup u = some s)
    (ho : (p.sess s).origin = true) (hne : i ≠ r ∨ u ≠ uid) :
    q.hasOrigin i = true := by
  refine Pod.hasOrigin_iff.mpr ⟨u, s, ?_, by rw [he.origin]; exact ho⟩
  by_cases hi : i = r
  · subst hi
    rw [he.keep u (hne.resolve_left fun h => h rfl)]
    exact hs
  · rw [he.other i hi]; exact hs

theorem AliveBut.of_edits {r : RoomRef} {uid : String} {p q : Pod}
    (h : AliveBut p r) (he : Edits r uid p q) : AliveBut q r := by
  intro rid i hi hne
  rw [he.rooms] at hi
  rcases h rid i hi hne with ho | hpend
  · obtain ⟨u, s, hs, ho⟩ := Pod.hasOrigin_iff.mp ho
    exact .inl (hasOrigin_of_edits he hs ho (.inl hne))
  · exact .inr (he.pending.subset hpend)

theorem StoreInv.of_sameStore {p q : Pod} (h : StoreInv p)
    (hs : SameStore p q) : StoreInv q where
  toStoreShape := h.toStoreShape.of_edits (hs.edits 0 "")
  alive rid r hr := by
    rw [hs.rooms] at hr
    exact (h.alive rid r hr).of_sameStore hs

/-- A call that may empty room `r` closes the invariant again by releasing
it. -/
theorem storeInv_of_release {r : RoomRef} {p q : Pod} (hp : StoreShape p)
    (hq : SameStore p q) (hbut : AliveBut p r)
    (hr : p.hasOrigin r = true ∨
      Goroutine.releaseRoom (p.room r).roomid ∈ q.pending) : StoreInv q where
  toStoreShape := hp.of_edits (hq.edits 0 "")
  alive rid i hi := by
    have hi' : p.rooms.lookup rid = some i := by rw [← hq.rooms]; exact hi
    have hlive : Alive p rid i ∨ Goroutine.releaseRoom rid ∈ q.pending := by
      by_cases hir : i = r
      · subst hir
        rw [(hp.rooms rid i hi').1] at hr
        rcases hr with ho | hpend
        · exact .inl (.inl ho)
        · exact .inr hpend
      · exact .inl (hbut rid i hi' hir)
    rcases hlive with hlive | hpend
    · exact hlive.of_sameStore hq
    · exact .inr hpend

end MediaServer.Ref
