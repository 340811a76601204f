import MediaServer.Proofs.Steps
import MediaServer.Ref.MgrSched

/-!
# Logins under a scheduler

Once a login is answered, the user's session should stay where it was put
until a message or a timeout about that user takes it out. Several things can
go wrong when calls of the room manager overlap. The room that a login read
may be released before the session is stored in it; a second login may put a
new room over the one that the first created; and a release that was spawned
when a room was empty is carried out by the room's id alone, when somebody has
logged in again.

Excluding exactly these (`Orderly`), no login is lost. The frame of a call
into a room is `Touches`: it can change the seat of one user in one room. A
thread carries the room it looked up from one block to the next, and the
assertion about it is that the room has the id of the message.
-/

namespace MediaServer.Ref

open MediaServer.Lib Relation

variable {p q : Pod} {r : RoomRef} {s : SessRef} {u R : String}

/-! ## What a call into a room can change -/

/-- At most the seat of `uid` in room `r` changed. -/
structure Touches (r : RoomRef) (uid : String) (p q : Pod) : Prop where
  rooms : q.rooms = p.rooms
  other : ∀ i, i ≠ r → q.room i = p.room i
  keep : ∀ u, u ≠ uid →
    (q.room r).sessions.lookup u = (p.room r).sessions.lookup u
  sessNext : p.sessHeap.next ≤ q.sessHeap.next
  ident : ∀ s, s < p.sessHeap.next → (q.sess s).ident = (p.sess s).ident

theorem Edits.touches {uid : String} (h : Edits r uid p q) :
    Touches r uid p q where
  rooms := h.rooms
  other := h.other
  keep := h.keep
  sessNext := h.sessNext.ge
  ident s _ := h.ident s

theorem SameStore.touches (h : SameStore p q) (r : RoomRef) (uid : String) :
    Touches r uid p q := (h.edits r uid).touches

theorem Touches.trans {t : Pod} {uid : String} (h : Touches r uid p q)
    (h' : Touches r uid q t) : Touches r uid p t where
  rooms := h'.rooms.trans h.rooms
  other i hi := (h'.other i hi).trans (h.other i hi)
  keep u hu := (h'.keep u hu).trans (h.keep u hu)
  sessNext := h.sessNext.trans h'.sessNext
  ident s hs := (h'.ident s (Nat.lt_of_lt_of_le hs h.sessNext)).trans
    (h.ident s hs)

theorem insertSession_touches (r : RoomRef) (uid : String) (t : Session)
    (p : Pod) : Touches r uid p (p.insertSession r uid t) where
  rooms := Pod.insertSession_rooms r uid t
  other i hi := by rw [Pod.insertSession_room, if_neg hi]
  keep u hu := by
    rw [Pod.insertSession_lookup, if_neg fun h => hu h.2]
  sessNext := by rw [Pod.insertSession_sessNext]; exact Nat.le_succ _
  ident s hs := by rw [Pod.insertSession_sess, if_neg (Nat.ne_of_lt hs)]

section Room

variable {env : Env} {j : JsonParser}

theorem handleLogin_touches (p : Pod) :
    Touches r (getValue j .sessID) p (p.handleLogin env r j) :=
  ((p.dropIfPresent_edits r _).touches.trans
    (insertSession_touches r _ _ _)).trans
    (((Pod.emit_quiet _ _).trans
      (Pod.tellStreams_quiet r _ _)).toSameStore.touches r _)

theorem handleFakePublish_touches (p : Pod) :
    Touches r (getValue j .sessID) p (p.handleFakePublish env r j) := by
  unfold Pod.handleFakePublish
  dsimp only
  have hdrop := (p.dropIfPresent_edits r (getValue j .sessID)).touches
  generalize (if (p.room r).sessions.lookup (getValue j .sessID) = none then p
    else p.dropSession r (getValue j .sessID)) = p₁ at hdrop ⊢
  have hread : Quiet p₁ ((p₁.rlock (.sessions r)).runlock (.sessions r)) :=
    (p₁.emit_quiet _).trans (Pod.emit_quiet _ _)
  have h := hdrop.trans (hread.toSameStore.touches r _)
  split
  · exact (h.trans (insertSession_touches r _ _ _)).trans
      ((Pod.sessionHandleMessage_sameStore env _ j _).touches r _)
  · exact h.trans ((Pod.go_quiet _ rfl).toSameStore.touches r _)

/-- The commands that take a seat or give one up. -/
def Reseats (j : JsonParser) : Prop :=
  command j = some .login ∨ command j = some .logout ∨
    command j = some .fakePublish

instance (j : JsonParser) : Decidable (Reseats j) :=
  inferInstanceAs (Decidable (_ ∨ _))

/-- The other commands leave every seat alone, `fakeunpublish` too if it is
about a stand-in of another pod. -/
theorem roomHandleMessage_sameStore (hc : ¬Reseats j)
    (hun : command j = some .fakeUnpublish → ∀ s,
      (p.room r).sessions.lookup (getValue j .sessID) = some s →
      (p.sess s).podid ≠ getValue j .podId) :
    SameStore p (p.roomHandleMessage env r j) := by
  have hto : ∀ {uid : String} {notFound : Pod → Pod},
      (∀ p, Quiet p (notFound p)) →
      SameStore p (p.toSession env r uid j notFound) :=
    fun hn => Pod.toSession_sameStore hn p
  unfold Pod.roomHandleMessage
  dsimp only
  split
  case h_1 h => exact absurd (.inl h) hc
  case h_6 h => exact absurd (.inr (.inl h)) hc
  case h_11 => exact p.answerRoomCreated_sameStore env r j
  case h_12 h => exact absurd (.inr (.inr h)) hc
  case h_13 h =>
      unfold Pod.handleFakeUnpublish
      dsimp only
      refine SameStore.trans ?_ (Pod.emit_quiet _ _).toSameStore
      split
      · next s hs =>
          have hs' : (p.room r).sessions.lookup (getValue j .sessID) =
              some s := by simpa [Pod.lock] using hs
          rw [if_neg]
          · exact (p.emit_quiet _).toSameStore
          · rw [Pod.lock, Pod.emit_sess]
            exact hun h s hs'
      · exact (p.emit_quiet _).toSameStore
  case h_18 => exact .refl p
  all_goals refine hto fun p => ?_
  all_goals first
    | exact p.emit_quiet _
    | exact .refl p

theorem roomHandleMessage_touches (hp : Seated p) :
    Touches r (getValue j .sessID) p (p.roomHandleMessage env r j) := by
  by_cases hun : command j = some .fakeUnpublish
  · simp only [Pod.roomHandleMessage, hun]
    exact (p.handleFakeUnpublish_edits r j).touches
  by_cases hc : Reseats j
  · rcases hc with hc | hc | hc
    · simp only [Pod.roomHandleMessage, hc]
      exact handleLogin_touches p
    · simp only [Pod.roomHandleMessage, hc]
      exact (Pod.kickoutFromRoom_edits fun s hs =>
        (hp.sessions r _ s hs).1).touches
    · simp only [Pod.roomHandleMessage, hc]
      exact handleFakePublish_touches p
  · exact (roomHandleMessage_sameStore hc fun h => absurd h hun).touches r _

end Room

/-! ## Threads and the rooms they carry -/

theorem Micro.roomid {G : Goroutine → Prop} {I : SessRef → Peer → Prop}
    (hm : Micro G I p q) (hr : r < p.roomHeap.next) :
    r < q.roomHeap.next ∧ (q.room r).roomid = (p.room r).roomid := by
  cases hm with
  | asks h => rw [h.roomHeap, h.room]; exact ⟨hr, rfl⟩
  | removes h => rw [h.roomHeap, h.room]; exact ⟨hr, rfl⟩
  | inserts h _ _ => rw [h.roomHeap, h.room]; exact ⟨hr, rfl⟩
  | seat r' u t =>
      rw [Pod.insertSession_roomNext, Pod.insertSession_room]
      split
      · exact ⟨hr, rfl⟩
      · exact ⟨hr, rfl⟩
  | unseat r' u _ =>
      have he := Pod.eraseSession_edits r' u p
      refine ⟨by rw [he.roomNext]; exact hr, ?_⟩
      by_cases h : r = r'
      · rw [h, he.roomid]
      · rw [he.other r h]
  | vacate r' _ =>
      have hc := clearSessions_clears r' p
      refine ⟨by rw [hc.roomNext]; exact hr, ?_⟩
      by_cases h : r = r'
      · rw [h, hc.roomid]
      · rw [hc.other r h]
  | openRoom rid =>
      rw [insertRoom_room_of_lt rid p hr]
      exact ⟨by rw [insertRoom_roomNext]; exact Nat.lt_succ_of_lt hr, rfl⟩
  | closeRoom rid => exact ⟨hr, rfl⟩
  | take i => exact ⟨hr, rfl⟩

/-- A thread that carries a room carries one with the id of its message. -/
def MgrPc.Ok (p : Pod) : MgrPc → Prop
  | .callRoom m (some r) =>
      r < p.roomHeap.next ∧ (p.room r).roomid = getValue m .roomId
  | _ => True

abbrev MgrOk : MgrSched → Prop := Threads.Inv PodOk fun k p => k.Ok p

/-- A change of the pod that is made of small ones. -/
def Moves (p q : Pod) : Prop := Does (fun _ => True) (fun _ _ => True) p q

theorem Does.moves {G : Goroutine → Prop} {I : SessRef → Peer → Prop}
    (h : Does G I p q) : Moves p q :=
  h.mono (fun _ _ => trivial) fun _ _ _ => trivial

theorem MgrPc.Ok.of_moves {k : MgrPc} (h : Moves p q) (hp : PodOk p)
    (hk : k.Ok p) : k.Ok q := by
  cases k with
  | callRoom m r =>
      cases r with
      | none => trivial
      | some r =>
          have hsteps := h hp
          clear h
          induction hsteps with
          | refl => exact hk
          | tail _ hm ih =>
              obtain ⟨hlt, hid⟩ := hm.roomid ih.1
              exact ⟨hlt, hid.trans ih.2⟩
  | _ => trivial

variable {env : Env} {m : JsonParser} {k : MgrPc}

theorem mgrStart_quiet : Quiet p (MgrPc.startMessage m p).1 := by
  unfold MgrPc.startMessage
  repeat' split
  all_goals first
    | exact p.handlePodRegist_quiet m
    | exact p.handlePodRegistNow_quiet
    | exact p.notFoundRoom_quiet m
    | exact p.emit_quiet _
    | exact .refl p

theorem mgrExec_moves (hk : k.Ok p) : Moves p (k.exec env p).1 := by
  cases k with
  | start m => exact mgrStart_quiet.calm
  | insertRoom m => exact .micro fun _ => .openRoom _
  | announce m => exact (p.getSn_quiet.trans (Pod.emit_quiet _ _)).calm
  | readRoom m => exact ((p.emit_quiet _).trans (Pod.emit_quiet _ _)).calm
  | fetchRoom m => exact .refl p
  | callRoom m r =>
      cases r with
      | none => exact p.throw_quiet.calm
      | some r => exact (roomHandleMessage_does env m hk.1).moves

/-- The place a block leads to: the room is read where the map has it. -/
theorem mgrExec_next {k' : MgrPc} (hp : PodOk p)
    (hnext : (k.exec env p).2 = some k') : k'.Ok p := by
  have hread : ∀ m : JsonParser,
      (MgrPc.callRoom m (p.rooms.lookup (getValue m .roomId))).Ok p := by
    intro m
    cases hr : p.rooms.lookup (getValue m .roomId) with
    | none => trivial
    | some r =>
        obtain ⟨hid, hlt⟩ := hp.rooms _ r hr
        exact ⟨hlt, hid⟩
  cases k with
  | start m =>
      simp only [MgrPc.exec, MgrPc.startMessage] at hnext
      repeat' split at hnext
      all_goals cases hnext
      all_goals trivial
  | insertRoom m => cases hnext; trivial
  | announce m => cases hnext; trivial
  | readRoom m => cases hnext; exact hread m
  | fetchRoom m => cases hnext; exact hread m
  | callRoom m r => cases hnext

/-- Every step moves the pod and keeps what the threads carry. -/
theorem mgrStep_ok {t t' : MgrSched} {a : MgrSched.Act} (h : MgrOk t)
    (hs : MgrSched.step a t = some t') : MgrOk t' := by
  have hkeep : ∀ {q : Pod}, Moves t.shared q →
      ∀ k ∈ t.threads, k.Ok t.shared → k.Ok q :=
    fun hm k _ hk => hk.of_moves hm h.shared
  unfold MgrSched.step at hs
  split at hs
  · cases hs
  · cases a with
    | receive m => cases hs; exact h.start trivial
    | turn i env =>
        obtain ⟨k, q, next, hk, hexec, rfl⟩ := Threads.turn_eq_some hs
        have heq : k.exec env t.shared = (q, next) := Option.some.inj hexec
        have hmove : Moves t.shared (k.exec env t.shared).1 :=
          mgrExec_moves (h.each k (List.mem_of_getElem? hk))
        rw [heq] at hmove
        refine h.resume (hmove.podOk h.shared) (fun k' hk' => ?_)
          (hkeep hmove)
        have hnext : (k.exec env t.shared).2 = some k' := by
          rw [heq]; exact hk'
        exact (mgrExec_next h.shared hnext).of_moves hmove h.shared
    | other a =>
        dsimp only at hs
        split at hs
        · obtain ⟨q, hq, rfl⟩ := Option.map_eq_some_iff.mp hs
          have hmove : Moves t.shared q := (step_does hq).moves
          exact h.of_shared (hmove.podOk h.shared) (hkeep hmove)
        · cases hs

theorem mgrRun_ok {conf : Config} {as : List MgrSched.Act} {t : MgrSched}
    (ht : run MgrSched.step as (MgrSched.init conf) = some t) : MgrOk t :=
  run_invariant (fun _ _ _ h _ hs => mgrStep_ok h hs) (guarded_true as _)
    ⟨createRoomMgr_podOk conf, fun k hk => by cases hk⟩ ht

/-! ## The session of a login -/

/-- Session `s` sits in the room with id `R`, as the origin session of `u`. -/
def Kept (R u : String) (s : SessRef) (p : Pod) : Prop :=
  ∃ r, p.rooms.lookup R = some r ∧ (p.room r).sessions.lookup u = some s ∧
    (p.sess s).origin = true

/-- The same, of one room, and with the pod id that tells an origin session
from a stand-in. -/
structure KeptIn (R u : String) (s : SessRef) (r : RoomRef) (p : Pod) :
    Prop where
  room : p.rooms.lookup R = some r
  seat : (p.room r).sessions.lookup u = some s
  origin : (p.sess s).origin = true
  podid : (p.sess s).podid = ""

theorem KeptIn.kept (h : KeptIn R u s r p) : Kept R u s p :=
  ⟨r, h.room, h.seat, h.origin⟩

theorem KeptIn.of_ident (h : KeptIn R u s r p)
    (hroom : q.rooms.lookup R = some r)
    (hseat : (q.room r).sessions.lookup u = some s)
    (hid : (q.sess s).ident = (p.sess s).ident) : KeptIn R u s r q where
  room := hroom
  seat := hseat
  origin := by
    have ho : (q.sess s).origin = (p.sess s).origin :=
      congrArg (·.2.2.2.2.1) hid
    rw [ho, h.origin]
  podid := by
    have hpod : (q.sess s).podid = (p.sess s).podid :=
      congrArg (·.2.2.2.1) hid
    rw [hpod, h.podid]

theorem KeptIn.of_sameStore (h : KeptIn R u s r p) (hq : SameStore p q) :
    KeptIn R u s r q :=
  h.of_ident (by rw [hq.rooms]; exact h.room) (by rw [hq.room]; exact h.seat)
    (hq.ident s)

/-- A call about another seat. -/
theorem KeptIn.of_touches {r' : RoomRef} {uid : String}
    (h : KeptIn R u s r p) (hp : Seated p) (hq : Touches r' uid p q)
    (hne : r' = r → uid ≠ u) : KeptIn R u s r q := by
  refine h.of_ident (by rw [hq.rooms]; exact h.room) ?_
    (hq.ident s (hp.sessions r u s h.seat).2.2)
  by_cases hr : r = r'
  · subst hr
    rw [hq.keep u fun hu => hne rfl hu.symm]
    exact h.seat
  · rw [hq.other r hr]
    exact h.seat

theorem KeptIn.insertRoom {rid : String} (h : KeptIn R u s r p)
    (hp : Seated p) (hnew : p.rooms.lookup rid = none) :
    KeptIn R u s r (p.insertRoom rid) := by
  have hne : R ≠ rid := by
    rintro rfl
    have hroom := h.room
    rw [hnew] at hroom
    cases hroom
  refine h.of_ident ?_ ?_ (by rw [Pod.sess, insertRoom_sessHeap, Pod.sess])
  · rw [insertRoom_rooms, GoMap.lookup_insert_eq, if_neg hne]
    exact h.room
  · rw [insertRoom_room_of_lt rid p (hp.rooms R r h.room).2]
    exact h.seat

theorem KeptIn.releaseRoom {rid : String} (h : KeptIn R u s r p)
    (hp : Seated p)
    (hempty : ∀ i, p.rooms.lookup rid = some i → p.hasOrigin i = false) :
    KeptIn R u s r (p.releaseRoom rid) := by
  have hne : R ≠ rid := by
    rintro rfl
    have ho : p.hasOrigin r = true :=
      Pod.hasOrigin_iff.mpr ⟨u, s, h.seat, h.origin⟩
    rw [hempty r h.room] at ho
    cases ho
  have hlock := (p.emit_quiet (.sync (.lock .rooms))).toSameStore
  have h₁ : KeptIn R u s r (p.lock .rooms) := h.of_sameStore hlock
  have hp₁ : Seated (p.lock .rooms) := hp.of_sameStore hlock
  unfold Pod.releaseRoom
  dsimp only
  refine KeptIn.of_sameStore ?_ (Pod.emit_quiet _ _).toSameStore
  split
  · next i hi =>
      have hir : r ≠ i := by
        rintro rfl
        exact hne ((hp₁.rooms R r h₁.room).1.symm.trans (hp₁.rooms rid r hi).1)
      have hc := destroyRoom_clears i (p.lock .rooms)
      refine h₁.of_ident ?_ ?_ (hc.ident s)
      · rw [Pod.eraseRoom, GoMap.lookup_erase_eq, if_neg hne, hc.rooms]
        exact h₁.room
      · rw [show ((((p.lock .rooms).destroyRoom i).eraseRoom rid).room r) =
          ((p.lock .rooms).destroyRoom i).room r from rfl, hc.other r hir]
        exact h₁.seat
  · exact h₁

/-! ## Runs -/

/-- A room is created only where none is registered; a login enters the room
that is registered under its id; and `fakeunpublish` names a pod. -/
def MgrPc.Orderly (p : Pod) : MgrPc → Prop
  | .insertRoom m => p.rooms.lookup (getValue m .roomId) = none
  | .callRoom m (some r) =>
      (command m = some .login →
        p.rooms.lookup (getValue m .roomId) = some r) ∧
      (command m = some .fakeUnpublish → getValue m .podId ≠ "")
  | _ => True

/-- A room is released only while no origin session is in it. -/
def Goroutine.Orderly (p : Pod) : Goroutine → Prop
  | .releaseRoom rid => ∀ r ∈ p.rooms.lookup rid, p.hasOrigin r = false
  | _ => True

def MgrSched.Orderly (t : MgrSched) : MgrSched.Act → Prop
  | .turn i _ => ∀ k ∈ t.threads[i]?, k.Orderly t.shared
  | .other (_, .go i) => ∀ g ∈ t.shared.pending[i]?, g.Orderly t.shared
  | _ => True

/-- A logout, a login or a `fakepublish` of user `u` in room `R` is carried
out. -/
def MgrPc.Names (R u : String) : MgrPc → Prop
  | .callRoom m _ =>
      Reseats m ∧ getValue m .roomId = R ∧ getValue m .sessID = u
  | _ => False

/-- User `u` is kicked out of room `R`. -/
def Goroutine.Names (R u : String) (p : Pod) : Goroutine → Prop
  | .kickoutFromRoom r sid => (p.room r).roomid = R ∧ sid = u
  | _ => False

def MgrSched.Names (R u : String) (t : MgrSched) : MgrSched.Act → Prop
  | .turn i _ => ∃ k ∈ t.threads[i]?, k.Names R u
  | .other (_, .go i) => ∃ g ∈ t.shared.pending[i]?, g.Names R u t.shared
  | _ => False

instance (p : Pod) (k : MgrPc) : Decidable (k.Orderly p) := by
  unfold MgrPc.Orderly
  split <;> infer_instance

instance (p : Pod) (g : Goroutine) : Decidable (g.Orderly p) := by
  unfold Goroutine.Orderly
  split <;> infer_instance

instance (t : MgrSched) (a : MgrSched.Act) : Decidable (t.Orderly a) := by
  unfold MgrSched.Orderly
  split <;> infer_instance

instance (R u : String) (k : MgrPc) : Decidable (k.Names R u) := by
  unfold MgrPc.Names
  split <;> infer_instance

instance (R u : String) (p : Pod) (g : Goroutine) :
    Decidable (g.Names R u p) := by
  unfold Goroutine.Names
  split <;> infer_instance

instance (R u : String) (t : MgrSched) (a : MgrSched.Act) :
    Decidable (t.Names R u a) := by
  unfold MgrSched.Names
  split <;> infer_instance

theorem callRoom_kept {r' : RoomRef} (hp : PodOk p) (h : KeptIn R u s r p)
    (hk : (MgrPc.callRoom m (some r')).Ok p)
    (ho : (MgrPc.callRoom m (some r')).Orderly p)
    (hn : ¬(MgrPc.callRoom m (some r')).Names R u) :
    KeptIn R u s r (p.roomHandleMessage env r' m) := by
  by_cases hsame : r' = r ∧ getValue m .sessID = u
  · obtain ⟨rfl, hu⟩ := hsame
    have hR : getValue m .roomId = R :=
      hk.2.symm.trans (hp.rooms R r' h.room).1
    refine h.of_sameStore (roomHandleMessage_sameStore
      (fun hc => hn ⟨hc, hR, hu⟩) fun hun s' hs' => ?_)
    rw [hu, h.seat] at hs'
    cases hs'
    rw [h.podid]
    exact fun hempty => ho.2 hun hempty.symm
  · exact h.of_touches hp.toSeated (roomHandleMessage_touches hp.toSeated)
      fun hr hu => hsame ⟨hr, hu⟩

theorem mgrExec_kept (env : Env) (hp : PodOk p) (h : KeptIn R u s r p)
    (hk : k.Ok p)
    (ho : k.Orderly p) (hn : ¬k.Names R u) :
    KeptIn R u s r (k.exec env p).1 := by
  cases k with
  | start m => exact h.of_sameStore mgrStart_quiet.toSameStore
  | insertRoom m => exact h.insertRoom hp.toSeated ho
  | announce m =>
      exact h.of_sameStore
        (p.getSn_quiet.trans (Pod.emit_quiet _ _)).toSameStore
  | readRoom m =>
      exact h.of_sameStore
        ((p.emit_quiet _).trans (Pod.emit_quiet _ _)).toSameStore
  | fetchRoom m => exact h
  | callRoom m r' =>
      cases r' with
      | none => exact h.of_sameStore p.throw_quiet.toSameStore
      | some r' => exact callRoom_kept hp h hk ho hn

theorem runGoroutine_kept {g : Goroutine} (hp : Seated p)
    (h : KeptIn R u s r p) (ho : g.Orderly p) (hn : ¬g.Names R u p) :
    KeptIn R u s r (p.runGoroutine env g) := by
  by_cases hseat : g.staysSeated = true
  · exact h.of_sameStore (Pod.runGoroutine_sameStore env hseat p)
  · cases g with
    | releaseRoom rid => exact h.releaseRoom hp fun i hi => ho i hi
    | kickoutFromRoom r' sid =>
        refine h.of_touches hp (Pod.kickoutFromRoom_edits fun s hs =>
          (hp.sessions r' sid s hs).1).touches fun hr hu => hn ⟨?_, hu⟩
        rw [hr]
        exact (hp.rooms R r h.room).1
    | _ => exact absurd rfl hseat

theorem mgrStep_kept {t t' : MgrSched} {a : MgrSched.Act} (hok : MgrOk t)
    (h : KeptIn R u s r t.shared) (ho : t.Orderly a) (hn : ¬t.Names R u a)
    (hs : MgrSched.step a t = some t') : KeptIn R u s r t'.shared := by
  unfold MgrSched.step at hs
  split at hs
  · cases hs
  · cases a with
    | receive m => cases hs; exact h
    | turn i env =>
        obtain ⟨k, q, next, hk, hexec, rfl⟩ := Threads.turn_eq_some hs
        have heq : k.exec env t.shared = (q, next) := Option.some.inj hexec
        have hkept := mgrExec_kept env hok.shared h
          (hok.each k (List.mem_of_getElem? hk)) (ho k hk)
          fun hname => hn ⟨k, hk, hname⟩
        rw [heq] at hkept
        rw [Threads.resume_shared]
        exact hkept
    | other a =>
        dsimp only at hs
        split at hs
        · next hmsg =>
            obtain ⟨q, hq, rfl⟩ := Option.map_eq_some_iff.mp hs
            by_cases hgo : ∃ i, a.2 = .go i
            · obtain ⟨env, inp⟩ := a
              obtain ⟨i, hi⟩ := hgo
              dsimp only at hi
              subst hi
              unfold Pod.step at hq
              split at hq
              · cases hq
              · dsimp only at hq
                split at hq
                · next g hg =>
                    cases hq
                    exact runGoroutine_kept
                      ⟨hok.shared.rooms, hok.shared.sessions, hok.shared.known⟩
                      (h.of_ident h.room h.seat rfl) (ho g hg)
                      fun hname => hn ⟨g, hg, hname⟩
                · cases hq
            · exact h.of_sameStore (Pod.step_sameStore hmsg
                (fun i hi => hgo ⟨i, hi⟩) hq)
        · cases hs

/-- The step in which a login of `u` in room `R` stores its session and is
answered. -/
def MgrSched.Logs (R u : String) (t : MgrSched) (a : MgrSched.Act) : Prop :=
  ∃ i env m r, a = .turn i env ∧ t.threads[i]? = some (.callRoom m (some r)) ∧
    command m = some .login ∧ getValue m .roomId = R ∧ getValue m .sessID = u

theorem handleLogin_keptIn (hr : p.rooms.lookup (getValue m .roomId) = some r) :
    KeptIn (getValue m .roomId) (getValue m .sessID) p.sessHeap.next r
      (p.handleLogin env r m) := by
  unfold Pod.handleLogin
  dsimp only
  refine KeptIn.of_sameStore ?_ ((Pod.emit_quiet _ _).trans
    (Pod.tellStreams_quiet r _ _)).toSameStore
  have he := p.dropIfPresent_edits r (getValue m .sessID)
  generalize (if (p.room r).sessions.lookup (getValue m .sessID) = none then p
    else p.dropSession r (getValue m .sessID)) = p₁ at he ⊢
  rw [← he.sessNext]
  have hsess := Pod.insertSession_sess (p := p₁) r (getValue m .sessID)
    (createSession r (getValue m .sessID) (getValue m .userName) env.now)
    p₁.sessHeap.next
  rw [if_pos rfl] at hsess
  refine ⟨?_, ?_, by rw [hsess]; rfl, by rw [hsess]; rfl⟩
  · rw [Pod.insertSession_rooms, he.rooms]
    exact hr
  · rw [Pod.insertSession_lookup, if_pos ⟨rfl, rfl⟩]

/-- In every run in which rooms are created, entered and released in order,
the session of an answered login stays in the registered room as long as
nothing about its user is carried out. -/
theorem login_not_lost {conf : Config} {as bs : List MgrSched.Act}
    {a : MgrSched.Act} {t t' : MgrSched}
    (hg : Guarded MgrSched.step MgrSched.Orderly (as ++ a :: bs)
      (MgrSched.init conf))
    (ht : run MgrSched.step as (MgrSched.init conf) = some t)
    (hlog : t.Logs R u a) (ht' : MgrSched.step a t = some t')
    (hn : Guarded MgrSched.step (fun t b => ¬t.Names R u b) bs t') :
    Always MgrSched.step
      (fun v => Kept R u t.shared.sessHeap.next v.shared) bs t' := by
  obtain ⟨i, env, m, r, rfl, hk, hc, rfl, rfl⟩ := hlog
  have hok := mgrRun_ok ht
  obtain ⟨hnow, hlater⟩ := hg.append ht
  have hkept : KeptIn (getValue m .roomId) (getValue m .sessID)
      t.shared.sessHeap.next r t'.shared := by
    have hturn := ht'
    unfold MgrSched.step at hturn
    split at hturn
    · cases hturn
    · obtain ⟨k, q, next, hk', hexec, rfl⟩ := Threads.turn_eq_some hturn
      rw [hk] at hk'
      cases hk'
      cases hexec
      rw [Threads.resume_shared, Pod.callRoom, Pod.roomHandleMessage]
      simp only [hc]
      exact handleLogin_keptIn ((hnow _ hk).1 hc)
  have hall := always_of_guarded (P := fun v => MgrOk v ∧
      KeptIn (getValue m .roomId) (getValue m .sessID) t.shared.sessHeap.next r
        v.shared)
    (fun b v w hv hb hs => ⟨mgrStep_ok hv.1 hs,
      mgrStep_kept hv.1 hv.2 hb.1 hb.2 hs⟩)
    ((hlater t' ht').and hn) ⟨mgrStep_ok hok ht', hkept⟩
  exact hall.mono fun v hv => hv.2.kept

/-! ## A release that comes late

The only user of a room logs out, which spawns the release of the room; the
next one logs in and is answered; then the release takes its turn. -/

def logInAndOut : List MgrSched.Act :=
  let login := Cmd.login.msg [(.roomId, "R"), (.sessID, "v")]
  let logout := Cmd.logout.msg [(.roomId, "R"), (.sessID, "v")]
  [.other (.calm, .setSendMessageHandler), .receive login] ++
    List.replicate 5 (.turn 0 .calm) ++
    (.receive logout :: List.replicate 3 (.turn 0 .calm)) ++
    [.receive (Cmd.login.msg [(.roomId, "R"), (.sessID, "u")]),
      .turn 0 .calm, .turn 0 .calm]

theorem login_lost :
    ∃ t t' t'', run MgrSched.step logInAndOut
        (MgrSched.init (Config.standalone "podA")) = some t ∧
      t.Logs "R" "u" (.turn 0 .calm) ∧
      MgrSched.step (.turn 0 .calm) t = some t' ∧
      ¬t'.Names "R" "u" (.other (.calm, .go 0)) ∧
      MgrSched.step (.other (.calm, .go 0)) t' = some t'' ∧
      ¬Kept "R" "u" t.shared.sessHeap.next t''.shared := by
  have h : ((run MgrSched.step logInAndOut
      (MgrSched.init (Config.standalone "podA"))).bind fun t =>
        (MgrSched.step (.turn 0 .calm) t).bind fun t' =>
          (MgrSched.step (.other (.calm, .go 0)) t').map fun t'' =>
            (t.threads[0]?, decide (t'.Names "R" "u" (.other (.calm, .go 0))),
              t''.shared.rooms.lookup "R")) =
      some (some (.callRoom (Cmd.login.msg [(.roomId, "R"), (.sessID, "u")])
        (some 0)), false, none) := by decide
  obtain ⟨t, ht, h⟩ := Option.bind_eq_some_iff.mp h
  obtain ⟨t', ht', h⟩ := Option.bind_eq_some_iff.mp h
  obtain ⟨t'', ht'', h⟩ := Option.map_eq_some_iff.mp h
  simp only [Prod.mk.injEq, decide_eq_false_iff_not] at h
  obtain ⟨hk, hn, hgone⟩ := h
  refine ⟨t, t', t'', ht, ⟨0, .calm, _, 0, rfl, hk, rfl, rfl, rfl⟩, ht', hn,
    ht'', ?_⟩
  rintro ⟨r, hr, -⟩
  rw [hgone] at hr
  cases hr

/-- The same users, but the second is in before the first leaves. -/
def handOver : List MgrSched.Act :=
  [.other (.calm, .setSendMessageHandler),
    .receive (Cmd.login.msg [(.roomId, "R"), (.sessID, "v")])] ++
    List.replicate 5 (.turn 0 .calm) ++
    [.receive (Cmd.login.msg [(.roomId, "R"), (.sessID, "u")]),
      .receive (Cmd.logout.msg [(.roomId, "R"), (.sessID, "v")]),
      .turn 0 .calm, .turn 1 .calm, .turn 1 .calm, .turn 0 .calm]

theorem login_not_lost_handOver :
    ∃ t t', run MgrSched.step handOver
        (MgrSched.init (Config.standalone "podA")) = some t ∧
      MgrSched.step (.turn 0 .calm) t = some t' ∧
      (run MgrSched.step [.turn 0 .calm, .other (.calm, .go 0)] t').isSome ∧
      Always MgrSched.step
        (fun v => Kept "R" "u" t.shared.sessHeap.next v.shared)
        [.turn 0 .calm, .other (.calm, .go 0)] t' := by
  have h : ((run MgrSched.step handOver
      (MgrSched.init (Config.standalone "podA"))).bind fun t =>
        (MgrSched.step (.turn 0 .calm) t).map fun t' =>
          (t.threads[0]?, (run MgrSched.step
            [.turn 0 .calm, .other (.calm, .go 0)] t').isSome,
            decide (Guarded MgrSched.step (fun t b => ¬t.Names "R" "u" b)
              [.turn 0 .calm, .other (.calm, .go 0)] t'))) =
      some (some (.callRoom (Cmd.login.msg [(.roomId, "R"), (.sessID, "u")])
        (some 0)), true, true) := by decide
  obtain ⟨t, ht, h⟩ := Option.bind_eq_some_iff.mp h
  obtain ⟨t', ht', h⟩ := Option.map_eq_some_iff.mp h
  simp only [Prod.mk.injEq, decide_eq_true_eq] at h
  obtain ⟨hk, hrun, hn⟩ := h
  exact ⟨t, t', ht, ht', hrun, login_not_lost (by decide) ht
    ⟨0, .calm, _, 0, rfl, hk, rfl, rfl, rfl⟩ ht' hn⟩

end MediaServer.Ref
