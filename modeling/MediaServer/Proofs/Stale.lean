import MediaServer.Proofs.Effects
import MediaServer.Proofs.Lifecycle
import MediaServer.Ref.RoomSched

/-!
# Entries that are gone when they are used

`login` and `fakepublish` test whether the user has a session, take
`sessionsLock` and use the entry; `sub` and `fakesubscribe` test whether there
is a publisher, take `pubsmux` and use that entry. Between the test and the
section anybody may take the entry out, and then the section follows a nil
pointer.

If no block takes out an entry while a thread stands between its test and its
section, every section finds what the test found. The proof is about what
blocks remove: `Loses X` says that only the entries in `X` can be gone, and
`exec_loses` that a block loses at most what its place says.
-/

namespace MediaServer.Ref

open MediaServer.Lib

variable {p q t : Pod} {s : SessRef} {x y : PeerRef} {r : RoomRef}
variable {k uid : String} {env : Env} {j : JsonParser}

/-- An entry of `r.sessions` or of `sess.publishers`. -/
inductive MapEntry where
  | session (r : RoomRef) (uid : String)
  | publisher (s : SessRef) (pid : String)
  deriving DecidableEq

def Pod.has (p : Pod) : MapEntry → Bool
  | .session r uid => ((p.room r).sessions.lookup uid).isSome
  | .publisher s pid => ((p.sess s).publishers.lookup pid).isSome

/-- The entry that the next block of a thread uses, because a test without the
lock has found it. -/
def ThreadPc.uses : ThreadPc → Option MapEntry
  | .room (.drop r j) => some (.session r (getValue j .sessID))
  | .sess (.readPub s j) => some (.publisher s (getValue j .peerID))
  | _ => none

/-- The thread whose turn it is finds the entry that it uses. -/
def FindsEntry (t : RoomSched) : RoomSched.Act → Prop
  | .input _ => True
  | .turn i _ _ => ∀ c ∈ t.threads[i]?, ∀ e ∈ c.uses,
      t.shared.pod.has e = true

instance (t : RoomSched) (a : RoomSched.Act) :
    Decidable (FindsEntry t a) := by
  cases a with
  | input a => exact .isTrue trivial
  | turn i env w =>
      unfold FindsEntry
      infer_instance

/-! ## What blocks remove -/

def Pc.removes (p : Pod) : Pc → List MapEntry
  | .start s (.releasePublisher pid) => [.publisher s pid]
  | .start s .doLeave => (p.sess s).publishers.keys.map (.publisher s)
  | .replacePub s j _ | .stopPub s j _ => [.publisher s (getValue j .peerID)]
  | _ => []

def ThreadPc.removes (p : Pod) : ThreadPc → List MapEntry
  | .sess k | .leave k _ => k.removes p
  | .room (.left (.replace r j)) | .room (.left (.unpublish r j)) =>
      [.session r (getValue j .sessID)]
  | .room (.left (.kickout r _ s)) => [.session r (p.sess s).userid]
  | .room (.left (.release _ r [])) =>
      (p.room r).sessions.keys.map (.session r)
  | _ => []

/-- No thread stands between its test and its section for an entry that the
next block takes out. -/
def SparesUsed (t : RoomSched) : RoomSched.Act → Prop
  | .input _ => True
  | .turn i _ _ => ∀ c ∈ t.threads[i]?, ∀ e ∈ c.removes t.shared.pod,
      ∀ c' ∈ t.threads, c'.uses ≠ some e

instance (t : RoomSched) (a : RoomSched.Act) :
    Decidable (SparesUsed t a) := by
  cases a with
  | input a => exact .isTrue trivial
  | turn i env w =>
      unfold SparesUsed
      infer_instance

/-- The map that the entry is in exists. -/
def MapEntry.Old (p : Pod) : MapEntry → Prop
  | .session r _ => r < p.roomHeap.next
  | .publisher s _ => s < p.sessHeap.next

/-- The maps hold references to rooms and sessions that exist. -/
structure Valid (p : Pod) : Prop where
  rooms : ∀ rid r, p.rooms.lookup rid = some r → r < p.roomHeap.next
  sessions : ∀ r u s, (p.room r).sessions.lookup u = some s →
    s < p.sessHeap.next

/-- Of the entries that were there, at most those in `X` are gone. -/
structure Loses (X : Set MapEntry) (p q : Pod) : Prop where
  sessNext : p.sessHeap.next ≤ q.sessHeap.next
  roomNext : p.roomHeap.next ≤ q.roomHeap.next
  valid : Valid p → Valid q
  kept : ∀ e, e.Old p → p.has e = true → e ∉ X → q.has e = true

variable {X : Set MapEntry}

theorem Loses.old (h : Loses X p q) {e : MapEntry} (he : e.Old p) :
    e.Old q := by
  cases e with
  | session r uid => exact Nat.lt_of_lt_of_le he h.roomNext
  | publisher s pid => exact Nat.lt_of_lt_of_le he h.sessNext

theorem Loses.trans (h : Loses X p q) (h' : Loses X q t) : Loses X p t where
  sessNext := h.sessNext.trans h'.sessNext
  roomNext := h.roomNext.trans h'.roomNext
  valid hp := h'.valid (h.valid hp)
  kept e he hp hX := h'.kept e (h.old he) (h.kept e he hp hX) hX

theorem SameStore.loses (h : SameStore p q)
    (hpubs : ∀ s k, .publisher s k ∉ X → p.entry .publisher s k ≠ none →
      q.entry .publisher s k ≠ none) : Loses X p q where
  sessNext := h.sessNext.ge
  roomNext := by rw [h.roomHeap]
  valid hp :=
    ⟨fun rid r hr => by rw [h.rooms] at hr; rw [h.roomHeap]; exact hp.rooms _ _ hr,
      fun r u s hs => by
        rw [h.room] at hs
        rw [h.sessNext]
        exact hp.sessions r u s hs⟩
  kept e _ he hX := by
    cases e with
    | session r uid =>
        rw [Pod.has, h.room]
        exact he
    | publisher s k =>
        exact Option.isSome_iff_ne_none.mpr
          (hpubs s k hX (Option.isSome_iff_ne_none.mp he))

theorem SameStore.loses_of_entry (h : SameStore p q)
    (hent : ∀ s k, q.entry .publisher s k = p.entry .publisher s k) :
    Loses X p q :=
  h.loses fun s k _ hx => by rw [hent]; exact hx

theorem Asks.loses {G : Goroutine → Prop} (h : Asks G p q) : Loses X p q :=
  h.toSameStore.loses_of_entry fun s k => h.entry .publisher s k

theorem Loses.refl (p : Pod) : Loses X p p :=
  (Asks.refl p (G := fun _ => False)).loses

theorem Loses.foldl {α : Type} {f : Pod → α → Pod}
    (hf : ∀ p a, Loses X p (f p a)) (l : List α) (p : Pod) :
    Loses X p (l.foldl f p) := by
  induction l generalizing p with
  | nil => exact .refl p
  | cons a l ih => exact (hf p a).trans (ih (f p a))

namespace Pod

theorem destroy_loses (p : Pod) (x : PeerRef) : Loses X p (p.destroy x) :=
  (p.destroy_destroys x).toSameStore.loses_of_entry
    fun s k => (p.destroy_destroys x).entry .publisher s k

theorem dropSubscriber_loses (p : Pod) (s : SessRef) (y : PeerRef)
    (k : String) : Loses X p (p.dropSubscriber s y k) := by
  refine (p.destroy_loses y).trans ((eraseSubscriber_sameStore _ s
    k).loses_of_entry fun i l => ?_)
  rw [eraseSubscriber_entry, if_neg (fun h => nomatch h.1)]

theorem dropPublisher_loses (hX : .publisher s k ∈ X) (p : Pod)
    (x : PeerRef) : Loses X p (p.dropPublisher s x k) := by
  refine ((p.stopNotify_quiet s x k).loses.trans (destroy_loses _ x)).trans
    ((erasePublisher_sameStore _ s k).loses fun i l hil hx => ?_)
  rw [erasePublisher_entry, if_neg]
  · exact hx
  · rintro ⟨-, rfl, rfl⟩
    exact hil hX

theorem bracket_loses {m m' : LockOp Mutex}
    (h : Loses X (p.emit (.sync m)) q) : Loses X p (q.emit (.sync m')) :=
  ((p.emit_quiet _).loses.trans h).trans (Pod.emit_quiet _ _).loses

theorem replacePublisher_loses (hX : .publisher s k ∈ X) (p : Pod)
    (x : PeerRef) : Loses X p (p.replacePublisher s x k) :=
  bracket_loses
    (dropPublisher_loses hX _ x)

theorem stopSection_loses (hX : .publisher s k ∈ X) (p : Pod)
    (x : PeerRef) : Loses X p (p.stopSection s x k) :=
  bracket_loses
    (dropPublisher_loses hX _ x)

theorem releasePubs_loses (hX : .publisher s k ∈ X) (p : Pod) :
    Loses X p (p.releasePubs s k) := by
  unfold releasePubs
  refine bracket_loses (m := .lock (.pubs s)) ?_
  split
  · exact dropPublisher_loses hX _ _
  · exact .refl _

theorem releaseSubscriberPeer_loses (s : SessRef) (sid ssid pid : String)
    (p : Pod) : Loses X p (p.releaseSubscriberPeer s sid ssid pid) := by
  unfold releaseSubscriberPeer
  refine bracket_loses (m := .lock (.subs s)) ?_
  split
  · exact dropSubscriber_loses _ _ _ _
  · exact .refl _

theorem replaceSubscriber_loses (s : SessRef) (k : String) (p : Pod) :
    Loses X p (p.replaceSubscriber s k) := by
  unfold replaceSubscriber
  dsimp only
  split
  · exact (p.emit_quiet _).loses.trans (throw_quiet _).loses
  · exact ((p.emit_quiet _).loses.trans (dropSubscriber_loses _ _ _ _)).trans
      (emit_quiet _ _).loses

theorem releaseSubs_loses (s : SessRef) (pid : String) (p : Pod) :
    Loses X p (p.releaseSubs s pid) := by
  refine bracket_loses (m := .lock (.subs s)) (.foldl (fun p e => ?_) _ _)
  unfold releaseSubsOf
  split
  · exact dropSubscriber_loses _ _ _ _
  · exact .refl _

theorem leavedSubs_loses (s : SessRef) (sid : String) (lst : List String)
    (p : Pod) : Loses X p (p.leavedSubs s sid lst) := by
  refine bracket_loses (m := .lock (.subs s)) (.foldl (fun p e => ?_) _ _)
  split
  · exact dropSubscriber_loses _ _ _ _
  · exact .refl _

theorem doLeavePubs_loses (hX : ∀ k, .publisher s k ∈ X) (p : Pod) :
    Loses X p (p.doLeavePubs s) := by
  refine bracket_loses (m := .lock (.pubs s)) ?_
  refine Loses.trans ?_
    ((clearPublishers_sameStore s _).loses fun i l hil hx => ?_)
  · exact Loses.foldl (fun p e => (p.stopNotify_quiet s _ _).loses.trans
      (destroy_loses _ _)) _ _
  · rw [clearPublishers_entry, if_neg]
    · exact hx
    · rintro ⟨-, rfl⟩
      exact hil (hX l)

theorem doLeaveSubs_loses (s : SessRef) (p : Pod) :
    Loses X p (p.doLeaveSubs s) := by
  refine bracket_loses (m := .lock (.subs s)) ?_
  refine Loses.trans ?_
    ((clearSubscribers_sameStore s _).loses_of_entry fun i l => ?_)
  · exact Loses.foldl (fun p e => destroy_loses p _) _ _
  · rw [clearSubscribers_entry, if_neg (fun h => nomatch h.1)]

theorem insertPublisher_loses (s : SessRef) (k : String) (t : Peer)
    (p : Pod) : Loses X p (p.insertPublisher s k t) := by
  refine (p.insertPublisher_sameStore s k t).loses fun i l _ hx => ?_
  rw [insertPublisher_entry]
  split
  · exact nofun
  · exact hx

theorem insertSubscriber_loses (s : SessRef) (k : String) (t : Peer)
    (p : Pod) : Loses X p (p.insertSubscriber s k t) := by
  refine (p.insertSubscriber_sameStore s k t).loses_of_entry fun i l => ?_
  rw [insertSubscriber_entry, if_neg (fun h => nomatch h.1)]

end Pod

/-- A block on a session loses at most what its place says. -/
theorem exec_loses (c : Pc) :
    Loses {e | e ∈ c.removes p} p (c.exec env p).1 := by
  cases c with
  | start s op =>
      cases op with
      | message j => exact startMessage_asks.loses
      | releasePublisher pid =>
          exact Pod.releasePubs_loses (List.mem_singleton_self _) p
      | releaseSubscriberPeer sid ssid pid =>
          exact p.releaseSubscriberPeer_loses s sid ssid pid
      | handleSubscriberLeaved sid =>
          exact ((p.emit_quiet _).trans (Pod.emit_quiet _ _)).loses
      | doLeave =>
          have h := Pod.doLeavePubs_loses (X := {e | ∃ k, e = .publisher s k})
            (fun k => ⟨k, rfl⟩) p
          refine ⟨h.sessNext, h.roomNext, h.valid,
            fun e he hp hX => h.kept e he hp ?_⟩
          rintro ⟨k, rfl⟩
          have hk : k ∈ (p.sess s).publishers.keys :=
            AList.mem_keys.mpr (AList.lookup_isSome.mp hp)
          exact hX (List.mem_map_of_mem hk)
  | replacePub s j x =>
      exact Pod.replacePublisher_loses (List.mem_singleton_self _) p x
  | insertPub s j =>
      simp only [Pc.exec]
      split
      · exact p.insertPublisher_loses s _ _
      · exact .refl p
  | answerPub j x =>
      simp only [Pc.exec]
      split
      · exact (Pod.peerHandleMessage_quiet env x j p).loses
      · exact (p.emit_quiet _).loses
  | stopPub s j x =>
      exact (Pod.stopSection_loses (List.mem_singleton_self _) p x).trans
        (Pod.throw_quiet _).loses
  | answerStop s j =>
      exact ((p.emit_quiet _).trans
        (Pod.notifyReleasePublish_quiet env s _ _)).loses
  | readPub s j => exact (p.readPublisher_quiet s _).loses
  | testSub s j sdp => exact .refl p
  | replaceSub s j sdp => exact p.replaceSubscriber_loses s _
  | insertSub s j sdp =>
      simp only [Pc.exec]
      split
      · exact p.insertSubscriber_loses s _ _
      · split
        · exact .refl p
        · exact (p.emit_quiet _).loses
  | offerSub j y => exact (Pod.peerHandleMessage_quiet env y j p).loses
  | releaseSubs s pid =>
      exact (p.releaseSubs_loses s pid).trans
        (Pod.notifyReleasePublish_quiet env s pid _).loses
  | leavedSubs s sid lst => exact p.leavedSubs_loses s sid lst
  | leaveSubs s => exact p.doLeaveSubs_loses s
  | leaveWait s => exact (p.waitChecks_quiet s).loses
  | ice x st =>
      simp only [Pc.exec]
      split
      · exact .refl p
      · exact (p.setIceFlags_quiet x st).loses
  | reportIce x st => exact (p.reportIce_asks x st).loses

theorem locked_loses {w : Bool} {c : Pc} {l l' : Locked} {next : Option Pc}
    (h : l.exec env w c = some (l', next)) :
    Loses {e | e ∈ c.removes l.pod} l.pod l'.pod := by
  unfold Locked.exec at h
  split at h
  · split at h
    · cases h
      exact Pod.stopSection_loses (List.mem_singleton_self _) _ _
    · cases h
      exact exec_loses _
  · cases h

/-! ## Blocks on rooms -/

/-- Sessions leave their rooms, and nothing else changes. -/
theorem Loses.of_lookup (hsess : q.sessHeap = p.sessHeap)
    (hnext : q.roomHeap.next = p.roomHeap.next) (hrooms : q.rooms = p.rooms)
    (hback : ∀ i u s, (q.room i).sessions.lookup u = some s →
      (p.room i).sessions.lookup u = some s)
    (hkept : ∀ i u, .session i u ∉ X →
      (q.room i).sessions.lookup u = (p.room i).sessions.lookup u) :
    Loses X p q where
  sessNext := by rw [hsess]
  roomNext := hnext.ge
  valid hp := by
    refine ⟨fun rid i hi => ?_, fun i u s hs => ?_⟩
    · rw [hnext]
      exact hp.rooms rid i (by rwa [hrooms] at hi)
    · rw [hsess]
      exact hp.sessions i u s (hback i u s hs)
  kept e _ he hX := by
    cases e with
    | session i u =>
        rw [Pod.has, hkept i u hX]
        exact he
    | publisher s k =>
        rw [Pod.has, Pod.sess, hsess]
        exact he

theorem eraseSession_loses (hX : .session r uid ∈ X) (p : Pod) :
    Loses X p (p.eraseSession r uid) := by
  have h := p.eraseSession_edits r uid
  refine .of_lookup rfl h.roomNext rfl (fun i u s hs => h.back hs)
    fun i u hX' => ?_
  have hne : ¬(i = r ∧ u = uid) := by
    rintro ⟨rfl, rfl⟩
    exact hX' hX
  rw [eraseSession_lookup, if_neg hne]

theorem clearSessions_loses (hX : ∀ u, .session r u ∈ X) (p : Pod) :
    Loses X p (p.clearSessions r) := by
  have h := clearSessions_clears r p
  refine .of_lookup rfl h.roomNext rfl (fun i u s hs => h.back hs)
    fun i u hX' => ?_
  have hne : i ≠ r := by
    rintro rfl
    exact hX' (hX u)
  rw [clearSessions_lookup, if_neg hne]

theorem eraseRoom_loses (rid : String) (p : Pod) :
    Loses X p (p.eraseRoom rid) where
  sessNext := Nat.le_refl _
  roomNext := Nat.le_refl _
  valid hp := ⟨fun id r hr => hp.rooms id r (GoMap.lookup_of_erase hr),
    hp.sessions⟩
  kept _ _ he _ := he

theorem insertRoom_loses (rid : String) (p : Pod) :
    Loses X p (p.insertRoom rid) where
  sessNext := by rw [insertRoom_sessHeap]
  roomNext := by rw [insertRoom_roomNext]; exact Nat.le_succ _
  valid hp := by
    refine ⟨fun id r hr => ?_, fun r u s hs => ?_⟩
    · rw [insertRoom_rooms, GoMap.lookup_insert_eq] at hr
      rw [insertRoom_roomNext]
      split at hr
      · cases hr; exact Nat.lt_succ_self _
      · exact Nat.lt_succ_of_lt (hp.rooms id r hr)
    · rw [insertRoom_room] at hs
      rw [insertRoom_sessHeap]
      split at hs
      · cases hs
      · exact hp.sessions r u s hs
  kept e hold he _ := by
    cases e with
    | session r u =>
        rw [Pod.has, insertRoom_room_of_lt rid p hold]
        exact he
    | publisher s k =>
        rw [Pod.has, Pod.sess, insertRoom_sessHeap]
        exact he

theorem insertSession_loses (r : RoomRef) (uid : String) (t : Session)
    (p : Pod) : Loses X p (p.insertSession r uid t) where
  sessNext := by rw [Pod.insertSession_sessNext]; exact Nat.le_succ _
  roomNext := by rw [Pod.insertSession_roomNext]
  valid hp := by
    refine ⟨fun id i hi => ?_, fun i u s hs => ?_⟩
    · rw [Pod.insertSession_rooms] at hi
      rw [Pod.insertSession_roomNext]
      exact hp.rooms id i hi
    · rw [Pod.insertSession_lookup] at hs
      rw [Pod.insertSession_sessNext]
      split at hs
      · cases hs; exact Nat.lt_succ_self _
      · exact Nat.lt_succ_of_lt (hp.sessions i u s hs)
  kept e hold he _ := by
    cases e with
    | session i u =>
        rw [Pod.has, Pod.insertSession_lookup]
        split
        · rfl
        · exact he
    | publisher s k =>
        rw [Pod.has, Pod.insertSession_sess, if_neg (Nat.ne_of_lt hold)]
        exact he

/-- A message that finds no session is at most answered. -/
theorem unaddressed_quiet (hnone : p.addressee r j = none)
    (hlogin : command j ≠ some .login) (hlogout : command j ≠ some .logout)
    (hpub : command j ≠ some .fakePublish)
    (hun : command j ≠ some .fakeUnpublish) :
    Quiet p (p.roomHandleMessage env r j) := by
  have hto : ∀ {u : String} {notFound : Pod → Pod},
      (∀ p, Quiet p (notFound p)) → (p.room r).sessions.lookup u = none →
      Quiet p (p.toSession env r u j notFound) := by
    intro u notFound hn hu
    rw [Pod.toSession, hu]
    exact hn p
  unfold Pod.addressee at hnone
  unfold Pod.roomHandleMessage
  dsimp only at hnone ⊢
  split
  case h_1 hc => exact absurd hc hlogin
  case h_6 hc => exact absurd hc hlogout
  case h_11 hc => exact answerRoomCreated_quiet hc
  case h_12 hc => exact absurd hc hpub
  case h_13 hc => exact absurd hc hun
  case h_18 => exact .refl p
  all_goals rename_i hc
  all_goals simp only [hc] at hnone
  all_goals refine hto (fun p => ?_) hnone
  all_goals first
    | exact p.emit_quiet _
    | exact .refl p

theorem startMessage_loses : Loses X p (RoomPc.startMessage env r j p).1 := by
  unfold RoomPc.startMessage
  dsimp only
  split
  case h_1 | h_2 | h_3 | h_4 => exact .refl p
  case h_5 hlogin hpub hun hlogout =>
      split
      · exact .refl p
      · next hnone =>
          exact (unaddressed_quiet hnone hlogin hlogout hpub hun).loses

theorem afterLeave_loses (c : Leave) :
    Loses {e | e ∈ (ThreadPc.room (.left c)).removes p} p
      (RoomPc.afterLeave env p c).1 := by
  cases c with
  | replace r j =>
      exact (eraseSession_loses (List.mem_singleton_self _) p).trans
        (Pod.emit_quiet _ _).loses
  | kickout r sid s =>
      have herase := eraseSession_loses
        (X := {e | e ∈ (ThreadPc.room (.left (.kickout r sid s))).removes p})
        (List.mem_singleton_self (MapEntry.session r (p.sess s).userid)) p
      unfold RoomPc.afterLeave
      dsimp only
      refine (herase.trans ?_).trans (Pod.emit_quiet _ _).loses
      split
      · exact (Pod.notifyLeaveRoom_quiet env r sid _).loses
      · exact .refl _
  | unpublish r j =>
      exact (eraseSession_loses (List.mem_singleton_self _) p).trans
        (Pod.emit_quiet _ _).loses
  | release rid r rest =>
      cases rest with
      | cons s rest => exact .refl p
      | nil =>
          have h := clearSessions_loses (X := {e | ∃ u, e = .session r u})
            (fun u => ⟨u, rfl⟩) p
          have hclear : Loses {e | e ∈ (ThreadPc.room (.left (.release rid r
              []))).removes p} p (p.clearSessions r) := by
            refine ⟨h.sessNext, h.roomNext, h.valid,
              fun e he hp hX => h.kept e he hp ?_⟩
            rintro ⟨u, rfl⟩
            have hu : u ∈ (p.room r).sessions.keys :=
              AList.mem_keys.mpr (AList.lookup_isSome.mp hp)
            exact hX (List.mem_map_of_mem hu)
          exact ((hclear.trans (Pod.emit_quiet _ _).loses).trans
            (eraseRoom_loses rid _)).trans (Pod.emit_quiet _ _).loses

theorem room_loses (c : RoomPc) :
    Loses {e | e ∈ (ThreadPc.room c).removes p} p (c.exec env p).1 := by
  have hlock : ∀ m, Loses {e | e ∈ (ThreadPc.room c).removes p} p
      (p.lock m) := fun m => (p.emit_quiet _).loses
  cases c with
  | releaseRoom rid =>
      simp only [RoomPc.exec]
      split
      · exact hlock _
      · exact (hlock _).trans (Pod.emit_quiet _ _).loses
  | destroyRoom rid r => exact hlock _
  | handle r j => exact startMessage_loses
  | drop r j =>
      simp only [RoomPc.exec]
      split
      · exact hlock _
      · exact (hlock _).trans (Pod.throw_quiet _).loses
  | testOrigin r j =>
      have hread := ((p.emit_quiet (.sync (.rlock (.sessions r)))).trans
        (Pod.emit_quiet _ (.sync (.runlock (.sessions r)))))
      simp only [RoomPc.exec]
      split
      · exact hread.loses
      · exact (hread.trans (Pod.go_quiet _ rfl)).loses
  | insert r j => exact insertSession_loses r _ _ p
  | greet r j =>
      exact ((p.emit_quiet _).trans (Pod.tellStreams_quiet r _ _)).loses
  | unpublish r j =>
      simp only [RoomPc.exec]
      split
      · split
        · exact hlock _
        · exact (hlock _).trans (Pod.emit_quiet _ _).loses
      · exact (hlock _).trans (Pod.emit_quiet _ _).loses
  | kickout r sid =>
      simp only [RoomPc.exec]
      split
      · exact hlock _
      · exact (hlock _).trans (Pod.emit_quiet _ _).loses
  | spread r sid => exact (Pod.spreadLeaved_quiet r sid p).loses
  | testEmpty r => exact (Pod.releaseIfEmpty_quiet r p).loses
  | publisherFailed | subscriberFailed => exact .refl p
  | left c => exact afterLeave_loses c

theorem mgr_loses (c : MgrPc) (hc : ∀ m r, c ≠ .callRoom m (some r)) :
    Loses X p (c.exec env p).1 := by
  cases c with
  | start m =>
      simp only [MgrPc.exec, MgrPc.startMessage]
      split
      · exact (p.handlePodRegist_quiet m).loses
      · exact p.handlePodRegistNow_quiet.loses
      · split
        · exact .refl p
        · exact (p.emit_quiet _).loses
      · split
        · split
          · split
            · exact (p.notFoundRoom_quiet m).loses
            · exact .refl p
          · exact .refl p
        · exact (p.emit_quiet _).loses
  | insertRoom m => exact insertRoom_loses _ p
  | announce m => exact (p.getSn_quiet.trans (Pod.emit_quiet _ _)).loses
  | readRoom m => exact ((p.emit_quiet _).trans (Pod.emit_quiet _ _)).loses
  | fetchRoom m => exact .refl p
  | callRoom m r =>
      cases r with
      | some r => exact absurd rfl (hc m r)
      | none => exact p.throw_quiet.loses

/-- A block loses at most what its place says. -/
theorem ThreadPc.exec_loses {w : Bool} {c : ThreadPc} {l l' : Locked}
    {next : Option ThreadPc} (h : c.exec env w l = some (l', next)) :
    Loses {e | e ∈ c.removes l.pod} l.pod l'.pod := by
  cases c with
  | mgr c =>
      by_cases hc : ∃ m r, c = .callRoom m (some r)
      · obtain ⟨m, r, rfl⟩ := hc
        cases h
        exact .refl _
      · have hc : ∀ m r, c ≠ .callRoom m (some r) :=
          fun m r he => hc ⟨m, r, he⟩
        rw [ThreadPc.exec] at h
        · cases h
          exact mgr_loses c hc
        · exact hc
  | room c => cases h; exact room_loses c
  | leave c d =>
      obtain ⟨⟨l₁, next₁⟩, hs, heq⟩ := Option.map_eq_some_iff.mp h
      cases heq
      exact locked_loses hs
  | sess c =>
      obtain ⟨⟨l₁, next₁⟩, hs, heq⟩ := Option.map_eq_some_iff.mp h
      cases heq
      exact locked_loses hs

/-! ## Where a thread stands -/

/-- The room or the session exists in which a thread has tested or is going
to test for an entry. -/
def ThreadPc.Known (p : Pod) : ThreadPc → Prop
  | .mgr (.callRoom _ (some r)) | .room (.handle r _) | .room (.drop r _) =>
      r < p.roomHeap.next
  | .sess (.start s (.message _)) | .sess (.readPub s _) =>
      s < p.sessHeap.next
  | _ => True

/-- A thread that is about to use an entry finds it. -/
structure ThreadPc.Good (p : Pod) (c : ThreadPc) : Prop where
  known : c.Known p
  finds : ∀ e ∈ c.uses, p.has e = true

theorem ThreadPc.Known.mono {c : ThreadPc} (hc : c.Known p)
    (h : Loses X p q) : c.Known q := by
  unfold ThreadPc.Known at hc ⊢
  split
  all_goals first
    | exact Nat.lt_of_lt_of_le hc h.roomNext
    | exact Nat.lt_of_lt_of_le hc h.sessNext
    | trivial

theorem ThreadPc.Good.of_loses {c : ThreadPc} (hc : c.Good p)
    (h : Loses X p q) (hX : ∀ e ∈ c.uses, e ∉ X) : c.Good q := by
  refine ⟨hc.known.mono h, fun e he => ?_⟩
  have hold : e.Old p := by
    have hk := hc.known
    unfold ThreadPc.uses at he
    split at he
    · cases he; exact hk
    · cases he; exact hk
    · cases he
  exact h.kept e hold (hc.finds e he) (hX e he)

/-- A place at which nothing was tested. -/
theorem ThreadPc.Good.of_free {c : ThreadPc} (hk : c.Known p)
    (hu : c.uses = none) : c.Good p :=
  ⟨hk, fun e he => by rw [hu] at he; cases he⟩

/-- A call on a session is about to use a publisher only after it has found
it. -/
theorem pc_good {c c' : Pc} (hk : (ThreadPc.sess c).Known p)
    (h : c.exec env p = (q, some c')) : (ThreadPc.sess c').Good q := by
  cases c with
  | start s op =>
      cases op with
      | message j =>
          simp only [Pc.exec, Pc.startMessage] at h
          repeat' split at h
          all_goals cases h
          all_goals try exact .of_free trivial rfl
          -- what is left are the two tests for a publisher
          all_goals
            next hfound =>
              refine ⟨hk, fun e he => ?_⟩
              cases he
              exact Option.isSome_iff_ne_none.mpr hfound
      | releasePublisher | handleSubscriberLeaved | doLeave =>
          cases h; exact .of_free trivial rfl
      | releaseSubscriberPeer => cases h
  | testSub s j sdp =>
      cases h
      split
      · exact .of_free trivial rfl
      · exact .of_free trivial rfl
  | insertPub | insertSub | ice =>
      simp only [Pc.exec] at h
      split at h
      all_goals cases h
      exact .of_free trivial rfl
  | replacePub | readPub | replaceSub | leaveSubs =>
      cases h; exact .of_free trivial rfl
  | answerPub | stopPub | answerStop | offerSub | releaseSubs | leavedSubs
  | leaveWait | reportIce => cases h

theorem locked_good {w : Bool} {c c' : Pc} {l l' : Locked}
    (hk : (ThreadPc.sess c).Known l.pod)
    (h : l.exec env w c = some (l', some c')) :
    (ThreadPc.sess c').Good l'.pod := by
  unfold Locked.exec at h
  split at h
  · split at h
    · cases h; exact .of_free trivial rfl
    · obtain ⟨hl, hnext⟩ := Prod.mk.inj (Option.some.inj h)
      subst hl
      exact pc_good hk (Prod.ext rfl hnext)
  · cases h

/-- A message is about to replace a session only after the room has found
it. -/
theorem startMessage_good {c : ThreadPc} (hp : Valid p)
    (hr : r < p.roomHeap.next)
    (h : RoomPc.startMessage env r j p = (q, some c)) : c.Good q := by
  unfold RoomPc.startMessage at h
  dsimp only at h
  split at h
  case h_1 | h_2 =>
      cases h
      split
      · exact .of_free trivial rfl
      · next hfound =>
          refine ⟨hr, fun e he => ?_⟩
          cases he
          exact Option.isSome_iff_ne_none.mpr hfound
  case h_3 | h_4 => cases h; exact .of_free trivial rfl
  case h_5 =>
      split at h
      · next s hs =>
          cases h
          refine .of_free ?_ rfl
          unfold Pod.addressee at hs
          dsimp only at hs
          split at hs
          all_goals first
            | exact hp.sessions _ _ _ hs
            | cases hs
      · cases h

theorem afterLeave_good {d : Leave} {c : ThreadPc}
    (h : RoomPc.afterLeave env p d = (q, some c)) : c.Good q := by
  cases d with
  | replace r j =>
      cases h
      split
      · exact .of_free trivial rfl
      · exact .of_free trivial rfl
  | kickout => cases h; exact .of_free trivial rfl
  | unpublish => cases h
  | release rid r rest =>
      cases rest with
      | nil => cases h
      | cons s rest => cases h; exact .of_free trivial rfl

theorem room_good {c : RoomPc} {c' : ThreadPc} (hp : Valid p)
    (hk : (ThreadPc.room c).Known p) (h : c.exec env p = (q, some c')) :
    c'.Good q := by
  cases c with
  | handle r j => exact startMessage_good hp hk h
  | left d => exact afterLeave_good h
  | insert r j =>
      cases h
      split
      · exact .of_free trivial rfl
      · refine .of_free ?_ rfl
        simp [ThreadPc.Known, Pod.insertSession_sessNext]
  | releaseRoom | drop | testOrigin | kickout =>
      simp only [RoomPc.exec] at h
      split at h
      all_goals cases h
      all_goals exact .of_free trivial rfl
  | unpublish =>
      simp only [RoomPc.exec] at h
      repeat' split at h
      all_goals cases h
      exact .of_free trivial rfl
  | publisherFailed | subscriberFailed =>
      obtain ⟨-, hnext⟩ := Prod.mk.inj h
      obtain ⟨s, -, rfl⟩ := Option.map_eq_some_iff.mp hnext
      exact .of_free trivial rfl
  | destroyRoom | spread => cases h; exact .of_free trivial rfl
  | greet | testEmpty => cases h

theorem mgr_good {c c' : MgrPc} (hp : Valid p)
    (h : c.exec env p = (q, some c')) : (ThreadPc.mgr c').Good q := by
  have hcall : ∀ {m : JsonParser} {rid : String}, p.roomHeap = q.roomHeap →
      (ThreadPc.mgr (.callRoom m (p.rooms.lookup rid))).Good q := by
    intro m rid heap
    refine .of_free ?_ rfl
    cases hr : p.rooms.lookup rid with
    | none => trivial
    | some r =>
        rw [ThreadPc.Known, ← heap]
        exact hp.rooms rid r hr
  cases c with
  | start m =>
      simp only [MgrPc.exec, MgrPc.startMessage] at h
      repeat' split at h
      all_goals cases h
      all_goals exact .of_free trivial rfl
  | insertRoom | announce => cases h; exact .of_free trivial rfl
  | readRoom m =>
      cases h
      refine hcall ?_
      rw [Pod.rlock, Pod.runlock, (Pod.emit_quiet _ _).roomHeap,
        (Pod.emit_quiet _ _).roomHeap]
  | fetchRoom m => cases h; exact hcall rfl
  | callRoom => cases h

theorem ThreadPc.exec_good {w : Bool} {c c' : ThreadPc} {l l' : Locked}
    (hp : Valid l.pod) (hk : c.Known l.pod)
    (h : c.exec env w l = some (l', some c')) : c'.Good l'.pod := by
  cases c with
  | mgr c =>
      by_cases hc : ∃ m r, c = .callRoom m (some r)
      · obtain ⟨m, r, rfl⟩ := hc
        cases h
        exact .of_free hk rfl
      · rw [ThreadPc.exec] at h
        · obtain ⟨hl, hnext⟩ := Prod.mk.inj (Option.some.inj h)
          obtain ⟨k, hk, rfl⟩ := Option.map_eq_some_iff.mp hnext
          subst hl
          exact mgr_good hp (Prod.ext rfl hk)
        · exact fun m r he => hc ⟨m, r, he⟩
  | room c =>
      obtain ⟨hl, hnext⟩ := Prod.mk.inj (Option.some.inj h)
      subst hl
      exact room_good hp hk (Prod.ext rfl hnext)
  | leave c d =>
      obtain ⟨⟨l₁, next₁⟩, -, heq⟩ := Option.map_eq_some_iff.mp h
      cases heq
      split
      · exact .of_free trivial rfl
      · exact .of_free trivial rfl
  | sess c =>
      obtain ⟨⟨l₁, next₁⟩, hs, heq⟩ := Option.map_eq_some_iff.mp h
      obtain ⟨hl, hnext⟩ := Prod.mk.inj heq
      obtain ⟨k, rfl, rfl⟩ := Option.map_eq_some_iff.mp hnext
      subst hl
      exact locked_good hk hs

/-! ## Runs -/

/-- What an input does when it starts no thread. -/
theorem whole_loses {a : Env × Input} (hnone : p.startsThread a.2 = none)
    (hs : Pod.step a p = some q) : Loses X p q := by
  obtain ⟨env, inp⟩ := a
  cases inp with
  | message m => cases hnone
  | ice x st =>
      simp only [Pod.startsThread] at hnone
      simp only [Pod.step] at hs
      split at hnone
      · cases hnone
      · next hx =>
          rw [if_neg hx, ite_self] at hs
          cases hs
  | go i =>
      simp only [Pod.startsThread] at hnone
      simp only [Pod.step] at hs
      split at hs
      · cases hs
      · split at hs
        · next g hg =>
            rw [hg] at hnone
            have hpend : Loses X p { p with pending := p.pending.eraseIdx i } :=
              ⟨Nat.le_refl _, Nat.le_refl _, fun hp => ⟨hp.rooms, hp.sessions⟩,
                fun e _ he _ => by cases e <;> exact he⟩
            cases hs
            cases g with
            | checkKeepAlive s =>
                exact hpend.trans (Pod.checkKeepAlive_quiet env s _).loses
            | onPublisherReady r u name pid =>
                exact hpend.trans (Pod.onPublisherReady_quiet r u name pid _).loses
            | fakePublisherReConnect s u pid n =>
                exact hpend.trans
                  (Pod.fakePublisherReConnect_quiet s u pid n _).loses
            | requestKeyframe x => exact hpend
            | _ => cases hnone
        · cases hs
  | _ =>
      exact (Pod.step_quiet rfl (fun _ _ h => by cases h)
        (fun _ h => by cases h) hs).loses

theorem startsThread_good {a : Input} {c : ThreadPc}
    (h : p.startsThread a = some (q, c)) :
    (∀ Y, Loses Y p q) ∧ c.Good q := by
  cases a with
  | message m => cases h; exact ⟨fun Y => .refl p, .of_free trivial rfl⟩
  | ice x st =>
      simp only [Pod.startsThread] at h
      split at h
      · cases h; exact ⟨fun Y => .refl p, .of_free trivial rfl⟩
      · cases h
  | go i =>
      obtain ⟨g, -, hg⟩ := Option.bind_eq_some_iff.mp h
      obtain ⟨k, hk, heq⟩ := Option.map_eq_some_iff.mp hg
      cases heq
      refine ⟨fun Y => ⟨Nat.le_refl _, Nat.le_refl _,
        fun hp => ⟨hp.rooms, hp.sessions⟩,
        fun e _ he _ => by cases e <;> exact he⟩, ?_⟩
      cases g with
      | checkKeepAlive | onPublisherReady | fakePublisherReConnect
      | requestKeyframe => cases hk
      | _ => cases hk; exact .of_free trivial rfl
  | _ => cases h

namespace RoomSched

/-- Every thread that is about to use an entry finds it. -/
abbrev Ok : RoomSched → Prop :=
  Threads.Inv (fun l => Valid l.pod) (fun c l => c.Good l.pod)

theorem init_ok (conf : Config) : Ok (init conf) :=
  ⟨⟨fun _ _ hr => (by cases hr), fun _ _ _ hs => (by cases hs)⟩,
    fun _ hc => (by cases hc)⟩

theorem step_ok {a : Act} {t u : RoomSched} (ht : Ok t) (ha : SparesUsed t a)
    (h : step a t = some u) : Ok u := by
  have hset : ∀ {q : Pod}, (∀ Y, Loses Y t.shared.pod q) → Ok (t.setPod q) := by
    intro q hq
    exact ht.of_shared (s := { t.shared with pod := q })
      ((hq ∅).valid ht.shared)
      (fun c _ hg => hg.of_loses (hq ∅) fun e _ => Set.notMem_empty e)
  unfold step at h
  dsimp only at h
  split at h
  · cases h
  · cases a with
    | input a =>
        dsimp only at h
        split at h
        · next q c hq =>
            obtain ⟨hl, hg⟩ := startsThread_good hq
            cases h
            exact (hset hl).start hg
        · next hnone =>
            obtain ⟨q, hq, rfl⟩ := Option.map_eq_some_iff.mp h
            exact hset fun Y => whole_loses hnone hq
    | turn i env w =>
        dsimp only at h
        split at h
        · cases h
        · obtain ⟨c, l, next, hc, hx, rfl⟩ := Threads.turn_eq_some h
          have hmem : c ∈ t.threads := List.mem_of_getElem? hc
          have hl := ThreadPc.exec_loses hx
          refine ht.resume (hl.valid ht.shared) ?_ fun c' hc' hg => ?_
          · rintro c' rfl
            exact ThreadPc.exec_good ht.shared (ht.each c hmem).known hx
          · refine hg.of_loses hl fun e he hrem => ?_
            exact ha c hc e hrem c' hc' he

theorem Ok.finds {a : Act} {t : RoomSched} (ht : Ok t) : FindsEntry t a := by
  cases a with
  | input a => trivial
  | turn i env w =>
      intro c hc e he
      exact (ht.each c (List.mem_of_getElem? hc)).finds e he

/-- In every run in which no block takes out an entry that another thread has
found and not used yet, every thread finds the entry that it uses. -/
theorem finds_entry_of_spares {conf : Config} {as : List Act}
    (hg : Guarded step SparesUsed as (init conf)) :
    AlwaysStep step (fun t a _ => FindsEntry t a) as (init conf) :=
  alwaysStep_of_guarded (fun _ _ _ ht ha h => ⟨step_ok ht ha h, ht.finds⟩) hg
    (init_ok conf)

def receive (m : JsonParser) : Act := .input (Env.calm, .message m)

/-- The next blocks of the threads with these numbers. -/
def turns (l : List Nat) : List Act := l.map fun i => .turn i .calm false

/-- A user logs in. -/
def loggedIn : List Act :=
  .input (Env.calm, .setSendMessageHandler) ::
    receive (Cmd.login.msg [(.roomId, "R"), (.sessID, "u")]) ::
    turns (List.replicate 8 0)

/-- The same user logs in again and has been found, when a logout takes the
session out. -/
def logoutOvertakes : List Act :=
  loggedIn ++ receive (Cmd.login.msg [(.roomId, "R"), (.sessID, "u")]) ::
    turns [0, 0, 0, 0] ++
    receive (Cmd.logout.msg [(.roomId, "R"), (.sessID, "u")]) ::
    turns (List.replicate 9 1)

/-- Somebody subscribes to a stream of the user and has found it, when the
user logs out. -/
def logoutUnderSub : List Act :=
  loggedIn ++
    receive (Cmd.push.msg [(.roomId, "R"), (.sessID, "u"), (.peerID, "1")]) ::
    turns (List.replicate 7 0) ++
    receive (Cmd.sub.msg [(.roomId, "R"), (.sessID, "v"), (.srcSessID, "u"),
      (.peerID, "1")]) :: turns [0, 0, 0, 0, 0] ++
    receive (Cmd.logout.msg [(.roomId, "R"), (.sessID, "u")]) ::
    turns (List.replicate 6 1)

/-- Both end with a nil pointer. -/
theorem overtaken_entry_used :
    (∃ t t', run step logoutOvertakes (init (Config.standalone "podA")) =
        some t ∧ ¬FindsEntry t (.turn 0 .calm false) ∧
      step (.turn 0 .calm false) t = some t' ∧ t'.shared.pod.fatal = true) ∧
    ∃ t t', run step logoutUnderSub (init (Config.standalone "podA")) =
        some t ∧ ¬FindsEntry t (.turn 0 .calm false) ∧
      step (.turn 0 .calm false) t = some t' ∧ t'.shared.pod.fatal = true := by
  have h : ∀ as ∈ [logoutOvertakes, logoutUnderSub],
      ((run step as (init (Config.standalone "podA"))).bind fun t =>
        (step (.turn 0 .calm false) t).map fun t' =>
          (decide (FindsEntry t (.turn 0 .calm false)),
            t'.shared.pod.fatal)) = some (false, true) := by decide
  have hends : ∀ as ∈ [logoutOvertakes, logoutUnderSub],
      ∃ t t', run step as (init (Config.standalone "podA")) = some t ∧
        ¬FindsEntry t (.turn 0 .calm false) ∧
        step (.turn 0 .calm false) t = some t' ∧
        t'.shared.pod.fatal = true := by
    intro as has
    obtain ⟨t, ht, hrest⟩ := Option.bind_eq_some_iff.mp (h as has)
    obtain ⟨t', ht', hfacts⟩ := Option.map_eq_some_iff.mp hrest
    obtain ⟨hno, hfatal⟩ := Prod.mk.inj hfacts
    exact ⟨t, t', ht, of_decide_eq_false hno, ht', hfatal⟩
  exact ⟨hends _ (by simp), hends _ (by simp)⟩

/-- The same two logins, with the logout only after the second has used its
entry. -/
theorem finds_entry_relogin :
    let as := loggedIn ++
      receive (Cmd.login.msg [(.roomId, "R"), (.sessID, "u")]) ::
      turns [0, 0, 0, 0, 0] ++
      receive (Cmd.logout.msg [(.roomId, "R"), (.sessID, "u")]) ::
      turns [1, 1, 1, 1, 0, 0, 0, 0, 0, 0]
    (run step as (init (Config.standalone "podA"))).map (fun t =>
      (t.shared.pod.sessHeap.next, t.threads.length)) = some (2, 1) ∧
    AlwaysStep step (fun t a _ => FindsEntry t a) as
      (init (Config.standalone "podA")) :=
  ⟨by decide, finds_entry_of_spares (by decide)⟩

end RoomSched

end MediaServer.Ref
