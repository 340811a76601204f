import MediaServer.Proofs.Views

/-!
# A pod refines its conference

Every input of a pod has on its conference the effect of its request, and no
effect if it has none (`step_refines`). The calls that change who sits where
are taken through here; those that change the peers of one session were in
`Views.lean`. From the single step the run follows, and with it the
independence of rooms: what becomes of a room is decided by the requests that
name it, whatever happens in the others.
-/

namespace MediaServer.Ref

open MediaServer.Lib Function

variable {p q t : Pod} {s i : SessRef} {r : RoomRef}
variable {role : Role} {rid u k pid who : String} {c : Change}
variable {env : Env} {j m : JsonParser}

/-! ## Who leaves -/

theorem Edits.lookup_ne (h : Edits r u p q) {r' : RoomRef} {u' : String}
    (hne : r' ≠ r ∨ ¬u' = u) :
    (q.room r').sessions.lookup u' = (p.room r').sessions.lookup u' := by
  by_cases hr : r' = r
  · subst hr
    exact h.keep u' (hne.resolve_left fun h => h rfl)
  · rw [h.other r' hr]

theorem doLeave_entry_ne (hp : Placed p) (hi : i ≠ s) :
    (p.doLeave s).entry role i k = p.entry role i k := by
  refine Option.ext fun x => ?_
  rw [(Pod.doLeave_removes hp).entry]
  refine ⟨And.left, fun hx => ⟨hx, ?_⟩⟩
  rintro (⟨l, hl⟩ | ⟨l, hl⟩)
  · exact hi (hp.unique hl hx).2.1
  · exact hi (hp.unique hl hx).2.1

theorem seat_ne (hp : Seated p) (hs : (p.room r).sessions.lookup u = some s)
    {r' : RoomRef} {u' : String} {s' : SessRef}
    (hs' : (p.room r').sessions.lookup u' = some s')
    (hne : r' ≠ r ∨ ¬u' = u) : s' ≠ s := by
  rintro rfl
  obtain ⟨hu, hr, -⟩ := hp.sessions r u s' hs
  obtain ⟨hu', hr', -⟩ := hp.sessions r' u' s' hs'
  exact hne.elim (fun h => h (hr'.symm.trans hr)) fun h =>
    h (hu'.symm.trans hu)

theorem leaveErase_elsewhere (hp : PodOk p)
    (hs : (p.room r).sessions.lookup u = some s) :
    Elsewhere r (· = u) p ((p.doLeave s).eraseSession r u) := by
  have he := Pod.leaveErase_edits r s u p
  have hrem := Pod.doLeave_removes (s := s) hp.placed
  refine ⟨fun _ _ => by rw [he.rooms], fun r' u' hne => he.lookup_ne hne,
    fun r' u' s' hs' hne => ?_⟩
  refine seatView_congr hp.placed ⟨fun s _ => he.ident s,
    fun x _ => hrem.peerIdent x⟩ (hp.sessions r' u' s' hs').2.2 fun _ _ => ?_
  exact doLeave_entry_ne hp.placed (seat_ne hp.toSeated hs hs' hne)

/-- The sections that take a session out do it under a lock, and say
something afterwards. -/
theorem leaveSection_elsewhere {e : Event} (hp : PodOk p)
    (hs : ((p.emit e).room r).sessions.lookup u = some s)
    (hq : Quiet (((p.emit e).doLeave s).eraseSession r u) q) :
    Elsewhere r (· = u) p q := by
  have hlock := p.emit_quiet e
  have hpq : PodOk (p.emit e) :=
    (Asks.does (G := fun _ => False) (I := fun _ _ => False) hlock).podOk hp
  refine (hlock.elsewhere.trans hlock.rooms
    (leaveErase_elsewhere hpq hs)).trans ?_ hq.elsewhere
  rw [(Pod.leaveErase_edits r s u _).rooms, hlock.rooms]

theorem dropIfPresent_elsewhere (hp : PodOk p) :
    Elsewhere r (· = u) p (if (p.room r).sessions.lookup u = none then p
      else p.dropSession r u) := by
  split
  · exact (Asks.refl (G := fun _ => False) p).elsewhere
  · unfold Pod.dropSession
    dsimp only
    split
    · exact ((p.emit_quiet _).trans (Pod.throw_quiet _)).elsewhere
    · next s hs => exact leaveSection_elsewhere hp hs (Pod.emit_quiet _ _)

theorem kickSession_elsewhere (hp : PodOk p) :
    Elsewhere r (· = u) p (p.kickSession env r u) := by
  unfold Pod.kickSession
  dsimp only
  split
  · next s hs =>
      have hu : ((p.lock (.sessions r)).sess s).userid = u := by
        rw [Pod.lock, Pod.emit_room] at hs
        rw [Pod.lock, Pod.emit_sess]
        exact (hp.sessions r u s hs).1
      rw [hu]
      split
      · exact leaveSection_elsewhere hp hs
          ((Pod.notifyLeaveRoom_quiet env r u _).trans (Pod.emit_quiet _ _))
      · exact leaveSection_elsewhere hp hs (Pod.emit_quiet _ _)
  · exact ((p.emit_quiet _).trans (Pod.emit_quiet _ _)).elsewhere

theorem kickSession_lookup_self (hp : PodOk p) :
    ((p.kickSession env r u).room r).sessions.lookup u = none := by
  unfold Pod.kickSession
  dsimp only
  rw [Pod.unlock, Pod.emit_room]
  split
  · next s hs =>
      have hu : ((p.lock (.sessions r)).sess s).userid = u := by
        rw [Pod.lock, Pod.emit_room] at hs
        rw [Pod.lock, Pod.emit_sess]
        exact (hp.sessions r u s hs).1
      rw [hu]
      split
      · rw [(Pod.notifyLeaveRoom_quiet env r u _).room]
        exact Pod.eraseSession_lookup_self r u _
      · exact Pod.eraseSession_lookup_self r u _
  · next hno => exact hno

theorem hall_none (h : (p.room r).sessions.lookup u = none) :
    p.hall r u = none := by rw [Pod.hall, h]; rfl

theorem hall_some (h : (p.room r).sessions.lookup u = some s) :
    p.hall r u = some (p.seatView s) := by rw [Pod.hall, h]; rfl

theorem kickoutFromRoom_conference (hp : PodOk p)
    (hr : p.rooms.lookup rid = some r) :
    (p.kickoutFromRoom env r u).conference =
      ConfRequest.apply p.conference (.changes rid u .leaves) := by
  have hq : Quiet (p.kickSession env r u) (p.kickoutFromRoom env r u) :=
    (Pod.spreadLeaved_quiet r u _).trans (Pod.releaseIfEmpty_quiet r _)
  have hrooms := (Pod.kickSession_edits env r u
    fun s hs => (hp.sessions r u s hs).1).rooms
  rw [hq.conference]
  refine (kickSession_elsewhere hp).changes hp.toSeated hr
    (by rw [hrooms]; exact hr) ?_
  rw [hall_none (kickSession_lookup_self hp)]
  cases p.hall r u with
  | none => rfl
  | some t => rfl

/-- A kick out of a room that is no longer registered finds nobody. -/
theorem kickoutFromRoom_nobody
    (hno : (p.room r).sessions.lookup u = none) :
    (p.kickoutFromRoom env r u).conference = p.conference := by
  have hkick : Quiet p (p.kickSession env r u) := by
    unfold Pod.kickSession
    dsimp only
    split
    · next s hs =>
        rw [Pod.lock, Pod.emit_room, hno] at hs
        cases hs
    · exact (p.emit_quiet _).trans (Pod.emit_quiet _ _)
  exact ((hkick.trans (Pod.spreadLeaved_quiet r u _)).trans
    (Pod.releaseIfEmpty_quiet r _)).conference

theorem handleFakeUnpublish_conference (hp : PodOk p)
    (hr : p.rooms.lookup rid = some r) :
    (p.handleFakeUnpublish r j).conference =
      ConfRequest.apply p.conference (.changes rid (getValue j .sessID)
        (.retracted (getValue j .podId))) := by
  have hrooms := (Pod.handleFakeUnpublish_edits r j p).rooms
  cases hs : (p.room r).sessions.lookup (getValue j .sessID) with
  | none =>
      have hq : Quiet p (p.handleFakeUnpublish r j) := by
        unfold Pod.handleFakeUnpublish
        simp only [Pod.lock, Pod.emit_room, hs]
        exact (p.emit_quiet _).trans (Pod.emit_quiet _ _)
      rw [hq.conference, apply_missing]
      rw [Pod.seat, hr]
      exact hs
  | some s =>
      by_cases hpod : (p.sess s).podid = getValue j .podId
      · have heq : p.handleFakeUnpublish r j =
            (((p.lock (.sessions r)).doLeave s).eraseSession r
              (getValue j .sessID)).unlock (.sessions r) := by
          unfold Pod.handleFakeUnpublish
          simp only [Pod.lock, Pod.emit_room, Pod.emit_sess, hs, hpod, if_true]
        have helse : Elsewhere r (· = getValue j .sessID) p
            (p.handleFakeUnpublish r j) := by
          rw [heq]
          refine leaveSection_elsewhere hp ?_ (Pod.emit_quiet _ _)
          rw [Pod.emit_room]
          exact hs
        refine helse.changes hp.toSeated hr (by rw [hrooms]; exact hr) ?_
        rw [hall_some hs, hall_none]
        · exact (if_pos hpod).symm
        · rw [heq, Pod.unlock, Pod.emit_room]
          exact Pod.eraseSession_lookup_self r _ _
      · have hq : Quiet p (p.handleFakeUnpublish r j) := by
          unfold Pod.handleFakeUnpublish
          simp only [Pod.lock, Pod.emit_room, Pod.emit_sess, hs, hpod,
            if_false]
          exact (p.emit_quiet _).trans (Pod.emit_quiet _ _)
        refine hq.elsewhere.changes hp.toSeated hr (by rw [hq.rooms]; exact hr)
          ?_
        rw [hall_some hs, hall_some (by rw [hq.room]; exact hs), hq.seatView]
        exact (if_neg hpod).symm

/-! ## Who enters -/

/-- The seat of a session that has just been created. -/
theorem insertSession_elsewhere {a : Session} (hp : PodOk p)
    (hpubs : a.publishers = ∅) (hsubs : a.subscribers = ∅) :
    Elsewhere r (· = u) p (p.insertSession r u a) := by
  refine ⟨fun _ _ => by rw [Pod.insertSession_rooms],
    fun r' u' hne => ?_, fun r' u' s' hs' hne => ?_⟩
  · rw [Pod.insertSession_lookup, if_neg]
    rintro ⟨hr, hu⟩
    exact hne.elim (fun h => h hr) fun h => h hu
  · have hlt := (hp.sessions r' u' s' hs').2.2
    have hafter := insertSession_after r u a p
    exact seatView_congr hp.placed hafter.sameNames hlt
      fun _ _ => insertSession_entry hp.placed hpubs hsubs _ _ _

theorem insertSession_hall {a : Session} (hpubs : a.publishers = ∅)
    (hsubs : a.subscribers = ∅) : (p.insertSession r u a).hall r u =
      some (.fresh a.origin a.username a.clusterid a.podid) := by
  rw [hall_some ((Pod.insertSession_lookup r u a r u).trans
    (if_pos ⟨rfl, rfl⟩)), Pod.seatView, Pod.insertSession_sess, if_pos rfl,
    hpubs, hsubs]
  refine congrArg some (Seat.ext rfl rfl rfl rfl (Set.ext fun k => ?_) rfl)
  exact iff_of_false (fun h => h rfl) (Set.notMem_empty k)

/-- The old session goes and the new one is seated. -/
theorem reseat_conference {a : Session} (hp : PodOk p)
    (hr : p.rooms.lookup rid = some r) (hpubs : a.publishers = ∅)
    (hsubs : a.subscribers = ∅)
    (hq : Quiet (if (p.room r).sessions.lookup u = none then p
      else p.dropSession r u) q) (ht : Quiet (q.insertSession r u a) t) :
    t.conference = update p.conference rid (some (update (p.hall r) u
      (some (.fresh a.origin a.username a.clusterid a.podid)))) := by
  have hdrop : Does (fun _ => False) (fun _ _ => False) p q :=
    (dropIfPresent_does r u p).trans hq.calm
  have hrooms : q.rooms = p.rooms := by
    rw [hq.rooms, (p.dropIfPresent_edits r u).rooms]
  have helse : Elsewhere r (· = u) p t := by
    refine (((dropIfPresent_elsewhere hp).trans
      (p.dropIfPresent_edits r u).rooms hq.elsewhere).trans hrooms
      (insertSession_elsewhere (hdrop.podOk hp) hpubs hsubs)).trans ?_
        ht.elsewhere
    rw [Pod.insertSession_rooms, hrooms]
  have hroom : t.rooms.lookup rid = some r := by
    rw [ht.rooms, Pod.insertSession_rooms, hrooms]
    exact hr
  have hhall : t.hall r u = (q.insertSession r u a).hall r u := by
    simp only [Pod.hall, ht.room]
    exact congrArg (Option.map · _) (funext ht.seatView)
  rw [helse.conference hp.toSeated hr hroom, hhall,
    insertSession_hall hpubs hsubs]

theorem insertRoom_conference (hp : Seated p) :
    (p.insertRoom rid).conference =
      update p.conference rid (some fun _ => none) := by
  have hview : (p.insertRoom rid).seatView = p.seatView := by
    funext s
    simp only [Pod.seatView, Pod.sess, Pod.peer, insertRoom_sessHeap,
      insertRoom_peerHeap]
  refine eq_update_iff.mpr ⟨?_, fun rid' hne => ?_⟩
  · rw [Pod.conference, insertRoom_rooms, GoMap.lookup_insert_eq, if_pos rfl]
    refine congrArg some (funext fun u => hall_none ?_)
    rw [insertRoom_room, if_pos rfl]
    rfl
  · rw [Pod.conference, insertRoom_rooms, GoMap.lookup_insert_eq, if_neg hne,
      Pod.conference]
    cases hr : p.rooms.lookup rid' with
    | none => rfl
    | some r =>
        refine congrArg some (hall_congr (fun u => ?_) fun u s _ => ?_)
        · rw [insertRoom_room_of_lt rid p (hp.rooms _ _ hr).2]
        · rw [hview]

theorem broadcastRoomCreated_quiet (env : Env) (m : JsonParser) (p : Pod) :
    Quiet p (p.broadcastRoomCreated env m) :=
  p.getSn_quiet.trans (Pod.emit_quiet _ _)

theorem opened_conference (hp : Seated p) :
    (p.opened env m).conference = update p.conference (getValue m .roomId)
      (some ((p.conference (getValue m .roomId)).getD fun _ => none)) := by
  unfold Pod.opened
  split
  · next hno =>
      rw [(broadcastRoomCreated_quiet env m _).conference,
        insertRoom_conference hp, Pod.conference, hno]
      rfl
  · next hsome =>
      obtain ⟨r, hr⟩ := Option.ne_none_iff_exists'.mp hsome
      refine (update_eq_self_iff.mpr ?_).symm
      rw [Pod.conference, hr]
      rfl

theorem opened_podOk (hp : PodOk p) : PodOk (p.opened env m) := by
  unfold Pod.opened
  split
  · have hopen : Does (fun _ => False) (fun _ _ => False) p
        (p.insertRoom (getValue m .roomId)) := .micro fun _ => .openRoom _
    exact (hopen.trans (broadcastRoomCreated_quiet env m _).calm).podOk hp
  · exact hp

theorem mgrLogin_conference (hp : PodOk p) (hc : command m = some .login) :
    (p.mgrLogin env m).conference = ConfRequest.apply p.conference
      (.enters (getValue m .roomId) (getValue m .sessID)
        (getValue m .userName)) := by
  have hread : Quiet (p.opened env m)
      (((p.opened env m).rlock .rooms).runlock .rooms) :=
    (Pod.emit_quiet _ _).trans (Pod.emit_quiet _ _)
  have hopen : PodOk (p.opened env m) := opened_podOk hp
  have hpq := (Asks.does (G := fun _ => False) (I := fun _ _ => False)
    hread).podOk hopen
  have hroom := opened_rooms env m p
  rw [← hread.rooms] at hroom
  have hconf := hread.conference.trans (opened_conference hp.toSeated)
  have hhall := congrFun hconf (getValue m .roomId)
  rw [Pod.conference, hroom, update_self] at hhall
  rw [mgrLogin_eq hc]
  refine (reseat_conference hpq hroom rfl rfl (.refl _)
    ((Pod.emit_quiet _ _).trans (Pod.tellStreams_quiet _ _ _))).trans ?_
  rw [hconf, update_idem, Option.some.inj hhall]
  rfl

/-- Whether somebody else is logged in shows once the old session is gone. -/
theorem hasOrigin_iff_attended
    (hq : Quiet (if (p.room r).sessions.lookup u = none then p
      else p.dropSession r u) q) :
    q.hasOrigin r = true ↔ ConfRequest.Attended (p.hall r) u := by
  have he : Edits r u p q :=
    (p.dropIfPresent_edits r u).trans (hq.toSameStore.edits r u)
  have hfree : (q.room r).sessions.lookup u = none := by
    rw [hq.room]
    exact p.dropIfPresent_lookup_self r u
  rw [Pod.hasOrigin_iff]
  constructor
  · rintro ⟨v, s, hs, ho⟩
    have hv : v ≠ u := by
      rintro rfl
      rw [hfree] at hs
      cases hs
    refine ⟨v, p.seatView s, hv, hall_some ((he.keep v hv).symm.trans hs), ?_⟩
    exact (he.origin s).symm.trans ho
  · rintro ⟨v, t, hv, ht, ho⟩
    obtain ⟨s, hs, rfl⟩ := Option.map_eq_some_iff.mp ht
    exact ⟨v, s, (he.keep v hv).trans hs, (he.origin s).trans ho⟩

theorem apply_standsIn {name clusterid podid : String} {o : Option Seat}
    (hr : p.rooms.lookup rid = some r)
    (hyes : ConfRequest.Attended (p.hall r) u →
      o = some (.fresh false name clusterid podid))
    (hno : ¬ConfRequest.Attended (p.hall r) u → o = none) :
    ConfRequest.apply p.conference (.standsIn rid u name clusterid podid) =
      update p.conference rid (some (update (p.hall r) u o)) := by
  simp only [ConfRequest.apply, ConfRequest.room, ConfRequest.hall,
    Pod.conference, hr, Option.map_some]
  split
  · next h => rw [hyes h]
  · next h => rw [hno h]

theorem handleFakePublish_conference (hp : PodOk p)
    (hc : command j = some .fakePublish) (hr : p.rooms.lookup rid = some r) :
    (p.handleFakePublish env r j).conference = ConfRequest.apply p.conference
      (.standsIn rid (getValue j .sessID) (getValue j .userName)
        (getValue j .clusterId) (getValue j .podId)) := by
  have hedit := p.dropIfPresent_edits r (getValue j .sessID)
  have hfree := p.dropIfPresent_lookup_self r (getValue j .sessID)
  have helse := dropIfPresent_elsewhere (r := r) (u := getValue j .sessID) hp
  have hattended := fun q => hasOrigin_iff_attended (p := p) (q := q) (r := r)
    (u := getValue j .sessID)
  have hseat := fun (a : Session) hpubs hsubs q t =>
    reseat_conference (u := getValue j .sessID) (a := a) (q := q) (t := t) hp
      hr hpubs hsubs
  unfold Pod.handleFakePublish
  dsimp only
  generalize (if (p.room r).sessions.lookup (getValue j .sessID) = none then p
    else p.dropSession r (getValue j .sessID)) = p₁
      at hedit hfree helse hattended hseat ⊢
  have hread : Quiet p₁ ((p₁.rlock (.sessions r)).runlock (.sessions r)) :=
    (p₁.emit_quiet _).trans (Pod.emit_quiet _ _)
  split
  · next ho =>
      simp only [Pod.sessionHandleMessage, hc]
      rw [apply_standsIn hr (fun _ => rfl) fun h =>
        absurd ((hattended _ hread).mp ho) h]
      exact hseat _ rfl rfl _ _ hread (Pod.fakeSubscribe_quiet _ _ _ _ _)
  · next ho =>
      rw [apply_standsIn hr (fun h => absurd ((hattended _ hread).mpr h) ho)
        fun _ => rfl, (Pod.go_quiet _ rfl).conference, hread.conference,
        helse.conference hp.toSeated hr (by rw [hedit.rooms]; exact hr),
        hall_none hfree]

/-! ## A room is released -/

theorem leaveAll_entry (l : List ((_ : String) × SessRef)) (p : Pod)
    (hp : Placed p) (hi : ∀ e ∈ l, i ≠ e.2) :
    (l.foldl (fun p e => p.doLeave e.2) p).entry role i k =
      p.entry role i k := by
  induction l generalizing p with
  | nil => rfl
  | cons e l ih =>
      rw [List.foldl_cons, ih _ (hp.of_removes (Pod.doLeave_removes hp))
        fun e' he' => hi e' (List.mem_cons_of_mem _ he')]
      exact doLeave_entry_ne hp (hi e List.mem_cons_self)

theorem destroyRoom_elsewhere (hp : PodOk p) :
    Elsewhere r (fun _ => True) p (p.destroyRoom r) := by
  have hclear := destroyRoom_clears r p
  have hlock := p.emit_quiet (.sync (.lock (.sessions r)))
  have hpl := hp.placed.of_quiet hlock
  obtain ⟨X, hX, -⟩ := leaveAll
    ((p.lock (.sessions r)).room r).sessions.entries (p.lock (.sessions r))
    hpl
  refine ⟨fun _ _ => by rw [hclear.rooms], fun r' u' hne => ?_,
    fun r' u' s' hs' hne => ?_⟩
  · rw [hclear.other r' (hne.resolve_right fun h => h trivial)]
  · have hne := hne.resolve_right fun h => h trivial
    refine seatView_congr hp.placed ⟨fun s _ => hclear.ident s,
      fun x _ => ?_⟩ (hp.sessions r' u' s' hs').2.2 fun role k => ?_
    · have h := (hX.peerIdent x).trans (hlock.peerIdent x)
      unfold Pod.destroyRoom
      dsimp only
      rw [Pod.unlock, Pod.emit_peer]
      exact h
    · rw [← hlock.entry]
      unfold Pod.destroyRoom
      dsimp only
      rw [Pod.unlock, (Pod.emit_quiet _ _).entry]
      refine leaveAll_entry _ _ hpl fun e he => ?_
      have hs := GoMap.mem_entries.mp he
      rw [Pod.lock, Pod.emit_room] at hs
      exact seat_ne hp.toSeated hs hs' (.inl hne)

theorem releaseRoom_conference (hp : PodOk p) :
    (p.releaseRoom rid).conference =
      ConfRequest.apply p.conference (.closes rid) := by
  have hlock := p.emit_quiet (.sync (.lock .rooms))
  have hpq : PodOk (p.lock .rooms) :=
    (Asks.does (G := fun _ => False) (I := fun _ _ => False) hlock).podOk hp
  refine eq_update_iff.mpr ?_
  rw [← hlock.conference]
  change (p.releaseRoom rid).conference rid = none ∧ ∀ rid', rid' ≠ rid →
    (p.releaseRoom rid).conference rid' = (p.lock .rooms).conference rid'
  unfold Pod.releaseRoom
  dsimp only
  rw [Pod.unlock, (Pod.emit_quiet _ _).conference]
  split
  · next r hr =>
      have hrooms := (destroyRoom_clears r (p.lock .rooms)).rooms
      refine ⟨?_, fun rid' hne => ?_⟩
      · simp only [Pod.conference, Pod.eraseRoom, GoMap.lookup_erase_eq,
          if_true, Option.map_none]
      · rw [← (destroyRoom_elsewhere hpq).other hpq.toSeated hr hne]
        simp only [Pod.conference, Pod.eraseRoom, GoMap.lookup_erase_eq,
          if_neg hne]
        rfl
  · next hno =>
      exact ⟨by rw [Pod.conference, hno]; rfl, fun _ _ => rfl⟩

/-! ## Messages -/

theorem apply_unchanged (hp : PodOk p) (hr : p.rooms.lookup rid = some r)
    (hs : (p.room r).sessions.lookup u = some s)
    (h : c.after (p.seatView s) = some (p.seatView s)) :
    ConfRequest.apply p.conference (.changes rid u c) = p.conference :=
  (conference_changes hp (.refl p) ⟨fun _ _ => rfl, fun _ _ => rfl⟩ hr hs
    (fun _ _ _ _ => rfl) h).symm

section Step

variable {a : Env × Input}

theorem Stored.conference {ok : Bool} (h : Stored s pid ok p q)
    (hp : PodOk p) (hst : SameStore p q) (hn : SameNames p q)
    (hr : p.rooms.lookup rid = some r)
    (hs : (p.room r).sessions.lookup u = some s) :
    q.conference = ConfRequest.apply p.conference
      (.changes rid u (.publishes pid ok)) := by
  refine conference_changes hp hst hn hr hs (fun i hi role k => ?_)
    (h.after hp.placed hn (hp.sessions r u s hs).2.2)
  rw [h, if_neg fun hat => hi hat.2.1]

/-- A `sub` or `fakesubscribe`, whether or not the stream is there. -/
theorem subscribe_conference {isFake : Bool} {notFound failed : Pod → Pod}
    (hp : PodOk p) (hr : p.rooms.lookup rid = some r)
    (hs : (p.room r).sessions.lookup u = some s)
    (hnf : ∀ p, Quiet p (notFound p)) (hf : ∀ p, Quiet p (failed p))
    (hn : SameNames p (p.subscribe env s j who isFake notFound failed)) :
    (p.subscribe env s j who isFake notFound failed).conference =
      ConfRequest.apply p.conference (.changes rid u (.viewed who
        (getValue j .srcSessID) (getValue j .peerID) env.createOk)) := by
  have hlt := (hp.sessions r u s hs).2.2
  by_cases hpub : (p.sess s).publishers.lookup (getValue j .peerID) = none
  · have hq : p.subscribe env s j who isFake notFound failed = notFound p :=
      if_pos hpub
    rw [hq, (hnf p).conference, apply_unchanged hp hr hs]
    exact if_neg fun h => h hpub
  · have hhook : Hooked s who (getValue j .peerID)
        (subKey who (getValue j .srcSessID) (getValue j .peerID)) env.createOk
        p (p.subscribe env s j who isFake notFound failed) :=
      subscribe_hooked hp.placed hlt hf hpub
    refine conference_changes hp (Pod.subscribe_sameStore hnf hf p) hn hr hs
      (fun i hi role k => ?_) (hhook.after hp.placed hn hlt hpub)
    rw [hhook.entry, if_neg fun hat => hi hat.2.1]

theorem asked_routed {cmd : Cmd} (hc : command m = some cmd)
    (hroute : cmd.routed = true) : p.asked env m = none ∨
      ∃ c, p.asked env m =
        some (.changes (getValue m .roomId) (route m) c) := by
  unfold Pod.asked route
  rw [hc]
  cases cmd with
  | heartbeat | offer | stopSub | answer | fakeAnswer | fakeCandidate =>
      exact .inl rfl
  | push | stopPush | sub | fakeSubscribe | fakeOffer => exact .inr ⟨_, rfl⟩
  | _ => cases hroute

theorem session_refines {cmd : Cmd} (hp : PodOk p)
    (hc : command m = some cmd) (hroute : cmd.routed = true)
    (hr : p.rooms.lookup (getValue m .roomId) = some r)
    (hs : (p.room r).sessions.lookup (route m) = some s)
    (hn : SameNames p (p.sessionHandleMessage env s m)) :
    (p.sessionHandleMessage env s m).conference =
      ConfRequest.perform p.conference (p.asked env m) := by
  have hlt := (hp.sessions r _ s hs).2.2
  have hst := Pod.sessionHandleMessage_sameStore env s m p
  cases cmd with
  | push | fakeOffer | stopPush =>
      rw [show route m = getValue m .sessID by simp only [route, hc]] at hs
      simp only [Pod.sessionHandleMessage, hc, Pod.asked] at hn hst ⊢
      refine Stored.conference ?_ hp hst hn hr hs
      first
        | exact handlePush_stored hp.placed hlt
        | exact handleFakeOfferMsg_stored hp.placed hlt
        | exact handleStopPush_stored hp.placed
  | sub =>
      rw [show route m = getValue m .srcSessID by simp only [route, hc]] at hs
      simp only [Pod.sessionHandleMessage, hc, Pod.asked] at hn ⊢
      exact subscribe_conference hp hr hs (fun p => p.emit_quiet _)
        (fun p => p.emit_quiet _) hn
  | fakeSubscribe =>
      rw [show route m = getValue m .srcSessID by simp only [route, hc]] at hs
      simp only [Pod.sessionHandleMessage, hc, Pod.asked] at hn ⊢
      exact subscribe_conference hp hr hs Asks.refl Asks.refl hn
  | heartbeat =>
      simp only [Pod.sessionHandleMessage, hc, Pod.asked]
      exact (Pod.heartbeat_quiet env s p).conference
  | offer =>
      simp only [Pod.sessionHandleMessage, hc, Pod.asked]
      exact (Pod.handleOffer_quiet env s m p).conference
  | stopSub =>
      simp only [Pod.sessionHandleMessage, hc, Pod.asked]
      exact (Pod.handleStopSub_asks s m p).conference
  | answer =>
      simp only [Pod.sessionHandleMessage, hc, Pod.asked]
      exact (Pod.toSubscriber_quiet (fun p => p.emit_quiet _) p).conference
  | fakeAnswer =>
      simp only [Pod.sessionHandleMessage, hc, Pod.asked]
      exact (Pod.toSubscriber_quiet Asks.refl p).conference
  | fakeCandidate =>
      simp only [Pod.sessionHandleMessage, hc, Pod.asked]
      exact (Pod.handleFakeCandidate_quiet env s m p).conference
  | _ => cases hroute

/-- The commands that a room hands to the session of a user. -/
theorem routed_refines {cmd : Cmd} (hp : InOrder p)
    (hs : Pod.step a p = some q) (hm : a.2 = .message m)
    (hc : command m = some cmd) (hroute : cmd.routed = true)
    (hreg : p.regist = true) :
    q.conference = ConfRequest.perform p.conference (p.asked a.1 m) := by
  cases hseat : p.seat (getValue m .roomId) (route m) with
  | none =>
      rw [(step_unrouted hs hm hc hroute fun _ => hseat).quiet.conference]
      obtain hno | ⟨c, hask⟩ : p.asked a.1 m = none ∨ _ :=
        asked_routed hc hroute
      · rw [hno]; rfl
      · rw [hask]; exact (apply_missing hseat).symm
  | some s =>
      obtain ⟨r, hr, hlook⟩ := seat_eq_some.mp hseat
      have hn := (step_after hp hs).sameNames
      rw [step_routed hs hm hc hroute hreg hseat] at hn ⊢
      exact session_refines hp.toPodOk hc hroute hr hlook hn

theorem apply_missing_room (hr : p.rooms.lookup rid = none) :
    ConfRequest.apply p.conference (.changes rid u c) = p.conference :=
  apply_missing (by rw [Pod.seat, hr]; rfl)

/-- What a message to a registered pod does. -/
theorem message_refines (hp : InOrder p) (hs : Pod.step a p = some q)
    (hm : a.2 = .message m) (hreg : p.regist = true) :
    q.conference = ConfRequest.perform p.conference (p.asked a.1 m) := by
  cases hcm : command m with
  | none =>
      obtain rfl := step_message hs hm
      simp only [Pod.mgrHandleMessage, Pod.mgrForward, Pod.forwards,
        Pod.asked, hcm, hreg]
      rfl
  | some cmd =>
      by_cases hroute : cmd.routed = true
      · exact routed_refines hp hs hm hcm hroute hreg
      obtain rfl := step_message hs hm
      cases cmd with
      | login =>
          simp only [Pod.mgrHandleMessage, Pod.asked, hcm, hreg, if_true]
          exact mgrLogin_conference hp.toPodOk hcm
      | logout =>
          simp only [Pod.mgrHandleMessage, Pod.mgrForward, Pod.forwards,
            Pod.asked, hcm, hreg, if_true]
          split
          · next r hr =>
              simp only [Pod.roomHandleMessage, hcm]
              exact kickoutFromRoom_conference hp.toPodOk hr
          · next hr =>
              rw [(p.notFoundRoom_quiet m).conference]
              exact (apply_missing_room hr).symm
      | roomCreated =>
          simp only [Pod.mgrHandleMessage, Pod.mgrForward, Pod.asked, hcm,
            hreg, if_true]
          split
          · split
            · simp only [Pod.roomHandleMessage, hcm]
              exact (answerRoomCreated_quiet hcm).conference
            · exact (p.notFoundRoom_quiet m).conference
          · rfl
      | fakePublish =>
          simp only [Pod.mgrHandleMessage, Pod.mgrForward, Pod.forwards,
            Pod.asked, hcm, hreg, if_true, decide_eq_true_eq]
          split
          · split
            · next r hr =>
                simp only [Pod.roomHandleMessage, hcm]
                exact handleFakePublish_conference hp.toPodOk hcm hr
            · next hr =>
                rw [(p.notFoundRoom_quiet m).conference]
                refine (update_eq_self_iff.mpr ?_).symm
                simp only [ConfRequest.room, ConfRequest.hall, Pod.conference,
                  hr, Option.map_none]
          · rfl
      | fakeUnpublish =>
          simp only [Pod.mgrHandleMessage, Pod.mgrForward, Pod.forwards,
            Pod.asked, hcm, hreg, if_true, decide_eq_true_eq]
          split
          · split
            · next r hr =>
                simp only [Pod.roomHandleMessage, hcm]
                exact handleFakeUnpublish_conference hp.toPodOk hr
            · next hr =>
                rw [(p.notFoundRoom_quiet m).conference]
                exact (apply_missing_room hr).symm
          · rfl
      | candidate =>
          simp only [Pod.mgrHandleMessage, Pod.mgrForward, Pod.forwards,
            Pod.asked, hcm, hreg, if_true]
          split
          · simp only [Pod.roomHandleMessage, hcm, Pod.toSession]
            split
            · simp only [Pod.sessionHandleMessage, hcm]
              rfl
            · rfl
          · exact (p.notFoundRoom_quiet m).conference
      | podRegist =>
          simp only [Pod.mgrHandleMessage, Pod.asked, hcm]
          exact (p.handlePodRegist_quiet m).conference
      | podRegistNow =>
          simp only [Pod.mgrHandleMessage, Pod.asked, hcm]
          exact p.handlePodRegistNow_quiet.conference
      | pub | unpub | podReleasePublish | podLeaveRoom =>
          simp only [Pod.mgrHandleMessage, Pod.mgrForward, Pod.forwards,
            Pod.asked, hcm, hreg]
          rfl
      | heartbeat | push | stopPush | sub | stopSub | offer | answer
      | fakeSubscribe | fakeOffer | fakeAnswer | fakeCandidate =>
          exact absurd rfl hroute

/-! ## Spawned calls -/

theorem Removes.sameNames {X : Set PeerRef} (h : Removes X p q) :
    SameNames p q := ⟨fun s _ => h.ident s, fun x _ => h.peerIdent x⟩

/-- A call that holds a room finds a session there only while the room is
registered. -/
theorem inRoom_of_lookup (hp : Sound p)
    (hs : (p.room r).sessions.lookup u = some s) :
    p.inRoom r u c = some (.changes (p.room r).roomid u c) :=
  if_pos (hp.registered r u s hs)

theorem inRoom_missing (hno : (p.room r).sessions.lookup u = none) :
    ConfRequest.perform p.conference (p.inRoom r u c) = p.conference := by
  unfold Pod.inRoom
  split
  · next hr =>
      refine apply_missing ?_
      rw [Pod.seat, hr]
      exact hno
  · rfl

theorem onPublisherPeerFailed_conference (hp : Sound p) :
    (p.onPublisherPeerFailed env r u pid).conference =
      ConfRequest.perform p.conference (p.inRoom r u (.unpublishes pid)) := by
  unfold Pod.onPublisherPeerFailed
  split
  · next s hs =>
      have hrem := Pod.releasePublisher_removes (s := s) env hp.placed pid
      have hlt := (hp.sessions r u s hs).2.2
      rw [inRoom_of_lookup hp hs]
      refine conference_changes hp.toPodOk hrem.toSameStore hrem.sameNames
        (hp.registered r u s hs) hs (fun i hi role k => ?_)
        (unpublishes_after hp.placed hrem.sameNames hlt hrem)
      refine Option.ext fun x => ?_
      rw [hrem.entry]
      refine ⟨And.left, fun hx => ⟨hx, ?_⟩⟩
      rintro (hx' | ⟨l, hx', -⟩)
      · exact hi (hp.placed.unique hx' hx).2.1
      · exact hi (hp.placed.unique hx' hx).2.1
  · next hs => exact (inRoom_missing hs).symm

theorem releaseSubscriberPeer_conference {sid ssid : String} (hp : PodOk p)
    (hr : p.rooms.lookup rid = some r)
    (hs : (p.room r).sessions.lookup u = some s) :
    (p.releaseSubscriberPeer s sid ssid pid).conference =
      ConfRequest.apply p.conference
        (.changes rid u (.unviewed (subKey sid ssid pid))) := by
  have hrem := Pod.releaseSubscriberPeer_removes (s := s) hp.placed sid ssid pid
  refine conference_changes hp hrem.toSameStore hrem.sameNames hr hs
    (fun i hi role k => ?_) (unviewed_after hp.placed hrem.sameNames
      (hp.sessions r u s hs).2.2 hrem)
  rw [hrem.entry_one hp.placed, if_neg fun hat => hi hat.2.1]

theorem onSubscriberPeerFailed_conference {sid ssid : String} (hp : Sound p) :
    (p.onSubscriberPeerFailed r sid ssid pid).conference =
      ConfRequest.perform p.conference
        (p.inRoom r ssid (.unviewed (subKey sid ssid pid))) := by
  unfold Pod.onSubscriberPeerFailed
  split
  · next s hs =>
      rw [inRoom_of_lookup hp hs]
      exact releaseSubscriberPeer_conference hp.toPodOk
        (hp.registered r _ s hs) hs
  · next hs => exact (inRoom_missing hs).symm

/-- A session without a seat has no peers, and a call that holds it finds
nothing to do. -/
theorem atSeat_cases (hp : Sound p) :
    (∃ r, p.rooms.lookup (p.room (p.sess s).parent).roomid = some r ∧
      (p.room r).sessions.lookup (p.sess s).userid = some s ∧
      p.atSeat s c = some (.changes (p.room (p.sess s).parent).roomid
        (p.sess s).userid c)) ∨
    (∀ role k, p.entry role s k = none) ∧ p.atSeat s c = none := by
  by_cases hseat : p.seat (p.room (p.sess s).parent).roomid
      (p.sess s).userid = some s
  · obtain ⟨r, hr, hs⟩ := seat_eq_some.mp hseat
    exact .inl ⟨r, hr, hs, if_pos hseat⟩
  · refine .inr ⟨fun role k => ?_, if_neg hseat⟩
    cases hx : p.entry role s k with
    | none => rfl
    | some x => exact absurd (hp.seat_of_entry hx) hseat

/-- Nothing that a view shows has changed. -/
theorem conference_same (hp : PodOk p) (hst : SameStore p q)
    (hn : SameNames p q)
    (hent : ∀ role i k, q.entry role i k = p.entry role i k) :
    q.conference = p.conference := by
  funext rid
  rw [Pod.conference, hst.rooms, Pod.conference]
  cases p.rooms.lookup rid with
  | none => rfl
  | some r =>
      refine congrArg some (hall_congr (fun u => by rw [hst.room])
        fun u s hs => ?_)
      exact seatView_congr hp.placed hn (hp.sessions r u s hs).2.2
        fun role k => hent role s k

theorem runGoroutine_refines (env : Env) (hp : Sound p) (g : Goroutine) :
    (p.runGoroutine env g).conference =
      ConfRequest.perform p.conference (p.called g) := by
  cases g with
  | releaseRoom rid => exact releaseRoom_conference hp.toPodOk
  | kickoutFromRoom r u =>
      change (p.kickoutFromRoom env r u).conference =
        ConfRequest.perform p.conference (p.inRoom r u .leaves)
      cases hs : (p.room r).sessions.lookup u with
      | none => rw [kickoutFromRoom_nobody hs, inRoom_missing hs]
      | some s =>
          rw [inRoom_of_lookup hp hs]
          exact kickoutFromRoom_conference hp.toPodOk (hp.registered r u s hs)
  | checkKeepAlive s => exact (p.checkKeepAlive_quiet env s).conference
  | handleSubscriberLeaved s sid =>
      change (p.handleSubscriberLeaved s sid).conference =
        ConfRequest.perform p.conference
          (p.atSeat s (.abandoned sid (p.sess s).userid))
      have hst := p.handleSubscriberLeaved_sameStore s sid
      have hread : Quiet p ((p.rlock (.pubs s)).runlock (.pubs s)) :=
        (p.emit_quiet _).trans (Pod.emit_quiet _ _)
      obtain ⟨X, hX⟩ := Pod.leavedSubs_removes (s := s)
        (hp.placed.of_quiet hread) sid (p.publisherIds s)
      have hn := (hread.trans_removes hX).sameNames
      obtain ⟨r, hr, hs, hask⟩ | ⟨hno, hask⟩ := atSeat_cases (s := s)
        (c := .abandoned sid (p.sess s).userid) hp
      · rw [hask]
        refine conference_changes hp.toPodOk hst hn hr hs
          (fun i hi role k => ?_) (abandoned_after hp.placed
            (hp.sessions _ _ s hs).2.2 hn)
        rw [handleSubscriberLeaved_entry, if_neg fun hat => hi hat.2.1]
      · rw [hask]
        refine conference_same hp.toPodOk hst hn fun role i k => ?_
        rw [handleSubscriberLeaved_entry]
        split
        · next hat => rw [hat.2.1, hno]
        · rfl
  | onPublisherReady r sid name pid =>
      exact (p.onPublisherReady_quiet r sid name pid).conference
  | onPublisherPeerFailed r sid pid x =>
      exact onPublisherPeerFailed_conference hp
  | onPublisherPeerClosed r sid pid x =>
      exact onPublisherPeerFailed_conference hp
  | onSubscriberPeerFailed r sid ssid pid x =>
      exact onSubscriberPeerFailed_conference hp
  | onSubscriberPeerClosed r sid ssid pid x =>
      exact onSubscriberPeerFailed_conference hp
  | releaseSubscriberPeer s sid ssid pid x =>
      change (p.releaseSubscriberPeer s sid ssid pid).conference =
        ConfRequest.perform p.conference
          (p.atSeat s (.unviewed (subKey sid ssid pid)))
      obtain ⟨r, hr, hs, hask⟩ | ⟨hno, hask⟩ := atSeat_cases (s := s)
        (c := .unviewed (subKey sid ssid pid)) hp
      · rw [hask]
        exact releaseSubscriberPeer_conference hp.toPodOk hr hs
      · rw [hask]
        have hrem := Pod.releaseSubscriberPeer_removes (s := s) hp.placed sid
          ssid pid
        refine conference_same hp.toPodOk hrem.toSameStore hrem.sameNames
          fun role i k => ?_
        rw [hrem.entry_one hp.placed]
        split
        · next hat => rw [hat.2.1, hno]
        · rfl
  | fakePublisherReConnect s sid pid n =>
      exact (p.fakePublisherReConnect_quiet s sid pid n).conference
  | requestKeyframe x => rfl

/-! ## Steps and runs -/

/-- An input does to the conference what its request does. -/
theorem step_refines (hp : InOrder p) (hs : Pod.step a p = some q) :
    q.conference = ConfRequest.perform p.conference (p.request a) := by
  by_cases hmsg : ∃ m, a.2 = .message m
  · obtain ⟨m, hm⟩ := hmsg
    rw [Pod.request, hm]
    dsimp only
    split
    · next hreg => exact message_refines hp hs hm hreg
    · next hreg =>
        have hq : Quiet p q := by
          rw [step_message hs hm]
          unfold Pod.mgrHandleMessage
          split
          · exact p.handlePodRegist_quiet m
          · exact p.handlePodRegistNow_quiet
          · rw [if_neg hreg]
            exact p.emit_quiet _
          · rw [if_neg hreg]
            exact p.emit_quiet _
        exact hq.conference
  · by_cases hgo : ∃ i, a.2 = .go i
    · obtain ⟨i, hi⟩ := hgo
      rw [Pod.request, hi]
      dsimp only
      cases hg : p.pending[i]? with
      | none =>
          unfold Pod.step at hs
          rw [if_neg (by simp [step_fatal hs]), hi] at hs
          simp only [hg] at hs
          cases hs
      | some g =>
          rw [step_go hs hi hg]
          exact runGoroutine_refines a.1
            (hp.of_pending (p.pending.eraseIdx i)).toSound g
    · have hask : p.request a = none := by
        unfold Pod.request
        split
        · next m hm => exact absurd ⟨m, hm⟩ hmsg
        · next i hi => exact absurd ⟨i, hi⟩ hgo
        · rfl
      have hnone : a.2.msg? = none := by
        cases hm : a.2.msg? with
        | none => rfl
        | some m => exact absurd ⟨m, Input.msg?_eq_some hm⟩ hmsg
      rw [hask]
      by_cases hice : ∃ x st, a.2 = .ice x st
      · obtain ⟨x, st, hx⟩ := hice
        unfold Pod.step at hs
        rw [if_neg (by simp [step_fatal hs]), hx] at hs
        dsimp only at hs
        split at hs
        · cases hs
          exact (p.onICEConnectionStateChange_asks x st).conference
        · cases hs
      · exact (Pod.step_quiet hnone (fun x st h => hice ⟨x, st, h⟩)
          (fun i h => hgo ⟨i, h⟩) hs).conference

end Step

theorem perform_toList (c : Conference) (o : Option ConfRequest) :
    ConfRequest.perform c o = o.toList.foldl ConfRequest.apply c := by
  cases o with
  | none => rfl
  | some q => rfl

theorem run_refines {as : List (Env × Input)} (hp : InOrder p)
    (hrun : run Pod.step as p = some q) :
    q.conference = (requests as p).foldl ConfRequest.apply p.conference := by
  induction as generalizing p with
  | nil =>
      cases hrun
      rfl
  | cons a as ih =>
      obtain ⟨t, ht, hrest⟩ := run_cons hrun
      have hreq : requests (a :: as) p = (p.request a).toList ++
          requests as t := by
        simp only [requests, ht]
      rw [ih (step_inOrder hp ht) hrest, step_refines hp ht, hreq,
        List.foldl_append, perform_toList]

/-- Whatever messages, timers, callbacks and spawned calls come in whatever
order, the conference that a pod started from nothing serves in the end is the
one that the requests of the run, taken one after the other, make of no
conference at all. -/
theorem serves_requested_conference (conf : Config)
    (as : List (Env × Input)) (q : Pod)
    (hrun : run Pod.step as (Pod.createRoomMgr conf) = some q) :
    q.conference = (requests as (Pod.createRoomMgr conf)).foldl ConfRequest.apply
      fun _ => none :=
  run_refines (createRoomMgr_inOrder conf) hrun

/-- Two users log in, one publishes and the other subscribes; the publisher
logs out, and the calls that this has started run. -/
def shortTalk : List (Env × Input) :=
  [(Env.calm, .setSendMessageHandler),
    (Env.calm, .message (Cmd.login.msg [(.roomId, "R"), (.sessID, "u")])),
    (Env.calm, .message (Cmd.login.msg [(.roomId, "R"), (.sessID, "w")])),
    (Env.calm, .message (Cmd.push.msg
      [(.roomId, "R"), (.sessID, "u"), (.peerID, "1")])),
    (Env.calm, .message (Cmd.offer.msg
      [(.roomId, "R"), (.sessID, "u"), (.peerID, "1")])),
    (Env.calm, .message (Cmd.sub.msg [(.roomId, "R"), (.sessID, "w"),
      (.srcSessID, "u"), (.peerID, "1")])),
    (Env.calm, .message (Cmd.logout.msg [(.roomId, "R"), (.sessID, "w")])),
    (Env.calm, .go 0)]

theorem shortTalk_serves :
    ∃ q, run Pod.step shortTalk (Pod.createRoomMgr (.standalone "podA")) =
        some q ∧
      q.conference =
        [ConfRequest.enters "R" "u" "", .enters "R" "w" "",
          .changes "R" "u" (.publishes "1" true),
          .changes "R" "u" (.viewed "w" "u" "1" true),
          .changes "R" "w" .leaves,
          .changes "R" "u" (.abandoned "w" "u")].foldl ConfRequest.apply
            fun _ => none := by
  have hsome : (run Pod.step shortTalk
      (Pod.createRoomMgr (.standalone "podA"))).isSome = true := by decide
  obtain ⟨q, hq⟩ := Option.isSome_iff_exists.mp hsome
  refine ⟨q, hq, (serves_requested_conference _ _ q hq).trans ?_⟩
  have hreq : requests shortTalk (Pod.createRoomMgr (.standalone "podA")) =
      [ConfRequest.enters "R" "u" "", .enters "R" "w" "",
        .changes "R" "u" (.publishes "1" true),
        .changes "R" "u" (.viewed "w" "u" "1" true),
        .changes "R" "w" .leaves, .changes "R" "u" (.abandoned "w" "u")] := by
    decide
  rw [hreq]

end MediaServer.Ref
