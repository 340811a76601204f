import MediaServer.Proofs.Effects
import MediaServer.Ref.Conference

/-!
# The seats of a pod, read off its maps

A conference shows of a session the keys of its publishers and, for the key of
a subscriber, two fields of the peer. So a change of a seat is a matter of
entries: which of them went and which came. The calls that change the peers of
one session are taken through here one by one, each with the exact entries
afterwards and the `Change` they amount to.

`Elsewhere r E` is the frame: in room `r` the seats of the users in `E` may
have changed, and everybody else sits where they sat and has what they had.
Two things make a seat's name as good as a reference to it: a room that is
registered is registered under its own id, and a session sits in one room
under its own user id.
-/

namespace MediaServer.Ref

open MediaServer.Lib Function

variable {p q t : Pod} {s i : SessRef} {r : RoomRef} {x y : PeerRef}
variable {role : Role} {rid u k key pid who v : String} {c : Change}
variable {env : Env} {j m : JsonParser}

/-! ## Reading seats off entries -/

theorem Pod.mem_streams :
    k ∈ (p.seatView s).streams ↔ p.entry .publisher s k ≠ none := Iff.rfl

theorem Pod.viewers_eq : (p.seatView s).viewers k =
    (p.entry .subscriber s k).map fun y =>
      ((p.peer y).userid, (p.peer y).peerid) := rfl

/-- Nobody who was there before has changed what a view shows. -/
structure SameNames (p q : Pod) : Prop where
  ident : ∀ s, s < p.sessHeap.next → (q.sess s).ident = (p.sess s).ident
  peer : ∀ x, x < p.peerHeap.next → (q.peer x).ident = (p.peer x).ident

theorem After.sameNames (h : After p q) : SameNames p q := ⟨h.sess, h.peer⟩

/-- The viewer of a peer that was there before. -/
theorem SameNames.viewer (h : SameNames p q) (hx : x < p.peerHeap.next) :
    ((q.peer x).userid, (q.peer x).peerid) =
      ((p.peer x).userid, (p.peer x).peerid) := by
  obtain ⟨hu, -, hpid, -⟩ := Peer.ident_eq (h.peer x hx)
  rw [hu, hpid]

theorem viewer_map (hp : Placed p) (h : SameNames p q) :
    (p.entry .subscriber s k).map (fun y =>
      ((q.peer y).userid, (q.peer y).peerid)) =
    (p.entry .subscriber s k).map fun y =>
      ((p.peer y).userid, (p.peer y).peerid) := by
  cases hy : p.entry .subscriber s k with
  | none => rfl
  | some y => simp only [Option.map_some, h.viewer (hp _ _ _ _ hy).1]

/-- The parts of a view that the entries do not decide. -/
theorem seatView_ext {a : Seat} (hid : (q.sess s).ident = (p.sess s).ident)
    (hfix : (a.origin, a.name, a.clusterid, a.podid) =
      ((p.seatView s).origin, (p.seatView s).name, (p.seatView s).clusterid,
        (p.seatView s).podid))
    (hstreams : ∀ k, k ∈ a.streams ↔ q.entry .publisher s k ≠ none)
    (hviewers : ∀ k, a.viewers k = (q.entry .subscriber s k).map fun y =>
      ((q.peer y).userid, (q.peer y).peerid)) : a = q.seatView s := by
  simp only [Prod.mk.injEq] at hfix
  obtain ⟨ho, hn, hc, hpod⟩ := hfix
  refine Seat.ext ?_ ?_ ?_ ?_ (Set.ext hstreams) (funext hviewers)
  · exact ho.trans (congrArg (·.2.2.2.2.1) hid).symm
  · exact hn.trans (congrArg (·.2.1) hid).symm
  · exact hc.trans (congrArg (·.2.2.1) hid).symm
  · exact hpod.trans (congrArg (·.2.2.2.1) hid).symm

theorem seatView_congr (hp : Placed p) (h : SameNames p q)
    (hs : s < p.sessHeap.next)
    (hent : ∀ role k, q.entry role s k = p.entry role s k) :
    q.seatView s = p.seatView s := by
  refine (seatView_ext (h.ident s hs) rfl (fun k => ?_) fun k => ?_).symm
  · rw [hent]; exact Pod.mem_streams
  · rw [hent, viewer_map hp h]; rfl

theorem Asks.seatView {G : Goroutine → Prop} (h : Asks G p q) (s : SessRef) :
    q.seatView s = p.seatView s := by
  refine (seatView_ext (h.ident s) rfl (fun k => ?_) fun k => ?_).symm
  · rw [h.entry]; exact Pod.mem_streams
  · rw [h.entry, Pod.viewers_eq]
    cases p.entry .subscriber s k with
    | none => rfl
    | some y =>
        obtain ⟨hu, -, hpid, -⟩ := Peer.ident_eq (h.peerIdent y)
        simp only [Option.map_some, hu, hpid]

/-! ## Halls and conferences -/

theorem hall_congr
    (hs : ∀ u, (q.room r).sessions.lookup u = (p.room r).sessions.lookup u)
    (hv : ∀ u s, (p.room r).sessions.lookup u = some s →
      q.seatView s = p.seatView s) : q.hall r = p.hall r := by
  funext u
  unfold Pod.hall
  rw [hs]
  cases hu : (p.room r).sessions.lookup u with
  | none => rfl
  | some s => exact congrArg some (hv u s hu)

theorem Asks.conference {G : Goroutine → Prop} (h : Asks G p q) :
    q.conference = p.conference := by
  funext rid
  unfold Pod.conference
  rw [h.rooms]
  cases p.rooms.lookup rid with
  | none => rfl
  | some r =>
      exact congrArg some (hall_congr (fun u => by rw [h.room])
        fun _ s _ => h.seatView s)

/-- A change of a seat that nobody has. -/
theorem apply_missing (hno : p.seat rid u = none) :
    ConfRequest.apply p.conference (.changes rid u c) = p.conference := by
  refine update_eq_self_iff.mpr ?_
  simp only [ConfRequest.room, ConfRequest.hall, Pod.conference]
  cases hr : p.rooms.lookup rid with
  | none => rfl
  | some r =>
      rw [Pod.seat, hr] at hno
      have hfree : p.hall r u = none := by
        simp only [Pod.hall]
        rw [show (p.room r).sessions.lookup u = none from hno]
        rfl
      simp only [Option.map_some, hfree, Option.bind_none, Option.some.injEq]
      exact update_eq_self_iff.mpr hfree.symm

/-- Only seats of room `r` that belong to users in `E` are not as before. -/
structure Elsewhere (r : RoomRef) (E : String → Prop) (p q : Pod) : Prop where
  rooms : ∀ rid, p.rooms.lookup rid ≠ some r →
    q.rooms.lookup rid = p.rooms.lookup rid
  lookup : ∀ r' u', r' ≠ r ∨ ¬E u' →
    (q.room r').sessions.lookup u' = (p.room r').sessions.lookup u'
  view : ∀ r' u' s', (p.room r').sessions.lookup u' = some s' →
    r' ≠ r ∨ ¬E u' → q.seatView s' = p.seatView s'

section Elsewhere

variable {E : String → Prop}

theorem Asks.elsewhere {G : Goroutine → Prop} (h : Asks G p q) :
    Elsewhere r E p q :=
  ⟨fun _ _ => by rw [h.rooms], fun _ _ _ => by rw [h.room],
    fun _ _ s _ _ => h.seatView s⟩

theorem Elsewhere.trans (h : Elsewhere r E p q) (hq : q.rooms = p.rooms)
    (h' : Elsewhere r E q t) : Elsewhere r E p t where
  rooms rid hr := by rw [h'.rooms rid (by rw [hq]; exact hr), h.rooms rid hr]
  lookup r' u' hne := (h'.lookup r' u' hne).trans (h.lookup r' u' hne)
  view r' u' s' hs hne := by
    rw [h'.view r' u' s' ((h.lookup r' u' hne).trans hs) hne,
      h.view r' u' s' hs hne]

theorem Elsewhere.other (h : Elsewhere r E p q) (hp : Seated p)
    (hr : p.rooms.lookup rid = some r) {rid' : String} (hne : rid' ≠ rid) :
    q.conference rid' = p.conference rid' := by
  have hnot : ∀ r', p.rooms.lookup rid' = some r' → r' ≠ r := by
    rintro r' hr' rfl
    exact hne ((hp.rooms _ _ hr').1.symm.trans (hp.rooms _ _ hr).1)
  unfold Pod.conference
  rw [h.rooms rid' fun hr' => hnot r hr' rfl]
  cases hr' : p.rooms.lookup rid' with
  | none => rfl
  | some r' =>
      exact congrArg some (hall_congr
        (fun u' => h.lookup r' u' (.inl (hnot r' hr')))
        fun u' s' hs' => h.view r' u' s' hs' (.inl (hnot r' hr')))

end Elsewhere

/-- If one user is concerned and the room stays, the rest is that seat. -/
theorem Elsewhere.conference (h : Elsewhere r (· = u) p q) (hp : Seated p)
    (hr : p.rooms.lookup rid = some r) (hq : q.rooms.lookup rid = some r) :
    q.conference = update p.conference rid
      (some (update (p.hall r) u (q.hall r u))) := by
  refine eq_update_iff.mpr ⟨?_, fun rid' hne => h.other hp hr hne⟩
  rw [Pod.conference, hq]
  refine congrArg some (eq_update_iff.mpr ⟨rfl, fun u' hne => ?_⟩)
  unfold Pod.hall
  rw [h.lookup r u' (.inr hne)]
  cases hu : (p.room r).sessions.lookup u' with
  | none => rfl
  | some s' => exact congrArg some (h.view r u' s' hu (.inr hne))

theorem Elsewhere.changes (h : Elsewhere r (· = u) p q) (hp : Seated p)
    (hr : p.rooms.lookup rid = some r) (hq : q.rooms.lookup rid = some r)
    (hthis : q.hall r u = (p.hall r u).bind c.after) :
    q.conference = ConfRequest.apply p.conference (.changes rid u c) := by
  rw [h.conference hp hr hq, hthis]
  simp only [ConfRequest.apply, ConfRequest.hall, ConfRequest.room,
    Pod.conference, hr, Option.map_some]

/-- A change in place: the session keeps its seat. -/
theorem conference_changes (hp : PodOk p) (h : SameStore p q)
    (hn : SameNames p q) (hr : p.rooms.lookup rid = some r)
    (hs : (p.room r).sessions.lookup u = some s)
    (hent : ∀ i, i ≠ s → ∀ role k, q.entry role i k = p.entry role i k)
    (hthis : c.after (p.seatView s) = some (q.seatView s)) :
    q.conference = ConfRequest.apply p.conference (.changes rid u c) := by
  have helse : Elsewhere r (· = u) p q := by
    refine ⟨fun _ _ => by rw [h.rooms], fun r' u' _ => by rw [h.room],
      fun r' u' s' hs' hne => ?_⟩
    obtain ⟨hu', hr', hlt⟩ := hp.sessions r' u' s' hs'
    refine seatView_congr hp.placed hn hlt (hent s' ?_)
    rintro rfl
    obtain ⟨hu, hr, -⟩ := hp.sessions r u s' hs
    exact hne.elim (fun hne => hne (hr'.symm.trans hr))
      fun hne => hne (hu'.symm.trans hu)
  refine helse.changes hp.toSeated hr (by rw [h.rooms]; exact hr) ?_
  simp only [Pod.hall, h.room, hs, Option.map_some, Option.bind_some, hthis]

/-! ## Entries that come and go -/

/-- The entry of one key went. -/
theorem Removes.entry_one (hp : Placed p)
    (h : Removes {x | p.entry role s k = some x} p q) (role' : Role)
    (i : SessRef) (l : String) : q.entry role' i l =
      if role' = role ∧ i = s ∧ l = k then none else p.entry role' i l := by
  split
  · next hat => obtain ⟨rfl, rfl, rfl⟩ := hat; exact h.free
  · next hat =>
      refine Option.ext fun x => ?_
      rw [h.entry]
      refine ⟨And.left, fun hx => ⟨hx, fun hk => hat ?_⟩⟩
      exact hp.unique hk hx

/-- What `publish` and `fakeoffer` do to the entries. -/
def Stored (s : SessRef) (pid : String) (ok : Bool) (p q : Pod) : Prop :=
  ∀ role i l, q.entry role i l =
    if role = .publisher ∧ i = s ∧ l = pid then
      if ok then some p.peerHeap.next else none
    else p.entry role i l

theorem stored_of_removes (hp : Placed p)
    (h : Removes {x | p.entry .publisher s pid = some x} p q) :
    Stored s pid false p q := fun role i l => by
  rw [h.entry_one hp]
  rfl

theorem Stored.quiet {ok : Bool} (h : Stored s pid ok p q)
    (hq : Quiet q t) : Stored s pid ok p t := fun role i l => by
  rw [hq.entry, h]

theorem Removes.stored {isFake : Bool} {sid : String} (hp : Placed p)
    (hs : s < p.sessHeap.next)
    (h : Removes {x | p.entry .publisher s pid = some x} p q) :
    Stored s pid true p
      (q.insertPublisher s pid (createPublishPeer s sid pid isFake)) := by
  intro role i l
  have hins : Inserts s _ q
      (q.insertPublisher s pid (createPublishPeer s sid pid isFake)) :=
    Pod.insertPublisher_inserts (by rw [h.sessNext]; exact hs) rfl rfl rfl
      h.free
  rw [hins.entry, h.peerNext, h.entry_one hp]
  simp only [createPublishPeer, Peer.key]
  split
  · rfl
  · rfl

theorem handlePush_stored (hp : Placed p) (hs : s < p.sessHeap.next) :
    Stored s (getValue j .peerID) env.createOk p (p.handlePush env s j) := by
  have hrem := retirePublisher_removes hp s (getValue j .peerID)
  unfold Pod.handlePush
  dsimp only
  split
  · next hok =>
      rw [hok]
      exact (hrem.stored hp hs).quiet (Pod.emit_quiet _ _)
  · next hok =>
      rw [Bool.eq_false_iff.mpr hok]
      exact stored_of_removes hp hrem

theorem handleFakeOfferMsg_stored (hp : Placed p) (hs : s < p.sessHeap.next) :
    Stored s (getValue j .peerID) env.createOk p
      (p.handleFakeOfferMsg env s j) := by
  have hrem := retirePublisher_removes hp s (getValue j .peerID)
  unfold Pod.handleFakeOfferMsg
  dsimp only
  split
  · next hok =>
      rw [hok]
      exact (hrem.stored hp hs).quiet (Pod.peerHandleMessage_quiet env _ j _)
  · next hok =>
      rw [Bool.eq_false_iff.mpr hok]
      exact stored_of_removes hp hrem

/-- A `stoppush` ends the process, but not before the publisher is gone. -/
theorem handleStopPush_stored (hp : Placed p) :
    Stored s (getValue j .peerID) false p (p.handleStopPush env s j) := by
  unfold Pod.handleStopPush
  dsimp only
  split
  · next x hx =>
      have hq : Quiet (p.stopSection s x (getValue j .peerID))
          ((p.stopPublisher s x (getValue j .peerID)).answerStopPush env s
            j) :=
        ((Pod.throw_quiet _).trans (Pod.emit_quiet _ _)).trans
          (Pod.notifyReleasePublish_quiet env s _ _)
      exact (stored_of_removes hp (Pod.removes_found hx
        (Pod.stopSection_removes hp hx))).quiet hq
  · next hx => exact stored_of_removes hp (Pod.removes_missing hx)

theorem Stored.after {ok : Bool} (h : Stored s pid ok p q) (hp : Placed p)
    (hn : SameNames p q) (hs : s < p.sessHeap.next) :
    (Change.publishes pid ok).after (p.seatView s) = some (q.seatView s) := by
  refine congrArg some (seatView_ext (hn.ident s hs) rfl (fun k => ?_)
    fun k => ?_)
  · rw [h]
    by_cases hk : k = pid
    · subst hk
      cases ok with
      | true => simp
      | false => simp
    · cases ok with
      | true => simp [hk, Pod.mem_streams]
      | false => simp [hk, Pod.mem_streams]
  · have hsub : q.entry .subscriber s k = p.entry .subscriber s k :=
      (h _ _ _).trans (if_neg (by rintro ⟨hrole, -⟩; cases hrole))
    rw [hsub, viewer_map hp hn]
    rfl

/-- What a successful or failed `sub` for a stream that is there does. -/
structure Hooked (s : SessRef) (who pid key : String) (ok : Bool)
    (p q : Pod) : Prop where
  entry : ∀ role i l, q.entry role i l =
    if role = .subscriber ∧ i = s ∧ l = key then
      if ok then some p.peerHeap.next else none
    else p.entry role i l
  peer : ok = true → (q.peer p.peerHeap.next).userid = who ∧
    (q.peer p.peerHeap.next).peerid = pid

theorem subscribe_hooked {isFake : Bool} {notFound failed : Pod → Pod}
    (hp : Placed p) (hs : s < p.sessHeap.next)
    (hf : ∀ p, Quiet p (failed p))
    (hpub : (p.sess s).publishers.lookup (getValue j .peerID) ≠ none) :
    Hooked s who (getValue j .peerID)
      (subKey who (getValue j .srcSessID) (getValue j .peerID)) env.createOk p
      (p.subscribe env s j who isFake notFound failed) := by
  generalize h : p.subscribe env s j who isFake notFound failed = q
  have hrem := makeWay_removes hp s (getValue j .peerID)
    (subKey who (getValue j .srcSessID) (getValue j .peerID))
  obtain ⟨hno, -⟩ | ⟨-, hok, rfl⟩ | ⟨-, hok, rfl⟩ := Pod.subscribe_cases h
  · exact absurd hno hpub
  · rw [hok]
    have hquiet := Pod.peerHandleMessage_quiet env
      (p.makeWay s (getValue j .peerID)
        (subKey who (getValue j .srcSessID) (getValue j .peerID))).peerHeap.next
      j
    have hins : Inserts s _ _ (Pod.insertSubscriber s
        (subKey who (getValue j .srcSessID) (getValue j .peerID))
        (createSubscribePeer s who (getValue j .srcSessID)
          (getValue j .peerID) (p.readPublisher s (getValue j .peerID)).2
          isFake) _) :=
      Pod.insertSubscriber_inserts (by rw [hrem.sessNext]; exact hs) rfl rfl
        rfl hrem.free
    refine ⟨fun role i l => ?_, fun _ => ?_⟩
    · rw [(hquiet _).entry, hins.entry, hrem.peerNext, hrem.entry_one hp]
      simp only [createSubscribePeer, Peer.key]
      split
      · rfl
      · rfl
    · obtain ⟨hu, -, hpid, -⟩ := Peer.ident_eq ((hquiet _).peerIdent
        p.peerHeap.next)
      rw [hu, hpid, hins.peer, if_pos hrem.peerNext.symm]
      exact ⟨rfl, rfl⟩
  · rw [hok]
    refine ⟨fun role i l => ?_, fun h => by cases h⟩
    rw [(hf _).entry, hrem.entry_one hp]
    rfl

theorem Hooked.after {ok : Bool}
    (h : Hooked s who pid (subKey who v pid) ok p q) (hp : Placed p)
    (hn : SameNames p q) (hs : s < p.sessHeap.next)
    (hpub : (p.sess s).publishers.lookup pid ≠ none) :
    (Change.viewed who v pid ok).after (p.seatView s) =
      some (q.seatView s) := by
  refine (if_pos (Pod.mem_streams.mpr hpub)).trans (congrArg some
    (seatView_ext (hn.ident s hs) rfl (fun k => ?_) fun k => ?_))
  · rw [(h.entry _ _ _).trans (if_neg (by rintro ⟨hrole, -⟩; cases hrole))]
    exact Pod.mem_streams
  · change update _ _ _ k = _
    by_cases hk : k = subKey who v pid
    · subst hk
      rw [(h.entry _ _ _).trans (if_pos ⟨rfl, rfl, rfl⟩), update_self]
      cases ok with
      | false => rfl
      | true =>
          obtain ⟨hu, hpid⟩ := h.peer rfl
          simp only [if_true, Option.map_some, hu, hpid]
    · rw [(h.entry _ _ _).trans (if_neg fun hat => hk hat.2.2),
        update_of_ne hk, viewer_map hp hn]
      rfl

/-- Entries of subscribers went. -/
theorem viewers_after {D : String → Prop} {a : Seat} (hp : Placed p)
    (hn : SameNames p q) (hs : s < p.sessHeap.next)
    (hsub : ∀ k, q.entry .publisher s k = p.entry .publisher s k)
    (hgone : ∀ k, D k → q.entry .subscriber s k = none ∧ a.viewers k = none)
    (hkept : ∀ k, ¬D k → q.entry .subscriber s k = p.entry .subscriber s k ∧
      a.viewers k = (p.seatView s).viewers k)
    (ha : (a.origin, a.name, a.clusterid, a.podid, a.streams) =
      ((p.seatView s).origin, (p.seatView s).name, (p.seatView s).clusterid,
        (p.seatView s).podid, (p.seatView s).streams)) :
    a = q.seatView s := by
  simp only [Prod.mk.injEq] at ha
  obtain ⟨ho, hname, hc, hpod, hstreams⟩ := ha
  refine seatView_ext (hn.ident s hs) (by rw [ho, hname, hc, hpod])
    (fun k => ?_) fun k => ?_
  · rw [hstreams, hsub]
    exact Pod.mem_streams
  · by_cases hk : D k
    · rw [(hgone k hk).1, (hgone k hk).2]
      rfl
    · rw [(hkept k hk).1, (hkept k hk).2, viewer_map hp hn]
      rfl

/-- A publisher and the subscribers of its stream went. -/
theorem unpublishes_after (hp : Placed p) (hn : SameNames p q)
    (hs : s < p.sessHeap.next)
    (h : Removes ({x | p.entry .publisher s pid = some x} ∪
      {y | ∃ k, p.entry .subscriber s k = some y ∧ (p.peer y).peerid = pid})
      p q) :
    (Change.unpublishes pid).after (p.seatView s) = some (q.seatView s) := by
  refine congrArg some (seatView_ext (hn.ident s hs) rfl (fun k => ?_)
    fun k => ?_)
  · rw [Option.ne_none_iff_exists']
    simp only [h.entry, Set.mem_sdiff, Set.mem_singleton_iff, Pod.mem_streams,
      Option.ne_none_iff_exists', Set.mem_union, Set.mem_ofPred_eq, not_or]
    constructor
    · rintro ⟨⟨x, hx⟩, hk⟩
      refine ⟨x, hx, fun hx' => hk (hp.unique hx' hx).2.2, ?_⟩
      rintro ⟨l, hl, -⟩
      cases (hp.unique hl hx).1
    · rintro ⟨x, hx, hno, -⟩
      refine ⟨⟨x, hx⟩, ?_⟩
      rintro rfl
      exact hno hx
  · simp only [Pod.viewers_eq]
    cases hy : p.entry .subscriber s k with
    | none =>
        have hq : q.entry .subscriber s k = none := by
          refine Option.eq_none_iff_forall_ne_some.mpr fun y hy' => ?_
          rw [((h.entry _ _ _ _).mp hy').1] at hy
          cases hy
        rw [hq]
        rfl
    | some y =>
        by_cases hpid : (p.peer y).peerid = pid
        · have hq : q.entry .subscriber s k = none := by
            refine Option.eq_none_iff_forall_ne_some.mpr fun y' hy' => ?_
            obtain ⟨hold, hno⟩ := (h.entry _ _ _ _).mp hy'
            cases hy.symm.trans hold
            exact hno (.inr ⟨k, hy, hpid⟩)
          rw [hq]
          simp [hpid]
        · have hq : q.entry .subscriber s k = some y := by
            refine (h.entry _ _ _ _).mpr ⟨hy, ?_⟩
            rintro (hx | ⟨l, -, hl⟩)
            · cases (hp.unique hx hy).1
            · exact hpid hl
          rw [hq]
          simp only [Option.map_some, hn.viewer (hp _ _ _ _ hy).1]
          exact Option.filter_some_pos (by simpa using hpid)

/-- The entry of one subscriber went. -/
theorem unviewed_after (hp : Placed p) (hn : SameNames p q)
    (hs : s < p.sessHeap.next)
    (h : Removes {x | p.entry .subscriber s key = some x} p q) :
    (Change.unviewed key).after (p.seatView s) = some (q.seatView s) := by
  refine congrArg some (viewers_after (D := (· = key)) hp hn hs (fun k => ?_)
    (fun k hk => ?_) (fun k hk => ?_) rfl)
  · exact (h.entry_one hp _ _ _).trans
      (if_neg (by rintro ⟨hrole, -⟩; cases hrole))
  · subst hk
    exact ⟨h.free, update_self ..⟩
  · exact ⟨(h.entry_one hp _ _ _).trans (if_neg fun hat => hk hat.2.2),
      update_of_ne hk ..⟩

theorem Pod.dropSubscriber_entry (role : Role) (i : SessRef) (l : String) :
    (p.dropSubscriber s y key).entry role i l =
      if role = .subscriber ∧ i = s ∧ l = key then none
      else p.entry role i l := by
  rw [Pod.dropSubscriber, Pod.eraseSubscriber_entry,
    (p.destroy_destroys y).entry]

/-- One turn of the loop of `HandleSubscriberLeaved`. -/
theorem leavedTurn_entry (role : Role) (i : SessRef) (l : String) :
    Pod.entry (match (p.sess s).subscribers.lookup key with
      | some y => p.dropSubscriber s y key
      | none => p) role i l =
      if role = .subscriber ∧ i = s ∧ l = key then none
      else p.entry role i l := by
  split
  · exact Pod.dropSubscriber_entry role i l
  · next hno =>
      split
      · next hat => obtain ⟨rfl, rfl, rfl⟩ := hat; exact hno
      · rfl

theorem leavedTurn_sameStore (s : SessRef) (key : String) (p : Pod) :
    SameStore p (match (p.sess s).subscribers.lookup key with
      | some y => p.dropSubscriber s y key
      | none => p) := by
  split
  · exact p.dropSubscriber_sameStore s _ key
  · exact .refl p

/-- The loop takes the keys that it computes from its list. -/
theorem leavedLoop_entry (sid : String) (lst : List String) (p : Pod)
    (role : Role) (i : SessRef) (l : String) :
    Pod.entry (lst.foldl (fun p pid =>
      match (p.sess s).subscribers.lookup
        (subKey sid (p.sess s).userid pid) with
      | some y => p.dropSubscriber s y (subKey sid (p.sess s).userid pid)
      | none => p) p) role i l =
      if role = .subscriber ∧ i = s ∧
        ∃ pid ∈ lst, l = subKey sid (p.sess s).userid pid then none
      else p.entry role i l := by
  induction lst generalizing p with
  | nil => simp
  | cons pid lst ih =>
      have hturn := leavedTurn_sameStore s
        (subKey sid (p.sess s).userid pid) p
      rw [List.foldl_cons, ih, leavedTurn_entry, hturn.userid]
      -- the key of this turn, or a key of a later one
      by_cases hat : role = .subscriber ∧ i = s
      · by_cases hl : l = subKey sid (p.sess s).userid pid
        · simp [hat, hl]
        · simp [hat, hl]
      · rw [if_neg fun h => hat ⟨h.1, h.2.1⟩, if_neg fun h => hat ⟨h.1, h.2.1⟩,
          if_neg fun h => hat ⟨h.1, h.2.1⟩]

theorem leavedSubs_entry (sid : String) (lst : List String) (role : Role)
    (i : SessRef) (l : String) :
    (p.leavedSubs s sid lst).entry role i l =
      if role = .subscriber ∧ i = s ∧
        ∃ pid ∈ lst, l = subKey sid (p.sess s).userid pid then none
      else p.entry role i l := by
  have hlock := p.emit_quiet (.sync (.lock (.subs s)))
  rw [← hlock.userid s, ← hlock.entry]
  exact ((Pod.emit_quiet _ _).entry _ _ _).trans
    (leavedLoop_entry sid lst _ role i l)

theorem mem_publisherIds (hp : Placed p) :
    pid ∈ p.publisherIds s ↔ pid ∈ (p.seatView s).streams := by
  rw [Pod.mem_streams, Option.ne_none_iff_exists', Pod.publisherIds,
    List.mem_map]
  constructor
  · rintro ⟨⟨k, x⟩, hx, rfl⟩
    have hx := GoMap.mem_entries.mp hx
    obtain ⟨-, -, hrole, -, hkey⟩ := hp .publisher s k x hx
    rw [Peer.key_publisher hrole] at hkey
    exact ⟨x, hkey.symm ▸ hx⟩
  · rintro ⟨x, hx⟩
    obtain ⟨-, -, hrole, -, hkey⟩ := hp _ _ _ _ hx
    rw [Peer.key_publisher hrole] at hkey
    exact ⟨⟨pid, x⟩, GoMap.mem_entries.mpr hx, hkey⟩

/-- What `HandleSubscriberLeaved` does to the entries. -/
theorem handleSubscriberLeaved_entry (sid : String) (role : Role)
    (i : SessRef) (l : String) :
    (p.handleSubscriberLeaved s sid).entry role i l =
      if role = .subscriber ∧ i = s ∧
        ∃ pid ∈ p.publisherIds s, l = subKey sid (p.sess s).userid pid
      then none else p.entry role i l := by
  have hread : Quiet p ((p.rlock (.pubs s)).runlock (.pubs s)) :=
    (p.emit_quiet _).trans (Pod.emit_quiet _ _)
  rw [Pod.handleSubscriberLeaved, leavedSubs_entry, hread.entry,
    hread.userid]

theorem abandoned_after (hp : Placed p) (hs : s < p.sessHeap.next)
    (hn : SameNames p (p.handleSubscriberLeaved s who)) :
    (Change.abandoned who (p.sess s).userid).after (p.seatView s) =
      some ((p.handleSubscriberLeaved s who).seatView s) := by
  refine congrArg some (viewers_after (D := fun k =>
    ∃ pid ∈ (p.seatView s).streams, k = subKey who (p.sess s).userid pid)
    hp hn hs (fun k => ?_) (fun k hk => ?_) (fun k hk => ?_) rfl)
  · exact (handleSubscriberLeaved_entry _ _ _ _).trans
      (if_neg (by rintro ⟨hrole, -⟩; cases hrole))
  · refine ⟨(handleSubscriberLeaved_entry _ _ _ _).trans
      (if_pos ⟨rfl, rfl, ?_⟩), if_pos hk⟩
    simpa only [mem_publisherIds hp] using hk
  · refine ⟨(handleSubscriberLeaved_entry _ _ _ _).trans
      (if_neg fun hat => hk ?_), if_neg hk⟩
    simpa only [mem_publisherIds hp] using hat.2.2

end MediaServer.Ref
