import MediaServer.Proofs.Words

/-!
# The load balancer's account of users

`leaveroom` tells the load balancer that a user left a room, and
`KickoutFromRoom` is the only place that sends it. An origin session can also
disappear in other ways: a `fakepublish` from another pod replaces it, a
`fakeunpublish` without a pod id takes it out, and the release of a room drops
everybody who has entered since it was spawned. In a run without these three
the account is exact, for every room and user; a login that replaces the
user's own session is not a departure.
-/

namespace MediaServer.Ref

open MediaServer.Lib

variable {p q : Pod} {s : SessRef} {r : RoomRef} {rid u : String}
variable {env : Env} {A : Act → Prop} {n : Note}

/-- The user is logged in here. -/
def Pod.isIn (p : Pod) (rid u : String) : Bool :=
  match p.seat rid u with
  | some s => (p.sess s).origin
  | none => false

/-- How many `leaveroom` the pod has sent for the user. -/
def Pod.leaveCount (p : Pod) (rid u : String) : Nat :=
  p.notes.count (.leaveRoom rid u)

/-- How often the user left in the run: from logged in to not logged in. -/
def departures (rid u : String) : List (Env × Input) → Pod → Nat :=
  tally Pod.step fun p q => p.isIn rid u && !q.isIn rid u

theorem isIn_iff : p.isIn rid u = true ↔
    ∃ s, p.seat rid u = some s ∧ (p.sess s).origin = true := by
  unfold Pod.isIn
  split
  · next s hs => simp [hs]
  · next hs => simp [hs]

/-- The room that a spawned call releases. -/
def Goroutine.roomToRelease : Goroutine → Option String
  | .releaseRoom rid => some rid
  | _ => none

/-- The room manager hands the message to its room. -/
def Pod.handsOn (p : Pod) (m : JsonParser) : Bool :=
  p.regist && (command m = some .login || p.forwards m)

theorem Reaches.handsOn {m : JsonParser} (h : Reaches p m r) :
    p.handsOn m = true := by
  by_cases hc : command m = some .login
  · simp [Pod.handsOn, h.regist, hc]
  · simp [Pod.handsOn, h.regist, (h.known hc).2]

/-- No other pod takes the place of a user who is logged in here, and a room
is released only when nobody is. -/
def Courteous (p : Pod) (a : Env × Input) : Prop :=
  (∀ m ∈ a.2.msg?, p.handsOn m = true → command m = some .fakePublish →
    p.isIn (getValue m .roomId) (getValue m .sessID) = false) ∧
  (∀ m ∈ a.2.msg?, p.handsOn m = true → command m = some .fakeUnpublish →
    ∀ s ∈ p.seat (getValue m .roomId) (getValue m .sessID),
      (p.sess s).podid = getValue m .podId → (p.sess s).origin = false) ∧
  ∀ g ∈ a.2.call? p, ∀ rid ∈ g.roomToRelease, ∀ r ∈ p.rooms.lookup rid,
    p.hasOrigin r = false

instance (p : Pod) (a : Env × Input) : Decidable (Courteous p a) :=
  inferInstanceAs (Decidable (_ ∧ _ ∧ _))

/-! ## Counting -/

/-- Moves that do not make the note do not change how often it was made. -/
theorem Path.count_note (h : Path A p q) (hp : PodOk p)
    (hA : ∀ b t, Also A b → n ∉ b.notes t) :
    q.notes.count n = p.notes.count n := by
  refine h.invariant (P := fun t => t.notes.count n = p.notes.count n) hp rfl
    fun {b t t'} hb ht hf hm ih => ?_
  rw [hm.notes ht hf, List.count_append, ih,
    List.count_eq_zero_of_not_mem (hA b _ hb), Nat.add_zero]

theorem leaveRoom_notMem {b : Act} {t : Pod} (hb : ∀ r u, b ≠ .leaves r u) :
    .leaveRoom rid u ∉ b.notes t := by
  intro hn
  have hby := by_of_mem_notes hn
  cases b with
  | leaves r v => exact hb r v rfl
  | _ => exact hby

/-- All moves but the message itself. -/
def NotLeaves (b : Act) : Prop := ∀ r u, b ≠ .leaves r u

theorem notLeaves_base : Base NotLeaves none := by
  refine ⟨fun _ _ => ?_, fun _ _ => ?_, fun _ _ _ => ?_⟩ <;> exact nofun

theorem notLeaves_touch (s : SessRef) : Touch NotLeaves s := by
  refine ⟨fun _ _ _ => ?_, fun _ _ _ _ => ?_, fun _ _ _ => ?_⟩ <;> exact nofun

theorem Calm.leaveCount (h : Calm NotLeaves p q) (hp : Ready p)
    (hf : p.fatal = false) : q.leaveCount rid u = p.leaveCount rid u :=
  Path.count_note (h hp hf).1 hp.toPodOk fun _ _ hb => leaveRoom_notMem
    (hb.elim (fun _ h => h) fun _ _ _ _ _ => nofun)

/-! ## Kicks -/

/-- The first section of `KickoutFromRoom` when it finds a session. -/
theorem kickSession_found {v : String} (hp : PodOk p)
    (hs : (p.room r).sessions.lookup v = some s) :
    p.kickSession env r v =
      (if (p.sess s).origin then
        (((p.lock (.sessions r)).doLeave s).eraseSession r v).notifyLeaveRoom
          env r v
      else ((p.lock (.sessions r)).doLeave s).eraseSession r v).unlock
        (.sessions r) := by
  have hlook : ((p.lock (.sessions r)).room r).sessions.lookup v = some s := by
    rw [Pod.lock, Pod.emit_room]; exact hs
  have huser : ((p.lock (.sessions r)).sess s).userid = v := by
    rw [Pod.lock, Pod.emit_sess]; exact (hp.sessions r v s hs).1
  have ho : ((((p.lock (.sessions r)).doLeave s).eraseSession r v).sess
      s).origin = (p.sess s).origin := by
    have h := ((p.lock (.sessions r)).doLeave_sameStore s).origin s
    rw [show ((p.lock (.sessions r)).sess s) = p.sess s by
      rw [Pod.lock, Pod.emit_sess]] at h
    exact h
  unfold Pod.kickSession
  simp only [hlook, huser, ho]

/-- Whether the session that a kick finds is an origin session. -/
def Pod.originAt (p : Pod) (r : RoomRef) (v : String) : Bool :=
  match (p.room r).sessions.lookup v with
  | some s => (p.sess s).origin
  | none => false

theorem Still.leaveCount (h : Still p q) :
    q.leaveCount rid u = p.leaveCount rid u := by
  rw [Pod.leaveCount, h.notes, Pod.leaveCount]

theorem kickSession_leaveCount {v : String} (hp : Ready p)
    (hf : p.fatal = false) :
    (p.kickSession env r v).leaveCount rid u = p.leaveCount rid u +
      if (p.room r).roomid = rid ∧ v = u ∧ p.originAt r v = true then 1
      else 0 := by
  cases hs : (p.room r).sessions.lookup v with
  | none =>
      have hkick : p.kickSession env r v =
          (p.lock (.sessions r)).unlock (.sessions r) := by
        unfold Pod.kickSession
        dsimp only
        rw [show ((p.lock (.sessions r)).room r).sessions.lookup v = none by
          rw [Pod.lock, Pod.emit_room]; exact hs]
      rw [hkick, (Pod.unlock_still _ _).leaveCount,
        (p.lock_still _).leaveCount]
      simp [Pod.originAt, hs]
  | some s =>
      have hlook : ((p.lock (.sessions r)).room r).sessions.lookup v =
          some s := by rw [Pod.lock, Pod.emit_room]; exact hs
      have hout : Calm NotLeaves p
          (((p.lock (.sessions r)).doLeave s).eraseSession r v) :=
        (Calm.still (p.lock_still _) notLeaves_base.still).trans
          (leaveErase_calm notLeaves_base (notLeaves_touch s) hlook
            fun r u => by simp)
      have hroom : ((((p.lock (.sessions r)).doLeave s).eraseSession r v).room
          r).roomid = (p.room r).roomid := by
        rw [(Pod.eraseSession_edits r v _).roomid,
          (Pod.doLeave_sameStore s _).room, Pod.lock, Pod.emit_room]
      have hat : p.originAt r v = (p.sess s).origin := by
        simp only [Pod.originAt, hs]
      rw [kickSession_found hp.toPodOk hs, (Pod.unlock_still _ _).leaveCount,
        hat]
      cases ho : (p.sess s).origin with
      | true =>
          rw [if_pos rfl, Pod.leaveCount, notifyLeaveRoom_notes
            (hout hp hf).2.1, List.count_append, ← Pod.leaveCount,
            hout.leaveCount hp hf, Act.notes, hroom, List.count_singleton]
          simp [Note.leaveRoom.injEq]
      | false =>
          rw [if_neg Bool.false_ne_true, if_neg (fun h => by cases h.2.2),
            hout.leaveCount hp hf]
          rfl

/-- `KickoutFromRoom` sends one `leaveroom` if it finds an origin session. -/
theorem kickoutFromRoom_leaveCount {v : String} (hp : Ready p)
    (hf : p.fatal = false) :
    (p.kickoutFromRoom env r v).leaveCount rid u = p.leaveCount rid u +
      if (p.room r).roomid = rid ∧ v = u ∧ p.originAt r v = true then 1
      else 0 := by
  have hkick : Calm (fun _ => True) p (p.kickSession env r v) :=
    kickSession_calm (c := none) ⟨trivial, trivial, fun _ _ => trivial⟩
      (fun _ _ => ⟨fun _ => trivial, fun _ _ => trivial, fun _ => trivial⟩)
      trivial fun _ _ _ => trivial
  obtain ⟨-, hf₁, hp₁⟩ := hkick hp hf
  have hrest : Calm NotLeaves (p.kickSession env r v)
      (p.kickoutFromRoom env r v) :=
    (spreadLeaved_calm notLeaves_base fun _ _ _ => fun _ _ => nofun).trans
      (releaseIfEmpty_calm notLeaves_base fun _ _ => nofun)
  rw [hrest.leaveCount hp₁ hf₁, kickSession_leaveCount hp hf]

/-- Afterwards nobody sits there. -/
theorem kickoutFromRoom_lookup {v : String} (hp : PodOk p) :
    ((p.kickoutFromRoom env r v).room r).sessions.lookup v = none := by
  have hquiet := (Pod.spreadLeaved_quiet r v (p.kickSession env r v)).trans
    (Pod.releaseIfEmpty_quiet r _)
  rw [show p.kickoutFromRoom env r v = ((p.kickSession env r v).spreadLeaved r
    v).releaseIfEmpty r from rfl, hquiet.room]
  cases hs : (p.room r).sessions.lookup v with
  | none =>
      cases hk : ((p.kickSession env r v).room r).sessions.lookup v with
      | none => rfl
      | some s =>
          have := (Pod.kickSession_edits env r v
            fun s hs => (hp.sessions r v s hs).1).lose s hk
          rw [hs] at this
          cases this
  | some s =>
      rw [kickSession_found hp hs, Pod.unlock, Pod.emit_room]
      split
      · rw [Pod.notifyLeaveRoom, Pod.emit_room]
        exact Pod.eraseSession_lookup_self r v _
      · exact Pod.eraseSession_lookup_self r v _

/-! ## Steps -/

variable {a : Env × Input}

/-- A step that kicks is `KickoutFromRoom`, run on the pod from which the
goroutine was taken. -/
theorem step_kick {v : String} (hs : Pod.step a p = some q)
    (hk : Kicks p a.2 r v) :
    ∃ l, q = Pod.kickoutFromRoom a.1 r v { p with pending := l } := by
  rcases hk with ⟨m, hm, hr, hc, hu⟩ | ⟨i, hi, hg⟩
  · refine ⟨p.pending, ?_⟩
    change _ = Pod.kickoutFromRoom a.1 r v p
    rw [step_forwarded hs hm hr (by rw [hc]; exact nofun)]
    simp only [Pod.roomHandleMessage, hc, hu]
  · exact ⟨_, step_go hs hi hg⟩

theorem kick_departs {v : String} (hp : InOrder p) (hf : p.fatal = false) :
    (p.kickoutFromRoom env r v).leaveCount rid u = p.leaveCount rid u +
      if p.isIn rid u && !(p.kickoutFromRoom env r v).isIn rid u then 1
      else 0 := by
  have he : Edits r v p (p.kickoutFromRoom env r v) :=
    Pod.kickoutFromRoom_edits fun s hs => (hp.sessions r v s hs).1
  have hgone : ((p.kickoutFromRoom env r v).room r).sessions.lookup v =
      none := kickoutFromRoom_lookup hp.toPodOk
  rw [kickoutFromRoom_leaveCount hp.ready hf]
  congr 1
  refine if_congr ?_ rfl rfl
  simp only [Bool.and_eq_true, Bool.not_eq_true']
  constructor
  · rintro ⟨rfl, rfl, ho⟩
    unfold Pod.originAt at ho
    split at ho
    · next s hs =>
        refine ⟨isIn_iff.mpr ⟨s, hp.seat hs, ho⟩, ?_⟩
        unfold Pod.isIn Pod.seat
        rw [he.rooms, hp.registered r v s hs]
        simp only [Option.bind_some, hgone]
    · cases ho
  · rintro ⟨hin, hout⟩
    obtain ⟨s, hs, ho⟩ := isIn_iff.mp hin
    obtain ⟨r', hr', hlook⟩ := seat_eq_some.mp hs
    by_cases hat : r' = r ∧ u = v
    · obtain ⟨rfl, rfl⟩ := hat
      refine ⟨(hp.rooms rid r' hr').1, rfl, ?_⟩
      simp only [Pod.originAt, hlook, ho]
    · have hkeep : ((p.kickoutFromRoom env r v).room r').sessions.lookup u =
          some s := by
        by_cases hr : r' = r
        · subst hr
          rw [he.keep u fun hu => hat ⟨rfl, hu⟩]
          exact hlook
        · rw [he.other r' hr]
          exact hlook
      have hin' : (p.kickoutFromRoom env r v).isIn rid u = true := by
        refine isIn_iff.mpr ⟨s, seat_eq_some.mpr ⟨r', ?_, hkeep⟩, ?_⟩
        · rw [he.rooms]; exact hr'
        · rw [he.origin]; exact ho
      rw [hin'] at hout
      cases hout

/-- A login leaves the user logged in. -/
theorem handleLogin_seat (env : Env) (j : JsonParser) :
    ((p.handleLogin env r j).room r).sessions.lookup (getValue j .sessID) =
      some p.sessHeap.next ∧
    ((p.handleLogin env r j).sess p.sessHeap.next).origin = true ∧
    (p.handleLogin env r j).rooms = p.rooms := by
  have he := p.dropIfPresent_edits r (getValue j .sessID)
  unfold Pod.handleLogin
  dsimp only
  generalize (if (p.room r).sessions.lookup (getValue j .sessID) = none then p
    else p.dropSession r (getValue j .sessID)) = p₁ at he ⊢
  have hq := (Pod.emit_quiet (p₁.insertSession r (getValue j .sessID)
    (createSession r (getValue j .sessID) (getValue j .userName) env.now))
    (.toClient (getValue j .sessID)
      [(.cmd, .str Cmd.login.text),
        (.sessID, .str (getValue j .sessID)),
        (.code, .int 0)])).trans (Pod.tellStreams_quiet r
          (getValue j .sessID) _)
  rw [hq.room, hq.origin, hq.rooms, Pod.insertSession_lookup,
    Pod.insertSession_sess, Pod.insertSession_rooms, he.sessNext, he.rooms]
  exact ⟨if_pos ⟨rfl, rfl⟩, by rw [if_pos rfl]; rfl, rfl⟩

theorem mgrLogin_seat {m : JsonParser} (hc : command m = some .login) :
    (p.mgrLogin env m).seat (getValue m .roomId) (getValue m .sessID) =
      some p.sessHeap.next ∧
    ((p.mgrLogin env m).sess p.sessHeap.next).origin = true := by
  have hread : Still (p.opened env m)
      (((p.opened env m).rlock .rooms).runlock .rooms) :=
    (Pod.rlock_still _ _).trans (Pod.runlock_still _ _)
  rw [mgrLogin_eq hc]
  obtain ⟨hlook, ho, hrooms⟩ := handleLogin_seat
    (p := ((p.opened env m).rlock .rooms).runlock .rooms)
    (r := p.roomFor (getValue m .roomId)) env m
  rw [hread.sessNext, opened_sessHeap] at hlook ho
  refine ⟨seat_eq_some.mpr ⟨_, ?_, hlook⟩, ho⟩
  rw [hrooms, hread.rooms]
  exact opened_rooms env m p

/-- The message is the user's own login, and it is handled. -/
def LogsIn (p : Pod) (a : Input) (rid u : String) : Prop :=
  ∃ m, a = .message m ∧ p.regist = true ∧ command m = some .login ∧
    getValue m .roomId = rid ∧ getValue m .sessID = u

/-- A login leaves the user in a new session. -/
theorem step_login (hs : Pod.step a p = some q) (h : LogsIn p a.2 rid u) :
    q.seat rid u = some p.sessHeap.next ∧
      (q.sess p.sessHeap.next).origin = true := by
  obtain ⟨m, hm, hreg, hc, rfl, rfl⟩ := h
  rw [step_message hs hm]
  simp only [Pod.mgrHandleMessage, hc, hreg, if_true]
  exact mgrLogin_seat (p := p) hc

/-- Whoever is logged in stays, unless the input kicks them, logs them in
again, or is one that the condition excludes. -/
theorem step_stays (hp : InOrder p) (ha : Courteous p a)
    (hs : Pod.step a p = some q) (hk : ∀ r v, ¬Kicks p a.2 r v)
    (hlog : ¬LogsIn p a.2 rid u) (hr : p.rooms.lookup rid = some r)
    (hseat : (p.room r).sessions.lookup u = some s)
    (ho : (p.sess s).origin = true) :
    q.rooms.lookup rid = some r ∧ (q.room r).sessions.lookup u = some s := by
  obtain ⟨hpub, hunpub, hrel⟩ := ha
  have hin : p.isIn rid u = true :=
    isIn_iff.mpr ⟨s, seat_eq_some.mpr ⟨r, hr, hseat⟩, ho⟩
  have hany : p.hasOrigin r = true := Pod.hasOrigin_iff.mpr ⟨u, s, hseat, ho⟩
  refine step_seat hp hs hr hseat ?_ ?_ ?_
  · rintro (hb | ⟨m, hm, hreach, rfl, hcmd⟩)
    · exact hk _ _ hb
    · have hmem : m ∈ a.2.msg? := by rw [hm]; rfl
      have hid := hreach.roomId_eq hp.toPodOk hr
      rcases hcmd with hc | hc | ⟨hc, s', hs', hpod⟩
      · exact hlog ⟨m, hm, hreach.regist, hc, hid, rfl⟩
      · have hno := hpub m hmem hreach.handsOn hc
        rw [hid, hin] at hno
        cases hno
      · rw [hseat] at hs'
        cases hs'
        have hno := hunpub m hmem hreach.handsOn hc s (seat_eq_some.mpr
          ⟨r, by rw [hid]; exact hr, hseat⟩) hpod
        rw [ho] at hno
        cases hno
  · rintro ⟨i, rid', hi, hpend, hlook⟩
    have hno := hrel _ (by rw [hi]; exact hpend) rid' rfl r hlook
    rw [hany] at hno
    cases hno
  · rintro ⟨i, hi, hpend⟩
    have hno := hrel _ (by rw [hi]; exact hpend) rid rfl r hr
    rw [hany] at hno
    cases hno

/-- One step of the account. -/
theorem step_departs (hp : InOrder p) (ha : Courteous p a)
    (hs : Pod.step a p = some q) :
    q.leaveCount rid u = p.leaveCount rid u +
      if p.isIn rid u && !q.isIn rid u then 1 else 0 := by
  have hf := step_fatal hs
  by_cases hk : ∃ r v, Kicks p a.2 r v
  · obtain ⟨r, v, hk⟩ := hk
    obtain ⟨l, rfl⟩ := step_kick hs hk
    exact kick_departs (hp.of_pending l) hf
  · have hk : ∀ r v, ¬Kicks p a.2 r v := fun r v h => hk ⟨r, v, h⟩
    have hcount : q.leaveCount rid u = p.leaveCount rid u :=
      Path.count_note (step_moves hp.ready hs) hp.toPodOk fun b t hb =>
        leaveRoom_notMem fun r v h => by
          subst h
          exact hk r v hb.1
    have hstay : p.isIn rid u = true → q.isIn rid u = true := by
      intro hin
      by_cases hlog : LogsIn p a.2 rid u
      · exact isIn_iff.mpr ⟨_, step_login hs hlog⟩
      · obtain ⟨s, hseat, ho⟩ := isIn_iff.mp hin
        obtain ⟨r, hr, hlook⟩ := seat_eq_some.mp hseat
        obtain ⟨hr', hlook'⟩ := step_stays hp ha hs hk hlog hr hlook ho
        refine isIn_iff.mpr ⟨s, seat_eq_some.mpr ⟨r, hr', hlook'⟩, ?_⟩
        have hid := (step_after hp hs).sess s (hp.sessions r u s hlook).2.2
        rw [← ho]
        exact congrArg (·.2.2.2.2.1) hid
    rw [hcount]
    cases hin : p.isIn rid u with
    | false => rfl
    | true => rw [hstay hin]; rfl

/-! ## Runs -/

/-- In every run that meets the condition, and for every user of every room,
as many `leaveroom` were sent as the user left. -/
theorem leaveCount_eq_departures {conf : Config} {as : List (Env × Input)}
    (hg : Guarded Pod.step Courteous as (Pod.createRoomMgr conf))
    (hrun : run Pod.step as (Pod.createRoomMgr conf) = some q)
    (rid u : String) :
    q.leaveCount rid u = departures rid u as (Pod.createRoomMgr conf) := by
  have h := tally_of_guarded (P := InOrder) (m := (·.leaveCount rid u))
    (fun a p q hp ha hs => ⟨step_inOrder hp hs, step_departs hp ha hs⟩) hg
    (createRoomMgr_inOrder conf) hrun
  rw [h]
  exact Nat.zero_add _

/-- Another pod announces a stream under the name of a user who is logged in
here. -/
def takenOver : List (Env × Input) :=
  [(Env.calm, .setSendMessageHandler),
    (Env.calm, .message (Cmd.login.msg [(.roomId, "R"), (.sessID, "w")])),
    (Env.calm, .message (Cmd.login.msg [(.roomId, "R"), (.sessID, "u")])),
    (Env.calm, .message (Cmd.fakePublish.msg
      [(.roomId, "R"), (.sessID, "u"), (.peerID, "1"), (.podId, "podB")]))]

/-- The user is gone and the load balancer has not been told. -/
theorem takenOver_unreported :
    ∃ q, run Pod.step takenOver
        (Pod.createRoomMgr (Config.standalone "podA")) = some q ∧
      q.leaveCount "R" "u" = 0 ∧ departures "R" "u" takenOver
        (Pod.createRoomMgr (Config.standalone "podA")) = 1 := by
  have h : (run Pod.step takenOver
      (Pod.createRoomMgr (Config.standalone "podA"))).map (fun q =>
        q.leaveCount "R" "u") = some 0 := by decide
  obtain ⟨q, hq, hcount⟩ := Option.map_eq_some_iff.mp h
  exact ⟨q, hq, hcount, by decide⟩

/-- A user logs in twice and then out, and another one times out. -/
def comeAndGo : List (Env × Input) :=
  takenOver.take 3 ++
  [(Env.calm, .message (Cmd.login.msg [(.roomId, "R"), (.sessID, "u")])),
    (Env.calm, .message (Cmd.logout.msg [(.roomId, "R"), (.sessID, "u")])),
    (Env.calm, .keepaliveTick),
    ({ Env.calm with now := 61 }, .go 1),
    ({ Env.calm with now := 61 }, .go 1)]

theorem leaveCount_eq_departures_comeAndGo :
    ∃ q, run Pod.step comeAndGo
        (Pod.createRoomMgr (Config.standalone "podA")) = some q ∧
      q.leaveCount "R" "u" = 1 ∧ q.leaveCount "R" "w" = 1 := by
  have h : (run Pod.step comeAndGo
      (Pod.createRoomMgr (Config.standalone "podA"))).isSome := by decide
  obtain ⟨q, hq⟩ := Option.isSome_iff_exists.mp h
  have hg : Guarded Pod.step Courteous comeAndGo
      (Pod.createRoomMgr (Config.standalone "podA")) := by decide
  refine ⟨q, hq, ?_, ?_⟩
  · rw [leaveCount_eq_departures hg hq]; decide
  · rw [leaveCount_eq_departures hg hq]; decide

end MediaServer.Ref
