import MediaServer.Proofs.Departures
import MediaServer.Proofs.Notices

/-!
# What latecomers are told

Streams are announced when they come up. Whoever comes later is told by the
room: a user when they log in, and another pod when it has created a room of
the same id. Both loops go over the sessions of the room and ask each of them
for a ready publisher, and both get the rest wrong. The login sends the one
publisher that it was given, so of a user with two streams it tells one. The
answer to `createroom` goes on to send all publishers of the session, ready or
not; and it compares the cluster of the other pod with that of the session,
which for a session of this pod is empty.

Which sessions and publishers a Go map yields first is left open by the
language. Neither result depends on it: a session with one ready publisher has
only that to tell, and of two one is left out.
-/

namespace MediaServer.Ref

open MediaServer.Lib Relation

variable {p q t : Pod} {s : SessRef} {x : PeerRef} {r : RoomRef}
variable {rid u v k : String} {m : JsonParser} {env : Env} {A : Act → Prop}

/-! ## The streams of a room -/

/-- A ready publisher of a session of the room, by the names it carries. -/
def Pod.Live (p : Pod) (rid sid pid : String) : Prop :=
  ∃ u s k x, p.seat rid u = some s ∧ p.entry .publisher s k = some x ∧
    (p.peer x).isReady = true ∧ (p.peer x).userid = sid ∧
    (p.peer x).peerid = pid

theorem readyAt_iff : p.readyAt s k = true ↔
    ∃ x, p.entry .publisher s k = some x ∧ (p.peer x).isReady = true := by
  unfold Pod.readyAt
  split
  · next x hx => simp [Pod.entry, Session.peers, hx]
  · next hx => simp [Pod.entry, Session.peers, hx]

theorem isUp_iff : p.isUp rid u k = true ↔
    ∃ s, p.seat rid u = some s ∧ p.readyAt s k = true := by
  unfold Pod.isUp
  split
  · next s hs => simp [hs]
  · next hs => simp [hs]

theorem Sound.live_iff (hp : Sound p) :
    p.Live rid u k ↔ p.isUp rid u k = true := by
  rw [isUp_iff]
  constructor
  · rintro ⟨v, s, l, x, hs, hx, hready, rfl, rfl⟩
    obtain ⟨hu, hk⟩ := hp.publisher hx
    rw [hu, hk, (hp.of_seat hs).1]
    exact ⟨s, hs, readyAt_iff.mpr ⟨x, hx, hready⟩⟩
  · rintro ⟨s, hs, hready⟩
    obtain ⟨x, hx, hready⟩ := readyAt_iff.mp hready
    obtain ⟨hu, hk⟩ := hp.publisher hx
    exact ⟨u, s, k, x, hs, hx, hready, by rw [hu, (hp.of_seat hs).1], hk⟩

/-- What a session answers when it is asked for a ready publisher. -/
theorem Sound.firstReady (hp : Sound p) (h : p.firstReady s = some (v, k)) :
    v = (p.sess s).userid ∧ p.readyAt s k = true := by
  obtain ⟨⟨l, x⟩, he, hnames⟩ := Option.map_eq_some_iff.mp h
  have hx : p.entry .publisher s l = some x :=
    GoMap.mem_entries.mp (List.mem_of_find?_eq_some he)
  have hready := List.find?_some he
  obtain ⟨hu, hk⟩ := hp.publisher hx
  rw [hu, hk] at hnames
  cases hnames
  exact ⟨rfl, readyAt_iff.mpr ⟨x, hx, hready⟩⟩

theorem firstReady_isSome (h : p.readyAt s k = true) :
    (p.firstReady s).isSome = true := by
  obtain ⟨x, hx, hready⟩ := readyAt_iff.mp h
  rw [Pod.firstReady, Option.isSome_map, List.find?_isSome]
  exact ⟨⟨k, x⟩, GoMap.mem_entries.mpr hx, hready⟩

/-! ## A user who logs in -/

/-- The stream that the note tells user `u` of. -/
def Note.pubTo (u : String) : Note → Option (String × String)
  | .pub topic _ sid pid => if topic = u then some (sid, pid) else none
  | _ => none

/-- The streams that user `u` is told of on the way from `p` to `q`. -/
def toldOf (u : String) (p q : Pod) : List (String × String) :=
  (q.notes.drop p.notes.length).filterMap (Note.pubTo u)

/-- User `u` is told of every stream of the room, and of each once. -/
def HearsAll (rid u : String) (p q : Pod) : Prop :=
  (toldOf u p q).Nodup ∧
    ∀ sid pid, (sid, pid) ∈ toldOf u p q ↔ q.Live rid sid pid

/-- No other user of the room has two ready publishers. -/
def OneEach (rid u : String) (p : Pod) : Prop :=
  ∀ v k l, v ≠ u → p.isUp rid v k = true → p.isUp rid v l = true → k = l

/-- All moves but telling a user of a stream. -/
def NotTells (b : Act) : Prop :=
  ∀ topic r sid name pid, b ≠ .tells topic r sid name pid

theorem notTells_base : Base NotTells none := by
  refine ⟨fun _ _ _ _ _ => ?_, fun _ _ _ _ _ => ?_,
    fun _ _ _ _ _ _ => ?_⟩ <;> exact nofun

theorem notTells_touch (s : SessRef) : Touch NotTells s := by
  refine ⟨fun _ _ _ _ _ _ => ?_, fun _ _ _ _ _ _ _ => ?_,
    fun _ _ _ _ _ _ => ?_⟩ <;> exact nofun

/-- What moves with these names add to the notes. -/
theorem Path.notes {P : Note → Prop} (h : Path A p q) (hp : PodOk p)
    (hA : ∀ b t n, Also A b → n ∈ b.notes t → P n) :
    ∃ l, q.notes = p.notes ++ l ∧ ∀ n ∈ l, P n := by
  refine h.invariant (P := fun t => ∃ l, t.notes = p.notes ++ l ∧
    ∀ n ∈ l, P n) hp ⟨[], by simp, nofun⟩ fun {b t t'} hb ht hf hm ih => ?_
  obtain ⟨l, hl, hP⟩ := ih
  refine ⟨l ++ b.notes t, by rw [hm.notes ht hf, hl, List.append_assoc], ?_⟩
  exact fun n hn => (List.mem_append.mp hn).elim (hP n) (hA b t n hb)

theorem Logs.notes {f : Pod → Pod} {tr : List Event} (h : Logs p f tr) :
    (f p).notes = p.notes ++ tr.filterMap Event.note := by
  rw [h.self, Pod.logged, Pod.notes, List.filterMap_append, Pod.notes]

/-- A section that reads. -/
theorem Logs.read (hf : p.fatal = false) (mu : Mutex) :
    Logs p (fun q => (q.rlock mu).runlock mu)
      [.sync (.rlock mu), .sync (.runlock mu)] :=
  (Logs.emit hf _).comp (Logs.emit hf _)

theorem tellStreams_logs (r : RoomRef) (u : String) (hf : p.fatal = false) :
    Logs p (Pod.tellStreams r u) ((p.room r).sessions.entries.flatMap fun e =>
      [.sync (.rlock (.pubs e.2)), .sync (.runlock (.pubs e.2))] ++
        (p.firstReady e.2).toList.map fun a =>
          .toClient u (p.pubMsg r a.1 (p.sess e.2).username a.2)) := by
  intro tr
  refine Logs.foldl (p := p) (l := (p.room r).sessions.entries)
    (fun e _ l => ?_) tr
  have hread := Logs.read hf (.pubs e.2) l
  dsimp only at hread ⊢
  rw [hread, ← List.append_assoc]
  -- what the turn reads is not in the trace
  have hfirst : ∀ l', (p.logged l').firstReady e.2 = p.firstReady e.2 :=
    fun _ => rfl
  rw [hfirst]
  cases p.firstReady e.2 with
  | none => exact congrArg p.logged (List.append_nil _).symm
  | some a => exact Logs.emit hf _ _

/-- What the newcomer hears: one stream of each session that has one. -/
theorem tellStreams_told (r : RoomRef) (u : String) (hf : p.fatal = false) :
    toldOf u p (p.tellStreams r u) =
      (p.room r).sessions.entries.flatMap fun e =>
        (p.firstReady e.2).toList := by
  rw [toldOf, (tellStreams_logs r u hf).notes, List.drop_left,
    List.filterMap_filterMap, List.filterMap_flatMap]
  refine congrArg (List.flatMap · _) (funext fun e => ?_)
  cases p.firstReady e.2 with
  | none => rfl
  | some a =>
      change List.filterMap _ [_, _, _] = _
      rw [List.filterMap_cons_none rfl, List.filterMap_cons_none rfl,
        List.filterMap_cons, pub_note]
      simp [Note.pubTo]

/-- A login ends with telling the user, and before that it tells nobody. -/
theorem handleLogin_greets (env : Env) (m : JsonParser)
    (hr : p.rooms.lookup (p.room r).roomid = some r) :
    ∃ t, Calm NotTells p t ∧
      p.handleLogin env r m = t.tellStreams r (getValue m .sessID) := by
  have he := p.dropIfPresent_edits r (getValue m .sessID)
  have hfree := p.dropIfPresent_lookup_self r (getValue m .sessID)
  refine ⟨_, ?_, rfl⟩
  refine ((dropIfPresent_calm notTells_base (fun s _ => notTells_touch s)
    fun _ _ _ _ _ => nofun).trans (insertSession_calm
      (fun _ _ _ _ _ => nofun) (he.registered hr) hfree rfl rfl rfl rfl)).trans
        (.emit _ rfl notTells_base.still)

theorem mgrLogin_greets (env : Env) (hp : Ready p) (hf : p.fatal = false)
    (hc : command m = some .login) :
    ∃ t, Path NotTells p t ∧ t.fatal = false ∧
      p.mgrLogin env m =
        t.tellStreams (p.roomFor (getValue m .roomId)) (getValue m .sessID) := by
  have hread : Still (p.opened env m)
      (((p.opened env m).rlock .rooms).runlock .rooms) :=
    (Pod.rlock_still _ _).trans (Pod.runlock_still _ _)
  have hopen : Calm NotTells p
      (((p.opened env m).rlock .rooms).runlock .rooms) :=
    (opened_calm notTells_base fun _ _ _ _ _ _ => nofun).trans
      (.still hread notTells_base.still)
  have hlook := opened_rooms env m p
  rw [← hread.rooms] at hlook
  obtain ⟨t, hcalm, heq⟩ := handleLogin_greets env m (p := ((p.opened env
    m).rlock .rooms).runlock .rooms) (r := p.roomFor (getValue m .roomId))
      (by rw [((hopen hp hf).2.2.rooms _ _ hlook).1]; exact hlook)
  obtain ⟨hpath, hfatal, -⟩ := (hopen.trans hcalm) hp hf
  exact ⟨t, hpath, hfatal, by rw [mgrLogin_eq hc, heq]⟩

section Step

variable {a : Env × Input}

/-- A message makes no publisher ready. -/
theorem step_readyAt (hp : InOrder p) (hs : Pod.step a p = some q)
    (hm : a.2 = .message m) (h : q.readyAt s k = true) :
    p.readyAt s k = true := by
  rw [readyAt_iff] at h ⊢
  refine (step_induction (P := fun t => (∃ x, t.entry .publisher s k = some x ∧
    (t.peer x).isReady = true) → ∃ x, p.entry .publisher s k = some x ∧
      (p.peer x).isReady = true) hp hs id
    fun {b t t'} hb hsound _ _ hmove ih hx => ih ?_).1 h
  obtain ⟨x, hx, hready⟩ := hx
  refine ⟨x, hmove.ready_back hsound.toPodOk ?_ hx hready⟩
  rintro y rfl
  rw [hm] at hb
  cases hb

/-- It takes publishers from the session it is for only. -/
theorem step_readyAt_kept (hp : InOrder p) (hs : Pod.step a p = some q)
    (hm : a.2 = .message m) (hhit : ¬Hits p a.2 s)
    (h : p.readyAt s k = true) : q.readyAt s k = true := by
  rw [readyAt_iff] at h ⊢
  refine (step_induction (P := fun t => ∃ x, t.entry .publisher s k = some x ∧
    (t.peer x).isReady = true) hp hs h
    fun {b t t'} hb hsound _ _ hmove ih => ?_).1
  obtain ⟨x, hx, hready⟩ := ih
  refine ⟨x, ?_⟩
  rw [hmove.entry hsound.toPodOk, hmove.isReady hsound.toPodOk]
  cases hmove with
  | flags | announces => rw [hm] at hb; cases hb
  | adds i y _ _ _ hfree =>
      have hne := Nat.ne_of_lt (hsound.placed _ _ _ _ hx).1
      simp only [Act.entry, Act.peer, if_neg hne]
      refine ⟨?_, hready⟩
      split
      · next h =>
          obtain ⟨hrole, rfl, rfl⟩ := h
          rw [hrole, hfree] at hx
          cases hx
      · exact hx
  | erases role i l =>
      refine ⟨?_, hready⟩
      simp only [Act.entry]
      rw [if_neg fun h : _ ∧ s = i ∧ _ => hhit (h.2.1 ▸ hb)]
      exact hx
  | clears role i =>
      refine ⟨?_, hready⟩
      simp only [Act.entry]
      rw [if_neg fun h : _ ∧ s = i => hhit (h.2 ▸ hb)]
      exact hx
  | withdraws i l y | destroys i y | offers y | accepts y =>
      refine ⟨hx, ?_⟩
      simp only [Act.peer]
      split
      · exact hready
      · exact hready
  | still | dies | sends | spawns | tells | unpush | leaves | beats | seats
  | unseats | vacates | opens | closes | takes => exact ⟨hx, hready⟩

/-- A login leaves the streams of the others as they are, and takes down those
that the user had in an earlier session. -/
theorem step_login_isUp (hp : InOrder p) (hs : Pod.step a p = some q)
    (hlog : LogsIn p a.2 rid u) :
    q.isUp rid v k = true ↔ v ≠ u ∧ p.isUp rid v k = true := by
  have hnew := (step_login hs hlog).1
  obtain ⟨m, hm, hreg, hc, rfl, rfl⟩ := hlog
  have hroute : route m = getValue m .sessID := by simp only [route, hc]
  rw [isUp_iff, isUp_iff]
  constructor
  · rintro ⟨s, hseat, hready⟩
    have hold := step_readyAt hp hs hm hready
    obtain ⟨x, hx, -⟩ := readyAt_iff.mp hold
    have hlt := (hp.placed _ _ _ _ hx).2.1
    have hseat' := hp.toSound.seat_of_entry hx
    have hrid := step_seat_room hp hs hseat' hseat
    have hident := (step_after hp hs).sess s hlt
    have hu : (p.sess s).userid = v := (congrArg (·.1) hident).symm.trans
      ((step_inOrder hp hs).toSound.of_seat hseat).1
    rw [hrid, hu] at hseat'
    refine ⟨?_, s, hseat', hold⟩
    rintro rfl
    rw [hnew] at hseat
    cases hseat
    exact Nat.lt_irrefl _ hlt
  · rintro ⟨hne, s, hseat, hready⟩
    obtain ⟨r, hr, hlook⟩ := seat_eq_some.mp hseat
    have hgo : ∀ i, a.2 ≠ .go i := fun i h => by rw [hm] at h; cases h
    have hstays : q.rooms.lookup (getValue m .roomId) = some r ∧
        (q.room r).sessions.lookup v = some s := by
      refine step_seat hp hs hr hlook ?_ ?_ ?_
      · rintro ((⟨m', hm', -, hout, -⟩ | ⟨i, h, -⟩) | ⟨m', hm', -, hu, -⟩)
        · rw [hm] at hm'
          cases hm'
          rw [hc] at hout
          cases hout
        · exact hgo i h
        · rw [hm] at hm'
          cases hm'
          exact hne hu
      · rintro ⟨i, -, h, -⟩
        exact hgo i h
      · rintro ⟨i, h, -⟩
        exact hgo i h
    refine ⟨s, seat_eq_some.mpr ⟨r, hstays⟩,
      step_readyAt_kept hp hs hm ?_ hready⟩
    rintro (⟨m', r', hm', -, hother⟩ | ⟨i, g, h, -⟩)
    · rw [hm] at hm'
      cases hm'
      rw [hroute] at hother
      exact hne ((hp.sessions _ _ _ hlook).1.symm.trans
        (hp.sessions _ _ _ hother).1)
    · exact hgo i h

theorem step_login_told (hp : InOrder p) (hs : Pod.step a p = some q)
    (hlog : LogsIn p a.2 rid u) :
    ∃ r, q.rooms.lookup rid = some r ∧
      toldOf u p q = (q.room r).sessions.entries.flatMap fun e =>
        (q.firstReady e.2).toList := by
  obtain ⟨m, hm, hreg, hc, rfl, rfl⟩ := hlog
  have hf := step_fatal hs
  obtain rfl := step_message hs hm
  simp only [Pod.mgrHandleMessage, hc, hreg, if_true]
  obtain ⟨t, hpath, ht, heq⟩ := mgrLogin_greets a.1 hp.ready hf hc
  refine ⟨p.roomFor (getValue m .roomId), ?_, ?_⟩
  · rw [mgrLogin_eq hc, (handleLogin_seat a.1 m).2.2, Pod.runlock,
      Pod.emit_rooms, Pod.rlock, Pod.emit_rooms]
    exact opened_rooms a.1 m p
  · have hnone : ∃ l, t.notes = p.notes ++ l ∧
        ∀ n ∈ l, n.pubTo (getValue m .sessID) = none := by
      refine hpath.notes hp.toPodOk fun b t n hb hn => ?_
      have hby := by_of_mem_notes hn
      cases n with
      | pub =>
          cases b with
          | tells => exact absurd rfl (hb _ _ _ _ _)
          | _ => exact hby.elim
      | unpub | unpush | leaveRoom | fakePublish | fakeUnpublish => rfl
    obtain ⟨l, hl, hnone⟩ := hnone
    have hlogs := tellStreams_logs (p.roomFor (getValue m .roomId))
      (getValue m .sessID) ht
    have htold := tellStreams_told (p.roomFor (getValue m .roomId))
      (getValue m .sessID) ht
    rw [heq]
    rw [toldOf, hlogs.notes, List.drop_left] at htold
    rw [toldOf, hlogs.notes, hl, List.append_assoc, List.drop_left,
      List.filterMap_append, List.filterMap_eq_nil_iff.mpr hnone,
      List.nil_append, htold, hlogs.self]
    rfl

/-- The newcomer hears of a stream of each user who has one. -/
theorem mem_told (hq : Sound q) (hr : q.rooms.lookup rid = some r) :
    (u, k) ∈ ((q.room r).sessions.entries.flatMap fun e =>
      (q.firstReady e.2).toList) ↔
    ∃ s, q.seat rid u = some s ∧ q.firstReady s = some (u, k) := by
  rw [List.mem_flatMap]
  constructor
  · rintro ⟨⟨v, s⟩, he, hfirst⟩
    have hs := seat_eq_some.mpr ⟨r, hr, GoMap.mem_entries.mp he⟩
    have hfirst : q.firstReady s = some (u, k) := Option.mem_toList.mp hfirst
    have hu : u = v := (hq.firstReady hfirst).1.trans (hq.of_seat hs).1
    rw [← hu] at hs
    exact ⟨s, hs, hfirst⟩
  · rintro ⟨s, hs, hfirst⟩
    obtain ⟨r', hr', hlook⟩ := seat_eq_some.mp hs
    rw [hr] at hr'
    cases hr'
    exact ⟨⟨u, s⟩, GoMap.mem_entries.mpr hlook, Option.mem_toList.mpr hfirst⟩

theorem nodup_told (hq : Sound q) :
    ((q.room r).sessions.entries.flatMap fun e =>
      (q.firstReady e.2).toList).Nodup := by
  refine GoMap.nodup_flatMap Prod.fst ?_ fun e _ => ?_
  · rintro ⟨v, s⟩ he ⟨u, k⟩ hfirst
    have hfirst : q.firstReady s = some (u, k) := Option.mem_toList.mp hfirst
    exact (hq.firstReady hfirst).1.trans
      (hq.sessions r v s (GoMap.mem_entries.mp he)).1
  · cases q.firstReady e.2 with
    | none => exact List.nodup_nil
    | some a => exact List.nodup_singleton a

end Step

/-- The login handler tells the newcomer of all streams exactly if nobody else
in the room has more than one. -/
theorem hearsAll_iff_oneEach {conf : Config} {a : Env × Input}
    (hp : Pod.Reachable conf p) (hlog : LogsIn p a.2 rid u)
    (hs : Pod.step a p = some q) : HearsAll rid u p q ↔ OneEach rid u p := by
  have hin := reachable_inOrder hp
  have hq := (step_inOrder hin hs).toSound
  have hup : ∀ {v k}, q.isUp rid v k = true ↔
      v ≠ u ∧ p.isUp rid v k = true := step_login_isUp hin hs hlog
  obtain ⟨r, hr, htold⟩ := step_login_told hin hs hlog
  rw [HearsAll, htold]
  have hmem : ∀ {v k}, (v, k) ∈ _ ↔ _ := mem_told hq hr
  constructor
  · rintro ⟨-, hall⟩ v k l hne hk hl
    have htells : ∀ {j}, p.isUp rid v j = true →
        ∃ s, q.seat rid v = some s ∧ q.firstReady s = some (v, j) :=
      fun hj => hmem.mp ((hall v _).mpr (hq.live_iff.mpr (hup.mpr ⟨hne, hj⟩)))
    obtain ⟨s, hs, hfirst⟩ := htells hk
    obtain ⟨s', hs', hfirst'⟩ := htells hl
    rw [hs] at hs'
    cases hs'
    rw [hfirst] at hfirst'
    cases hfirst'
    rfl
  · intro hone
    refine ⟨nodup_told hq, fun v k => ?_⟩
    rw [hmem, hq.live_iff]
    constructor
    · rintro ⟨s, hs, hfirst⟩
      exact isUp_iff.mpr ⟨s, hs, (hq.firstReady hfirst).2⟩
    · intro hk
      obtain ⟨s, hs, hready⟩ := isUp_iff.mp hk
      obtain ⟨⟨w, l⟩, hfirst⟩ :=
        Option.isSome_iff_exists.mp (firstReady_isSome hready)
      obtain ⟨hw, hl⟩ := hq.firstReady hfirst
      rw [(hq.of_seat hs).1] at hw
      subst hw
      have hne := hup.mp hk
      have hkl := hone w k l hne.1 hne.2
        (hup.mp (isUp_iff.mpr ⟨s, hs, hl⟩)).2
      rw [hkl]
      exact ⟨s, hs, hfirst⟩

/-- User `u` publishes a second stream next to the one that is up. -/
def secondPushed : List (Env × Input) :=
  streamUp ++ [(Env.calm, .message (Cmd.push.msg
    [(.roomId, "R"), (.sessID, "u"), (.peerID, "2")]))]

def comesLate : Env × Input :=
  (Env.calm, .message (Cmd.login.msg [(.roomId, "R"), (.sessID, "v")]))

/-- Both streams are up, and a newcomer is told of one. -/
theorem second_stream_untold :
    ∃ p q, Pod.Reachable (Config.standalone "podA") p ∧
      LogsIn p comesLate.2 "R" "v" ∧ Pod.step comesLate p = some q ∧
      q.Live "R" "u" "1" ∧ q.Live "R" "u" "2" ∧
      ("u", "1") ∉ toldOf "v" p q ∧ ¬HearsAll "R" "v" p q := by
  have h : (run Pod.step (secondPushed ++ [(Env.calm, .ice 1 .connected)])
      (Pod.createRoomMgr (Config.standalone "podA"))).map (fun p =>
        (p.regist, (Pod.step comesLate p).map fun q =>
          (q.isUp "R" "u" "1" && q.isUp "R" "u" "2", toldOf "v" p q))) =
      some (true, some (true, [("u", "2")])) := by decide
  obtain ⟨p, hp, hfacts⟩ := Option.map_eq_some_iff.mp h
  simp only [Prod.mk.injEq] at hfacts
  obtain ⟨hreg, hstep⟩ := hfacts
  obtain ⟨q, hq, hfacts⟩ := Option.map_eq_some_iff.mp hstep
  simp only [Prod.mk.injEq, Bool.and_eq_true] at hfacts
  obtain ⟨⟨hfirst, hsecond⟩, htold⟩ := hfacts
  have hr : Pod.Reachable (Config.standalone "podA") p := ⟨_, hp⟩
  have hin := step_inOrder (reachable_inOrder hr) hq
  have hlive := hin.toSound.live_iff.mpr hfirst
  have hmiss : ("u", "1") ∉ toldOf "v" p q := by rw [htold]; decide
  exact ⟨p, q, hr, ⟨_, rfl, hreg, by decide, by decide, by decide⟩, hq, hlive,
    hin.toSound.live_iff.mpr hsecond, hmiss,
    fun h => hmiss ((h.2 _ _).mpr hlive)⟩

/-- The second stream is not up yet. -/
theorem hearsAll_secondPushed :
    ∃ p q, Pod.Reachable (Config.standalone "podA") p ∧
      LogsIn p comesLate.2 "R" "v" ∧ Pod.step comesLate p = some q ∧
      OneEach "R" "v" p ∧ HearsAll "R" "v" p q := by
  have h : (run Pod.step secondPushed
      (Pod.createRoomMgr (Config.standalone "podA"))).map (fun p =>
        decide (p.regist = true ∧ p.rooms.lookup "R" = some 0 ∧
          (p.room 0).sessions.entries = [⟨"u", 0⟩] ∧
          (p.sess 0).publishers.entries = [⟨"2", 1⟩, ⟨"1", 0⟩] ∧
          (p.peer 1).isReady = false ∧
          (Pod.step comesLate p).isSome = true)) = some true := by decide
  obtain ⟨p, hp, hfacts⟩ := Option.map_eq_some_iff.mp h
  obtain ⟨hreg, hroom, hsess, hpubs, hsecond, hstep⟩ :=
    of_decide_eq_true hfacts
  obtain ⟨q, hq⟩ := Option.isSome_iff_exists.mp hstep
  have honly : ∀ {v k}, p.isUp "R" v k = true → k = "1" := by
    intro v k hk
    obtain ⟨s, hs, hready⟩ := isUp_iff.mp hk
    obtain ⟨r, hr, hlook⟩ := seat_eq_some.mp hs
    rw [hroom] at hr
    cases hr
    have hmem := GoMap.mem_entries.mpr hlook
    rw [hsess, List.mem_singleton] at hmem
    cases hmem
    obtain ⟨x, hx, hready⟩ := readyAt_iff.mp hready
    have hmem := GoMap.mem_entries.mpr hx
    change _ ∈ (p.sess 0).publishers.entries at hmem
    rw [hpubs] at hmem
    rcases List.mem_cons.mp hmem with hmem | hmem
    · cases hmem
      rw [hsecond] at hready
      cases hready
    · cases List.mem_singleton.mp hmem
      rfl
  have hr : Pod.Reachable (Config.standalone "podA") p := ⟨_, hp⟩
  have hlog : LogsIn p comesLate.2 "R" "v" :=
    ⟨_, rfl, hreg, by decide, by decide, by decide⟩
  have hone : OneEach "R" "v" p :=
    fun v k l _ hk hl => (honly hk).trans (honly hl).symm
  exact ⟨p, q, hr, hlog, hq, hone, (hearsAll_iff_oneEach hr hlog hq).mpr hone⟩

/-! ## A pod that has created the room -/

/-- A `fakepublish` for one pod: over which exchange it goes, to which pod and
for which stream. -/
structure Answer where
  intra : Bool
  podid : String
  sid : String
  pid : String
  deriving DecidableEq

def Event.answer : Event → Option Answer
  | .toPod key m =>
      if command m = some .fakePublish then
        some ⟨true, key, getValue m .sessID, getValue m .peerID⟩
      else none
  | .toCrossClusterPod key m =>
      if command m = some .fakePublish then
        some ⟨false, key, getValue m .sessID, getValue m .peerID⟩
      else none
  | _ => none

/-- The answers that are sent on the way from `p` to `q`. -/
def answers (p q : Pod) : List Answer :=
  (newEvents p q).filterMap Event.answer

/-- A ready publisher of an origin session, other than that of user `w`. -/
def Pod.LiveHere (p : Pod) (rid w sid pid : String) : Prop :=
  ∃ u s k x, p.seat rid u = some s ∧ (p.sess s).origin = true ∧
    (p.sess s).userid ≠ w ∧ p.entry .publisher s k = some x ∧
    (p.peer x).isReady = true ∧ (p.peer x).userid = sid ∧
    (p.peer x).peerid = pid

/-- The pod that sent `m` gets an answer for every such stream, for each one,
over the exchange of its cluster. -/
def AnswersRight (m : JsonParser) (p q : Pod) : Prop :=
  (answers p q).Nodup ∧ ∀ a, a ∈ answers p q ↔
    a.podid = getValue m .podId ∧
    a.intra = decide (getValue m .clusterId = p.conf.clusterid) ∧
    p.LiveHere (getValue m .roomId) (getValue m .sessID) a.sid a.pid

/-- If there is anything to answer, the pod is registered, the cluster id of
the message is this pod's exactly if it is empty, and whoever has a ready
publisher has no other kind. -/
def Answerable (m : JsonParser) (p : Pod) : Prop :=
  ∀ u s k, u ≠ getValue m .sessID →
    p.seat (getValue m .roomId) u = some s → (p.sess s).origin = true →
    p.readyAt s k = true →
    p.regist = true ∧
    (getValue m .clusterId = "" ↔ getValue m .clusterId = p.conf.clusterid) ∧
    ∀ l, p.entry .publisher s l ≠ none → p.readyAt s l = true

theorem Sound.liveHere_iff {w : String} (hp : Sound p) :
    p.LiveHere rid w u k ↔ u ≠ w ∧ ∃ s, p.seat rid u = some s ∧
      (p.sess s).origin = true ∧ p.readyAt s k = true := by
  constructor
  · rintro ⟨v, s, l, x, hs, ho, hne, hx, hready, rfl, rfl⟩
    obtain ⟨hu, hk⟩ := hp.publisher hx
    rw [hu, hk, (hp.of_seat hs).1] at *
    exact ⟨hne, s, hs, ho, readyAt_iff.mpr ⟨x, hx, hready⟩⟩
  · rintro ⟨hne, s, hs, ho, hready⟩
    obtain ⟨x, hx, hready⟩ := readyAt_iff.mp hready
    obtain ⟨hu, hk⟩ := hp.publisher hx
    rw [(hp.of_seat hs).1] at hu
    exact ⟨u, s, k, x, hs, ho, by rw [(hp.of_seat hs).1]; exact hne, hx,
      hready, hu, hk⟩

/-- The message that an origin session sends for one of its publishers. -/
def Pod.answerFor (p : Pod) (s : SessRef) (m : JsonParser) (x : PeerRef) :
    Event :=
  if (p.sess s).clusterid = getValue m .clusterId then
    .toPod (getValue m .podId)
      (p.fakePublishMsg s (p.peer x).userid (p.peer x).peerid)
  else .toCrossClusterPod (getValue m .podId)
    (p.fakePublishMsg s (p.peer x).userid (p.peer x).peerid)

def Pod.answerOf (p : Pod) (s : SessRef) (m : JsonParser) (x : PeerRef) :
    Answer :=
  ⟨decide ((p.sess s).clusterid = getValue m .clusterId), getValue m .podId,
    (p.peer x).userid, (p.peer x).peerid⟩

theorem answerFor_answer (p : Pod) (s : SessRef) (m : JsonParser)
    (x : PeerRef) : (p.answerFor s m x).answer = some (p.answerOf s m x) := by
  unfold Pod.answerFor Pod.answerOf
  split
  · next h =>
      simp only [Event.answer, Pod.fakePublishMsg, command_cons, if_true, h,
        decide_true]
      rfl
  · next h =>
      simp only [Event.answer, Pod.fakePublishMsg, command_cons, if_true, h,
        decide_false]
      rfl

theorem handleRoomCreated_logs (s : SessRef) (m : JsonParser)
    (hf : p.fatal = false) :
    Logs p (Pod.handleRoomCreated s m)
      ((p.sess s).publishers.entries.map fun e => p.answerFor s m e.2) := by
  intro tr
  rw [List.map_eq_flatMap]
  refine Logs.foldl (p := p) (l := (p.sess s).publishers.entries)
    (fun e _ l => ?_) tr
  unfold Pod.answerFor
  by_cases h : (p.sess s).clusterid = getValue m .clusterId
  · rw [if_pos h]
    exact (if_pos h).trans (Logs.emit hf _ l)
  · rw [if_neg h]
    exact (if_neg h).trans (Logs.emit hf _ l)

/-- The session answers for its publishers. -/
def Pod.answersFor (p : Pod) (m : JsonParser) (s : SessRef) : Prop :=
  (p.sess s).origin = true ∧ (p.firstReady s).isSome = true ∧
    getValue m .sessID ≠ (p.sess s).userid

instance (p : Pod) (m : JsonParser) (s : SessRef) :
    Decidable (p.answersFor m s) := inferInstanceAs (Decidable (_ ∧ _ ∧ _))

/-- What the room does with a `createroom`. -/
def Pod.answerEvents (p : Pod) (r : RoomRef) (m : JsonParser) : List Event :=
  (p.room r).sessions.entries.flatMap fun e =>
    if (p.sess e.2).origin then
      [.sync (.rlock (.pubs e.2)), .sync (.runlock (.pubs e.2))] ++
        if (p.firstReady e.2).isSome ∧
            getValue m .sessID ≠ (p.sess e.2).userid then
          (p.sess e.2).publishers.entries.map fun e' =>
            p.answerFor e.2 m e'.2
        else []
    else []

theorem answerRoomCreated_logs (env : Env) (r : RoomRef)
    (hc : command m = some .roomCreated) (hf : p.fatal = false) :
    Logs p (Pod.answerRoomCreated env r m) (p.answerEvents r m) := by
  have hsess : ∀ s, Logs p (Pod.sessionHandleMessage env s m) _ := fun s => by
    have h := handleRoomCreated_logs s m hf
    intro l
    simp only [Pod.sessionHandleMessage, hc]
    exact h l
  intro tr
  refine Logs.foldl (p := p) (l := (p.room r).sessions.entries)
    (fun e _ l => ?_) tr
  by_cases ho : (p.sess e.2).origin = true
  · rw [if_pos ho]
    refine (if_pos ho).trans ?_
    refine ((Logs.read hf (.pubs e.2)).comp (g := fun q =>
      if (q.firstReady e.2).isSome ∧
          getValue m .sessID ≠ (q.sess e.2).userid then
        q.sessionHandleMessage env e.2 m
      else q) fun l => ?_) l
    by_cases h : (p.firstReady e.2).isSome ∧
        getValue m .sessID ≠ (p.sess e.2).userid
    · rw [if_pos h]
      exact (if_pos h).trans (hsess e.2 l)
    · rw [if_neg h, List.append_nil]
      exact if_neg h
  · rw [if_neg ho, List.append_nil]
    exact if_neg ho

/-- What is of interest among these events are the answers. -/
theorem answerEvents_filterMap {β : Type} {f : Event → Option β}
    (hf : ∀ o, f (.sync o) = none) (r : RoomRef) (m : JsonParser) (p : Pod) :
    (p.answerEvents r m).filterMap f =
      (p.room r).sessions.entries.flatMap fun e =>
        if p.answersFor m e.2 then
          (p.sess e.2).publishers.entries.filterMap fun e' =>
            f (p.answerFor e.2 m e'.2)
        else [] := by
  rw [Pod.answerEvents, List.filterMap_flatMap]
  refine congrArg (List.flatMap · _) (funext fun e => ?_)
  by_cases ho : (p.sess e.2).origin = true
  · by_cases h : (p.firstReady e.2).isSome ∧
        getValue m .sessID ≠ (p.sess e.2).userid
    · rw [if_pos ho, if_pos h, if_pos (show p.answersFor m e.2 from ⟨ho, h⟩)]
      simp only [List.cons_append, List.nil_append, List.filterMap_cons, hf,
        List.filterMap_map]
      rfl
    · rw [if_pos ho, if_neg h, if_neg fun h' : p.answersFor m e.2 => h h'.2]
      simp only [List.append_nil, List.filterMap_cons, hf, List.filterMap_nil]
  · rw [if_neg ho, if_neg fun h : p.answersFor m e.2 => ho h.1]
    rfl

theorem step_roomCreated {a : Env × Input} (hs : Pod.step a p = some q)
    (hm : a.2 = .message m) (hc : command m = some .roomCreated)
    (hreg : p.regist = true) (hpod : getValue m .podId ≠ p.conf.uuid)
    (hr : p.rooms.lookup (getValue m .roomId) = some r) :
    q = p.logged (p.answerEvents r m) := by
  have hf := step_fatal hs
  have hfwd : p.forwards m = true := by
    simp only [Pod.forwards, hc]
    exact decide_eq_true hpod
  rw [step_message hs hm]
  simp only [Pod.mgrHandleMessage, hc, hreg, if_true, Pod.mgrForward, hfwd,
    hr, Pod.roomHandleMessage]
  exact (answerRoomCreated_logs a.1 r hc hf).self

/-- The answers to a `createroom` that the pod handles. -/
theorem step_answers {a : Env × Input} (hs : Pod.step a p = some q)
    (hm : a.2 = .message m) (hc : command m = some .roomCreated)
    (hpod : getValue m .podId ≠ p.conf.uuid)
    (hr : p.rooms.lookup (getValue m .roomId) = some r) :
    answers p q = if p.regist then
      (p.room r).sessions.entries.flatMap fun e =>
        if p.answersFor m e.2 then
          (p.sess e.2).publishers.entries.map fun e' => p.answerOf e.2 m e'.2
        else []
      else [] := by
  split
  · next hreg =>
      rw [answers, step_roomCreated hs hm hc hreg hpod hr,
        newEvents_of_append rfl, answerEvents_filterMap fun _ => rfl]
      simp only [answerFor_answer, List.filterMap_eq_map']
  · next hreg =>
      have hf := step_fatal hs
      obtain rfl := step_message hs hm
      simp only [Pod.mgrHandleMessage, hc, hreg]
      rw [answers, if_neg (by simp), Pod.notifyServiceNotAvailable,
        (Logs.emit hf _).newEvents]
      rfl

/-- Sessions that were created by a login carry no cluster id. -/
def Unlabelled (p : Pod) : Prop :=
  ∀ s, s < p.sessHeap.next → (p.sess s).origin = true →
    (p.sess s).clusterid = ""

theorem reachable_unlabelled {conf : Config} (hp : Pod.Reachable conf p) :
    Unlabelled p := fun _ hlt ho => (unlabelled_of_origin hp hlt ho).2

/-- An answer that is sent: for a publisher, ready or not, of an origin session
that has a ready one. -/
theorem mem_answers (hp : Sound p) (hu : Unlabelled p)
    (hr : p.rooms.lookup rid = some r) {a : Answer} :
    (a ∈ (p.room r).sessions.entries.flatMap fun e =>
      if p.answersFor m e.2 then
        (p.sess e.2).publishers.entries.map fun e' => p.answerOf e.2 m e'.2
      else []) ↔
    a.podid = getValue m .podId ∧ a.intra = decide (getValue m .clusterId = "") ∧
      a.sid ≠ getValue m .sessID ∧ ∃ s, p.seat rid a.sid = some s ∧
        (p.sess s).origin = true ∧ (∃ k, p.readyAt s k = true) ∧
        p.entry .publisher s a.pid ≠ none := by
  rw [List.mem_flatMap]
  constructor
  · rintro ⟨⟨u, s⟩, he, ha⟩
    have hs := seat_eq_some.mpr ⟨r, hr, GoMap.mem_entries.mp he⟩
    obtain ⟨huid, -, -, hlt⟩ := hp.of_seat hs
    split at ha
    · next hans =>
        obtain ⟨ho, hsome, hne⟩ := hans
        obtain ⟨⟨l, x⟩, hx, rfl⟩ := List.mem_map.mp ha
        have hx : p.entry .publisher s l = some x := GoMap.mem_entries.mp hx
        obtain ⟨⟨w, k⟩, hfirst⟩ := Option.isSome_iff_exists.mp hsome
        obtain ⟨hxu, hxk⟩ := hp.publisher hx
        simp only [Pod.answerOf, hxu, hxk, huid, hu s hlt ho]
        refine ⟨trivial, decide_eq_decide.mpr eq_comm, ?_, s, hs, ho,
          ⟨k, (hp.firstReady hfirst).2⟩, by rw [hx]; exact nofun⟩
        rw [← huid]
        exact hne.symm
    · cases ha
  · rintro ⟨hpod, hintra, hne, s, hs, ho, ⟨k, hready⟩, hx⟩
    obtain ⟨x, hx⟩ := Option.ne_none_iff_exists'.mp hx
    obtain ⟨r', hr', hlook⟩ := seat_eq_some.mp hs
    rw [hr] at hr'
    cases hr'
    obtain ⟨huid, -, -, hlt⟩ := hp.of_seat hs
    obtain ⟨hxu, hxk⟩ := hp.publisher hx
    refine ⟨⟨a.sid, s⟩, GoMap.mem_entries.mpr hlook, ?_⟩
    rw [if_pos (show p.answersFor m s from ⟨ho, firstReady_isSome hready,
      by rw [huid]; exact hne.symm⟩)]
    refine List.mem_map.mpr ⟨⟨a.pid, x⟩, GoMap.mem_entries.mpr hx, ?_⟩
    simp only [Pod.answerOf, hxu, hxk, huid, hu s hlt ho, ← hpod]
    rw [show decide ("" = getValue m .clusterId) = a.intra from
      (decide_eq_decide.mpr eq_comm).trans hintra.symm]

theorem nodup_answers (hp : Sound p) :
    ((p.room r).sessions.entries.flatMap fun e =>
      if p.answersFor m e.2 then
        (p.sess e.2).publishers.entries.map fun e' => p.answerOf e.2 m e'.2
      else []).Nodup := by
  refine GoMap.nodup_flatMap Answer.sid ?_ ?_
  · rintro ⟨u, s⟩ he a ha
    split at ha
    · obtain ⟨⟨l, x⟩, hx, rfl⟩ := List.mem_map.mp ha
      exact (hp.publisher (GoMap.mem_entries.mp hx)).1.trans
        (hp.sessions r u s (GoMap.mem_entries.mp he)).1
    · cases ha
  · rintro ⟨u, s⟩ he
    split
    · rw [List.map_eq_flatMap]
      refine GoMap.nodup_flatMap Answer.pid ?_ fun e _ => List.nodup_singleton _
      rintro ⟨l, x⟩ hx a ha
      rw [List.mem_singleton.mp ha]
      exact (hp.publisher (GoMap.mem_entries.mp hx)).2
    · exact List.nodup_nil

/-- The answers to a `createroom` are right exactly if the condition holds. -/
theorem answersRight_iff_answerable {conf : Config} {a : Env × Input}
    (hp : Pod.Reachable conf p) (hm : a.2 = .message m)
    (hc : command m = some .roomCreated)
    (hpod : getValue m .podId ≠ p.conf.uuid)
    (hr : p.rooms.lookup (getValue m .roomId) = some r)
    (hs : Pod.step a p = some q) :
    AnswersRight m p q ↔ Answerable m p := by
  have hsound := (reachable_inOrder hp).toSound
  have hu := reachable_unlabelled hp
  have hsent := step_answers hs hm hc hpod hr
  have hlive : ∀ {u k}, p.LiveHere (getValue m .roomId) (getValue m .sessID)
      u k ↔ _ := hsound.liveHere_iff
  rw [AnswersRight, hsent]
  constructor
  · rintro ⟨-, hall⟩ u s k hne hseat ho hready
    have hanswer := (hall ⟨decide (getValue m .clusterId = p.conf.clusterid),
      getValue m .podId, u, k⟩).mpr ⟨rfl, rfl,
        hlive.mpr ⟨hne, s, hseat, ho, hready⟩⟩
    cases hreg : p.regist with
    | false => rw [hreg] at hanswer; cases hanswer
    | true =>
        rw [hreg, if_pos rfl] at hanswer hall
        have hroute := ((mem_answers hsound hu hr).mp hanswer).2.1
        refine ⟨rfl, (decide_eq_decide.mp hroute).symm, fun l hl => ?_⟩
        have hlisted := (mem_answers (a := ⟨decide (getValue m .clusterId = ""),
          getValue m .podId, u, l⟩) hsound hu hr).mpr ⟨rfl, rfl, hne, s, hseat,
            ho, ⟨k, hready⟩, hl⟩
        obtain ⟨-, s', hs', -, hready'⟩ := hlive.mp ((hall _).mp hlisted).2.2
        rw [hseat] at hs'
        cases hs'
        exact hready'
  · intro hans
    cases hreg : p.regist with
    | false =>
        refine ⟨List.nodup_nil, fun a => ⟨nofun, ?_⟩⟩
        rintro ⟨-, -, hl⟩
        obtain ⟨hne, s, hseat, ho, hready⟩ := hlive.mp hl
        have hreg' := (hans _ s _ hne hseat ho hready).1
        rw [hreg] at hreg'
        cases hreg'
    | true =>
        rw [if_pos rfl]
        refine ⟨nodup_answers hsound, fun a => ?_⟩
        rw [mem_answers hsound hu hr, hlive]
        constructor
        · rintro ⟨hpod, hintra, hne, s, hseat, ho, ⟨k, hready⟩, hx⟩
          obtain ⟨-, hroute, hall⟩ := hans _ s k hne hseat ho hready
          exact ⟨hpod, hintra.trans (decide_eq_decide.mpr hroute), hne, s, hseat,
            ho, hall _ hx⟩
        · rintro ⟨hpod, hintra, hne, s, hseat, ho, hready⟩
          obtain ⟨-, hroute, -⟩ := hans _ s _ hne hseat ho hready
          obtain ⟨x, hx, -⟩ := readyAt_iff.mp hready
          exact ⟨hpod, hintra.trans (decide_eq_decide.mpr hroute.symm), hne, s,
            hseat, ho, ⟨_, hready⟩, by rw [hx]; exact nofun⟩

/-- Another pod has opened room `R` for its user `w`. -/
def roomOpened (clusterid : String) : JsonParser :=
  Cmd.roomCreated.msg [(.clusterId, clusterid), (.podId, "podB"),
    (.roomId, "R"), (.sessID, "w")]

/-- One stream is up and another one is not. A pod of the same cluster is sent
both, over the exchange for other clusters. -/
theorem unready_stream_answered :
    ∃ p q, Pod.Reachable (Config.standalone "podA") p ∧
      p.rooms.lookup "R" = some 0 ∧
      Pod.step (Env.calm, .message (roomOpened "c1")) p = some q ∧
      p.conf.clusterid = "c1" ∧ p.isUp "R" "u" "2" = false ∧
      answers p q = [⟨false, "podB", "u", "2"⟩, ⟨false, "podB", "u", "1"⟩] ∧
      ¬AnswersRight (roomOpened "c1") p q := by
  have h : (run Pod.step secondPushed
      (Pod.createRoomMgr (Config.standalone "podA"))).map (fun p =>
        (decide (p.rooms.lookup "R" = some 0 ∧ p.conf.clusterid = "c1" ∧
          p.isUp "R" "u" "2" = false),
          (Pod.step (Env.calm, .message (roomOpened "c1")) p).map
            (answers p))) =
      some (true, some [⟨false, "podB", "u", "2"⟩,
        ⟨false, "podB", "u", "1"⟩]) := by decide
  obtain ⟨p, hp, hfacts⟩ := Option.map_eq_some_iff.mp h
  simp only [Prod.mk.injEq] at hfacts
  obtain ⟨hfacts, hstep⟩ := hfacts
  obtain ⟨hroom, hcluster, hdown⟩ := of_decide_eq_true hfacts
  obtain ⟨q, hq, hsent⟩ := Option.map_eq_some_iff.mp hstep
  refine ⟨p, q, ⟨_, hp⟩, hroom, hq, hcluster, hdown, hsent, fun hright => ?_⟩
  have hlisted := (hright.2 ⟨false, "podB", "u", "2"⟩).mp (by rw [hsent]; decide)
  rw [hcluster] at hlisted
  exact absurd hlisted.2.1 (by decide)

/-- All streams are up, and the pod that asks belongs to another cluster. -/
theorem answersRight_streamUp :
    ∃ p q, Pod.Reachable (Config.standalone "podA") p ∧
      Pod.step (Env.calm, .message (roomOpened "c2")) p = some q ∧
      Answerable (roomOpened "c2") p ∧ AnswersRight (roomOpened "c2") p q := by
  have h : (run Pod.step streamUp
      (Pod.createRoomMgr (Config.standalone "podA"))).map (fun p =>
        decide (p.regist = true ∧ p.rooms.lookup "R" = some 0 ∧
          p.conf.clusterid = "c1" ∧ p.conf.uuid = "podA" ∧
          (p.room 0).sessions.entries = [⟨"u", 0⟩] ∧
          (p.sess 0).publishers.entries = [⟨"1", 0⟩] ∧
          p.readyAt 0 "1" = true ∧
          (Pod.step (Env.calm, .message (roomOpened "c2")) p).isSome = true)) =
      some true := by decide
  obtain ⟨p, hp, hfacts⟩ := Option.map_eq_some_iff.mp h
  obtain ⟨hreg, hroom, hcluster, huuid, hsess, hpubs, hready, hstep⟩ :=
    of_decide_eq_true hfacts
  obtain ⟨q, hq⟩ := Option.isSome_iff_exists.mp hstep
  have hans : Answerable (roomOpened "c2") p := by
    intro u s k _ hs _ _
    obtain ⟨r, hr, hlook⟩ := seat_eq_some.mp hs
    change p.rooms.lookup "R" = some r at hr
    rw [hroom] at hr
    cases hr
    have hmem := GoMap.mem_entries.mpr hlook
    rw [hsess, List.mem_singleton] at hmem
    cases hmem
    refine ⟨hreg, by rw [hcluster]; decide, fun l hl => ?_⟩
    obtain ⟨x, hx⟩ := Option.ne_none_iff_exists'.mp hl
    have hmem := GoMap.mem_entries.mpr hx
    change _ ∈ (p.sess 0).publishers.entries at hmem
    rw [hpubs, List.mem_singleton] at hmem
    cases hmem
    exact hready
  have hr : Pod.Reachable (Config.standalone "podA") p := ⟨_, hp⟩
  have hpod : getValue (roomOpened "c2") .podId ≠ p.conf.uuid := by
    rw [huuid]; decide
  exact ⟨p, q, hr, hq, hans, (answersRight_iff_answerable hr rfl (by decide)
    hpod hroom hq).mpr hans⟩

end MediaServer.Ref
