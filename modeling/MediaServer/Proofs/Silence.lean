import MediaServer.Lib.History
import MediaServer.Proofs.Keepalive
import MediaServer.Proofs.Leaving
import MediaServer.Proofs.Media
import MediaServer.Proofs.Notices

/-!
# Nobody stays who is silent

`Proofs.Keepalive` says whom the keepalive may kick. Here is the other half:
it misses nobody. The tick spawns a check for every session, a check that
finds its session overdue spawns a kick, and a kick removes whoever has the
seat; so between the tick and the end of the spawned calls a session that is
still in its seat either has been heard of, or has its check or its kick yet
to run. In which order the calls run, and what else happens in between, does
not matter. What the session was heard of by is a login or a heartbeat of its
user: nothing else sets `alivetime`.
-/

namespace MediaServer.Ref

open MediaServer.Lib

variable {p q : Pod} {s : SessRef} {r : RoomRef} {u : String} {g : Goroutine}
variable {a : Env × Input} {conf : Config} {start : Int} {rid : String}
variable {as : List (Env × Input)}

/-! ## Signs of life -/

/-- A login or a heartbeat of user `u` for the room `rid`. -/
def Input.SignOf (rid u : String) (a : Input) : Prop :=
  ∃ m, a = .message m ∧
    (command m = some .login ∨ command m = some .heartbeat) ∧
    getValue m .roomId = rid ∧ getValue m .sessID = u

/-- The time of a session is that of the step, by a sign of its user, or the
one it had. -/
theorem step_sign (hp : InOrder p) (hroot : Rooted p)
    (hs : Pod.step a p = some q) (hseat : q.seat rid u = some s)
    (ho : (q.sess s).origin = true) :
    (q.sess s).alivetime = a.1.now ∧ a.2.SignOf rid u ∨
      p.seat rid u = some s ∧ (p.sess s).origin = true ∧
        (q.sess s).alivetime = (p.sess s).alivetime := by
  have hafter := step_after hp hs
  obtain ⟨huser, hrid, -, hsq⟩ := (step_inOrder hp hs).toSound.of_seat hseat
  obtain ⟨r, hr, hlook⟩ := seat_eq_some.mp hseat
  obtain ⟨hback, htime⟩ := step_seated hp hs hlook
  by_cases hlt : s < p.sessHeap.next
  · have hold := hp.toSound.seat (hback hlt)
    rw [step_seat_room hp hs hold hseat] at hold
    obtain ⟨hnow, hbeat⟩ | ⟨-, hkept⟩ := htime
    · obtain ⟨m, r', hm, hreach, hc, hto, -⟩ := hbeat hlt
      have hroute : route m = getValue m .sessID := by simp only [route, hc]
      have hthere := seat_eq_some.mpr
        ⟨r', (hreach.known (by simp [hc])).1, hto⟩
      have hroom := step_seat_room hp hs hthere hseat
      refine .inl ⟨hnow, m, hm, .inr hc, hroom, ?_⟩
      rw [← hroute, ← (hp.sessions r' _ s hto).1]
      exact (hp.sessions r u s (hback hlt)).1
    · refine .inr ⟨hold, ?_, hkept⟩
      rw [← ho]
      exact (congrArg (·.2.2.2.2.1) (hafter.sess s hlt)).symm
  · obtain ⟨m, r', hm, -, hid, hroom, hname⟩ :=
      step_new_session hp hroot hs hsq hlt
    have hlogin : command m = some .login := by
      have horigin : (q.sess s).origin = (newSession a.1 r' m).origin :=
        congrArg (·.2.2.2.2.1) hid
      exact newSession_origin (horigin.symm.trans ho)
    exact .inl ⟨(htime.resolve_right fun h => hlt h.1).1, m, hm, .inl hlogin,
      hroom.symm.trans hrid, hname.symm.trans huser⟩

/-- Whoever sits in a room has given the sign in the run that their
`alivetime` is from. -/
theorem run_sign (hrun : run Pod.step as (Pod.createRoomMgr conf) = some q)
    (hseat : q.seat rid u = some s) (ho : (q.sess s).origin = true) :
    ∃ a ∈ as, a.1.now = (q.sess s).alivetime ∧ a.2.SignOf rid u := by
  refine run_history (I := fun as t => ∀ rid u s,
    t.seat rid u = some s → (t.sess s).origin = true →
    ∃ a ∈ as, a.1.now = (t.sess s).alivetime ∧ a.2.SignOf rid u)
    ?_ ?_ (fun _ _ => trivial) hrun rid u s hseat ho
  · intro rid u s h
    cases h
  · intro as a t t' hrun ih _ hs rid u s hseat ho
    have ht : Pod.Reachable conf t := ⟨as, hrun⟩
    obtain ⟨hnow, hsign⟩ | ⟨hold, hold', halive⟩ :=
      step_sign (reachable_inOrder ht) (reachable_rooted ht) hs hseat ho
    · exact ⟨a, List.mem_append_right _ (List.mem_singleton_self a),
        hnow.symm, hsign⟩
    · obtain ⟨b, hb, hnow, hsign⟩ := ih rid u s hold hold'
      exact ⟨b, List.mem_append_left _ hb, hnow.trans halive.symm, hsign⟩

/-! ## The tick -/

theorem onCheckKeepalive_pending (r : RoomRef) (p : Pod) :
    (p.onCheckKeepalive r).pending = p.pending ++
      (p.room r).sessions.entries.map fun e => .checkKeepAlive e.2 := by
  unfold Pod.onCheckKeepalive
  dsimp only
  rw [Pod.runlock, Pod.emit_pending, foldl_go_pending, Pod.rlock,
    Pod.emit_pending, Pod.emit_room]

/-- The tick spawns a check for every session of every room. -/
theorem keepaliveTick_checks (hr : p.rooms.lookup (p.room r).roomid = some r)
    (hs : (p.room r).sessions.lookup u = some s) :
    .checkKeepAlive s ∈ p.keepaliveTick.pending := by
  have hloop : ∀ (l : List ((_ : String) × RoomRef)) (t : Pod),
      t.roomHeap = p.roomHeap → (∃ e ∈ l, e.2 = r) ∨
        .checkKeepAlive s ∈ t.pending →
      .checkKeepAlive s ∈ (l.foldl
        (fun p e => p.onCheckKeepalive e.2) t).pending := by
    intro l
    induction l with
    | nil =>
        rintro t - (⟨e, he, -⟩ | hin)
        · cases he
        · exact hin
    | cons e l ih =>
        intro t ht hin
        have hquiet := (t.onCheckKeepalive_quiet e.2).toSameStore
        refine ih _ (hquiet.roomHeap.trans ht) ?_
        rw [onCheckKeepalive_pending]
        obtain ⟨e', he', hr'⟩ | hin := hin
        · rcases List.mem_cons.mp he' with rfl | he'
          · refine .inr (List.mem_append_right _ (List.mem_map.mpr
              ⟨⟨u, s⟩, GoMap.mem_entries.mpr ?_, rfl⟩))
            rw [Pod.room, ht, hr']
            exact hs
          · exact .inl ⟨e', he', hr'⟩
        · exact .inr (List.mem_append_left _ hin)
  unfold Pod.keepaliveTick
  dsimp only
  rw [Pod.runlock, Pod.emit_pending]
  refine hloop _ _ (by rw [Pod.rlock, Pod.emit_roomHeap])
    (.inl ⟨⟨(p.room r).roomid, r⟩, GoMap.mem_entries.mpr ?_, rfl⟩)
  rwa [Pod.rlock, Pod.emit_rooms]

/-! ## The calls -/

/-- The check of a session that is overdue spawns the kick. -/
theorem checkKeepAlive_late {env : Env} (ho : (p.sess s).origin = true)
    (hlate : env.now - (p.sess s).alivetime > 60) : p.checkKeepAlive env s =
      p.go (.kickoutFromRoom (p.sess s).parent (p.sess s).userid) := by
  rw [Pod.checkKeepAlive, ho]
  exact if_pos hlate

/-- A pending call is pending after the step, or the step was its turn. -/
theorem pending_or_ran (hp : InOrder p) (hs : Pod.step a p = some q)
    (hg : g ∈ p.pending) :
    g ∈ q.pending ∨
      ∃ l, q = Pod.runGoroutine a.1 g { p with pending := l } := by
  by_cases hcall : a.2.call? p = some g
  · obtain ⟨i, ha, hi⟩ := Input.call?_eq_some hcall
    exact .inr ⟨_, step_go hs ha hi⟩
  · exact .inl (step_pending hp hs hg hcall)

/-- Every user in a room has been heard of within a minute of `start`, or has
a check or a kick before them. -/
def Watched (start : Int) (p : Pod) : Prop :=
  ∀ r u s, (p.room r).sessions.lookup u = some s → (p.sess s).origin = true →
    start - 60 ≤ (p.sess s).alivetime ∨ .checkKeepAlive s ∈ p.pending ∨
      .kickoutFromRoom r u ∈ p.pending

theorem keepaliveTick_watched (hp : InOrder p) :
    Watched start p.keepaliveTick := by
  intro r u s hs _
  have hquiet := (p.keepaliveTick_quiet).toSameStore
  rw [hquiet.room] at hs
  exact .inr (.inl (keepaliveTick_checks (hp.registered r u s hs) hs))

theorem Watched.step (h : Watched start p) (hp : InOrder p)
    (hnow : start ≤ a.1.now) (hs : Pod.step a p = some q) :
    Watched start q := by
  intro r u s hseat horigin
  obtain ⟨hback, ⟨hnew, -⟩ | ⟨hlt, halive⟩⟩ := step_seated hp hs hseat
  · exact .inl (by omega)
  have hseat' := hback hlt
  have hident := (step_after hp hs).sess s hlt
  have horigin' : (p.sess s).origin = true := by
    rw [← horigin]
    exact (congrArg (·.2.2.2.2.1) hident).symm
  obtain ⟨huser, hparent, -⟩ := hp.sessions r u s hseat'
  rw [halive]
  obtain hheard | hcheck | hkick := h r u s hseat' horigin'
  · exact .inl hheard
  · obtain hin | ⟨l, rfl⟩ := pending_or_ran hp hs hcheck
    · exact .inr (.inl hin)
    -- the check has run: it has spawned the kick or found nothing to do
    by_cases hlate : a.1.now - (p.sess s).alivetime > 60
    · refine .inr (.inr ?_)
      have hkick : Pod.runGoroutine a.1 (.checkKeepAlive s)
          { p with pending := l } = _ := checkKeepAlive_late horigin' hlate
      rw [hkick]
      refine List.mem_append_right _ ?_
      rw [← huser, ← hparent]
      exact List.mem_cons_self
    · exact .inl (by omega)
  · obtain hin | ⟨l, rfl⟩ := pending_or_ran hp hs hkick
    · exact .inr (.inr hin)
    -- the kick has run, and nobody is left in the seat
    have hgone : ((Pod.runGoroutine a.1 (.kickoutFromRoom r u)
        { p with pending := l }).room r).sessions.lookup u = none :=
      kickoutFromRoom_lookup (hp.of_pending l).toPodOk
    rw [hgone] at hseat
    cases hseat

/-- The keepalive misses nobody. After a tick, whatever comes in and in
whatever order the calls run that it has started: once no check of a session
and no kick of its user is left, the user has logged in or sent a heartbeat
that was handled no earlier than a minute before the tick. -/
theorem silent_users_leave {bs as : List (Env × Input)} {env : Env}
    (hbefore : run Pod.step bs (Pod.createRoomMgr conf) = some p)
    (hclock : ∀ a ∈ as, env.now ≤ a.1.now)
    (hrun : run Pod.step ((env, .keepaliveTick) :: as) p = some q)
    (hseat : q.seat rid u = some s) (ho : (q.sess s).origin = true)
    (hchecked : .checkKeepAlive s ∉ q.pending)
    (hkicked : .kickoutFromRoom (q.sess s).parent u ∉ q.pending) :
    ∃ a ∈ bs ++ (env, .keepaliveTick) :: as, env.now - 60 ≤ a.1.now ∧
      a.2.SignOf rid u := by
  obtain ⟨t, ht, hrest⟩ := run_cons hrun
  have hp := reachable_inOrder ⟨bs, hbefore⟩
  have htick : t = p.keepaliveTick := by
    have hf := step_fatal ht
    unfold Pod.step at ht
    rw [if_neg (by simp [hf])] at ht
    exact (Option.some.inj ht).symm
  have hstart : Watched env.now t := htick ▸ keepaliveTick_watched hp
  have hguard : Guarded Pod.step (fun _ a => env.now ≤ a.1.now) as t :=
    guarded_of_forall hclock
  obtain ⟨hq, hend⟩ := run_invariant
    (P := fun t => InOrder t ∧ Watched env.now t)
    (fun a t t' h ha hs => ⟨step_inOrder h.1 hs, h.2.step h.1 ha hs⟩)
    hguard ⟨step_inOrder hp ht, hstart⟩ hrest
  obtain ⟨r, -, hlook⟩ := seat_eq_some.mp hseat
  have hheard : env.now - 60 ≤ (q.sess s).alivetime := by
    rw [(hq.sessions r u s hlook).2.1] at hkicked
    obtain hheard | hcheck | hkick := hend r u s hlook ho
    · exact hheard
    · exact absurd hcheck hchecked
    · exact absurd hkick hkicked
  have hall : run Pod.step (bs ++ (env, .keepaliveTick) :: as)
      (Pod.createRoomMgr conf) = some q := by
    rw [run_append, hbefore]
    exact hrun
  obtain ⟨a, ha, hnow, hsign⟩ := run_sign hall hseat ho
  exact ⟨a, ha, by omega, hsign⟩

/-- Surroundings at the given time. -/
def Env.clock (now : Int) : Env := { Env.calm with now := now }

/-- Two users log in, the second 50 seconds after the first. -/
def twoUsers : List (Env × Input) :=
  [(.clock 0, .setSendMessageHandler),
    (.clock 0, .message (Cmd.login.msg [(.roomId, "R"), (.sessID, "u")])),
    (.clock 50, .message (Cmd.login.msg [(.roomId, "R"), (.sessID, "w")]))]

/-- The calls that a tick starts, the last one first. -/
def lastFirst : List (Env × Input) :=
  [(.clock 100, .go 1), (.clock 100, .go 0), (.clock 100, .go 0),
    (.clock 100, .go 0)]

/-- The first user is gone, the second has been heard of. -/
theorem twoUsers_one_leaves :
    ∃ p q, run Pod.step twoUsers (Pod.createRoomMgr (.standalone "podA")) =
        some p ∧
      run Pod.step ((.clock 100, .keepaliveTick) :: lastFirst) p = some q ∧
      q.seat "R" "u" = none ∧ q.seat "R" "w" = some 1 ∧
      ∃ a ∈ twoUsers ++ (.clock 100, .keepaliveTick) :: lastFirst,
        40 ≤ a.1.now ∧ a.2.SignOf "R" "w" := by
  have h : (run Pod.step twoUsers
      (Pod.createRoomMgr (.standalone "podA"))).bind (fun p =>
        (run Pod.step ((.clock 100, .keepaliveTick) :: lastFirst) p).map
          fun q => (q.pending, q.seat "R" "u", q.seat "R" "w",
            (q.sess 1).origin)) = some ([], none, some 1, true) := by decide
  obtain ⟨p, hp, hnext⟩ := Option.bind_eq_some_iff.mp h
  obtain ⟨q, hq, hfacts⟩ := Option.map_eq_some_iff.mp hnext
  simp only [Prod.mk.injEq] at hfacts
  obtain ⟨hpend, hu, hw, ho⟩ := hfacts
  have hnone : ∀ g, g ∉ q.pending := by
    intro g hg
    rw [hpend] at hg
    cases hg
  exact ⟨p, q, hp, hq, hu, hw,
    silent_users_leave hp (by decide) hq hw ho (hnone _) (hnone _)⟩

end MediaServer.Ref
