import MediaServer.Proofs.Calls
import MediaServer.Proofs.Forwarding
import MediaServer.Proofs.Isolation
import MediaServer.Proofs.Outcome

/-!
# What a connection is handed

A packet that arrives on a publisher's track is handed to subscribers of the
publisher's session, and application data to the other peers of the room. The
maps of the sessions decide who that is at the moment of arrival, and they
change all the time. Yet for a peer that stays, nothing depends on these
changes: it was created for one session and one stream, no call rewrites that,
and once taken out of its map it never comes back. So what it is handed over a
run can be read off the packets that arrive, one by one and in their order
(`connected_peer_misses_nothing`).

The run is cut into steps: `step_heard` says for one step what a peer is
handed, `mem_hearers` that for a peer in its map the names alone decide, and
`takes_after` that they decide the same way later.
-/

namespace MediaServer.Ref

open MediaServer.Lib

variable {p q t : Pod} {s : SessRef} {x y : PeerRef} {pid : String}
variable {buff : List UInt8} {conf : Config} {a : Env × Input}

/-! ## Packets -/

/-- Packets of the two kinds of tracks, and application data. -/
inductive Media where
  | audio
  | video
  | app
  deriving DecidableEq

abbrev Packet := Media × List UInt8

/-- What arrives with an input, and at which peer. -/
def Input.arrival? : Input → Option (PeerRef × Packet)
  | .audio x buff => some (x, .audio, buff)
  | .video x buff => some (x, .video, buff)
  | .appData x buff => some (x, .app, buff)
  | _ => none

/-- What the event hands to peer `y`. -/
def Event.handedTo (y : PeerRef) : Event → Option Packet
  | .deliverAudio x buff => if x = y then some (.audio, buff) else none
  | .deliverVideo x buff => if x = y then some (.video, buff) else none
  | .deliverApp x buff => if x = y then some (.app, buff) else none
  | _ => none

/-- What peer `y` was handed, in order. -/
def heard (y : PeerRef) (tr : List Event) : List Packet :=
  tr.filterMap (Event.handedTo y)

/-- The peers that are handed what arrives at `x`. -/
def Pod.hearers (p : Pod) (x : PeerRef) : Media → List PeerRef
  | .audio | .video => recipients p (p.peer x).parent (p.peer x).peerid
  | .app => (p.members (p.sess (p.peer x).parent).parent).filter
      (p.Hears (p.peer x).userid (p.peer x).peerid)

/-- What an input hands to peer `y`. -/
def Pod.handing (p : Pod) (y : PeerRef) (i : Input) : Option Packet :=
  i.arrival?.bind fun h => if y ∈ p.hearers h.1 h.2.1 then some h.2 else none

@[simp] theorem heard_nil (y : PeerRef) : heard y [] = [] := rfl

@[simp] theorem heard_append (y : PeerRef) (tr tr' : List Event) :
    heard y (tr ++ tr') = heard y tr ++ heard y tr' := List.filterMap_append

@[simp] theorem heard_sync (y : PeerRef) (op : LockOp Mutex)
    (tr : List Event) : heard y (.sync op :: tr) = heard y tr := rfl

/-- A loop over different peers hands a packet to each of them once. -/
theorem heard_map {d : PeerRef → Event} {k : Packet} {l : List PeerRef}
    (hd : ∀ x, (d x).handedTo y = if x = y then some k else none)
    (hl : l.Nodup) : heard y (l.map d) = if y ∈ l then [k] else [] := by
  induction l with
  | nil => rfl
  | cons x l ih =>
      obtain ⟨hx, hl⟩ := List.nodup_cons.mp hl
      rw [List.map_cons, heard, List.filterMap_cons, hd]
      by_cases hxy : x = y
      · subst hxy
        have hrest := ih hl
        rw [if_neg hx] at hrest
        rw [if_pos rfl, if_pos List.mem_cons_self]
        exact congrArg (k :: ·) hrest
      · rw [if_neg hxy]
        simp only [List.mem_cons, Ne.symm hxy, false_or]
        exact ih hl

/-! ## One step -/

theorem recipients_nodup (hp : Placed p) (s : SessRef) (pid : String) :
    (recipients p s pid).Nodup := by
  have hsub : (recipients p s pid).Sublist
      ((p.sess s).subscribers.entries.map Sigma.snd) :=
    List.Sublist.map _ List.filter_sublist
  exact (p.nodup_entries hp .subscriber s).sublist hsub

/-- What one of the two sections of `BroadcastAppData` logs. -/
def appEvents (p : Pod) (sid pid : String) (buff : List UInt8) (m : Mutex)
    (peers : GoMap PeerRef) : List Event :=
  .sync (.rlock m) :: (((peers.entries.map Sigma.snd).filter
    (p.Hears sid pid)).map (Event.deliverApp · buff) ++ [.sync (.runlock m)])

theorem section_logs {sid : String} (hp : p.fatal = false) (m : Mutex)
    (s : SessRef) (get : Session → GoMap PeerRef) :
    Logs p (fun q => ((q.rlock m).deliverAppTo sid pid buff
        (get (q.sess s))).runlock m)
      (appEvents p sid pid buff m (get (p.sess s))) := by
  have hloop := Logs.pick (fun e : (_ : String) × PeerRef =>
    Event.deliverApp e.2 buff) (get (p.sess s)).entries hp
    (c := fun p e => p.Hears sid pid e.2) fun _ _ => Iff.rfl
  rw [appEvents, List.filter_map, List.map_map]
  exact ((Logs.emit hp (.sync (.rlock m))).comp hloop).comp
    (Logs.emit hp (.sync (.runlock m)))

theorem heard_appEvents (sid : String) (m : Mutex) (peers : GoMap PeerRef) :
    heard y (appEvents p sid pid buff m peers) =
      heard y (((peers.entries.map Sigma.snd).filter (p.Hears sid pid)).map
        (Event.deliverApp · buff)) := by
  simp [appEvents]

theorem onReceivedAppData_heard (sid : String) (hok : PodOk p)
    (hp : p.fatal = false) (r : RoomRef) :
    heard y (newEvents p (p.onReceivedAppData r sid pid buff)) =
      if y ∈ (p.members r).filter (p.Hears sid pid) then [(.app, buff)]
      else [] := by
  have hsess : ∀ s, Logs p (Pod.broadcastAppData s sid pid buff)
      (appEvents p sid pid buff (.pubs s) (p.sess s).publishers ++
        appEvents p sid pid buff (.subs s) (p.sess s).subscribers) := fun s =>
    (section_logs hp (.pubs s) s Session.publishers).comp
      (section_logs hp (.subs s) s Session.subscribers)
  have hloop : Logs p (fun q => (q.room r).sessions.entries.foldl
      (fun p e => p.broadcastAppData e.2 sid pid buff) q) _ := fun l =>
    Logs.foldl (l := (p.room r).sessions.entries) (fun e _ => hsess e.2) l
  have hlogs : Logs p (Pod.onReceivedAppData r sid pid buff) _ :=
    ((Logs.emit hp (.sync (.rlock (.sessions r)))).comp hloop).comp
      (Logs.emit hp (.sync (.runlock (.sessions r))))
  have hone := heard_map (d := (Event.deliverApp · buff)) (y := y)
    (fun _ => rfl) ((members_nodup hok r).filter (p.Hears sid pid))
  rw [← hone, hlogs.newEvents, Pod.members, List.filter_flatMap,
    List.map_flatMap]
  simp only [List.cons_append, List.nil_append, heard_sync, heard_append,
    heard_nil, List.append_nil]
  rw [heard, heard, List.filterMap_flatMap, List.filterMap_flatMap]
  congr 1
  funext e
  have hsplit := heard_append y
    (appEvents p sid pid buff (.pubs e.2) (p.sess e.2).publishers)
    (appEvents p sid pid buff (.subs e.2) (p.sess e.2).subscribers)
  rw [heard_appEvents, heard_appEvents, ← heard_append, ← List.map_append,
    ← List.filter_append] at hsplit
  exact hsplit

/-- An input with which no packet arrives hands out none. -/
theorem heard_of_not_delivers (hr : Pod.Reachable conf p)
    (hs : Pod.step a p = some q) (hd : a.2.delivers = false) :
    heard y (newEvents p q) = [] := by
  refine List.filterMap_eq_nil_iff.mpr fun e he => ?_
  have hno : ¬(p.scope a).delivers := by
    intro h
    exact Bool.false_ne_true (hd.symm.trans h)
  rcases step_events hr hs he with hin | ⟨op, rfl⟩
  · cases e with
    | deliverAudio x buff => exact absurd hin hno
    | deliverVideo x buff => exact absurd hin hno
    | deliverApp x buff => exact absurd hin hno
    | _ => rfl
  · rfl

/-- What a peer is handed in a step is what arrives, if it is among those that
are to have it, and nothing otherwise. -/
theorem step_heard (hr : Pod.Reachable conf p) (hs : Pod.step a p = some q) :
    heard y (newEvents p q) = (p.handing y a.2).toList := by
  have hok := reachable_podOk hr
  have hf := step_fatal hs
  have hone : ∀ {c : Prop} [Decidable c] {k : Packet},
      (if c then [k] else []) = (if c then some k else none).toList := by
    intro c _ k
    split
    · rfl
    · rfl
  rw [Pod.step, if_neg (by simp [hf])] at hs
  cases ha : a.2 with
  | audio x buff =>
      rw [ha] at hs
      cases hs
      rw [audio_newEvents hf, heard_sync, heard_append, heard_sync, heard_nil,
        List.append_nil]
      exact (heard_map (fun _ => rfl)
        (recipients_nodup hok.placed _ _)).trans hone
  | video x buff =>
      rw [ha] at hs
      cases hs
      rw [video_newEvents hf, heard_sync, heard_append, heard_sync, heard_nil,
        List.append_nil]
      exact (heard_map (fun _ => rfl)
        (recipients_nodup hok.placed _ _)).trans hone
  | appData x buff =>
      rw [ha] at hs
      cases hs
      exact (onReceivedAppData_heard _ hok hf _).trans hone
  | _ =>
      have hs : Pod.step a p = some q := by
        rw [Pod.step, if_neg (by simp [hf])]
        exact hs
      exact heard_of_not_delivers hr hs (by rw [ha]; rfl)

theorem handing_of_not_mapped (hy : ¬Mapped p y) (i : Input) :
    p.handing y i = none := by
  have hmem : ∀ x k, y ∉ p.hearers x k := by
    intro x k hin
    cases k with
    | audio | video =>
        obtain ⟨k, hk, -⟩ := mem_recipients.mp hin
        exact hy ⟨_, _, k, hk⟩
    | app =>
        obtain ⟨u, s, -, role, k, hk⟩ :=
          mem_members.mp (List.mem_filter.mp hin).1
        exact hy ⟨role, s, k, hk⟩
  simp [Pod.handing, hmem]

/-! ## One that stays -/

/-- Peer `y` is for what arrives at `x`: it was created in the session of `x`
as a subscriber and its key contains the peer id of `x`, or, for application
data, it is in the room of `x` and was not created under the same names. -/
def Pod.Takes (p : Pod) (x y : PeerRef) : Media → Prop
  | .audio | .video =>
      (p.peer y).role = .subscriber ∧ (p.peer y).parent = (p.peer x).parent ∧
        (p.peer x).peerid.toList <:+: (p.peer y).key.toList
  | .app =>
      (p.sess (p.peer y).parent).parent = (p.sess (p.peer x).parent).parent ∧
        p.Hears (p.peer x).userid (p.peer x).peerid y

instance (p : Pod) (x y : PeerRef) (k : Media) : Decidable (p.Takes x y k) := by
  cases k
  · exact inferInstanceAs (Decidable (_ ∧ _ ∧ _))
  · exact inferInstanceAs (Decidable (_ ∧ _ ∧ _))
  · exact inferInstanceAs (Decidable (_ ∧ _))

/-- What peer `y` should have of an input, by the names alone. -/
def Pod.meant (p : Pod) (y : PeerRef) (i : Input) : Option Packet :=
  i.arrival?.bind fun h => if p.Takes h.1 y h.2.1 then some h.2 else none

theorem mem_recipients_iff (hok : PodOk p) (hy : Mapped p y) :
    y ∈ recipients p s pid ↔ (p.peer y).role = .subscriber ∧
      (p.peer y).parent = s ∧ pid.toList <:+: (p.peer y).key.toList := by
  rw [mem_recipients]
  constructor
  · rintro ⟨k, hk, hin⟩
    obtain ⟨-, -, hrole, hpar, hkey⟩ := hok.placed .subscriber s k y hk
    exact ⟨hrole, hpar, by rwa [hkey]⟩
  · rintro ⟨hrole, hpar, hin⟩
    have hself := hok.placed.self hy
    rw [hrole, hpar] at hself
    exact ⟨_, hself, hin⟩

theorem mem_members_iff (hok : PodOk p) (hy : Mapped p y) (r : RoomRef) :
    y ∈ p.members r ↔ (p.sess (p.peer y).parent).parent = r := by
  constructor
  · exact room_of_member hok
  · rintro rfl
    have hself := hok.placed.self hy
    exact mem_members.mpr ⟨_, _, Homed.seat hok hself, _, _, hself⟩

/-- For a peer that is in its map, the names say who is to have what. -/
theorem handing_eq_meant (hok : PodOk p) (hy : Mapped p y) (i : Input) :
    p.handing y i = p.meant y i := by
  have hmem : ∀ x k, y ∈ p.hearers x k ↔ p.Takes x y k := by
    intro x k
    cases k with
    | audio => exact mem_recipients_iff hok hy
    | video => exact mem_recipients_iff hok hy
    | app =>
        rw [Pod.hearers, List.mem_filter, mem_members_iff hok hy,
          decide_eq_true_eq]
        rfl
  simp only [Pod.handing, Pod.meant, hmem]

/-- The names stay. -/
theorem After.takes (h : After p q) (hroot : Rooted p) (k : Media)
    (hx : x < p.peerHeap.next) (hy : y < p.peerHeap.next) :
    q.Takes x y k ↔ p.Takes x y k := by
  obtain ⟨hux, -, hpx, -, -, hsx, -⟩ := Peer.ident_eq (h.peer x hx)
  obtain ⟨huy, -, hpy, hry, -, hsy, -⟩ := Peer.ident_eq (h.peer y hy)
  have hky := Peer.key_eq (h.peer y hy)
  have hroom : ∀ {z}, z < p.peerHeap.next →
      (q.sess (p.peer z).parent).parent = (p.sess (p.peer z).parent).parent :=
    fun hz => congrArg (·.2.2.2.2.2) (h.sess _ (hroot.peer _ hz))
  cases k with
  | audio | video => simp only [Pod.Takes, hry, hsy, hsx, hpx, hky]
  | app =>
      simp only [Pod.Takes, Pod.Hears, hsy, hsx, hroom hx, hroom hy, huy, hpy,
        hux, hpx]

theorem After.meant (h : After p q) (hroot : Rooted p)
    (hy : y < p.peerHeap.next) {i : Input}
    (hi : i.arrival?.all (fun h => h.1 < p.peerHeap.next) = true) :
    q.meant y i = p.meant y i := by
  unfold Pod.meant
  cases ha : i.arrival? with
  | none => rfl
  | some c =>
      rw [ha, Option.all_some, decide_eq_true_eq] at hi
      simp only [Option.bind_some, h.takes hroot c.2.1 hi hy]

/-- What is destroyed stays destroyed. -/
theorem step_closed_le (hp : InOrder p) (hs : Pod.step a p = some q)
    (hx : x < p.peerHeap.next) : (p.peer x).closed ≤ (q.peer x).closed := by
  refine (step_induction (P := fun t => (p.peer x).closed ≤ (t.peer x).closed)
    hp hs (Nat.le_refl _) ?_).1
  intro b t t' _ hsound hafter _ hmove hle
  refine Nat.le_trans hle ?_
  rw [hmove.closed hsound.toPodOk x]
  cases b with
  | adds s z =>
      have hne : x ≠ t.peerHeap.next :=
        Nat.ne_of_lt (Nat.lt_of_lt_of_le hx hafter.peerNext)
      rw [Act.peer, if_neg hne]
  | destroys s z =>
      rw [Act.peer]
      split
      · exact Nat.le_succ _
      · exact Nat.le_refl _
  | flags z st =>
      unfold Act.peer
      dsimp only
      split
      · cases st <;> exact Nat.le_refl _
      · exact Nat.le_refl _
  | withdraws | offers | accepts | announces =>
      rw [Act.peer]
      split
      · exact Nat.le_refl _
      · exact Nat.le_refl _
  | _ => exact Nat.le_refl _

/-- A peer that is in a map was there ever since it was created. -/
theorem step_mapped_back (hp : InOrder p) (hs : Pod.step a p = some q)
    (hx : x < p.peerHeap.next) (hq : Mapped q x) : Mapped p x := by
  by_contra hno
  have hgone := hp.lives.gone x hx hno
  have hopen := (step_inOrder hp hs).lives.mapped x hq
  have hle := step_closed_le hp hs hx
  omega

/-! ## Runs -/

variable {as : List (Env × Input)}

/-- What arrives, if anything, arrives at a peer that has been created. -/
def sourced (p : Pod) (a : Env × Input) : Bool :=
  a.2.arrival?.all fun h => h.1 < p.peerHeap.next

theorem reachable_rooted (hr : Pod.Reachable conf p) : Rooted p := by
  obtain ⟨as, hrun⟩ := hr
  exact (run_invariant (P := fun t => InOrder t ∧ Rooted t)
    (fun _ _ _ ht _ hs => ⟨step_inOrder ht.1 hs, step_rooted ht.1 ht.2 hs⟩)
    (guarded_true as _)
    ⟨createRoomMgr_inOrder conf, createRoomMgr_rooted conf⟩ hrun).2

theorem run_after (hr : Pod.Reachable conf p)
    (hrun : run Pod.step as p = some q) : After p q := by
  induction as generalizing p with
  | nil =>
      cases hrun
      exact .refl _
  | cons a as ih =>
      obtain ⟨t, ht, hrest⟩ := run_cons hrun
      exact (step_after (reachable_inOrder hr) ht).trans (ih (hr.step ht) hrest)

theorem run_mapped_back (hr : Pod.Reachable conf p)
    (hrun : run Pod.step as p = some q) (hx : x < p.peerHeap.next)
    (hq : Mapped q x) : Mapped p x := by
  induction as generalizing p with
  | nil =>
      cases hrun
      exact hq
  | cons a as ih =>
      obtain ⟨t, ht, hrest⟩ := run_cons hrun
      have hp := reachable_inOrder hr
      have hlt := Nat.lt_of_lt_of_le hx (step_after hp ht).peerNext
      exact step_mapped_back hp ht hx (ih (hr.step ht) hrest hlt)

/-- Over a run, step by step. The names are read in the last state, so that
all steps are measured by the same. -/
theorem run_heard (hr : Pod.Reachable conf p)
    (hrun : run Pod.step as p = some q)
    (hsrc : Guarded Pod.step (sourced · ·) as p)
    (hy : y < p.peerHeap.next) (hq : Mapped q y) :
    ∃ tr, q.log = p.log ++ tr ∧
      heard y tr = as.filterMap fun a => q.meant y a.2 := by
  induction as generalizing p with
  | nil =>
      cases hrun
      exact ⟨[], (List.append_nil _).symm, rfl⟩
  | cons a as ih =>
      have hafter := run_after hr hrun
      have hmapped := run_mapped_back hr hrun hy hq
      obtain ⟨t, ht, hrest⟩ := run_cons hrun
      obtain ⟨hsrc, hsrcs⟩ := hsrc
      have hlt := Nat.lt_of_lt_of_le hy
        (step_after (reachable_inOrder hr) ht).peerNext
      obtain ⟨tr, hlog, -⟩ := (step_outcome hr ht).log
      rw [Pod.found_log] at hlog
      obtain ⟨tr', hlog', hrest⟩ := ih (hr.step ht) hrest (hsrcs t ht) hlt
      have hstep : heard y tr = (q.meant y a.2).toList := by
        rw [← newEvents_of_append hlog, step_heard hr ht,
          handing_eq_meant (reachable_podOk hr) hmapped,
          hafter.meant (reachable_rooted hr) hy hsrc]
      refine ⟨tr ++ tr', by rw [hlog', hlog, List.append_assoc], ?_⟩
      rw [heard_append, hstep, hrest, List.filterMap_cons]
      cases q.meant y a.2 with
      | none => rfl
      | some k => rfl

/-- A connection that stays misses nothing and is handed nothing twice. From
any state a pod can reach, and for any peer created by then that is still in
its map when the run ends, what the peer was handed is what arrived for it: the
packets of the tracks whose peer id is in its key, and the application data of
the others in its room, in the order of arrival. -/
theorem connected_peer_misses_nothing (hr : Pod.Reachable conf p)
    (hrun : run Pod.step as p = some q)
    (hsrc : Guarded Pod.step (sourced · ·) as p)
    (hy : y < p.peerHeap.next) (hq : Mapped q y) :
    heard y (newEvents p q) = as.filterMap fun a => q.meant y a.2 := by
  obtain ⟨tr, hlog, htr⟩ := run_heard hr hrun hsrc hy hq
  rw [newEvents_of_append hlog, htr]

/-- User `u` has a stream, and `w` takes it. -/
def oneViewer : List (Env × Input) :=
  [(Env.calm, .setSendMessageHandler),
    (Env.calm, .message (Cmd.login.msg [(.roomId, "R"), (.sessID, "u")])),
    (Env.calm, .message (Cmd.push.msg
      [(.roomId, "R"), (.sessID, "u"), (.peerID, "1")])),
    (Env.calm, .message (Cmd.offer.msg
      [(.roomId, "R"), (.sessID, "u"), (.peerID, "1")])),
    (Env.calm, .message (Cmd.sub.msg [(.roomId, "R"), (.sessID, "w"),
      (.srcSessID, "u"), (.peerID, "1")]))]

/-- Packets arrive while another user comes, publishes and takes the stream
as well. -/
def whileWatched : List (Env × Input) :=
  [(Env.calm, .audio 0 [1]),
    (Env.calm, .message (Cmd.login.msg [(.roomId, "R"), (.sessID, "v")])),
    (Env.calm, .video 0 [2]),
    (Env.calm, .message (Cmd.push.msg
      [(.roomId, "R"), (.sessID, "v"), (.peerID, "2")])),
    (Env.calm, .audio 2 [3]),
    (Env.calm, .message (Cmd.sub.msg [(.roomId, "R"), (.sessID, "v"),
      (.srcSessID, "u"), (.peerID, "1")])),
    (Env.calm, .appData 2 [4]),
    (Env.calm, .video 0 [5])]

/-- The viewer is handed the stream and the data of the other user, but not
the other stream. -/
theorem whileWatched_heard :
    ∃ p q, Pod.Reachable (.standalone "podA") p ∧
      run Pod.step whileWatched p = some q ∧
      heard 1 (newEvents p q) =
        [(.audio, [1]), (.video, [2]), (.app, [4]), (.video, [5])] := by
  have h : (run Pod.step oneViewer
      (Pod.createRoomMgr (.standalone "podA"))).map (fun p =>
        (p.peerHeap.next,
          decide (Guarded Pod.step (sourced · ·) whileWatched p))) =
      some (2, true) := by decide
  have h' : (run Pod.step (oneViewer ++ whileWatched)
      (Pod.createRoomMgr (.standalone "podA"))).map (fun q =>
        ((q.sess 0).subscribers.lookup "wu1",
          whileWatched.filterMap fun a => q.meant 1 a.2)) =
      some (some 1,
        [(.audio, [1]), (.video, [2]), (.app, [4]), (.video, [5])]) := by
    decide
  obtain ⟨p, hp, hfacts⟩ := Option.map_eq_some_iff.mp h
  obtain ⟨q, hq, hfacts'⟩ := Option.map_eq_some_iff.mp h'
  simp only [Prod.mk.injEq, decide_eq_true_eq] at hfacts hfacts'
  rw [run_append, hp] at hq
  have hr : Pod.Reachable (.standalone "podA") p := ⟨oneViewer, hp⟩
  refine ⟨p, q, hr, hq, ?_⟩
  rw [connected_peer_misses_nothing hr hq hfacts.2 (by rw [hfacts.1]; decide)
    ⟨.subscriber, 0, "wu1", hfacts'.1⟩]
  exact hfacts'.2

/-- Once destroyed, a connection is handed nothing any more, whatever arrives
and whoever comes back under its names. -/
theorem destroyed_peer_hears_nothing (hr : Pod.Reachable conf p)
    (hrun : run Pod.step as p = some q) (hy : y < p.peerHeap.next)
    (hgone : 0 < (p.peer y).closed) : heard y (newEvents p q) = [] := by
  suffices h : ∃ tr, q.log = p.log ++ tr ∧ heard y tr = [] by
    obtain ⟨tr, hlog, htr⟩ := h
    rw [newEvents_of_append hlog, htr]
  induction as generalizing p with
  | nil =>
      cases hrun
      exact ⟨[], (List.append_nil _).symm, rfl⟩
  | cons a as ih =>
      obtain ⟨t, ht, hrest⟩ := run_cons hrun
      have hp := reachable_inOrder hr
      have hno : ¬Mapped p y := by
        intro hm
        rw [hp.lives.mapped y hm] at hgone
        exact Nat.lt_irrefl 0 hgone
      obtain ⟨tr, hlog, -⟩ := (step_outcome hr ht).log
      rw [Pod.found_log] at hlog
      obtain ⟨tr', hlog', hrest⟩ := ih (hr.step ht) hrest
        (Nat.lt_of_lt_of_le hy (step_after hp ht).peerNext)
        (Nat.lt_of_lt_of_le hgone (step_closed_le hp ht hy))
      refine ⟨tr ++ tr', by rw [hlog', hlog, List.append_assoc], ?_⟩
      rw [heard_append, hrest, ← newEvents_of_append hlog, step_heard hr ht,
        handing_of_not_mapped hno]
      rfl

/-- The viewer stops, and takes the stream again under the same key. -/
def comesBack : List (Env × Input) :=
  [(Env.calm, .message (Cmd.sub.msg [(.roomId, "R"), (.sessID, "w"),
      (.srcSessID, "u"), (.peerID, "1")])),
    (Env.calm, .audio 0 [1])]

/-- It is the new connection that gets the packet. -/
theorem comesBack_heard :
    ∃ p q, Pod.Reachable (.standalone "podA") p ∧
      run Pod.step comesBack p = some q ∧ heard 1 (newEvents p q) = [] ∧
      heard 2 (newEvents p q) = [(.audio, [1])] := by
  have h : (run Pod.step (oneViewer ++
      [(Env.calm, .message (Cmd.stopSub.msg [(.roomId, "R"), (.sessID, "w"),
        (.srcSessID, "u"), (.peerID, "1")])), (Env.calm, .go 0)])
      (Pod.createRoomMgr (.standalone "podA"))).map (fun p =>
        (decide (p.peerHeap.next = 2 ∧ (p.peer 1).closed = 1),
          (run Pod.step comesBack p).map fun q => heard 2 (newEvents p q))) =
      some (true, some [(.audio, [1])]) := by decide
  obtain ⟨p, hp, hfacts⟩ := Option.map_eq_some_iff.mp h
  simp only [Prod.mk.injEq, decide_eq_true_eq] at hfacts
  obtain ⟨⟨hnext, hclosed⟩, hrest⟩ := hfacts
  obtain ⟨q, hq, hheard⟩ := Option.map_eq_some_iff.mp hrest
  have hr : Pod.Reachable (.standalone "podA") p := ⟨_, hp⟩
  exact ⟨p, q, hr, hq, destroyed_peer_hears_nothing hr hq
    (by rw [hnext]; decide) (by rw [hclosed]; decide), hheard⟩

end MediaServer.Ref
