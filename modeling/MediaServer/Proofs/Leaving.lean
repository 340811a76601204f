import MediaServer.Proofs.Departures

/-!
# What a user leaves behind

The subscriptions of a user are peers in the sessions of those whose streams
they watch. `KickoutFromRoom` has every session of the room look for them, in
goroutines of their own; a login or a `fakepublish` that replaces the user's
session does not. And a session looks only under the streams it publishes at
that moment.

To say "after the session ended and before the user subscribes again", a run
carries a record of the users who left. The property is that no session of the
room keeps a subscriber of such a user once its own goroutine has run. It
holds as long as nobody is replaced who still has a subscription in the room,
and a session that looks finds the streams of its subscribers.
-/

namespace MediaServer.Ref

open MediaServer.Lib

variable {p q : Pod} {s : SessRef} {r : RoomRef} {rid u v k : String}
variable {env : Env} {y : PeerRef} {a : Env × Input}

/-- The session holds a subscriber of the user. -/
def Pod.holds (p : Pod) (s : SessRef) (u : String) : Bool :=
  (p.sess s).subscribers.entries.any fun e => (p.peer e.2).userid = u

/-- Some session of the room does. -/
def Pod.subscribed (p : Pod) (rid u : String) : Bool :=
  match p.rooms.lookup rid with
  | some r => (p.room r).sessions.entries.any fun e => p.holds e.2 u
  | none => false

theorem holds_iff : p.holds s u = true ↔
    ∃ k y, p.entry .subscriber s k = some y ∧ (p.peer y).userid = u := by
  simp only [Pod.holds, List.any_eq_true, decide_eq_true_eq]
  constructor
  · rintro ⟨⟨k, y⟩, hmem, hu⟩
    exact ⟨k, y, GoMap.mem_entries.mp hmem, hu⟩
  · rintro ⟨k, y, hy, hu⟩
    exact ⟨⟨k, y⟩, GoMap.mem_entries.mpr hy, hu⟩

/-! ## The record of those who left -/

/-- A pod, with the users (by room and name) whose origin session has ended
and who have not subscribed since. -/
structure Watch where
  pod : Pod
  left : List (String × String)

/-- The users whose origin session ended between two states. -/
def ended (p q : Pod) : List (String × String) :=
  p.rooms.entries.flatMap fun e =>
    ((p.room e.2).sessions.entries.filter fun f =>
      (p.sess f.2).origin && q.seat e.1 f.1 != some f.2).map fun f =>
        (e.1, f.1)

/-- The input is a `sub`, or a `fakesubscribe`, under this name. -/
def Input.subsAs (a : Input) (e : String × String) : Bool :=
  match a.msg? with
  | some m => (command m = some .sub ∨ command m = some .fakeSubscribe) ∧
      getValue m .roomId = e.1 ∧ subscriberId m = e.2
  | none => false

namespace Watch

def init (conf : Config) : Watch := ⟨Pod.createRoomMgr conf, []⟩

def step (a : Env × Input) (w : Watch) : Option Watch :=
  (Pod.step a w.pod).map fun q =>
    ⟨q, (w.left ++ ended w.pod q).filter fun e => !a.2.subsAs e⟩

/-- No session of the room, once its own goroutine has run, holds a
subscriber of a user who left. -/
def Clean (w : Watch) : Prop :=
  ∀ rid u, (rid, u) ∈ w.left → ∀ v s, w.pod.seat rid v = some s →
    .handleSubscriberLeaved s u ∉ w.pod.pending →
    ∀ k y, (w.pod.sess s).subscribers.lookup k = some y →
      (w.pod.peer y).userid ≠ u

end Watch

/-- The message replaces or removes the session of a user who is logged in
here, without a word to the other sessions. -/
def Pod.takesOut (p : Pod) (m : JsonParser) : Bool :=
  p.handsOn m && match p.seat (getValue m .roomId) (getValue m .sessID) with
  | some s => (p.sess s).origin && (command m = some .login ||
      command m = some .fakePublish ||
      command m = some .fakeUnpublish && (p.sess s).podid = getValue m .podId)
  | none => false

/-- The session and the user of a spawned `HandleSubscriberLeaved`. -/
def Goroutine.leaved : Goroutine → Option (SessRef × String)
  | .handleSubscriberLeaved s u => some (s, u)
  | _ => none

/-- A user whose session is replaced has no subscription in the room, and a
session that looks for the subscribers of a user publishes their streams. -/
def Tidy (w : Watch) (a : Env × Input) : Prop :=
  (∀ m ∈ a.2.msg?, w.pod.takesOut m = true →
    w.pod.subscribed (getValue m .roomId) (getValue m .sessID) = false) ∧
  ∀ g ∈ a.2.call? w.pod, ∀ e ∈ g.leaved,
    ∀ f ∈ (w.pod.sess e.1).subscribers.entries,
      (w.pod.peer f.2).userid = e.2 →
      (w.pod.sess e.1).publishers.lookup (w.pod.peer f.2).peerid ≠ none

instance (w : Watch) (a : Env × Input) : Decidable (Tidy w a) :=
  inferInstanceAs (Decidable (_ ∧ _))

theorem mem_ended : (rid, u) ∈ ended p q ↔
    ∃ s, p.seat rid u = some s ∧ (p.sess s).origin = true ∧
      q.seat rid u ≠ some s := by
  simp only [ended, List.mem_flatMap, List.mem_map, List.mem_filter,
    Bool.and_eq_true, bne_iff_ne]
  constructor
  · rintro ⟨⟨rid', r⟩, hr, ⟨⟨u', s⟩, ⟨hs, ho, hne⟩, heq⟩⟩
    cases heq
    exact ⟨s, seat_eq_some.mpr ⟨r, GoMap.mem_entries.mp hr,
      GoMap.mem_entries.mp hs⟩, ho, hne⟩
  · rintro ⟨s, hs, ho, hne⟩
    obtain ⟨r, hr, hlook⟩ := seat_eq_some.mp hs
    exact ⟨⟨rid, r⟩, GoMap.mem_entries.mpr hr, ⟨u, s⟩,
      ⟨GoMap.mem_entries.mpr hlook, ho, hne⟩, rfl⟩

/-! ## Who gets a new subscriber -/

/-- A session comes to hold a subscriber of the user only by a message that
subscribes under this name and is handed to it. -/
theorem step_holds (hp : InOrder p) (hs : Pod.step a p = some q)
    (hq : q.holds s u = true) :
    p.holds s u = true ∨ ∃ m, a.2 = .message m ∧
      (command m = some .sub ∨ command m = some .fakeSubscribe) ∧
      subscriberId m = u ∧
      p.seat (getValue m .roomId) (route m) = some s := by
  obtain ⟨k, y, hy, hu⟩ := holds_iff.mp hq
  rcases step_subscriber hp hs hy with hold | ⟨m, hm, hcmd, -, hto, -, hid⟩
  · refine .inl (holds_iff.mpr ⟨k, y, hold, ?_⟩)
    rw [← hu]
    exact (Peer.ident_eq ((step_after hp hs).peer y
      (hp.placed _ _ _ _ hold).1)).1.symm
  · exact .inr ⟨m, hm, hcmd, hid.symm.trans hu, hto⟩

/-- A session that holds a subscriber after the step, in whatever room it
then is, was there before. -/
theorem step_holds_seat (hp : InOrder p) (hs : Pod.step a p = some q)
    (hq : q.seat rid v = some s) (hold : p.holds s u = true) :
    ∃ w, p.seat rid w = some s := by
  obtain ⟨k, y, hy, -⟩ := holds_iff.mp hold
  have hseat := hp.toSound.seat_of_entry hy
  rw [step_seat_room hp hs hseat hq] at hseat
  exact ⟨_, hseat⟩

/-! ## The search for the subscribers of a user -/

theorem Removes.entry_none {X : Set PeerRef} {role : Role} (h : Removes X p q)
    (hk : p.entry role s k = none) : q.entry role s k = none := by
  refine Option.eq_none_iff_forall_ne_some.mpr fun x hx => ?_
  rw [((h.entry role s k x).mp hx).1] at hk
  cases hk

/-- One turn of the loop: the key is free afterwards. -/
theorem leavedSub_removes (pid : String) (hp : Placed p) :
    ∃ X q, (match (p.sess s).subscribers.lookup
          (subKey u (p.sess s).userid pid) with
        | some y => p.dropSubscriber s y (subKey u (p.sess s).userid pid)
        | none => p) = q ∧ Removes X p q ∧
      q.entry .subscriber s (subKey u (p.sess s).userid pid) = none := by
  cases hy : (p.sess s).subscribers.lookup (subKey u (p.sess s).userid pid) with
  | none => exact ⟨∅, p, rfl, (Asks.refl p).removes, hy⟩
  | some y =>
      have hrem := Pod.dropSubscriber_removes (x := y) hp hy
      refine ⟨{y}, _, rfl, hrem, Option.eq_none_iff_forall_ne_some.mpr
        fun x hx => ?_⟩
      obtain ⟨hold, hne⟩ := (hrem.entry _ _ _ _).mp hx
      exact hne (Option.some.inj (hold.symm.trans hy))

/-- The loop frees the key of every stream it was given. -/
theorem leavedSubs_fold (lst : List String) (hp : Placed p) :
    ∃ X q, lst.foldl (fun p pid =>
        match (p.sess s).subscribers.lookup
          (subKey u (p.sess s).userid pid) with
        | some y => p.dropSubscriber s y (subKey u (p.sess s).userid pid)
        | none => p) p = q ∧ Removes X p q ∧
      ∀ pid ∈ lst,
        q.entry .subscriber s (subKey u (p.sess s).userid pid) = none := by
  induction lst generalizing p with
  | nil => exact ⟨∅, p, rfl, (Asks.refl p).removes, fun _ h => by cases h⟩
  | cons pid lst ih =>
      obtain ⟨X, p₁, heq, hX, hfree⟩ := leavedSub_removes (s := s) (u := u)
        pid hp
      obtain ⟨Y, q, hq, hY, hrest⟩ := ih (hp.of_removes hX)
      refine ⟨X ∪ Y, q, ?_, hX.trans hY, fun pid' hpid => ?_⟩
      · rw [List.foldl_cons, heq]
        exact hq
      · rcases List.mem_cons.mp hpid with rfl | hpid
        · exact hY.entry_none hfree
        · rw [← hX.userid s]
          exact hrest pid' hpid

/-- `HandleSubscriberLeaved` leaves no subscriber of the user whose stream the
session publishes. -/
theorem handleSubscriberLeaved_holds (hp : Sound p)
    (hpub : ∀ k y, p.entry .subscriber s k = some y → (p.peer y).userid = u →
      p.entry .publisher s (p.peer y).peerid ≠ none) :
    (p.handleSubscriberLeaved s u).holds s u = false := by
  refine Bool.eq_false_iff.mpr fun hq => ?_
  obtain ⟨k, y, hy, hu⟩ := holds_iff.mp hq
  have hlock : Quiet p
      (((p.rlock (.pubs s)).runlock (.pubs s)).lock (.subs s)) :=
    ((p.emit_quiet _).trans (Pod.emit_quiet _ _)).trans (Pod.emit_quiet _ _)
  obtain ⟨X, t, ht, hX, hfree⟩ := leavedSubs_fold (s := s) (u := u)
    (p.publisherIds s) (hp.placed.of_quiet hlock)
  have hend : Quiet t (p.handleSubscriberLeaved s u) := by
    rw [← ht]
    exact Pod.emit_quiet _ _
  have hrem := (hlock.trans_removes hX).trans_quiet hend
  have hold := ((hrem.entry _ _ _ _).mp hy).1
  obtain ⟨hu', -, -⟩ := Peer.ident_eq (hrem.peerIdent y)
  rw [hu'] at hu
  obtain ⟨-, -, hrole, -, hkey⟩ := hp.placed _ _ _ _ hold
  have hown : (p.peer y).remoteuserid = (p.sess s).userid := by
    have h := hp.owned _ _ _ _ hold
    simpa only [Owned, Peer.owner, hrole] using h
  obtain ⟨x, hx⟩ := Option.ne_none_iff_exists'.mp (hpub k y hold hu)
  obtain ⟨-, -, hxrole, -, hxkey⟩ := hp.placed _ _ _ _ hx
  have hmem : (p.peer y).peerid ∈ p.publisherIds s := by
    refine List.mem_map.mpr ⟨⟨_, x⟩, GoMap.mem_entries.mpr hx, ?_⟩
    rw [← hxkey, Peer.key_publisher hxrole]
  have hgone := hfree _ hmem
  rw [hlock.userid, ← hown, ← hu, ← Peer.key_subscriber hrole, hkey,
    ← hend.entry, hy] at hgone
  cases hgone

/-! ## The kick -/

theorem foldl_go_pending {α : Type} (f : α → Goroutine) (l : List α)
    (p : Pod) : (l.foldl (fun p e => p.go (f e)) p).pending =
      p.pending ++ l.map f := by
  induction l generalizing p with
  | nil => simp
  | cons e l ih => rw [List.foldl_cons, ih]; simp [Pod.go]

/-- Every session that a kick leaves in the room is told to look for the
subscribers of the user. -/
theorem kickoutFromRoom_spreads
    (hs : ((p.kickoutFromRoom env r u).room r).sessions.lookup v = some s) :
    .handleSubscriberLeaved s u ∈ (p.kickoutFromRoom env r u).pending := by
  have hspread := Pod.spreadLeaved_quiet r u (p.kickSession env r u)
  have hrel := Pod.releaseIfEmpty_quiet r
    ((p.kickSession env r u).spreadLeaved r u)
  have hkick : p.kickoutFromRoom env r u =
    ((p.kickSession env r u).spreadLeaved r u).releaseIfEmpty r := rfl
  rw [hkick, hrel.room, hspread.room] at hs
  rw [hkick]
  refine hrel.toSameStore.pending.subset ?_
  unfold Pod.spreadLeaved
  dsimp only
  rw [Pod.runlock, Pod.emit_pending,
    foldl_go_pending (fun e : (_ : String) × SessRef =>
      .handleSubscriberLeaved e.2 u), Pod.rlock,
    Pod.emit_room]
  exact List.mem_append_right _
    (List.mem_map.mpr ⟨⟨v, s⟩, GoMap.mem_entries.mpr hs, rfl⟩)

theorem releaseRoom_lookup (rid : String) (p : Pod) :
    (p.releaseRoom rid).rooms.lookup rid = none := by
  unfold Pod.releaseRoom
  dsimp only
  rw [Pod.unlock, Pod.emit_rooms]
  split
  · next r _ =>
      change (((p.lock .rooms).destroyRoom r).rooms.erase rid).lookup rid = _
      rw [GoMap.lookup_erase_eq, if_pos rfl]
  · next h => exact h

/-- A released room has no seats. -/
theorem step_released {i : Nat} (hs : Pod.step a p = some q)
    (hi : a.2 = .go i) (hg : p.pending[i]? = some (.releaseRoom rid)) :
    q.rooms.lookup rid = none := by
  rw [step_go hs hi hg]
  exact releaseRoom_lookup rid _

theorem step_closes (hs : Pod.step a p = some q)
    (hc : Foot p a.1 a.2 (.closes rid)) : q.seat rid v = none := by
  obtain ⟨i, hi, hg⟩ := hc
  rw [Pod.seat, step_released hs hi hg]
  rfl

/-! ## Runs -/

/-- The users whose origin session ended left by a kick, with their room, or
by a message that replaces or removes their session. -/
theorem ended_cases (hp : InOrder p) (hs : Pod.step a p = some q)
    (he : (rid, u) ∈ ended p q) :
    (∃ r, p.rooms.lookup rid = some r ∧ Kicks p a.2 r u) ∨
    (∀ v, q.seat rid v = none) ∨
    ∃ m ∈ a.2.msg?, p.takesOut m = true ∧ getValue m .roomId = rid ∧
      getValue m .sessID = u := by
  obtain ⟨s, hseat, ho, hne⟩ := mem_ended.mp he
  obtain ⟨r, hr, hlook⟩ := seat_eq_some.mp hseat
  by_contra hno
  obtain ⟨hkick, hclosed, htake⟩ : _ ∧ _ ∧ _ :=
    ⟨fun h => hno (.inl h), fun h => hno (.inr (.inl h)),
      fun h => hno (.inr (.inr h))⟩
  refine hne (seat_eq_some.mpr ⟨r, step_seat hp hs hr hlook ?_ ?_ ?_⟩)
  · rintro (hk | ⟨m, hm, hreach, rfl, hcmd⟩)
    · exact hkick ⟨r, hr, hk⟩
    · have hid := hreach.roomId_eq hp.toPodOk hr
      refine htake ⟨m, by rw [hm]; rfl, ?_, hid, rfl⟩
      simp only [Pod.takesOut, hreach.handsOn, hid, hseat, ho, Bool.true_and,
        Bool.or_eq_true, Bool.and_eq_true, decide_eq_true_eq]
      rcases hcmd with hc | hc | ⟨hc, s', hs', hpod⟩
      · exact .inl (.inl hc)
      · exact .inl (.inr hc)
      · rw [hlook] at hs'
        cases hs'
        exact .inr ⟨hc, hpod⟩
  · rintro ⟨i, rid', hi, hg, hr'⟩
    have hid : rid' = rid :=
      (hp.rooms rid' r hr').1.symm.trans (hp.rooms rid r hr).1
    subst hid
    exact hclosed fun v => step_closes hs ⟨i, hi, hg⟩
  · exact fun hc => hclosed fun v => step_closes hs hc

theorem subscribed_of_holds (hs : p.seat rid v = some s)
    (hold : p.holds s u = true) : p.subscribed rid u = true := by
  obtain ⟨r, hr, hlook⟩ := seat_eq_some.mp hs
  simp only [Pod.subscribed, hr, List.any_eq_true]
  exact ⟨⟨v, s⟩, GoMap.mem_entries.mpr hlook, hold⟩

/-- A session whose turn it is to look finds them all. -/
theorem step_sweeps {w : Watch} (hp : InOrder w.pod) (ha : Tidy w a)
    (hs : Pod.step a w.pod = some q)
    (hg : a.2.call? w.pod = some (.handleSubscriberLeaved s u)) :
    q.holds s u = false := by
  have hpub := ha.2 _ hg (s, u) rfl
  obtain ⟨i, hi, hg⟩ := Input.call?_eq_some hg
  rw [step_go hs hi hg]
  exact handleSubscriberLeaved_holds ⟨(Micro.take (G := fun _ => False)
    (I := fun _ _ => False) i).podOk hp.toPodOk, hp.owned, hp.registered⟩
    fun k y hy hu => hpub ⟨k, y⟩ (GoMap.mem_entries.mpr hy) hu

namespace Watch

variable {w w' : Watch}

theorem step_clean (hp : InOrder w.pod) (hclean : w.Clean) (ha : Tidy w a)
    (hs : Watch.step a w = some w') : w'.Clean := by
  obtain ⟨q, hq, rfl⟩ := Option.map_eq_some_iff.mp hs
  intro rid u hleft v s hseat hpend k y hy hu
  dsimp only at hleft hseat hpend hy hu
  obtain ⟨hleft, hsub⟩ := List.mem_filter.mp hleft
  have hnew : q.holds s u = true := holds_iff.mpr ⟨k, y, hy, hu⟩
  -- the input is no subscription, so the session held one before
  have hold : w.pod.holds s u = true := by
    refine (step_holds hp hq hnew).resolve_right ?_
    rintro ⟨m, hm, hcmd, hid, hto⟩
    have hrid := step_seat_room hp hq hto hseat
    simp [Input.subsAs, Input.msg?, hm, hcmd, hid, hrid] at hsub
  obtain ⟨v', hseat'⟩ := step_holds_seat hp hq hseat hold
  rcases List.mem_append.mp hleft with hleft | hended
  · by_cases hcall : a.2.call? w.pod = some (.handleSubscriberLeaved s u)
    · rw [step_sweeps hp ha hq hcall] at hnew
      cases hnew
    · obtain ⟨k', y', hy', hu'⟩ := holds_iff.mp hold
      exact hclean rid u hleft v' s hseat'
        (fun hg => hpend (step_pending hp hq hg hcall)) k' y' hy' hu'
  · rcases ended_cases hp hq hended with
      ⟨r, hr, hk⟩ | hclosed | ⟨m, hm, htake, rfl, rfl⟩
    · obtain ⟨l, rfl⟩ := step_kick hq hk
      obtain ⟨r', hr', hlook⟩ := seat_eq_some.mp hseat
      rw [(Pod.kickoutFromRoom_edits (p := { w.pod with pending := l })
        fun s hs => (hp.sessions r u s hs).1).rooms] at hr'
      cases hr'.symm.trans hr
      exact hpend (kickoutFromRoom_spreads hlook)
    · rw [hclosed v] at hseat
      cases hseat
    · have hno := ha.1 m hm htake
      rw [subscribed_of_holds hseat' hold] at hno
      cases hno

end Watch

/-- Whoever leaves a room leaves no subscriber there, as long as nobody is
replaced who still has one and the sessions publish what they search. -/
theorem leaving_cleans {conf : Config} {as : List (Env × Input)}
    (hg : Guarded Watch.step Tidy as (Watch.init conf)) :
    Always Watch.step Watch.Clean as (Watch.init conf) := by
  have h : Always Watch.step (fun w => InOrder w.pod ∧ w.Clean) as
      (Watch.init conf) := by
    refine always_of_guarded (fun a w w' hw ha hs => ?_) hg
      ⟨createRoomMgr_inOrder conf, fun _ _ h => by cases h⟩
    refine ⟨?_, Watch.step_clean hw.1 hw.2 ha hs⟩
    obtain ⟨q, hq, rfl⟩ := Option.map_eq_some_iff.mp hs
    exact step_inOrder hw.1 hq
  exact h.mono fun _ hw => hw.2

/-- A user watches a stream and logs in again. -/
def watchAndReturn : List (Env × Input) :=
  [(Env.calm, .setSendMessageHandler),
    (Env.calm, .message (Cmd.login.msg [(.roomId, "R"), (.sessID, "w")])),
    (Env.calm, .message (Cmd.login.msg [(.roomId, "R"), (.sessID, "u")])),
    (Env.calm, .message (Cmd.push.msg
      [(.roomId, "R"), (.sessID, "w"), (.peerID, "1")])),
    (Env.calm, .message (Cmd.offer.msg
      [(.roomId, "R"), (.sessID, "w"), (.peerID, "1")])),
    (Env.calm, .message (Cmd.sub.msg [(.roomId, "R"), (.sessID, "u"),
      (.srcSessID, "w"), (.peerID, "1")])),
    (Env.calm, .message (Cmd.login.msg [(.roomId, "R"), (.sessID, "u")]))]

/-- The subscriber of the replaced session stays, and nothing is pending that
would remove it. -/
theorem relogin_leaves_subscriber :
    ∃ w, run Watch.step watchAndReturn
        (Watch.init (Config.standalone "podA")) = some w ∧
      w.pod.pending = [] ∧ ¬w.Clean := by
  have h : (run Watch.step watchAndReturn
      (Watch.init (Config.standalone "podA"))).map (fun w =>
        decide (w.pod.pending = [] ∧ w.left = [("R", "u")] ∧
          w.pod.seat "R" "w" = some 0 ∧
          w.pod.entry .subscriber 0 (subKey "u" "w" "1") = some 1 ∧
          (w.pod.peer 1).userid = "u")) = some true := by decide
  obtain ⟨w, hw, hfacts⟩ := Option.map_eq_some_iff.mp h
  obtain ⟨hpend, hleft, hseat, hsub, hid⟩ := of_decide_eq_true hfacts
  refine ⟨w, hw, hpend, fun hclean => ?_⟩
  exact hclean "R" "u" (by rw [hleft]; exact List.mem_singleton_self _) "w" 0
    hseat (by rw [hpend]; exact List.not_mem_nil) _ 1 hsub hid

/-- The same user logs out instead, and the other session looks. -/
def watchAndLeave : List (Env × Input) :=
  watchAndReturn.take 6 ++
  [(Env.calm, .message (Cmd.logout.msg [(.roomId, "R"), (.sessID, "u")])),
    (Env.calm, .go 0)]

theorem leaving_cleans_watchAndLeave :
    ∃ w, run Watch.step watchAndLeave
        (Watch.init (Config.standalone "podA")) = some w ∧
      w.left = [("R", "u")] ∧ w.pod.pending = [] ∧ w.Clean := by
  have h : (run Watch.step watchAndLeave
      (Watch.init (Config.standalone "podA"))).map (fun w =>
        (w.left, w.pod.pending)) = some ([("R", "u")], []) := by decide
  obtain ⟨w, hw, hfacts⟩ := Option.map_eq_some_iff.mp h
  obtain ⟨hleft, hpend⟩ := Prod.mk.inj hfacts
  have hg : Guarded Watch.step Tidy watchAndLeave
      (Watch.init (Config.standalone "podA")) := by decide
  exact ⟨w, hw, hleft, hpend, (leaving_cleans hg).last hw⟩

end MediaServer.Ref
