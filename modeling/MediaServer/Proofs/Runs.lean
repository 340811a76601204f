import MediaServer.Proofs.Footprint
import MediaServer.Proofs.Releases
import MediaServer.Ref.Pair

/-!
# Invariants, move by move

`step_induction` is the rule the files on single properties use: what every
move of an input keeps, from states in order, a step keeps. The states in
order are those in which everything stands where its fields say (`PodOk`), a
peer belongs to the user of its session, and whoever sits in a room finds that
room registered under its id. So a user of a room has one seat, which is what
makes a stream's name (room, user, peer id) lead to one publisher.
-/

namespace MediaServer.Ref

open MediaServer.Lib Relation

variable {p q t : Pod} {s : SessRef} {x : PeerRef} {r : RoomRef}
variable {u k : String} {b : Act}

/-- The spawned call whose turn it is. -/
def Input.call? (p : Pod) : Input → Option Goroutine
  | .go i => p.pending[i]?
  | _ => none

theorem Input.call?_eq_some {a : Input} {g : Goroutine}
    (h : a.call? p = some g) : ∃ i, a = .go i ∧ p.pending[i]? = some g := by
  cases a with
  | go i => exact ⟨i, rfl, h⟩
  | setSendMessageHandler | message | keepaliveTick | registTick | registStop
  | ice | checkTimer | dataChannel | audio | video | appData => cases h

/-- Whoever sits in a room finds it registered under its id. -/
def Registered (p : Pod) : Prop :=
  ∀ r u s, (p.room r).sessions.lookup u = some s →
    p.rooms.lookup (p.room r).roomid = some r

structure Sound (p : Pod) : Prop extends PodOk p where
  owned : Linked Owned p
  registered : Registered p

/-- A publisher is named after its session's user and after its key. -/
theorem Sound.publisher (hp : Sound p)
    (hx : p.entry .publisher s k = some x) :
    (p.peer x).userid = (p.sess s).userid ∧ (p.peer x).peerid = k := by
  obtain ⟨-, -, hrole, -, hkey⟩ := hp.placed _ _ _ _ hx
  have howned := hp.owned _ _ _ _ hx
  rw [Owned, Peer.owner, hrole] at howned
  exact ⟨howned, by rw [← hkey, Peer.key_publisher hrole]⟩

/-- What was there keeps its name. -/
structure After (p q : Pod) : Prop where
  sessNext : p.sessHeap.next ≤ q.sessHeap.next
  sess : ∀ s, s < p.sessHeap.next → (q.sess s).ident = (p.sess s).ident
  roomNext : p.roomHeap.next ≤ q.roomHeap.next
  roomid : ∀ r, r < p.roomHeap.next → (q.room r).roomid = (p.room r).roomid
  peerNext : p.peerHeap.next ≤ q.peerHeap.next
  peer : ∀ x, x < p.peerHeap.next → (q.peer x).ident = (p.peer x).ident

theorem After.refl (p : Pod) : After p p :=
  ⟨Nat.le_refl _, fun _ _ => rfl, Nat.le_refl _, fun _ _ => rfl, Nat.le_refl _,
    fun _ _ => rfl⟩

theorem After.trans (h : After p q) (h' : After q t) : After p t where
  sessNext := Nat.le_trans h.sessNext h'.sessNext
  sess s hs :=
    (h'.sess s (Nat.lt_of_lt_of_le hs h.sessNext)).trans (h.sess s hs)
  roomNext := Nat.le_trans h.roomNext h'.roomNext
  roomid r hr :=
    (h'.roomid r (Nat.lt_of_lt_of_le hr h.roomNext)).trans (h.roomid r hr)
  peerNext := Nat.le_trans h.peerNext h'.peerNext
  peer x hx :=
    (h'.peer x (Nat.lt_of_lt_of_le hx h.peerNext)).trans (h.peer x hx)

theorem Shrinks.after (h : Shrinks p q) : After p q where
  sessNext := h.sessNext.ge
  sess s _ := h.ident s
  roomNext := by rw [h.roomHeap]
  roomid r _ := by rw [h.room]
  peerNext := h.peerNext.ge
  peer x _ := h.peerIdent x

theorem Edits.roomid_eq (h : Edits r u p q) (i : RoomRef) :
    (q.room i).roomid = (p.room i).roomid := by
  by_cases hi : i = r
  · subst hi; exact h.roomid
  · rw [h.other i hi]

theorem Clears.roomid_eq (h : Clears r p q) (i : RoomRef) :
    (q.room i).roomid = (p.room i).roomid := by
  by_cases hi : i = r
  · subst hi; exact h.roomid
  · rw [h.other i hi]

theorem insertSession_after (r : RoomRef) (u : String) (t : Session)
    (p : Pod) : After p (p.insertSession r u t) where
  sessNext := by rw [Pod.insertSession_sessNext]; exact Nat.le_succ _
  sess s hs := by rw [Pod.insertSession_sess, if_neg (Nat.ne_of_lt hs)]
  roomNext := by simp [Pod.insertSession, Pod.unlock, Pod.lock,
    Pod.storeSession, Pod.setRoom, Pod.allocSess]
  roomid i _ := by
    rw [Pod.insertSession_room]
    split
    · rfl
    · rfl
  peerNext := by rw [insertSession_peerHeap]
  peer x _ := by simp only [Pod.peer, insertSession_peerHeap]

theorem insertRoom_after (rid : String) (p : Pod) :
    After p (p.insertRoom rid) where
  sessNext := by rw [insertRoom_sessHeap]
  sess s _ := by simp only [Pod.sess, insertRoom_sessHeap]
  roomNext := by rw [insertRoom_roomNext]; exact Nat.le_succ _
  roomid i hi := by rw [insertRoom_room_of_lt rid p hi]
  peerNext := by rw [insertRoom_peerHeap]
  peer x _ := by simp only [Pod.peer, insertRoom_peerHeap]

theorem Inserts.after {t : Peer} (h : Inserts s t p q) : After p q where
  sessNext := h.sessNext.ge
  sess s _ := h.ident s
  roomNext := by rw [h.roomHeap]
  roomid i _ := by rw [h.room]
  peerNext := by rw [h.peerNext]; exact Nat.le_succ _
  peer x hx := by rw [h.peer_of_lt hx]

theorem Move.after (h : Move b p q) (hp : PodOk p) : After p q := by
  cases hb : b.inner with
  | true => exact (h.shrinks hb).after
  | false =>
      cases h with
      | adds s t hseat hpar ht hfree =>
          obtain ⟨r, u, hs⟩ := hseat
          exact (Pod.insertEntry_inserts (hp.sessions r u s hs).2.2 hpar
            ht.1 hfree).after
      | seats r u t => exact insertSession_after r u t p
      | opens rid _ => exact insertRoom_after rid p
      | unseats r u _ =>
          have he := Pod.eraseSession_edits r u p
          exact { After.refl p with
            roomNext := he.roomNext.ge, roomid := fun i _ => he.roomid_eq i }
      | vacates r _ =>
          have he := clearSessions_clears r p
          exact { After.refl p with
            roomNext := he.roomNext.ge, roomid := fun i _ => he.roomid_eq i }
      | closes rid _ => exact { After.refl p with }
      | takes i => exact { After.refl p with }
      | still | dies | sends | spawns | tells | unpush | leaves | withdraws
      | destroys | erases | clears | offers | accepts | flags | announces
      | beats => cases hb

/-- Only `opens` makes a room. -/
theorem Move.roomNext_of (h : Move b p q) (hp : PodOk p)
    (ho : ∀ rid, b ≠ .opens rid) : q.roomHeap.next = p.roomHeap.next := by
  cases hb : b.inner with
  | true => rw [(h.shrinks hb).roomHeap]
  | false =>
      cases h with
      | adds s t hseat hpar ht hfree =>
          obtain ⟨r, u, hs⟩ := hseat
          rw [(Pod.insertEntry_inserts (hp.sessions r u s hs).2.2 hpar
            ht.1 hfree).roomHeap]
      | seats r u t => exact Pod.insertSession_roomNext r u t
      | opens rid => exact absurd rfl (ho rid)
      | unseats r u => exact (Pod.eraseSession_edits r u p).roomNext
      | vacates r => exact (clearSessions_clears r p).roomNext
      | closes | takes => rfl
      | still | dies | sends | spawns | tells | unpush | leaves | withdraws
      | destroys | erases | clears | offers | accepts | flags | announces
      | beats => cases hb

/-! ## Order is kept -/

theorem Registered.of_same (h : Registered p)
    (hr : ∀ r u s, (q.room r).sessions.lookup u = some s →
      (p.room r).sessions.lookup u = some s)
    (hid : ∀ r, (q.room r).roomid = (p.room r).roomid)
    (hrooms : q.rooms = p.rooms) : Registered q := by
  intro r u s hs
  rw [hrooms, hid]
  exact h r u s (hr r u s hs)

theorem Move.registered (h : Move b p q) (hp : PodOk p)
    (hreg : Registered p) : Registered q := by
  cases hb : b.inner with
  | true =>
      have hs := h.shrinks hb
      exact hreg.of_same (fun r u s h => by rwa [hs.room] at h)
        (fun r => by rw [hs.room]) hs.rooms
  | false =>
      cases h with
      | adds s t hseat hpar ht hfree =>
          obtain ⟨r, u, hs⟩ := hseat
          have hi := Pod.insertEntry_inserts (hp.sessions r u s hs).2.2 hpar
            ht.1 hfree
          exact hreg.of_same (fun r u s h => by rwa [hi.room] at h)
            (fun r => by rw [hi.room]) hi.rooms
      | seats r u t hr hr' hfree hu hpar hpubs hsubs =>
          intro i v s hs
          have hrooms : (p.insertSession r u t).rooms = p.rooms := by
            simp [Pod.insertSession, Pod.unlock, Pod.lock, Pod.storeSession,
              Pod.setRoom, Pod.allocSess]
          rw [Pod.insertSession_lookup] at hs
          rw [hrooms, show ((p.insertSession r u t).room i).roomid =
            (p.room i).roomid by
              rw [Pod.insertSession_room]; split <;> rfl]
          split at hs
          · next hat => rw [hat.1]; exact hr'
          · exact hreg i v s hs
      | opens rid hfree =>
          intro i v s hs
          rw [insertRoom_room] at hs ⊢
          rw [insertRoom_rooms]
          split at hs
          · cases hs
          · next hi =>
              have hold := hreg i v s hs
              rw [if_neg hi, GoMap.lookup_insert_eq, if_neg]
              · exact hold
              · intro heq
                rw [heq, hfree] at hold
                cases hold
      | unseats r u _ =>
          have he := Pod.eraseSession_edits r u p
          exact hreg.of_same (fun i v s h => he.back h) he.roomid_eq rfl
      | vacates r _ =>
          have he := clearSessions_clears r p
          exact hreg.of_same (fun i v s h => he.back h) he.roomid_eq rfl
      | closes rid hempty =>
          intro i v s hs
          have hold := hreg i v s hs
          change (p.rooms.erase rid).lookup (p.room i).roomid = some i
          rw [GoMap.lookup_erase_eq, if_neg]
          · exact hold
          · intro heq
            rw [heq] at hold
            have hs' : (p.room i).sessions.lookup v = some s := hs
            rw [hempty i hold] at hs'
            cases hs'
      | takes i => exact hreg
      | still | dies | sends | spawns | tells | unpush | leaves | withdraws
      | destroys | erases | clears | offers | accepts | flags | announces
      | beats => cases hb

theorem Move.owned (h : Move b p q) (hp : PodOk p) (hown : Linked Owned p)
    (hadd : ∀ s t, b = .adds s t → Owned t (p.sess s)) : Linked Owned q := by
  cases hb : b.inner with
  | true =>
      have hs := h.shrinks hb
      exact hown.of_shrink owned_onIdent hp.placed hs.entry
        (fun s _ => hs.ident s) hs.peerIdent
  | false => exact (h.micro hp hb).linked owned_onIdent hp hown hadd

theorem Move.sound {env : Env} {a : Input} (h : Move b q t) (hq : Sound q)
    (hp : PodOk p) (hlater : After p q) (hb : Also (Foot p env a) b) :
    Sound t where
  toPodOk := h.podOk hq.toPodOk
  owned := h.owned hq.toPodOk hq.owned fun s x heq => by
    subst heq
    obtain ⟨m, r, -, -, hadd⟩ := hb
    exact owned_onIdent rfl
      (hlater.sess s (hp.sessions r _ s hadd.1).2.2) (owned_of_roomAdds hp hadd)
  registered := h.registered hq.toPodOk hq.registered

/-! ## The rule -/

/-- What holds between two calls. -/
structure InOrder (p : Pod) : Prop extends Sound p where
  lives : Lives p

theorem InOrder.ready (h : InOrder p) : Ready p := ⟨h.toPodOk, h.lives⟩

/-- The order does not depend on what is pending. -/
theorem InOrder.of_pending (h : InOrder p) (l : List Goroutine) :
    InOrder { p with pending := l } where
  toSeated := ⟨h.rooms, h.sessions, h.known⟩
  placed := h.placed.of_heaps rfl rfl
  homed := h.homed.of_same (fun _ _ _ _ hx => hx) fun _ => rfl
  owned := h.owned
  registered := h.registered
  lives := h.lives.of_same (fun _ _ _ => rfl) rfl fun _ => rfl

section Step

variable {a : Env × Input}

theorem step_ready (hp : Ready p) (hs : Pod.step a p = some q) : Ready q := by
  have hsteps := step_does hs hp.toPodOk
  exact ⟨podOk_of_micros hsteps hp.toPodOk,
    lives_of_micros hsteps hp.toPodOk hp.lives⟩

/-- What every move of the input keeps, the step keeps. -/
theorem step_induction {P : Pod → Prop} (hp : InOrder p)
    (hs : Pod.step a p = some q) (hP : P p)
    (hm : ∀ {b t t'}, Also (Foot p a.1 a.2) b → Sound t → After p t →
      t.fatal = false → Move b t t' → P t → P t') :
    P q ∧ Sound q ∧ After p q := by
  have hpath := (step_moves hp.ready hs).moves
  clear hs
  induction hpath with
  | refl => exact ⟨hP, hp.toSound, .refl p⟩
  | tail _ hmove ih =>
      obtain ⟨hf, b, hb, hmove⟩ := hmove
      obtain ⟨hPt, hsound, hafter⟩ := ih
      exact ⟨hm hb hsound hafter hf hmove hPt,
        hmove.sound hsound hp.toPodOk hafter hb,
        hafter.trans (hmove.after hsound.toPodOk)⟩

theorem step_inOrder (hp : InOrder p) (hs : Pod.step a p = some q) :
    InOrder q :=
  ⟨(step_induction (P := fun _ => True) hp hs trivial
    fun _ _ _ _ _ _ => trivial).2.1, (step_ready hp.ready hs).lives⟩

theorem step_after (hp : InOrder p) (hs : Pod.step a p = some q) :
    After p q :=
  (step_induction (P := fun _ => True) hp hs trivial
    fun _ _ _ _ _ _ => trivial).2.2

end Step

theorem createRoomMgr_inOrder (conf : Config) :
    InOrder (Pod.createRoomMgr conf) where
  toPodOk := createRoomMgr_podOk conf
  owned role s k x h := by cases role <;> cases h
  registered r u s h := by cases h
  lives := createRoomMgr_lives conf

/-- The states of the machine are in order. -/
theorem reachable_inOrder {conf : Config} (hr : Pod.Reachable conf p) :
    InOrder p := by
  obtain ⟨as, hrun⟩ := hr
  exact run_invariant (fun _ _ _ hp _ hs => step_inOrder hp hs)
    (guarded_true as _) (createRoomMgr_inOrder conf) hrun

/-! ## One seat for each user -/

theorem seat_eq_some {rid : String} : p.seat rid u = some s ↔
    ∃ r, p.rooms.lookup rid = some r ∧
      (p.room r).sessions.lookup u = some s := Option.bind_eq_some_iff

/-- A message that reaches a registered room names it. -/
theorem Reaches.roomId_eq {m : JsonParser} {rid : String} (h : Reaches p m r)
    (hp : PodOk p) (hr : p.rooms.lookup rid = some r) :
    getValue m .roomId = rid := by
  have hroom := h.room
  unfold Pod.roomFor at hroom
  cases hlook : p.rooms.lookup (getValue m .roomId) with
  | none =>
      rw [hlook] at hroom
      exact absurd (hp.rooms rid r hr).2 (by rw [← hroom]; exact Nat.lt_irrefl _)
  | some r' =>
      rw [hlook] at hroom
      cases hroom
      rw [← (hp.rooms rid r' hr).1, ← (hp.rooms _ r' hlook).1]

/-- A session that sits in a room is the one its name leads to. -/
theorem Sound.seat (h : Sound p)
    (hs : (p.room r).sessions.lookup u = some s) :
    p.seat (p.room r).roomid u = some s := by
  rw [Pod.seat, h.registered r u s hs]
  exact hs

theorem Sound.of_seat {rid : String} (h : Sound p)
    (hs : p.seat rid u = some s) :
    (p.sess s).userid = u ∧ (p.room (p.sess s).parent).roomid = rid ∧
      p.rooms.lookup rid = some (p.sess s).parent ∧ s < p.sessHeap.next := by
  obtain ⟨r, hr, hlook⟩ := Option.bind_eq_some_iff.mp hs
  obtain ⟨hu, hpar, hlt⟩ := h.sessions r u s hlook
  rw [hpar]
  exact ⟨hu, (h.rooms rid r hr).1, hr, hlt⟩

/-- A session that holds a peer has its seat. -/
theorem Sound.seat_of_entry {role : Role} (h : Sound p)
    (hx : p.entry role s k = some x) :
    p.seat (p.room (p.sess s).parent).roomid (p.sess s).userid = some s :=
  h.seat (Homed.seat h.toPodOk hx)

end MediaServer.Ref
