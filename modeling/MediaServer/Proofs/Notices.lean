import MediaServer.Proofs.Announcements
import MediaServer.Proofs.Calls

/-!
# What the members of a room are told of its streams

A member hears `pub` from the goroutine that a connected publisher spawns, and
`unpub` from whatever takes the publisher away or reports that it lost its
connection. The goroutine does not look again whether the stream is still
there, and the report of a disconnect does not look whether the connection has
come back, so a late one of either kind leaves the members with the wrong
word. In a run in which neither is late the last word is right as soon as
nothing is pending.

Four facts carry the proof. An open publisher that is ready is marked; a
marked publisher that is not ready has a report or a release under way; a
marked one that is ready and has no announcement under way was announced to
everybody who was there; and whoever was last told that a stream is there
finds its publisher marked.
-/

namespace MediaServer.Ref

open MediaServer.Lib Relation

variable {p q t t' : Pod} {s sv : SessRef} {x : PeerRef} {b : Act}
variable {v rid u k : String} {w : Bool} {n : Note}

/-- What a note tells the member `v` about a stream. -/
def Note.notice (v rid u k : String) : Note → Option Bool
  | .pub v' rid' u' k' =>
      if v' = v ∧ rid' = rid ∧ u' = u ∧ k' = k then some true else none
  | .unpub v' rid' u' k' =>
      if v' = v ∧ rid' = rid ∧ u' = u ∧ k' = k then some false else none
  | _ => none

/-- The last `pub` or `unpub` about a stream that was sent to the member. -/
def Pod.lastNotice (p : Pod) (v rid u k : String) : Option Bool :=
  latest (Note.notice v rid u k) p.notes

/-- The session has a ready publisher under this id. -/
def Pod.readyAt (p : Pod) (s : SessRef) (k : String) : Bool :=
  match (p.sess s).publishers.lookup k with
  | some x => (p.peer x).isReady
  | none => false

/-- The user's session in the room has one. -/
def Pod.isUp (p : Pod) (rid u k : String) : Bool :=
  match p.seat rid u with
  | some s => p.readyAt s k
  | none => false

/-! ## Single moves -/

/-- Who speaks of a stream: a goroutine that announces it, or a move that
withdraws it. -/
theorem notice_of_mem (hn : n ∈ b.notes p)
    (hw : n.notice v rid u k = some w) :
    (w = true ∧ ∃ r name, b = .tells v r u name k ∧
      (p.room r).roomid = rid) ∨
    (w = false ∧ ∃ s x, b = .withdraws s k x ∧ p.Named s rid u) := by
  have hby := by_of_mem_notes hn
  cases n with
  | pub v' rid' u' k' =>
      simp only [Note.notice] at hw
      split at hw
      · next hat =>
          obtain ⟨rfl, rfl, rfl, rfl⟩ := hat
          cases hw
          cases b with
          | tells topic r sid name pid =>
              cases List.mem_singleton.mp hn
              exact .inl ⟨rfl, r, name, rfl, rfl⟩
          | _ => cases hby
      · cases hw
  | unpub v' rid' u' k' =>
      simp only [Note.notice] at hw
      split at hw
      · next hat =>
          obtain ⟨rfl, rfl, rfl, rfl⟩ := hat
          cases hw
          cases b with
          | withdraws s l x =>
              rcases List.mem_append.mp hn with hn | hn
              · obtain ⟨e, -, he⟩ := List.mem_map.mp hn
                cases he
                exact .inr ⟨rfl, s, x, rfl, rfl, rfl⟩
              · split at hn
                · cases List.mem_singleton.mp hn
                · cases hn
          | _ => cases hby
      · cases hw
  | unpush | leaveRoom | fakePublish | fakeUnpublish => cases hw

/-- A withdrawn publisher is no longer shown, all others are. -/
theorem Move.shown_withdraws {i : SessRef} {l : String} {y : PeerRef}
    (h : Move (.withdraws i l y) t t') (ht : PodOk t) (s : SessRef)
    (k : String) (x : PeerRef) :
    Shown t' s k x ↔ Shown t s k x ∧ x ≠ y := by
  rw [Shown, Shown, h.entry ht, h.shouldNotify ht]
  simp only [Act.entry, Act.peer]
  split
  · next hx => simp [hx]
  · next hx => simp [hx]

theorem Move.shown_back (h : Move b t t') (ht : PodOk t)
    (ha : ∀ y, b ≠ .announces y) (hx : Shown t' s k x) : Shown t s k x := by
  by_cases hw : ∃ i l y, b = .withdraws i l y
  · obtain ⟨i, l, y, rfl⟩ := hw
    exact ((h.shown_withdraws ht s k x).mp hx).1
  · exact (h.shown ht (fun i l y he => hw ⟨i, l, y, he⟩) ha s k x).mp hx

/-- A stream that is still shown was not taken back. -/
theorem Move.notice_up (h : Move b t t') (ht : Sound t)
    (hf : t.fatal = false) (ha : ∀ y, b ≠ .announces y)
    (hn : t.Named s rid u)
    (hI : Shown t s k x → t.lastNotice v rid u k = some true) :
    Shown t' s k x → t'.lastNotice v rid u k = some true := by
  intro hx'
  have hx := h.shown_back ht.toPodOk ha hx'
  rw [Pod.lastNotice, h.notes ht.toPodOk hf, latest_append]
  cases hnew : latest (Note.notice v rid u k) (b.notes t) with
  | none => exact hI hx
  | some w =>
      obtain ⟨n, hmem, hw⟩ := mem_of_latest hnew
      rcases notice_of_mem hmem hw with ⟨rfl, -⟩ | ⟨-, i, y, rfl, hi⟩
      · rfl
      · -- the name leads to the withdrawn publisher, which is not shown
        have hy : t.entry .publisher i k = some y := by cases h; assumption
        have heq := (ht.name_unique hx.1 hy (hi.2.trans hn.2.symm)
          (hi.1.trans hn.1.symm)).2
        exact absurd heq.symm ((h.shown_withdraws ht.toPodOk s k x).mp hx').2

/-- The stream has a marked publisher. -/
def Marks (p : Pod) (rid u k : String) : Prop :=
  ∃ s x, Shown p s k x ∧ p.Named s rid u

theorem After.named_of_entry {role : Role} (h : After p q) (hp : PodOk p)
    (hx : p.entry role s k = some x) :
    q.Named s rid u ↔ p.Named s rid u := by
  obtain ⟨r, v, hseat⟩ := hp.homed _ _ _ _ hx
  obtain ⟨-, hpar, hlt⟩ := hp.sessions r v s hseat
  have hid := h.sess s hlt
  have hu : (q.sess s).userid = (p.sess s).userid := congrArg (·.1) hid
  have hpar' : (q.sess s).parent = (p.sess s).parent :=
    congrArg (·.2.2.2.2.2) hid
  rw [Pod.Named, Pod.Named, hu, hpar', hpar,
    h.roomid _ (hp.known r v s hseat)]

/-- The member who is there hears of every withdrawal. -/
theorem Move.notice_withdraws {i : SessRef} {y : PeerRef}
    (h : Move (.withdraws i k y) t t') (ht : Sound t) (hf : t.fatal = false)
    (hi : t.Named i rid u) (hv : t.seat rid v = some sv)
    (ho : (t.sess sv).origin = true) :
    t'.lastNotice v rid u k = some false := by
  have hy : t.entry .publisher i k = some y := by cases h; assumption
  obtain ⟨huser, -, hreg, -⟩ := ht.of_seat hv
  have hroom : (t.sess i).parent = (t.sess sv).parent := by
    obtain ⟨-, -, hreg', -⟩ := ht.of_seat (ht.seat_of_entry hy)
    rw [hi.1, hreg] at hreg'
    exact (Option.some.inj hreg').symm
  have hlook : (t.room (t.sess i).parent).sessions.lookup v = some sv := by
    obtain ⟨r, hr, hlook⟩ := seat_eq_some.mp hv
    cases hr.symm.trans hreg
    rw [hroom]
    exact hlook
  rw [Pod.lastNotice, h.notes ht.toPodOk hf]
  refine latest_said (fun n hn c hc => ?_) ⟨.unpub v rid u k,
    List.mem_append_left _ (List.mem_map.mpr ⟨⟨v, sv⟩, ?_, ?_⟩),
    if_pos ⟨rfl, rfl, rfl, rfl⟩⟩
  · rcases notice_of_mem hn hc with ⟨-, r, name, he, -⟩ | ⟨hw, -⟩
    · cases he
    · exact hw
  · exact List.mem_filter.mpr ⟨GoMap.mem_entries.mpr hlook, ho⟩
  · rw [huser, hi.1, hi.2]

/-- Whoever is told that a stream is there finds it marked. -/
theorem Move.notice_down (h : Move b t t') (ht : Sound t)
    (hf : t.fatal = false) (ha : ∀ y, b ≠ .announces y)
    (hv : t.seat rid v = some sv) (ho : (t.sess sv).origin = true)
    (htells : ∀ r name, b = .tells v r u name k → (t.room r).roomid = rid →
      Marks t rid u k)
    (hI : t.lastNotice v rid u k = some true → Marks t rid u k) :
    t'.lastNotice v rid u k = some true → Marks t' rid u k := by
  intro hlast
  by_cases hw : ∃ i y, b = .withdraws i k y ∧ t.Named i rid u
  · obtain ⟨i, y, rfl, hi⟩ := hw
    rw [h.notice_withdraws ht hf hi hv ho] at hlast
    cases hlast
  -- the publisher that was marked before still is
  have hkeep : Marks t rid u k → Marks t' rid u k := by
    rintro ⟨s, x, hx, hn⟩
    refine ⟨s, x, ?_, ((h.after ht.toPodOk).named_of_entry ht.toPodOk
      hx.1).mpr hn⟩
    by_cases hw' : ∃ i l y, b = .withdraws i l y
    · obtain ⟨i, l, y, rfl⟩ := hw'
      refine (h.shown_withdraws ht.toPodOk s k x).mpr ⟨hx, ?_⟩
      rintro rfl
      have hy : t.entry .publisher i l = some x := by cases h; assumption
      obtain ⟨-, rfl, rfl⟩ := ht.placed.unique hx.1 hy
      exact hw ⟨_, x, rfl, hn⟩
    · exact (h.shown ht.toPodOk (fun i l y he => hw' ⟨i, l, y, he⟩) ha s k
        x).mpr hx
  rw [Pod.lastNotice, h.notes ht.toPodOk hf, latest_append] at hlast
  cases hnew : latest (Note.notice v rid u k) (b.notes t) with
  | none =>
      rw [hnew, Option.none_or] at hlast
      exact hkeep (hI hlast)
  | some w =>
      obtain ⟨n, hmem, hwn⟩ := mem_of_latest hnew
      rcases notice_of_mem hmem hwn with ⟨-, r, name, hb, hr⟩ |
        ⟨-, i, y, hb, hi⟩
      · exact hkeep (htells r name hb hr)
      · exact absurd ⟨i, y, hb, hi⟩ hw

/-! ## Ready publishers are marked -/

/-- An open publisher that is ready is marked to be taken back. -/
def Peer.Marked (t : Peer) : Prop :=
  t.role = .publisher → t.closed = 0 → t.isReady = true →
    t.shouldNotify = true

theorem Peer.Marked.of_state {y z : Peer} (h : y.Marked)
    (hs : z.state = y.state) : z.Marked := by
  obtain ⟨hid, hc, hr, hn⟩ : z.ident = y.ident ∧ z.closed = y.closed ∧
      z.isReady = y.isReady ∧ z.shouldNotify = y.shouldNotify :=
    ⟨congrArg (·.1) hs, congrArg (·.2.1) hs, congrArg (·.2.2.1) hs,
      congrArg (·.2.2.2.1) hs⟩
  rw [Peer.Marked, (Peer.ident_eq hid).2.2.2.1, hc, hr, hn]
  exact h

theorem Move.marked (h : Move b t t') (ht : PodOk t)
    (hw : ∀ s k x, b ≠ .withdraws s k x) (hI : ∀ y, (t.peer y).Marked)
    (y : PeerRef) : (t'.peer y).Marked := by
  refine Peer.Marked.of_state ?_ (h.peer ht y)
  have hy := hI y
  cases h with
  | withdraws i l z => exact absurd rfl (hw i l z)
  | destroys i z =>
      simp only [Act.peer]
      split
      · exact fun _ hc => absurd hc (Nat.succ_ne_zero _)
      · exact hy
  | adds i z _ _ hz =>
      simp only [Act.peer]
      split
      · exact fun _ _ hr => by rw [hz.2.1] at hr; cases hr
      · exact hy
  | flags z st hst =>
      simp only [Act.peer]
      split
      · next hyz =>
          subst hyz
          cases st with
          | connected => exact fun _ _ _ => rfl
          | disconnected | failed | closed => exact fun _ _ hr => by cases hr
      · exact hy
  | announces z =>
      simp only [Act.peer]
      split
      · exact fun _ _ _ => rfl
      · exact hy
  | offers z app =>
      simp only [Act.peer]
      split
      · exact hy
      · exact hy
  | accepts z =>
      simp only [Act.peer]
      split
      · exact hy
      · exact hy
  | still | dies | sends | spawns | tells | unpush | leaves | erases | clears
  | beats | seats | unseats | vacates | opens | closes | takes => exact hy

/-- A stroke withdraws a publisher only to destroy it. -/
theorem Strokes.marked {A : Act → Prop} (h : Strokes A p q) (hp : PodOk p)
    (hA : ∀ s k x, ¬A (.withdraws s k x)) (hI : ∀ y, (p.peer y).Marked) :
    PodOk q ∧ ∀ y, (q.peer y).Marked := by
  cases h with
  | move b _ hb hm =>
      refine ⟨hm.podOk hp, hm.marked hp (fun s k x he => hA s k x ?_) hI⟩
      rw [← he]
      exact hb
  | retires s k x t _ hw _ _ hd =>
      have ht := hw.podOk hp
      refine ⟨hd.podOk ht, fun y => ?_⟩
      refine Peer.Marked.of_state ?_ (hd.peer ht y)
      simp only [Act.peer]
      split
      · exact fun _ hc => absurd hc (Nat.succ_ne_zero _)
      · next hne =>
          refine Peer.Marked.of_state ?_ (hw.peer hp y)
          simp only [Act.peer, if_neg hne]
          exact hI y

theorem Path.marked {A : Act → Prop} (h : Path A p q) (hp : PodOk p)
    (hA : ∀ s k x, ¬A (.withdraws s k x)) (hI : ∀ y, (p.peer y).Marked) :
    ∀ y, (q.peer y).Marked := by
  suffices hboth : PodOk q ∧ ∀ y, (q.peer y).Marked from hboth.2
  induction h with
  | refl => exact ⟨hp, hI⟩
  | tail _ hm ih => exact hm.marked ih.1 hA ih.2

/-! ## Moves that leave the flags alone -/

/-- From `p`, `q` is reached by moves with names in `B`, from states in order:
what such moves keep holds in the end. -/
def Traced (B : Act → Prop) (p q : Pod) : Prop :=
  ∀ P : Pod → Prop, P p → (∀ b t t', B b → Sound t → After p t →
    t.fatal = false → Move b t t' → P t → P t') → P q

theorem Traced.refl (B : Act → Prop) (p : Pod) : Traced B p p :=
  fun _ hP _ => hP

theorem Traced.tail {B : Act → Prop} (h : Traced B p t) (hb : B b)
    (ht : Sound t) (ha : After p t) (hf : t.fatal = false)
    (hm : Move b t t') : Traced B p t' :=
  fun P hP hstep => hstep b t t' hb ht ha hf hm (h P hP hstep)

theorem step_traced {a : Env × Input} (hp : InOrder p)
    (hs : Pod.step a p = some q) : Traced (Also (Foot p a.1 a.2)) p q :=
  fun _ hP hm => (step_induction hp hs hP (hm _ _ _)).1

theorem Path.traced {A : Act → Prop} (h : Path A p q) (hp : Sound p)
    (hA : ∀ b, A b → b.inner = true) : Traced (Also A) p q := by
  intro P hP hm
  suffices hall : P q ∧ Sound q ∧ After p q from hall.1
  have hmoves := h.moves
  clear h
  induction hmoves with
  | refl => exact ⟨hP, hp, .refl p⟩
  | tail _ hmove ih =>
      obtain ⟨hf, b, hb, hmove⟩ := hmove
      obtain ⟨hPt, hsound, hafter⟩ := ih
      have hshrinks := hmove.shrinks (hb.elim hA fun _ _ _ => rfl)
      exact ⟨hm _ _ _ hb hsound hafter hf hmove hPt,
        hshrinks.sound hsound, hafter.trans hshrinks.after⟩

/-- The move sets no flag of a publisher. -/
def Act.flagless : Act → Bool
  | .flags .. | .announces _ => false
  | _ => true

section Traced

variable {B : Act → Prop} (h : Traced B p q)
include h

theorem Traced.shown_back (hB : ∀ b, B b → b.flagless = true)
    (hx : Shown q s k x) : Shown p s k x := by
  refine h (fun t => Shown t s k x → Shown p s k x) id
    (fun b t t' hb hsound _ _ hm ht hx' => ht ?_) hx
  refine hm.shown_back hsound.toPodOk ?_ hx'
  rintro y rfl
  cases hB _ hb

theorem Traced.isReady (hB : ∀ b, B b → b.flagless = true)
    (hlt : x < p.peerHeap.next) :
    (q.peer x).isReady = (p.peer x).isReady := by
  refine h (fun t => (t.peer x).isReady = (p.peer x).isReady) rfl
    fun b t t' hb hsound hafter _ hm ht => ?_
  rw [hm.isReady hsound.toPodOk, ← ht]
  cases b with
  | flags | announces => cases hB _ hb
  | adds i y =>
      simp only [Act.peer, if_neg (Nat.ne_of_lt
        (Nat.lt_of_lt_of_le hlt hafter.peerNext))]
  | withdraws | destroys | offers | accepts =>
      simp only [Act.peer]
      split
      · rfl
      · rfl
  | still | dies | sends | spawns | tells | unpush | leaves | erases | clears
  | beats | seats | unseats | vacates | opens | closes | takes => rfl

/-- A stream that is still shown in the end was not taken back. -/
theorem Traced.notice_up (hp : PodOk p) (hB : ∀ b, B b → b.flagless = true)
    (hn : p.Named s rid u) (hx : Shown q s k x)
    (hlast : p.lastNotice v rid u k = some true) :
    q.lastNotice v rid u k = some true := by
  have hxp := h.shown_back hB hx
  refine h (fun t => Shown t s k x → t.lastNotice v rid u k = some true)
    (fun _ => hlast) (fun b t t' hb hsound hafter hf hm ht => ?_) hx
  refine hm.notice_up hsound hf ?_
    ((hafter.named_of_entry hp hxp.1).mpr hn) ht
  rintro y rfl
  cases hB _ hb

end Traced

/-- A seat is not given to a session that lost it. -/
theorem Move.seat_back (h : Move b t t') (ht : PodOk t)
    (hlt : sv < t.sessHeap.next) (hv : t'.seat rid v = some sv) :
    t.seat rid v = some sv := by
  obtain ⟨r, hr, hlook⟩ := seat_eq_some.mp hv
  rw [h.rooms ht] at hr
  rw [h.lookup ht] at hlook
  refine seat_eq_some.mpr ⟨r, ?_⟩
  cases b with
  | seats r' u' y =>
      simp only [Act.lookup] at hlook
      split at hlook
      · cases hlook
        exact absurd hlt (Nat.lt_irrefl _)
      · exact ⟨hr, hlook⟩
  | unseats | vacates =>
      simp only [Act.lookup] at hlook
      split at hlook
      · cases hlook
      · exact ⟨hr, hlook⟩
  | opens rid' =>
      simp only [Act.lookup] at hlook
      split at hlook
      · cases hlook
      · next hne =>
          simp only [Act.rooms] at hr
          split at hr
          · exact absurd (Option.some.inj hr).symm hne
          · exact ⟨hr, hlook⟩
  | closes rid' =>
      simp only [Act.rooms] at hr
      split at hr
      · cases hr
      · exact ⟨hr, hlook⟩
  | still | dies | sends | spawns | tells | unpush | leaves | withdraws
  | destroys | erases | clears | adds | offers | accepts | flags | announces
  | beats | takes => exact ⟨hr, hlook⟩

/-- Rooms are opened under the id that the moves name. -/
theorem Traced.newRoom {B : Act → Prop} (h : Traced B p q)
    (hB : ∀ rid', B (.opens rid') → rid' = rid) :
    ∀ r, ¬r < p.roomHeap.next → r < q.roomHeap.next →
      (q.room r).roomid = rid := by
  refine h (fun t => ∀ r, ¬r < p.roomHeap.next → r < t.roomHeap.next →
    (t.room r).roomid = rid) (fun r hr hr' => absurd hr' hr)
    fun b t t' hb hsound _ _ hm ht r hr hr' => ?_
  by_cases hold : r < t.roomHeap.next
  · rw [(hm.after hsound.toPodOk).roomid r hold]
    exact ht r hr hold
  by_cases ho : ∃ rid', b = .opens rid'
  · obtain ⟨rid', rfl⟩ := ho
    cases hm
    rw [insertRoom_roomNext] at hr'
    have hnew : r = t.roomHeap.next :=
      Nat.le_antisymm (Nat.le_of_lt_succ hr') (Nat.le_of_not_lt hold)
    rw [insertRoom_room, if_pos hnew]
    exact hB rid' hb
  · rw [hm.roomNext_of hsound.toPodOk fun rid' he => ho ⟨rid', he⟩] at hr'
    exact absurd hr' hold

/-- The room that a message reaches has the id that the message names, also if
it was opened on the way. -/
theorem Reaches.roomid_traced {env : Env} {r : RoomRef} {m : JsonParser}
    (h : Reaches p m r) (hp : PodOk p)
    (htraced : Traced (Also (Foot p env (.message m))) p t)
    (hafter : After p t) (hr : r < t.roomHeap.next) :
    (t.room r).roomid = getValue m .roomId := by
  have hroom := h.room
  unfold Pod.roomFor at hroom
  cases hlook : p.rooms.lookup (getValue m .roomId) with
  | some r' =>
      rw [hlook, Option.getD_some] at hroom
      subst hroom
      obtain ⟨hname, hlt⟩ := hp.rooms _ _ hlook
      rw [hafter.roomid _ hlt, hname]
  | none =>
      rw [hlook, Option.getD_none] at hroom
      subst hroom
      refine htraced.newRoom (fun rid' hopens => ?_) _ (Nat.lt_irrefl _) hr
      obtain ⟨m', hm', -, -, rfl, -⟩ := hopens
      cases hm'
      rfl

/-- A new session is that of a user who logs in, or whom another pod
announces. -/
theorem step_new_session {a : Env × Input} (hp : InOrder p) (hroot : Rooted p)
    (hs : Pod.step a p = some q) (hlt : s < q.sessHeap.next)
    (hnew : ¬s < p.sessHeap.next) :
    ∃ m r, a.2 = .message m ∧
      (command m = some .login ∨ command m = some .fakePublish) ∧
      (q.sess s).ident = (newSession a.1 r m).ident ∧
      q.Named s (getValue m .roomId) (getValue m .sessID) := by
  have hmid := (step_induction (P := fun t => ∀ s, s < t.sessHeap.next →
    ¬s < p.sessHeap.next → ∃ m r, a.2 = .message m ∧ Reaches p m r ∧
      (command m = some .login ∨ command m = some .fakePublish) ∧
      (t.sess s).ident = (newSession a.1 r m).ident) hp hs
    (fun s hlt hnew => absurd hlt hnew)
    fun {b t t'} hb hsound _ _ hm ht s hlt hnew => ?_).1 s hlt hnew
  · obtain ⟨m, r, hmsg, hreach, hc, hid⟩ := hmid
    have hu : (newSession a.1 r m).userid = getValue m .sessID := by
      unfold newSession
      dsimp only
      split
      · rfl
      · rfl
    have hpar : (newSession a.1 r m).parent = r := by
      unfold newSession
      dsimp only
      split
      · rfl
      · rfl
    have hpar' : (q.sess s).parent = r :=
      (congrArg (·.2.2.2.2.2) hid).trans hpar
    refine ⟨m, r, hmsg, hc, hid, ?_, (congrArg (·.1) hid).trans hu⟩
    have htraced := step_traced hp hs
    rw [hmsg] at htraced
    rw [hpar']
    refine hreach.roomid_traced hp.toPodOk htraced (step_after hp hs) ?_
    rw [← hpar']
    exact (step_rooted hp hroot hs).sess s hlt
  · by_cases hold : s < t.sessHeap.next
    · rw [(hm.after hsound.toPodOk).sess s hold]
      exact ht s hold hnew
    · obtain ⟨r, v, y, rfl, hy⟩ := hm.sess_new hsound.toPodOk hlt hold
      obtain ⟨m, hmsg, hreach, hc, -, rfl⟩ := hb
      exact ⟨m, r, hmsg, hreach, hc, by rw [hy]⟩

/-- A stream that nothing withdraws stays marked. -/
theorem Traced.marks {B : Act → Prop} (h : Traced B p q)
    (hB : ∀ b, B b → b.flagless = true)
    (hw : ∀ i l y, ¬B (.withdraws i l y)) (hI : Marks p rid u k) :
    Marks q rid u k := by
  refine h (fun t => Marks t rid u k) hI fun b t t' hb hsound _ _ hm ht => ?_
  obtain ⟨s, x, hx, hn⟩ := ht
  refine ⟨s, x, (hm.shown hsound.toPodOk ?_ ?_ s k x).mpr hx,
    ((hm.after hsound.toPodOk).named_of_entry hsound.toPodOk hx.1).mpr hn⟩
  · rintro i l y rfl
    exact hw i l y hb
  · rintro y rfl
    cases hB _ hb

/-- Whoever is there in the end and was last told that the stream is there
finds it marked. -/
theorem Traced.notice_down {B : Act → Prop} (h : Traced B p q)
    (hB : ∀ b, B b → b.flagless = true)
    (hlt : sv < p.sessHeap.next) (ho : (p.sess sv).origin = true)
    (hv : q.seat rid v = some sv)
    (htells : ∀ t r name, Traced B p t → After p t →
      B (.tells v r u name k) → r < t.roomHeap.next →
      (t.room r).roomid = rid → Marks t rid u k)
    (hI : p.lastNotice v rid u k = some true → Marks p rid u k) :
    q.lastNotice v rid u k = some true → Marks q rid u k := by
  refine (h (fun t => Traced B p t ∧ (t.seat rid v = some sv →
    t.lastNotice v rid u k = some true → Marks t rid u k))
    ⟨.refl B p, fun _ => hI⟩
    (fun b t t' hb hsound hafter hf hm ht =>
      ⟨ht.1.tail hb hsound hafter hf hm, fun hv' => ?_⟩)).2 hv
  have hvt := hm.seat_back hsound.toPodOk
    (Nat.lt_of_lt_of_le hlt hafter.sessNext) hv'
  have hot : (t.sess sv).origin = true :=
    (congrArg (·.2.2.2.2.1) (hafter.sess sv hlt)).trans ho
  refine hm.notice_down hsound hf ?_ hvt hot ?_ (ht.2 hvt)
  · rintro y rfl
    cases hB _ hb
  · rintro r name rfl hr
    refine htells t r name ht.1 hafter hb ?_ hr
    cases hm
    assumption

end MediaServer.Ref
