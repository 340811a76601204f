import MediaServer.Lib.Latest
import MediaServer.Proofs.Words

/-!
# Announcements to other pods are always taken back

A stream is announced to all other pods when its publisher connects, and
withdrawn by whatever takes the publisher away or reports that it lost its
connection. The withdrawals are in eight places of `session.go`, each behind
the flag `shouldNotify`; what has to hold is that the flag of a publisher in
its map says what the other pods were told last.

The proof follows the moves. Only `withdraws` and `announces` change the flag
of a publisher that stands in a map, and both tell the other pods. Erasing an
entry, dropping a map or leaving a seat comes after the peers concerned were
taken back and destroyed.
-/

namespace MediaServer.Ref

open MediaServer.Lib

variable {p q : Pod} {s : SessRef} {x : PeerRef} {b : Act}
variable {rid u k : String}

/-- What a note tells the other pods about a stream: it is there, or it is
gone. -/
def Note.word (rid u k : String) : Note → Option Bool
  | .fakePublish rid' u' k' =>
      if rid' = rid ∧ u' = u ∧ k' = k then some true else none
  | .fakeUnpublish rid' u' k' =>
      if rid' = rid ∧ u' = u ∧ k' = k then some false else none
  | _ => none

/-- The last broadcast about a stream. -/
def Pod.lastWord (p : Pod) (rid u k : String) : Option Bool :=
  latest (Note.word rid u k) p.notes

/-- The room has an origin session of the user, whose publisher under this id
is marked to be taken back. -/
def Pod.Announced (p : Pod) (rid u k : String) : Prop :=
  ∃ s x, p.seat rid u = some s ∧ (p.sess s).origin = true ∧
    (p.sess s).publishers.lookup k = some x ∧
    (p.peer x).shouldNotify = true

/-! ## The publishers that are shown -/

/-- The publisher stands in its map and is marked. -/
def Shown (p : Pod) (s : SessRef) (k : String) (x : PeerRef) : Prop :=
  p.entry .publisher s k = some x ∧ (p.peer x).shouldNotify = true

/-- `Announced` by the names of the session instead of its seat. -/
def Told (p : Pod) (rid u k : String) : Prop :=
  ∃ s x, Shown p s k x ∧ (p.sess s).origin = true ∧ (p.sess s).userid = u ∧
    (p.room (p.sess s).parent).roomid = rid

theorem announced_iff_told (h : Sound p) :
    p.Announced rid u k ↔ Told p rid u k := by
  constructor
  · rintro ⟨s, x, hseat, ho, hx, hn⟩
    obtain ⟨hu, hr, -, -⟩ := h.of_seat hseat
    exact ⟨s, x, ⟨hx, hn⟩, ho, hu, hr⟩
  · rintro ⟨s, x, ⟨hx, hn⟩, ho, rfl, rfl⟩
    exact ⟨s, x, h.seat_of_entry hx, ho, hx, hn⟩

/-- An entry of a publisher that is gone is not shown. -/
theorem not_shown_of_gone {role : Role} (hp : PodOk p)
    (hgone : p.entry role s k = some x → p.Gone x) (hrole : .publisher = role) :
    ¬Shown p s k x := by
  rintro ⟨hx, hn⟩
  subst hrole
  have hn' := (hgone hx).2 (hp.placed _ _ _ _ hx).2.2.1
  rw [hn] at hn'
  cases hn'

/-- No other move changes what is shown. -/
theorem Move.shown (h : Move b p q) (hp : PodOk p)
    (hw : ∀ s k x, b ≠ .withdraws s k x) (ha : ∀ x, b ≠ .announces x)
    (s : SessRef) (k : String) (x : PeerRef) :
    Shown q s k x ↔ Shown p s k x := by
  have hq : Shown q s k x ↔ b.entry p .publisher s k = some x ∧
      (b.peer p x).shouldNotify = true := by
    rw [Shown, h.entry hp, h.shouldNotify hp]
  rw [hq]
  cases h with
  | withdraws i l y => exact absurd rfl (hw i l y)
  | announces y => exact absurd rfl (ha y)
  | destroys i y =>
      simp only [Act.entry, Act.peer, Shown]
      split <;> rfl
  | offers y app =>
      simp only [Act.entry, Act.peer, Shown]
      split <;> rfl
  | accepts y =>
      simp only [Act.entry, Act.peer, Shown]
      split <;> rfl
  | erases role i l hgone =>
      simp only [Act.entry, Act.peer]
      split
      · next hat =>
          obtain ⟨hrole, rfl, rfl⟩ := hat
          have := not_shown_of_gone hp (hgone x) hrole
          exact ⟨fun h => (by cases h.1), fun h => absurd h this⟩
      · rfl
  | clears role i hgone =>
      simp only [Act.entry, Act.peer]
      split
      · next hat =>
          obtain ⟨hrole, rfl⟩ := hat
          have := not_shown_of_gone hp (hgone k x) hrole
          exact ⟨fun h => (by cases h.1), fun h => absurd h this⟩
      · rfl
  | adds i t hseat hpar ht hfree =>
      simp only [Act.entry, Act.peer]
      by_cases hx : x = p.peerHeap.next
      · subst hx
        rw [if_pos rfl, ht.2.2.1]
        refine ⟨fun h => (by cases h.2), fun h => ?_⟩
        exact absurd (hp.placed _ _ _ _ h.1).1 (Nat.lt_irrefl _)
      · rw [if_neg hx]
        split
        · next hat =>
            obtain ⟨hrole, rfl, rfl⟩ := hat
            rw [← hrole] at hfree
            refine ⟨fun h => absurd (Option.some.inj h.1).symm hx, fun h => ?_⟩
            rw [Shown, hfree] at h
            cases h.1
        · rfl
  | flags y st hst =>
      simp only [Act.entry, Act.peer]
      split
      · next hxy =>
          subst hxy
          cases st with
          | connected =>
              -- a subscriber has no entry among the publishers
              have hsub := hst rfl
              have hno : p.entry .publisher s k ≠ some x := fun hx => by
                rw [(hp.placed _ _ _ _ hx).2.2.1] at hsub
                cases hsub
              exact ⟨fun h => absurd h.1 hno, fun h => absurd h.1 hno⟩
          | disconnected | failed | closed => rfl
      · rfl
  | still | dies | sends | spawns | tells | unpush | leaves | beats | seats
  | unseats | vacates | opens | closes | takes => rfl

/-! ## The last word -/

/-- The name of a publisher in its map. -/
theorem Sound.name_unique {s' : SessRef} {x' : PeerRef} (h : Sound p)
    (hx : p.entry .publisher s k = some x)
    (hx' : p.entry .publisher s' k = some x')
    (hu : (p.sess s').userid = (p.sess s).userid)
    (hr : (p.room (p.sess s').parent).roomid =
      (p.room (p.sess s).parent).roomid) : s' = s ∧ x' = x := by
  have hs := h.seat_of_entry hx
  have hs' := h.seat_of_entry hx'
  rw [hu, hr, hs] at hs'
  cases hs'
  rw [hx] at hx'
  cases hx'
  exact ⟨rfl, rfl⟩

/-- Told of the same streams, if the same publishers are shown. -/
theorem Told.congr (hp : PodOk p) (hafter : After p q)
    (hshown : ∀ s x, Shown q s k x ↔ Shown p s k x) :
    Told q rid u k ↔ Told p rid u k := by
  have hnames : ∀ s x, Shown p s k x →
      (q.sess s).ident = (p.sess s).ident ∧
        (q.room (p.sess s).parent).roomid =
          (p.room (p.sess s).parent).roomid := by
    intro s x hx
    obtain ⟨r, v, hseat⟩ := hp.homed _ _ _ _ hx.1
    obtain ⟨-, hpar, hlt⟩ := hp.sessions r v s hseat
    refine ⟨hafter.sess s hlt, hafter.roomid _ ?_⟩
    rw [hpar]
    exact hp.known r v s hseat
  refine exists_congr fun s => exists_congr fun x => ?_
  rw [hshown]
  refine and_congr_right fun hx => ?_
  obtain ⟨hid, hroom⟩ := hnames s x hx
  have ho : (q.sess s).origin = (p.sess s).origin :=
    congrArg (·.2.2.2.2.1) hid
  have hu : (q.sess s).userid = (p.sess s).userid := congrArg (·.1) hid
  have hpar : (q.sess s).parent = (p.sess s).parent :=
    congrArg (·.2.2.2.2.2) hid
  rw [ho, hu, hpar, hroom]

/-- The other pods were told last of exactly the streams that are shown. -/
def Truthful (p : Pod) : Prop :=
  ∀ rid u k, p.lastWord rid u k = some true ↔ Told p rid u k

theorem lastWord_of_silent {l : List Note} (hn : q.notes = p.notes ++ l)
    (hl : ∀ n ∈ l, n.word rid u k = none) :
    q.lastWord rid u k = p.lastWord rid u k := by
  rw [Pod.lastWord, hn]
  exact latest_silent hl

/-- A note that is made under a condition, and that is not about the stream
then. -/
theorem silent_of_ite {c : Prop} [Decidable c] {n note : Note}
    (hn : n ∈ if c then [note] else [])
    (hsilent : c → note.word rid u k = none) : n.word rid u k = none := by
  split at hn
  · next hc =>
      rw [List.mem_singleton.mp hn]
      exact hsilent hc
  · cases hn

/-- Who is told of a stream, in terms of the state before. -/
theorem Shrinks.told_iff {R : SessRef → PeerRef → Prop} (h : Shrinks p q)
    (hshown : ∀ s x, Shown q s k x ↔ R s x) :
    Told q rid u k ↔ ∃ s x, R s x ∧ (p.sess s).origin = true ∧
      (p.sess s).userid = u ∧ (p.room (p.sess s).parent).roomid = rid := by
  refine exists_congr fun s => exists_congr fun x => ?_
  rw [hshown, h.origin, h.userid, h.parent, h.room]

theorem Move.truthful_withdraws {k₀ : String} {x₀ : PeerRef} {s₀ : SessRef}
    (h : Move (.withdraws s₀ k₀ x₀) p q) (hp : Sound p) (hf : p.fatal = false)
    (hI : Truthful p) : Truthful q := by
  have hnotes := h.notes hp.toPodOk hf
  have hsame := h.shrinks rfl
  have hx₀ : p.entry .publisher s₀ k₀ = some x₀ := by cases h; assumption
  have hshown : ∀ s k x, Shown q s k x ↔ Shown p s k x ∧ x ≠ x₀ := by
    intro s k x
    rw [Shown, Shown, h.entry hp.toPodOk, h.shouldNotify hp.toPodOk]
    simp only [Act.entry, Act.peer]
    split
    · next hx => simp [hx]
    · next hx => simp [hx]
  intro rid u k
  rw [hsame.told_iff fun s x => hshown s k x]
  by_cases hat : (p.sess s₀).origin = true ∧
      (p.room (p.sess s₀).parent).roomid = rid ∧ (p.sess s₀).userid = u ∧
      k₀ = k
  · obtain ⟨ho, rfl, rfl, rfl⟩ := hat
    -- the name leads to the withdrawn publisher only
    have hlast : q.lastWord (p.room (p.sess s₀).parent).roomid
        (p.sess s₀).userid k₀ = some false := by
      rw [Pod.lastWord, hnotes]
      refine latest_said (fun n hn c hc => ?_) ⟨.fakeUnpublish
        (p.room (p.sess s₀).parent).roomid (p.sess s₀).userid k₀, ?_, ?_⟩
      · rcases List.mem_append.mp hn with hn | hn
        · obtain ⟨e, -, rfl⟩ := List.mem_map.mp hn
          cases hc
        · rw [if_pos ho, List.mem_singleton] at hn
          subst hn
          simpa [Note.word] using hc.symm
      · exact List.mem_append_right _ (by rw [if_pos ho]; simp)
      · simp [Note.word]
    rw [hlast]
    refine ⟨fun h => (by cases h), ?_⟩
    rintro ⟨s, x, ⟨⟨hx, -⟩, hne⟩, -, hu, hr⟩
    exact absurd (hp.name_unique hx₀ hx hu hr).2 hne
  · have hlast : q.lastWord rid u k = p.lastWord rid u k := by
      refine lastWord_of_silent hnotes fun n hn => ?_
      rcases List.mem_append.mp hn with hn | hn
      · obtain ⟨e, -, rfl⟩ := List.mem_map.mp hn
        rfl
      · exact silent_of_ite hn fun ho => if_neg fun h => hat ⟨ho, h⟩
    rw [hlast, hI rid u k]
    refine exists_congr fun s => exists_congr fun x => ?_
    constructor
    · rintro ⟨hx, ho, hu, hr⟩
      refine ⟨⟨hx, ?_⟩, ho, hu, hr⟩
      rintro rfl
      obtain ⟨-, rfl, rfl⟩ := hp.placed.unique hx₀ hx.1
      exact hat ⟨ho, hr, hu, rfl⟩
    · rintro ⟨hx, hrest⟩
      exact ⟨hx.1, hrest⟩

theorem Move.truthful_announces {x₀ : PeerRef} (h : Move (.announces x₀) p q)
    (hp : Sound p) (hf : p.fatal = false) (hI : Truthful p) : Truthful q := by
  have hnotes := h.notes hp.toPodOk hf
  have hsame := h.shrinks rfl
  have hx₀ : p.entry .publisher (p.peer x₀).parent (p.peer x₀).peerid =
    some x₀ := by cases h; assumption
  have howner := (hp.publisher hx₀).1
  have hshown : ∀ s k x, Shown q s k x ↔ Shown p s k x ∨
      p.entry .publisher s k = some x ∧ x = x₀ := by
    intro s k x
    rw [Shown, Shown, h.entry hp.toPodOk, h.shouldNotify hp.toPodOk]
    simp only [Act.entry, Act.peer]
    split
    · next hx => simp only [hx, and_true]; tauto
    · next hx => simp [hx]
  intro rid u k
  rw [hsame.told_iff fun s x => hshown s k x]
  by_cases hat : (p.sess (p.peer x₀).parent).origin = true ∧
      (p.room (p.sess (p.peer x₀).parent).parent).roomid = rid ∧
      (p.peer x₀).userid = u ∧ (p.peer x₀).peerid = k
  · obtain ⟨ho, hr, hu, hk⟩ := hat
    have hlast : q.lastWord rid u k = some true := by
      rw [Pod.lastWord, hnotes, Act.notes, if_pos ho]
      refine latest_said (fun n hn c hc => ?_) ⟨_, List.mem_singleton_self _,
        if_pos ⟨hr, hu, hk⟩⟩
      rw [List.mem_singleton] at hn
      subst hn
      rw [Note.word, if_pos ⟨hr, hu, hk⟩] at hc
      exact (Option.some.inj hc).symm
    rw [hlast]
    refine ⟨fun _ => ⟨_, x₀, .inr ⟨?_, rfl⟩, ho, howner ▸ hu, hr⟩,
      fun _ => rfl⟩
    rw [← hk]
    exact hx₀
  · have hlast : q.lastWord rid u k = p.lastWord rid u k := by
      refine lastWord_of_silent hnotes fun n hn => ?_
      rw [Act.notes] at hn
      exact silent_of_ite hn fun ho => if_neg fun h => hat ⟨ho, h⟩
    rw [hlast, hI rid u k]
    refine exists_congr fun s => exists_congr fun x => ?_
    constructor
    · rintro ⟨hx, hrest⟩
      exact ⟨.inl hx, hrest⟩
    · rintro ⟨hx, ho, hu, hr⟩
      refine ⟨hx.resolve_right ?_, ho, hu, hr⟩
      rintro ⟨hent, rfl⟩
      obtain ⟨-, rfl, rfl⟩ := hp.placed.unique hx₀ hent
      exact hat ⟨ho, hr, howner.trans hu, rfl⟩

/-- The notes of the other moves are not for other pods. -/
theorem Move.silent (h : Move b p q) (hw : ∀ s k x, b ≠ .withdraws s k x)
    (ha : ∀ x, b ≠ .announces x) (n : Note) (hn : n ∈ b.notes p) :
    n.word rid u k = none := by
  cases h with
  | withdraws i l y => exact absurd rfl (hw i l y)
  | announces y => exact absurd rfl (ha y)
  | tells | unpush | leaves => rw [List.mem_singleton.mp hn]; rfl
  | still | dies | sends | spawns | destroys | erases | clears | adds | offers
  | accepts | flags | beats | seats | unseats | vacates | opens | closes
  | takes => cases hn

theorem Move.truthful (h : Move b p q) (hp : Sound p) (hf : p.fatal = false)
    (hI : Truthful p) : Truthful q := by
  by_cases hw : ∃ s k x, b = .withdraws s k x
  · obtain ⟨s, k, x, rfl⟩ := hw
    exact h.truthful_withdraws hp hf hI
  by_cases ha : ∃ x, b = .announces x
  · obtain ⟨x, rfl⟩ := ha
    exact h.truthful_announces hp hf hI
  have hw : ∀ s k x, b ≠ .withdraws s k x := fun s k x h => hw ⟨s, k, x, h⟩
  have ha : ∀ x, b ≠ .announces x := fun x h => ha ⟨x, h⟩
  intro rid u k
  rw [lastWord_of_silent (h.notes hp.toPodOk hf)
    fun n hn => h.silent hw ha n hn, hI rid u k]
  exact (Told.congr hp.toPodOk (h.after hp.toPodOk)
    fun s x => h.shown hp.toPodOk hw ha s k x).symm

/-! ## Runs -/

theorem reachable_truthful {conf : Config} (hr : Pod.Reachable conf p) :
    Truthful p := by
  obtain ⟨as, hrun⟩ := hr
  refine (run_invariant (P := fun p => InOrder p ∧ Truthful p)
    (fun a p q hp _ hs => ⟨step_inOrder hp.1 hs, ?_⟩) (guarded_true as _)
    ⟨createRoomMgr_inOrder conf, fun rid u k => ⟨fun h => ?_, ?_⟩⟩ hrun).2
  · exact (step_induction (P := Truthful) hp.1 hs hp.2
      fun _ hsound _ hf hm hI => hm.truthful hsound hf hI).1
  · cases h
  · rintro ⟨s, x, ⟨hx, -⟩, -⟩
    cases hx

/-- The step that takes a shown publisher of an origin session out of its map
tells the other pods. -/
theorem told_of_step {a : Env × Input} (hp : InOrder p)
    (hs : Pod.step a p = some q) (hseat : p.seat rid u = some s)
    (ho : (p.sess s).origin = true) (hx : Shown p s k x)
    (hgone : q.entry .publisher s k ≠ some x) :
    ∃ tr, q.notes = p.notes ++ tr ∧ .fakeUnpublish rid u k ∈ tr := by
  obtain ⟨hu, hr, -, hlt⟩ := hp.of_seat hseat
  have hroom : (p.sess s).parent < p.roomHeap.next := by
    obtain ⟨r, v, hv⟩ := hp.homed _ _ _ _ hx.1
    rw [(hp.sessions r v s hv).2.1]
    exact hp.known r v s hv
  have h := step_induction (P := fun t => ∃ tr, t.notes = p.notes ++ tr ∧
    (.fakeUnpublish rid u k ∈ tr ∨ Shown t s k x)) hp hs
    ⟨[], (List.append_nil _).symm, .inr hx⟩
    fun {b t t'} _ hsound hafter hf hm ht => by
      obtain ⟨tr, htr, hor⟩ := ht
      refine ⟨tr ++ b.notes t, ?_, ?_⟩
      · rw [hm.notes hsound.toPodOk hf, htr, List.append_assoc]
      rcases hor with hin | hshown
      · exact .inl (List.mem_append_left _ hin)
      by_cases hw : ∃ s' k', b = .withdraws s' k' x
      · obtain ⟨s', k', rfl⟩ := hw
        left
        have hx' : t.entry .publisher s' k' = some x := by cases hm; assumption
        obtain ⟨-, rfl, rfl⟩ := hsound.placed.unique hshown.1 hx'
        have hid := hafter.sess s' hlt
        have ho' : (t.sess s').origin = true :=
          (congrArg (·.2.2.2.2.1) hid).trans ho
        have hu' : (t.sess s').userid = u := (congrArg (·.1) hid).trans hu
        have hpar : (t.sess s').parent = (p.sess s').parent :=
          congrArg (·.2.2.2.2.2) hid
        refine List.mem_append_right _ (List.mem_append_right _ ?_)
        rw [if_pos ho', hu', hpar, hafter.roomid _ hroom, hr]
        exact List.mem_singleton_self _
      · right
        by_cases ha : ∃ y, b = .announces y
        · obtain ⟨y, rfl⟩ := ha
          refine ⟨by rw [hm.entry hsound.toPodOk]; exact hshown.1, ?_⟩
          rw [hm.shouldNotify hsound.toPodOk, Act.peer]
          split
          · rfl
          · exact hshown.2
        by_cases hw' : ∃ s' k' y, b = .withdraws s' k' y
        · obtain ⟨s', k', y, rfl⟩ := hw'
          refine ⟨by rw [hm.entry hsound.toPodOk]; exact hshown.1, ?_⟩
          rw [hm.shouldNotify hsound.toPodOk, Act.peer, if_neg]
          · exact hshown.2
          · rintro rfl
            exact hw ⟨s', k', rfl⟩
        exact (hm.shown hsound.toPodOk (fun s' k' y h => hw' ⟨s', k', y, h⟩)
          (fun y h => ha ⟨y, h⟩) s k x).mpr hshown
  obtain ⟨tr, htr, hin | hshown⟩ := h.1
  · exact ⟨tr, htr, hin⟩
  · exact absurd hshown.1 hgone

/-- In every state, and for every stream: the last broadcast was an
announcement exactly if the room has an origin session of the user with that
publisher marked; and no such publisher leaves its map without the broadcast
that takes it back. -/
theorem announcements_withdrawn {conf : Config} (hr : Pod.Reachable conf p)
    (rid u k : String) :
    (p.lastWord rid u k = some true ↔ p.Announced rid u k) ∧
    ∀ a q s x, Pod.step a p = some q → p.seat rid u = some s →
      (p.sess s).origin = true → (p.sess s).publishers.lookup k = some x →
      (p.peer x).shouldNotify = true →
      (q.sess s).publishers.lookup k ≠ some x →
      ∃ tr, q.notes = p.notes ++ tr ∧ .fakeUnpublish rid u k ∈ tr := by
  have hp := reachable_inOrder hr
  refine ⟨?_, fun a q s x hs hseat ho hx hn hgone =>
    told_of_step hp hs hseat ho ⟨hx, hn⟩ hgone⟩
  rw [announced_iff_told hp.toSound]
  exact reachable_truthful hr rid u k

/-- A user publishes a stream and its publisher connects. -/
def streamUp : List (Env × Input) :=
  [(Env.calm, .setSendMessageHandler),
    (Env.calm, .message (Cmd.login.msg [(.roomId, "R"), (.sessID, "u")])),
    (Env.calm, .message (Cmd.push.msg
      [(.roomId, "R"), (.sessID, "u"), (.peerID, "1")])),
    (Env.calm, .ice 0 .connected)]

/-- The user leaves. -/
def leaveAfter : Env × Input :=
  (Env.calm, .message (Cmd.logout.msg [(.roomId, "R"), (.sessID, "u")]))

theorem announcements_withdrawn_streamUp :
    ∃ p q, Pod.Reachable (Config.standalone "podA") p ∧
      p.lastWord "R" "u" "1" = some true ∧
      Pod.step leaveAfter p = some q ∧
      ∃ tr, q.notes = p.notes ++ tr ∧ .fakeUnpublish "R" "u" "1" ∈ tr := by
  have h : (run Pod.step streamUp
      (Pod.createRoomMgr (Config.standalone "podA"))).map (fun p =>
        (p.seat "R" "u", (p.sess 0).origin, (p.sess 0).publishers.lookup "1",
          (p.peer 0).shouldNotify, (Pod.step leaveAfter p).map fun q =>
            (q.sess 0).publishers.lookup "1")) =
      some (some 0, true, some 0, true, some none) := by decide
  obtain ⟨p, hp, hfacts⟩ := Option.map_eq_some_iff.mp h
  simp only [Prod.mk.injEq] at hfacts
  obtain ⟨hseat, ho, hx, hn, hstep⟩ := hfacts
  obtain ⟨q, hq, hgone⟩ := Option.map_eq_some_iff.mp hstep
  have hr : Pod.Reachable (Config.standalone "podA") p := ⟨streamUp, hp⟩
  obtain ⟨hiff, hwithdrawn⟩ := announcements_withdrawn hr "R" "u" "1"
  exact ⟨p, q, hr, hiff.mpr ⟨0, 0, hseat, ho, hx, hn⟩, hq,
    hwithdrawn leaveAfter q 0 0 hq hseat ho hx hn (by rw [hgone]; exact nofun)⟩

end MediaServer.Ref
