import MediaServer.Lib.Mirror
import MediaServer.Proofs.Ghosts
import MediaServer.Proofs.Latecomers
import MediaServer.Proofs.Serving

/-!
# A pod as the source of a user's streams

The pod on which user `u` of room `rid` is logged in announces their streams
to another pod, withdraws them and offers them on request. Seen from the other
pod these messages are the words of `Mirror.lean` (`word`), and a step of the
pod says what a source may say (`Home.spoken`).

The streams that are told are those whose publisher is marked. Between two
calls a ready publisher is marked, and a marked one that is not ready is about
to be released. One condition of the abstract source is not met by the code in
general: the words speak of one stream at a time only as long as the user
publishes one stream at a time.
-/

namespace MediaServer.Ref

open MediaServer.Lib Relation

variable {p q t : Pod} {s : SessRef} {x y : PeerRef} {r : RoomRef}
variable {rid u k pod : String} {m : JsonParser} {a : Env × Input}

/-! ## Flags between two calls -/

theorem step_ice {st : IceState} (hs : Pod.step a p = some q)
    (ha : a.2 = .ice x st) :
    x < p.peerHeap.next ∧ q = p.onICEConnectionStateChange x st := by
  have hf := step_fatal hs
  unfold Pod.step at hs
  rw [if_neg (by simp [hf]), ha] at hs
  dsimp only at hs
  split at hs
  · next hx => cases hs; exact ⟨hx, rfl⟩
  · cases hs

/-- The callback sets flags of its own peer only. -/
theorem step_ice_other {st : IceState} (hp : InOrder p)
    (hs : Pod.step a p = some q) (ha : a.2 = .ice x st) (hy : y ≠ x) :
    (q.peer y).isReady = (p.peer y).isReady ∧
      (q.peer y).shouldNotify = (p.peer y).shouldNotify := by
  refine (step_induction (P := fun t =>
    (t.peer y).isReady = (p.peer y).isReady ∧
      (t.peer y).shouldNotify = (p.peer y).shouldNotify) hp hs ⟨rfl, rfl⟩
    fun {b t t'} hb hsound _ _ hm ht => ?_).1
  rw [hm.isReady hsound.toPodOk, hm.shouldNotify hsound.toPodOk]
  have hice : ∀ {z st'}, a.2 = .ice z st' → y ≠ z := by
    intro z st' hz
    rw [ha] at hz
    cases hz
    exact hy
  cases b with
  | flags z st' => simp only [Act.peer, if_neg (hice hb)]; exact ht
  | announces z => simp only [Act.peer, if_neg (hice hb)]; exact ht
  | withdraws i l z =>
      rcases hb with hb | ⟨m, r, hm, -⟩ | ⟨i, g, hg, -⟩
      · simp only [Act.peer, if_neg (hice hb)]; exact ht
      · cases ha.symm.trans hm
      · cases ha.symm.trans hg
  | destroys i z =>
      simp only [Act.peer]
      split
      · exact ht
      · exact ht
  | adds i z =>
      obtain ⟨m, r, hm, -⟩ := hb
      cases ha.symm.trans hm
  | offers z =>
      obtain ⟨-, m, r, hm, -⟩ := hb
      cases ha.symm.trans hm
  | accepts z =>
      obtain ⟨m, r, i, hm, -⟩ := hb
      cases ha.symm.trans hm
  | still | dies | sends | spawns | tells | unpush | leaves | erases | clears
  | beats | seats | unseats | vacates | opens | closes | takes => exact ht

/-- What is reported other than a connection leaves the flag alone. -/
theorem reportIce_isReady {st : IceState} (hp : Ready p) (hsound : Sound p)
    (hf : p.fatal = false) (hst : st ≠ .connected)
    (hy : y < p.peerHeap.next) :
    ((p.reportIce x st).peer y).isReady = (p.peer y).isReady := by
  have hcalm : Calm (fun b => b.inner = true ∧ b.flagless = true) p
      (p.reportIce x st) :=
    reportIce_calm (c := none)
      ⟨⟨rfl, rfl⟩, ⟨rfl, rfl⟩, fun _ _ => ⟨rfl, rfl⟩⟩ hst
      (fun _ _ _ _ => ⟨rfl, rfl⟩) fun _ _ => ⟨rfl, rfl⟩
  exact ((hcalm hp hf).1.traced hsound fun _ hb => hb.1).isReady
    (fun _ hb => hb.elim (fun _ h => h.2) fun _ _ _ => rfl) hy

/-- After the callback the flag says what was reported. -/
theorem step_ice_ready {st : IceState} (hp : InOrder p)
    (hs : Pod.step a p = some q) (ha : a.2 = .ice x st)
    (hc : (p.peer x).closed = 0) :
    (q.peer x).isReady = decide (st = .connected) := by
  have hf := step_fatal hs
  have hquiet := p.setIceFlags_quiet x st
  have hflag : ((p.setIceFlags x st).peer x).isReady =
      decide (st = .connected) := by
    rw [setIceFlags_peer]
    cases st <;> simp [Act.peer]
  obtain ⟨hx, rfl⟩ := step_ice hs ha
  unfold Pod.onICEConnectionStateChange
  rw [if_neg (by simp [hc]), ← hflag]
  by_cases hst : st = .connected
  · subst hst
    rw [Pod.reportIce, onIceReady_peer]
  · exact reportIce_isReady (hp.ready.of_asks hquiet)
      (hquiet.shrinks.sound hp.toSound) hf hst
      (by rw [hquiet.peerNext]; exact hx)

theorem step_marked (hp : InOrder p) (hI : ∀ y, (p.peer y).Marked)
    (hs : Pod.step a p = some q) (y : PeerRef) : (q.peer y).Marked := by
  by_cases hdis : ∃ x, a.2 = .ice x .disconnected
  · obtain ⟨x, hx⟩ := hdis
    have hasks := p.onICEConnectionStateChange_asks x .disconnected
    rw [← (step_ice hs hx).2] at hasks
    intro hrole hc hready
    rw [hasks.closed] at hc
    by_cases hy : y = x
    · subst hy
      rw [step_ice_ready hp hs hx hc] at hready
      cases hready
    · obtain ⟨hr, hn⟩ := step_ice_other hp hs hx hy
      rw [(Peer.ident_eq (hasks.peerIdent y)).2.2.2.1] at hrole
      rw [hr] at hready
      rw [hn]
      exact hI y hrole hc hready
  · exact (step_moves hp.ready hs).marked hp.toPodOk
      (fun i l z hw => hdis ⟨z, hw⟩) hI y

/-- A marked publisher is ready, or a call is pending that will release it. -/
def Owing (p : Pod) : Prop :=
  ∀ s k x, Shown p s k x → (p.peer x).isReady = true ∨
    ∃ g ∈ p.pending, g.releases (p.sess s).parent (p.sess s).userid k

theorem release?_of_releases {g : Goroutine} (h : g.releases r u k) :
    ∃ c, g.release? = some ⟨.inl (r, u), .publisher, k, c⟩ := by
  cases g with
  | onPublisherPeerFailed r' u' k' c =>
      obtain ⟨rfl, rfl, rfl⟩ := h
      exact ⟨c, rfl⟩
  | onPublisherPeerClosed r' u' k' c =>
      obtain ⟨rfl, rfl, rfl⟩ := h
      exact ⟨c, rfl⟩
  | _ => exact h.elim

/-- The release takes the publisher out. -/
theorem step_releases {g : Goroutine} (hp : InOrder p)
    (hs : Pod.step a p = some q) (hg : a.2.call? p = some g)
    (hrel : g.releases (p.sess s).parent (p.sess s).userid k)
    (hx : p.entry .publisher s k = some x) :
    q.entry .publisher s k ≠ some x := by
  obtain ⟨c, hl⟩ := release?_of_releases hrel
  obtain ⟨i, hi⟩ : ∃ i, a.2 = .go i := by
    cases ha : a.2 with
    | go i => exact ⟨i, rfl⟩
    | _ => rw [ha] at hg; cases hg
  rw [hi] at hg
  obtain rfl := step_go hs hi hg
  have hrem := runGoroutine_removes a.1
    (hp.of_pending (p.pending.eraseIdx i)).placed hl
  intro hq
  refine ((hrem.entry _ _ _ _).mp hq).2 ⟨s, ?_, .inl hx⟩
  exact Homed.seat hp.toPodOk hx

theorem step_owing (hp : InOrder p) (hI : Owing p)
    (hs : Pod.step a p = some q) : Owing q := by
  intro s k x hx
  have hafter := step_after hp hs
  have hkeep : Shown p s k x → (q.peer x).isReady = (p.peer x).isReady →
      (q.peer x).isReady = true ∨ ∃ g ∈ q.pending,
        g.releases (q.sess s).parent (q.sess s).userid k := by
    intro hxp hr
    have hid := hafter.sess s (hp.placed _ _ _ _ hxp.1).2.1
    rw [hr, show (q.sess s).parent = (p.sess s).parent from
      congrArg (·.2.2.2.2.2) hid, show (q.sess s).userid = (p.sess s).userid
        from congrArg (·.1) hid]
    refine (hI s k x hxp).imp_right fun ⟨g, hg, hrel⟩ => ⟨g, ?_, hrel⟩
    refine step_pending hp hs hg fun hcall => ?_
    exact step_releases hp hs hcall hrel hxp.1 hx.1
  by_cases hice : ∃ y st, a.2 = .ice y st
  · obtain ⟨y, st, ha⟩ := hice
    have hasks := p.onICEConnectionStateChange_asks y st
    have hq := (step_ice hs ha).2
    rw [← hq] at hasks
    have hxp : p.entry .publisher s k = some x := by
      rw [← hasks.entry]; exact hx.1
    by_cases hxy : x = y
    · subst hxy
      have hc := hp.lives.mapped x ⟨_, _, _, hxp⟩
      have hquiet := p.setIceFlags_quiet x st
      have hready := step_ice_ready hp hs ha hc
      cases st with
      | connected => exact .inl hready
      | disconnected =>
          rw [Pod.onICEConnectionStateChange, if_neg (by simp [hc])] at hq
          rw [hq] at hx
          refine absurd hx (reportIce_withdraws
            (hquiet.shrinks.podOk hp.toPodOk) ?_)
          rw [hquiet.entry]
          exact hxp
      | failed | closed =>
          rw [Pod.onICEConnectionStateChange, if_neg (by simp [hc])] at hq
          right
          rw [hq, (Pod.reportIce_asks x _ _).parent,
            (Pod.reportIce_asks x _ _).userid]
          refine reportIce_releases (hquiet.shrinks.sound hp.toSound) ?_
            (by simp)
          rw [hquiet.entry]
          exact hxp
    · obtain ⟨hr, hn⟩ := step_ice_other hp hs ha hxy
      exact hkeep ⟨hxp, by rw [← hn]; exact hx.2⟩ hr
  · have hB : ∀ b, Also (Foot p a.1 a.2) b → b.flagless = true := by
      intro b hb
      cases b with
      | flags y st => exact absurd ⟨y, st, hb⟩ hice
      | announces y => exact absurd ⟨y, _, hb⟩ hice
      | _ => rfl
    have htraced := step_traced hp hs
    have hxp := htraced.shown_back hB hx
    exact hkeep hxp (htraced.isReady hB (hp.placed _ _ _ _ hxp.1).1)

/-! ## Words -/

/-- What a message tells the other pod about the streams of user `u`. -/
def word (rid u : String) (m : JsonParser) : Option (Word String) :=
  if getValue m .roomId = rid ∧ getValue m .sessID = u then
    match command m with
    | some .fakePublish => some (.announce (getValue m .peerID))
    | some .fakeUnpublish => some .withdraw
    | some .fakeOffer => some (.offer (getValue m .peerID))
    | _ => none
  else none

theorem word_fakeUnpublishMsg (p : Pod) (s : SessRef) (pid : String) :
    word rid u (p.fakeUnpublishMsg (p.sess s).parent (p.sess s).userid pid) =
      if p.Named s rid u then some .withdraw else none := by
  simp only [word, Pod.fakeUnpublishMsg, command_cons]
  rfl

theorem word_fakePublishMsg (p : Pod) (s : SessRef) (pid : String) :
    word rid u (p.fakePublishMsg s (p.sess s).userid pid) =
      if p.Named s rid u then some (.announce pid) else none := by
  simp only [word, Pod.fakePublishMsg, command_cons]
  rfl

/-- What is sent by the way is a word only in answer to a request. -/
theorem word_of_for {c : Option Cmd} {e : Event} (h : e.For c)
    (hc : c ≠ some .roomCreated) (hf : c ≠ some .fakeSubscribe)
    (hm : e.crossTo pod = some m) : word rid u m = none := by
  have hcmd : e.cmd = command m := by
    cases e with
    | broadcastCrossCluster => cases hm; rfl
    | toPod key | toCrossClusterPod key =>
        simp only [Event.crossTo] at hm
        split at hm
        · cases hm; rfl
        · cases hm
    | sync | deliverAudio | deliverVideo | deliverApp | toClient | toLB
    | destroy => cases hm
  obtain ⟨hun, hpub, hoff⟩ := h
  rw [hcmd] at hun hpub hoff
  unfold word
  split
  · split
    · next h => exact absurd (hpub h) hc
    · next h => exact absurd h hun
    · next h => exact absurd (hoff h) hf
    · rfl
  · rfl

/-! ## The streams of the user -/

/-- User `u` of room `rid` has a publisher under this id. -/
def Pod.Publishes (p : Pod) (rid u k : String) : Prop :=
  ∃ s x, p.Named s rid u ∧ p.entry .publisher s k = some x

/-- They have one that is ready. -/
def Pod.Up (p : Pod) (rid u k : String) : Prop :=
  ∃ s x, p.Named s rid u ∧ p.entry .publisher s k = some x ∧
    (p.peer x).isReady = true

theorem Sound.isUp_iff_up (hp : Sound p) :
    p.isUp rid u k = true ↔ p.Up rid u k := by
  rw [isUp_iff]
  constructor
  · rintro ⟨s, hs, hready⟩
    obtain ⟨x, hx, hready⟩ := readyAt_iff.mp hready
    obtain ⟨hu, hr, -, -⟩ := hp.of_seat hs
    exact ⟨s, x, ⟨hr, hu⟩, hx, hready⟩
  · rintro ⟨s, x, ⟨rfl, rfl⟩, hx, hready⟩
    exact ⟨s, hp.seat_of_entry hx, readyAt_iff.mpr ⟨x, hx, hready⟩⟩

theorem Marks.publishes (h : Marks p rid u k) : p.Publishes rid u k := by
  obtain ⟨s, x, hx, hn⟩ := h
  exact ⟨s, x, hn, hx.1⟩

section Move

variable {b : Act} {t' : Pod}

theorem Move.marks_iff (h : Move b t t') (ht : PodOk t)
    (hw : ∀ s k x, b ≠ .withdraws s k x) (ha : ∀ x, b ≠ .announces x) :
    Marks t' rid u k ↔ Marks t rid u k := by
  refine exists_congr fun s => exists_congr fun x => ?_
  rw [h.shown ht hw ha]
  exact and_congr_right fun hx => (h.after ht).named_of_entry ht hx.1

theorem Move.up_back (h : Move b t t') (ht : PodOk t)
    (ha : ∀ y, b ≠ .announces y) (hup : t'.Up rid u k) : t.Up rid u k := by
  obtain ⟨s, x, hn, hx, hr⟩ := hup
  obtain ⟨hx, hr⟩ := h.ready_back ht ha hx hr
  exact ⟨s, x, ((h.after ht).named_of_entry ht hx).mp hn, hx, hr⟩

/-- Withdrawing the only stream leaves none. -/
theorem Move.no_marks {i : SessRef} {l : String} {y : PeerRef}
    (h : Move (.withdraws i l y) t t') (ht : Sound t) (hi : t.Named i rid u)
    (hone : ∀ k, t.Publishes rid u k → k = l) : ¬Marks t' rid u k := by
  have hy : t.entry .publisher i l = some y := by cases h; assumption
  rintro ⟨s, x, hx, hn⟩
  obtain ⟨hx, hne⟩ := (h.shown_withdraws ht.toPodOk s k x).mp hx
  have hn := ((h.after ht.toPodOk).named_of_entry ht.toPodOk hx.1).mp hn
  obtain rfl := hone k ⟨s, x, hn, hx.1⟩
  exact hne (ht.name_unique hy hx.1 (hn.2.trans hi.2.symm)
    (hn.1.trans hi.1.symm)).2

/-- Withdrawing a stream of somebody else changes nothing. -/
theorem Move.marks_withdraws {i : SessRef} {l : String} {y : PeerRef}
    (h : Move (.withdraws i l y) t t') (ht : PodOk t)
    (hi : ¬t.Named i rid u) : Marks t' rid u k ↔ Marks t rid u k := by
  have hy : t.entry .publisher i l = some y := by cases h; assumption
  refine exists_congr fun s => exists_congr fun x => ?_
  rw [h.shown_withdraws ht]
  constructor
  · rintro ⟨⟨hx, -⟩, hn⟩
    exact ⟨hx, ((h.after ht).named_of_entry ht hx.1).mp hn⟩
  · rintro ⟨hx, hn⟩
    refine ⟨⟨hx, ?_⟩, ((h.after ht).named_of_entry ht hx.1).mpr hn⟩
    rintro rfl
    have hpar := (ht.placed _ _ _ _ hx.1).2.2.2.1
    rw [(ht.placed _ _ _ _ hy).2.2.2.1] at hpar
    rw [hpar] at hi
    exact hi hn

theorem Move.shown_announces (h : Move (.announces y) t t') (ht : PodOk t)
    (s : SessRef) (k : String) (x : PeerRef) :
    Shown t' s k x ↔
      Shown t s k x ∨ t.entry .publisher s k = some x ∧ x = y := by
  rw [Shown, Shown, h.entry ht, h.shouldNotify ht]
  simp only [Act.entry, Act.peer]
  split
  · next hx =>
      subst hx
      constructor
      · rintro ⟨hx, -⟩
        exact .inr ⟨hx, rfl⟩
      · rintro (⟨hx, -⟩ | ⟨hx, -⟩)
        · exact ⟨hx, rfl⟩
        · exact ⟨hx, rfl⟩
  · next hx => simp [hx]

/-- So does announcing one. -/
theorem Move.marks_announces (h : Move (.announces y) t t') (ht : PodOk t)
    (hy : ¬t.Named (t.peer y).parent rid u) :
    Marks t' rid u k ↔ Marks t rid u k := by
  refine exists_congr fun s => exists_congr fun x => ?_
  rw [h.shown_announces ht]
  constructor
  · rintro ⟨hx | ⟨hx, rfl⟩, hn⟩
    · exact ⟨hx, ((h.after ht).named_of_entry ht hx.1).mp hn⟩
    · rw [(ht.placed _ _ _ _ hx).2.2.2.1] at hy
      exact absurd (((h.after ht).named_of_entry ht hx).mp hn) hy
  · rintro ⟨hx, hn⟩
    exact ⟨.inl hx, ((h.after ht).named_of_entry ht hx.1).mpr hn⟩

theorem Move.up_announces (h : Move (.announces y) t t') (ht : PodOk t)
    (hy : ¬t.Named (t.peer y).parent rid u) (hup : t'.Up rid u k) :
    t.Up rid u k := by
  obtain ⟨s, x, hn, hx, hr⟩ := hup
  rw [h.entry ht] at hx
  have hx : t.entry .publisher s k = some x := hx
  have hn := ((h.after ht).named_of_entry ht hx).mp hn
  refine ⟨s, x, hn, hx, ?_⟩
  rw [h.isReady ht] at hr
  simp only [Act.peer] at hr
  split at hr
  · next hxy =>
      subst hxy
      rw [(ht.placed _ _ _ _ hx).2.2.2.1] at hy
      exact absurd hn hy
  · exact hr

/-- Announcing the only stream marks this one. -/
theorem Move.one_mark (h : Move (.announces y) t t') (ht : PodOk t)
    (hy : t.Named (t.peer y).parent rid u)
    (hone : ∀ k, t.Publishes rid u k → k = (t.peer y).peerid) :
    Marks t' rid u k ↔ k = (t.peer y).peerid := by
  have hx : t.entry .publisher (t.peer y).parent (t.peer y).peerid =
      some y := by
    cases h; assumption
  constructor
  · rintro ⟨s, x, hs, hn⟩
    have hs : t.entry .publisher s k = some x :=
      ((h.shown_announces ht s k x).mp hs).elim (·.1) (·.1)
    exact hone k ⟨s, x, ((h.after ht).named_of_entry ht hs).mp hn, hs⟩
  · rintro rfl
    exact ⟨_, y, (h.shown_announces ht _ _ y).mpr (.inr ⟨hx, rfl⟩),
      ((h.after ht).named_of_entry ht hx).mpr hy⟩

end Move

/-! ## The publishers on the way -/

/-- The message stores a publisher under this id in this session. -/
def Stores (p : Pod) (a : Input) (s : SessRef) (k : String) : Prop :=
  ∃ m, a = .message m ∧
    (command m = some .push ∨ command m = some .fakeOffer) ∧
    k = getValue m .peerID ∧
    p.seat (getValue m .roomId) (getValue m .sessID) = some s

/-- Every publisher of `t` was there before or is the one that is stored. -/
def Within (p : Pod) (a : Input) (t : Pod) : Prop :=
  ∀ s k x, t.entry .publisher s k = some x →
    p.entry .publisher s k = some x ∨ Stores p a s k

theorem stores_of_adds {y : Peer} (h : Adds p s m y)
    (hrole : y.role = .publisher) :
    (command m = some .push ∨ command m = some .fakeOffer) ∧
      y.key = getValue m .peerID := by
  unfold Adds at h
  split at h
  · next hc => subst h; exact ⟨.inl hc, rfl⟩
  · next hc => subst h; exact ⟨.inr hc, rfl⟩
  · obtain ⟨-, sdp, rfl⟩ := h; cases hrole
  · obtain ⟨-, sdp, rfl⟩ := h; cases hrole
  · cases h

theorem Within.move {b : Act} {t' : Pod} (h : Within p a.2 t)
    (hb : Also (Foot p a.1 a.2) b) (ht : PodOk t) (hm : Move b t t') :
    Within p a.2 t' := by
  intro s k x hx
  rw [hm.entry ht] at hx
  cases hm with
  | adds i y =>
      simp only [Act.entry] at hx
      split at hx
      · next hat =>
          obtain ⟨hrole, rfl, rfl⟩ := hat
          obtain ⟨m, r, hmsg, hreach, hroute, hadd⟩ := hb
          obtain ⟨hc, hkey⟩ := stores_of_adds hadd hrole.symm
          have hnl : command m ≠ some .login := by
            rcases hc with hc | hc <;> simp [hc]
          have hto : route m = getValue m .sessID := by
            rcases hc with hc | hc <;> simp only [route, hc]
          rw [hto] at hroute
          exact .inr ⟨m, hmsg, hc, hkey,
            seat_eq_some.mpr ⟨r, (hreach.known hnl).1, hroute⟩⟩
      · exact h s k x hx
  | erases | clears =>
      simp only [Act.entry] at hx
      split at hx
      · cases hx
      · exact h s k x hx
  | still | dies | sends | spawns | tells | unpush | leaves | withdraws
  | destroys | offers | accepts | flags | announces | beats | takes | seats
  | unseats | vacates | opens | closes => exact h s k x hx

theorem step_within (hp : InOrder p) (hs : Pod.step a p = some q) :
    Within p a.2 q :=
  (step_induction (P := Within p a.2) hp hs (fun _ _ _ hx => .inl hx)
    fun hb hsound _ _ hm ht => ht.move hb hsound.toPodOk hm).1

/-- The sessions that publish on the way were there before. -/
theorem Within.lt (h : Within p a.2 t) (hp : Sound p)
    (hx : t.entry .publisher s k = some x) : s < p.sessHeap.next := by
  rcases h s k x hx with hx | ⟨m, -, -, -, hseat⟩
  · exact (hp.placed _ _ _ _ hx).2.1
  · exact (hp.of_seat hseat).2.2.2

/-! ## A pod that a user is at home on -/

/-- User `u` of room `rid` has sessions of their own only on this pod, and
publishes one stream at a time. -/
structure Home (rid u : String) (p : Pod) : Prop extends InOrder p where
  rooted : Rooted p
  marked : ∀ y, (p.peer y).Marked
  owing : Owing p
  origin : ∀ s, s < p.sessHeap.next → p.Named s rid u →
    (p.sess s).origin = true
  single : ∀ k l, p.Publishes rid u k → p.Publishes rid u l → k = l

/-- What keeps it so: no other pod announces or offers a stream of the user,
and a stream is published only when there is none under another id. -/
def AtHome (rid u : String) (p : Pod) (a : Input) : Prop :=
  ∀ m, a = .message m → getValue m .roomId = rid → getValue m .sessID = u →
    command m ≠ some .fakePublish ∧ command m ≠ some .fakeOffer ∧
      (command m = some .push →
        ∀ l, p.Publishes rid u l → l = getValue m .peerID)

namespace Home

variable (h : Home rid u p)
include h

theorem marks_of_up (hk : p.Up rid u k) : Marks p rid u k := by
  obtain ⟨s, x, hn, hx, hr⟩ := hk
  exact ⟨s, x, ⟨hx, h.marked x (h.placed _ _ _ _ hx).2.2.1
    (h.lives.mapped x ⟨_, _, _, hx⟩) hr⟩, hn⟩

/-- At rest every stream that is told is ready. -/
theorem up_of_marks (hrest : p.pending = []) (hk : Marks p rid u k) :
    p.Up rid u k := by
  obtain ⟨s, x, hx, hn⟩ := hk
  rcases h.owing s k x hx with hr | ⟨g, hg, -⟩
  · exact ⟨s, x, hn, hx.1, hr⟩
  · rw [hrest] at hg; cases hg

/-- A publisher of the user belongs to a session of their own. -/
theorem origin_of_entry (hafter : After p t) (ha : Within p a.2 t)
    (hx : t.entry .publisher s k = some x) (hn : t.Named s rid u) :
    (t.sess s).origin = true := by
  have hlt := ha.lt h.toSound hx
  rw [show (t.sess s).origin = (p.sess s).origin from
    congrArg (·.2.2.2.2.1) (hafter.sess s hlt)]
  exact h.origin s hlt ((hafter.named h.rooted hlt).mp hn)

/-- The user publishes one stream on the way too. -/
theorem single_within (hin : AtHome rid u p a.2) (hafter : After p t)
    (ha : Within p a.2 t) {l : String} (hk : t.Publishes rid u k)
    (hl : t.Publishes rid u l) : k = l := by
  have hone : ∀ {k}, t.Publishes rid u k → p.Publishes rid u k ∨
      ∃ m, a.2 = .message m ∧ k = getValue m .peerID ∧
        ∀ l, p.Publishes rid u l → l = k := by
    rintro k ⟨s, x, hn, hx⟩
    have hn := (hafter.named h.rooted (ha.lt h.toSound hx)).mp hn
    rcases ha s k x hx with hx | ⟨m, hm, hc, rfl, hseat⟩
    · exact .inl ⟨s, x, hn, hx⟩
    · obtain ⟨hu, hr, -, -⟩ := h.toSound.of_seat hseat
      obtain ⟨-, hoff, hpush⟩ := hin m hm (hr.symm.trans hn.1)
        (hu.symm.trans hn.2)
      exact .inr ⟨m, hm, rfl, hpush (hc.resolve_right hoff)⟩
  rcases hone hk with hk | ⟨m, hm, hkm, hk⟩
  · rcases hone hl with hl | ⟨-, -, -, hl⟩
    · exact h.single k l hk hl
    · exact hl k hk
  · rcases hone hl with hl | ⟨m', hm', hlm, -⟩
    · exact (hk l hl).symm
    · rw [hm] at hm'
      cases hm'
      exact hkm.trans hlm.symm

end Home

/-! ## What the pod says -/

/-- What was said on the way to `t`, and which streams are told there. -/
inductive Speech (rid u : String) (p : Pod) (a : Input) (t : Pod) :
    List (Word String) → Prop where
  | still (hm : ∀ k, Marks t rid u k ↔ Marks p rid u k)
      (hu : ∀ k, t.Up rid u k → p.Up rid u k) : Speech rid u p a t []
  | withdraw {ws : List (Word String)} (hne : ws ≠ [])
      (h : ∀ w ∈ ws, w = .withdraw) (hm : ∀ k, ¬Marks t rid u k)
      (ha : ∀ x, a ≠ .ice x .connected) : Speech rid u p a t ws
  | announce {ws : List (Word String)} {k : String} (hne : ws ≠ [])
      (h : ∀ w ∈ ws, w = .announce k) (ha : ∃ x, a = .ice x .connected)
      (hm : ∀ l, Marks t rid u l ↔ l = k)
      (hp : ∀ l, Marks p rid u l → l = k) : Speech rid u p a t ws

theorem Speech.keep {t' : Pod} {ws : List (Word String)}
    (h : Speech rid u p a.2 t ws)
    (hm : ∀ k, Marks t' rid u k ↔ Marks t rid u k)
    (hu : ∀ k, t'.Up rid u k → t.Up rid u k) : Speech rid u p a.2 t' ws := by
  cases h with
  | still hm' hu' =>
      exact .still (fun k => (hm k).trans (hm' k)) fun k hk => hu' k (hu k hk)
  | withdraw hne hws hm' ha =>
      exact .withdraw hne hws (fun k hk => hm' k ((hm k).mp hk)) ha
  | announce hne hws ha hm' hp =>
      exact .announce hne hws ha (fun l => (hm l).trans (hm' l)) hp

namespace Home

variable {b : Act} {t' : Pod} {ws : List (Word String)}

section Moves

variable (hp : Home rid u p) (hin : AtHome rid u p a.2) (hsound : Sound t)
variable (hafter : After p t) (hw : Within p a.2 t)
include hp hin hsound hafter hw

theorem speech_withdraws {i : SessRef} {l : String} {y : PeerRef}
    (hb : Also (Foot p a.1 a.2) (.withdraws i l y))
    (hm : Move (.withdraws i l y) t t') (h : Speech rid u p a.2 t ws) :
    Speech rid u p a.2 t' (ws ++
      ((Act.withdraws i l y).sent pod t).filterMap (word rid u)) := by
  have hy : t.entry .publisher i l = some y := by cases hm; assumption
  have hice : ∀ x, a.2 ≠ .ice x .connected := by
    intro x hx
    rcases hb with hb | ⟨m, r, hb, -⟩ | ⟨j, g, hb, -⟩
    · cases hx.symm.trans hb
    · cases hx.symm.trans hb
    · cases hx.symm.trans hb
  simp only [Act.sent]
  by_cases hi : t.Named i rid u
  · have hnone : ∀ k, ¬Marks t' rid u k := fun k =>
      hm.no_marks hsound hi fun l hl =>
        hp.single_within hin hafter hw hl ⟨i, y, hi, hy⟩
    have hws : ([t.fakeUnpublishMsg (t.sess i).parent (t.sess i).userid
        l].filterMap (word rid u)) = [.withdraw] := by
      rw [List.filterMap_cons, word_fakeUnpublishMsg, if_pos hi]
      rfl
    rw [if_pos (hp.origin_of_entry hafter hw hy hi), hws]
    cases h with
    | still => exact .withdraw (by simp) (by simp) hnone hice
    | withdraw hne hws =>
        refine .withdraw (by simp) (fun w hmem => ?_) hnone hice
        rcases List.mem_append.mp hmem with hmem | hmem
        · exact hws w hmem
        · exact List.mem_singleton.mp hmem
    | announce _ _ ha => exact absurd ha.choose_spec (hice _)
  · have hws : (if (t.sess i).origin = true then [t.fakeUnpublishMsg
        (t.sess i).parent (t.sess i).userid l] else []).filterMap
          (word rid u) = [] := by
      split
      · rw [List.filterMap_cons, word_fakeUnpublishMsg, if_neg hi]
        rfl
      · rfl
    rw [hws, List.append_nil]
    exact h.keep (fun k => hm.marks_withdraws hsound.toPodOk hi)
      fun k => hm.up_back hsound.toPodOk fun y h => by cases h

theorem speech_announces (hb : a.2 = .ice y .connected)
    (hm : Move (.announces y) t t') (h : Speech rid u p a.2 t ws) :
    Speech rid u p a.2 t' (ws ++
      ((Act.announces y).sent pod t).filterMap (word rid u)) := by
  have hy : t.entry .publisher (t.peer y).parent (t.peer y).peerid =
      some y := by cases hm; assumption
  have huser := (hsound.publisher hy).1
  simp only [Act.sent, huser]
  by_cases hn : t.Named (t.peer y).parent rid u
  · have hmarks : ∀ k, Marks t' rid u k ↔ k = (t.peer y).peerid := fun k =>
      hm.one_mark hsound.toPodOk hn fun l hl =>
        hp.single_within hin hafter hw hl ⟨_, y, hn, hy⟩
    have hone : ∀ k, Marks t rid u k → k = (t.peer y).peerid := by
      rintro k ⟨s, x, hx, hs⟩
      exact hp.single_within hin hafter hw ⟨s, x, hs, hx.1⟩ ⟨_, y, hn, hy⟩
    have hws : ([t.fakePublishMsg (t.peer y).parent
        (t.sess (t.peer y).parent).userid (t.peer y).peerid].filterMap
          (word rid u)) = [.announce (t.peer y).peerid] := by
      rw [List.filterMap_cons, word_fakePublishMsg, if_pos hn]
      rfl
    rw [if_pos (hp.origin_of_entry hafter hw hy hn), hws]
    cases h with
    | still hm' =>
        exact .announce (by simp) (by simp) ⟨y, hb⟩ hmarks
          fun l hl => hone l ((hm' l).mpr hl)
    | withdraw _ _ _ ha => exact absurd hb (ha y)
    | announce hne hws ha hm' hp' =>
        obtain rfl := hone _ ((hm' _).mpr rfl)
        refine .announce (by simp) (fun w hmem => ?_) ha hmarks hp'
        rcases List.mem_append.mp hmem with hmem | hmem
        · exact hws w hmem
        · exact List.mem_singleton.mp hmem
  · have hws : (if (t.sess (t.peer y).parent).origin = true then
        [t.fakePublishMsg (t.peer y).parent
          (t.sess (t.peer y).parent).userid (t.peer y).peerid]
        else []).filterMap (word rid u) = [] := by
      split
      · rw [List.filterMap_cons, word_fakePublishMsg, if_neg hn]
        rfl
      · rfl
    rw [hws, List.append_nil]
    exact h.keep (fun k => hm.marks_announces hsound.toPodOk hn)
      fun k => hm.up_announces hsound.toPodOk hn

theorem speech_move (hc : ∀ m, a.2 = .message m →
      command m ≠ some .roomCreated ∧ command m ≠ some .fakeSubscribe)
    (hb : Also (Foot p a.1 a.2) b) (hm : Move b t t')
    (h : Speech rid u p a.2 t ws) :
    Speech rid u p a.2 t' (ws ++ (b.sent pod t).filterMap (word rid u)) := by
  have hquiet : (∀ i l y, b ≠ .withdraws i l y) → (∀ y, b ≠ .announces y) →
      (b.sent pod t).filterMap (word rid u) = [] →
      Speech rid u p a.2 t' (ws ++ (b.sent pod t).filterMap (word rid u)) := by
    intro hwd han hnil
    rw [hnil, List.append_nil]
    exact h.keep (fun k => hm.marks_iff hsound.toPodOk hwd han)
      fun k => hm.up_back hsound.toPodOk han
  cases b with
  | withdraws i l y => exact hp.speech_withdraws hin hsound hafter hw hb hm h
  | announces y => exact hp.speech_announces hin hsound hafter hw hb hm h
  | sends e =>
      refine hquiet nofun nofun ?_
      rw [List.filterMap_eq_nil_iff]
      intro m hmem
      refine word_of_for hb ?_ ?_ (Option.mem_toList.mp hmem)
      · intro hcmd
        obtain ⟨m', hm', hcmd⟩ := Option.bind_eq_some_iff.mp hcmd
        exact (hc m' (Input.msg?_eq_some hm')).1 hcmd
      · intro hcmd
        obtain ⟨m', hm', hcmd⟩ := Option.bind_eq_some_iff.mp hcmd
        exact (hc m' (Input.msg?_eq_some hm')).2 hcmd
  | still | dies | spawns | tells | unpush | leaves | destroys | erases
  | clears | adds | offers | accepts | flags | beats | takes | seats
  | unseats | vacates | opens | closes => exact hquiet nofun nofun rfl

end Moves

/-! ## Steps -/

/-- The user stays at home. -/
theorem step (hp : Home rid u p) (hin : AtHome rid u p a.2)
    (hs : Pod.step a p = some q) : Home rid u q where
  toInOrder := step_inOrder hp.toInOrder hs
  rooted := step_rooted hp.toInOrder hp.rooted hs
  marked := step_marked hp.toInOrder hp.marked hs
  owing := step_owing hp.toInOrder hp.owing hs
  origin := by
    intro s hlt hn
    have hafter := step_after hp.toInOrder hs
    by_cases hold : s < p.sessHeap.next
    · rw [show (q.sess s).origin = (p.sess s).origin from
        congrArg (·.2.2.2.2.1) (hafter.sess s hold)]
      exact hp.origin s hold ((hafter.named hp.rooted hold).mp hn)
    · obtain ⟨m, r, hm, hc, hid, hn'⟩ :=
        step_new_session hp.toInOrder hp.rooted hs hlt hold
      have hlogin := hc.resolve_right (hin m hm (hn'.1.symm.trans hn.1)
        (hn'.2.symm.trans hn.2)).1
      rw [show (q.sess s).origin = (newSession a.1 r m).origin from
        congrArg (·.2.2.2.2.1) hid]
      simp only [newSession, hlogin, if_true]
      rfl
  single k l := hp.single_within hin (step_after hp.toInOrder hs)
    (step_within hp.toInOrder hs)

/-- What a step says, unless it answers another pod. -/
theorem speaks (hp : Home rid u p) (hin : AtHome rid u p a.2)
    (hs : Pod.step a p = some q) (hc : ∀ m, a.2 = .message m →
      command m ≠ some .roomCreated ∧ command m ≠ some .fakeSubscribe) :
    Mirror.Says {k | Marks p rid u k} {k | p.Up rid u k}
      ((sentTo pod p q).filterMap (word rid u))
      {k | Marks q rid u k} {k | q.Up rid u k} := by
  have hq := hp.step hin hs
  have hspeech : Speech rid u p a.2 q
      ((sentTo pod p q).filterMap (word rid u)) := by
    refine (step_sent (P := fun t ms => Within p a.2 t ∧
      Speech rid u p a.2 t (ms.filterMap (word rid u))) hp.toInOrder hs
      ⟨fun _ _ _ hx => .inl hx, .still (fun _ => Iff.rfl) fun _ h => h⟩
      fun hb hsound hafter _ _ hm ht => ?_).2
    refine ⟨ht.1.move hb hsound.toPodOk hm, ?_⟩
    rw [List.filterMap_append]
    exact hp.speech_move hin hsound hafter ht.1 hc hb hm ht.2
  generalize (sentTo pod p q).filterMap (word rid u) = ws at hspeech
  cases hspeech with
  | still hm hu =>
      rw [show {k | Marks q rid u k} = {k | Marks p rid u k} from
        Set.ext hm]
      exact .still hu
  | withdraw hne hws hm =>
      rw [Set.eq_empty_of_forall_notMem (s := {k | Marks q rid u k}) hm,
        Set.eq_empty_of_forall_notMem (s := {k | q.Up rid u k})
          fun k hk => hm k (hq.marks_of_up hk)]
      exact .withdraw hne hws
  | @announce _ k hne hws _ hm hp' =>
      rw [show {k | Marks q rid u k} = {k} from Set.ext hm]
      exact .announce hne hws hp' fun l hl => (hm l).mp (hq.marks_of_up hl)

end Home

/-! ## Answers to another pod -/

theorem crossTo_answerFor (p : Pod) (s : SessRef) (m : JsonParser)
    (x : PeerRef) : (p.answerFor s m x).crossTo pod =
      if getValue m .podId = pod then
        some (p.fakePublishMsg s (p.peer x).userid (p.peer x).peerid)
      else none := by
  unfold Pod.answerFor
  split
  · rfl
  · rfl

/-- The announcements that answer a `createroom`. -/
theorem mem_answerEvents {msg : JsonParser} (hp : Sound p) :
    msg ∈ (p.answerEvents r m).filterMap (Event.crossTo pod) ↔
      getValue m .podId = pod ∧ ∃ v s k x,
        (p.room r).sessions.lookup v = some s ∧ p.answersFor m s ∧
        p.entry .publisher s k = some x ∧
        msg = p.fakePublishMsg s (p.sess s).userid k := by
  rw [answerEvents_filterMap fun _ => rfl, List.mem_flatMap]
  constructor
  · rintro ⟨⟨v, s⟩, he, hmsg⟩
    split at hmsg
    · next hans =>
        obtain ⟨⟨k, x⟩, hx, hmsg⟩ := List.mem_filterMap.mp hmsg
        have hx : p.entry .publisher s k = some x := GoMap.mem_entries.mp hx
        rw [crossTo_answerFor, (hp.publisher hx).1, (hp.publisher hx).2] at hmsg
        split at hmsg
        · next hpod =>
            exact ⟨hpod, v, s, k, x, GoMap.mem_entries.mp he, hans, hx,
              (Option.some.inj hmsg).symm⟩
        · cases hmsg
    · cases hmsg
  · rintro ⟨hpod, v, s, k, x, hs, hans, hx, rfl⟩
    refine ⟨⟨v, s⟩, GoMap.mem_entries.mpr hs, ?_⟩
    rw [if_pos hans]
    refine List.mem_filterMap.mpr ⟨⟨k, x⟩, GoMap.mem_entries.mpr hx, ?_⟩
    rw [crossTo_answerFor, if_pos hpod, (hp.publisher hx).1,
      (hp.publisher hx).2]

/-- A `createroom` is answered or nothing is sent. -/
theorem step_created (pod : String) (hs : Pod.step a p = some q)
    (hm : a.2 = .message m) (hc : command m = some .roomCreated) :
    Spoke p q ∧ (sentTo pod p q = [] ∨
      ∃ r, q = p.logged (p.answerEvents r m)) := by
  by_cases hans : p.regist = true ∧ getValue m .podId ≠ p.conf.uuid ∧
      ∃ r, p.rooms.lookup (getValue m .roomId) = some r
  · obtain ⟨hreg, hpod, r, hr⟩ := hans
    have hq := step_roomCreated hs hm hc hreg hpod hr
    exact ⟨⟨_, hq⟩, .inr ⟨r, hq⟩⟩
  have hf := step_fatal hs
  obtain rfl := step_message hs hm
  simp only [Pod.mgrHandleMessage, hc]
  split
  · next hreg =>
      simp only [Pod.mgrForward, Pod.forwards, hc]
      split
      · next hpod =>
          split
          · next r hr =>
              exact absurd ⟨hreg, of_decide_eq_true hpod, r, hr⟩ hans
          · simp only [Pod.notFoundRoom, hc]
            exact ⟨.refl p, .inl (Sent.of_log rfl).sentTo⟩
      · exact ⟨.refl p, .inl (Sent.of_log rfl).sentTo⟩
  · exact ⟨p.emit_spoke _, .inl (emit_sentNothing p rfl).sentTo⟩

namespace Home

/-- What a `createroom` makes the pod say. -/
theorem speaks_created (hp : Home rid u p) (hs : Pod.step a p = some q)
    (hm : a.2 = .message m) (hc : command m = some .roomCreated) :
    Mirror.Says {k | Marks p rid u k} {k | p.Up rid u k}
      ((sentTo pod p q).filterMap (word rid u))
      {k | Marks q rid u k} {k | q.Up rid u k} := by
  obtain ⟨⟨tr, rfl⟩, hsent⟩ := step_created pod hs hm hc
  have hword : ∀ w ∈ (sentTo pod p (p.logged tr)).filterMap (word rid u),
      ∃ k, w = .announce k ∧ p.Up rid u k := by
    intro w hw
    obtain ⟨msg, hmsg, hword⟩ := List.mem_filterMap.mp hw
    rcases hsent with hsent | ⟨r, hq⟩
    · rw [hsent] at hmsg
      cases hmsg
    · rw [hq, sentTo, newEvents_of_append rfl, mem_answerEvents hp.toSound]
        at hmsg
      obtain ⟨-, v, s, k, x, -, hans, hx, rfl⟩ := hmsg
      rw [word_fakePublishMsg] at hword
      split at hword
      · next hn =>
          obtain ⟨⟨w', l⟩, hfirst⟩ := Option.isSome_iff_exists.mp hans.2.1
          obtain ⟨y, hy, hready⟩ :=
            readyAt_iff.mp (hp.toSound.firstReady hfirst).2
          have hlk := hp.single l k ⟨s, y, hn, hy⟩ ⟨s, x, hn, hx⟩
          subst hlk
          exact ⟨l, (Option.some.inj hword).symm, s, y, hn, hy, hready⟩
      · cases hword
  by_cases hnil : (sentTo pod p (p.logged tr)).filterMap (word rid u) = []
  · rw [hnil]
    exact .still subset_rfl
  · obtain ⟨w, hw⟩ := List.exists_mem_of_ne_nil _ hnil
    obtain ⟨k, rfl, hk⟩ := hword w hw
    have hone : ∀ l, Marks p rid u l → l = k := fun l hl =>
      hp.single l k hl.publishes (hp.marks_of_up hk).publishes
    have htold : {k | Marks (p.logged tr) rid u k} = {k} := by
      refine Set.ext fun l => ⟨hone l, ?_⟩
      rintro rfl
      exact hp.marks_of_up hk
    rw [htold]
    refine .announce hnil (fun w hw => ?_) hone
      fun l hl => hone l (hp.marks_of_up hl)
    obtain ⟨l, rfl, hl⟩ := hword w hw
    rw [hone l (hp.marks_of_up hl)]

/-- Every ready stream of the user is announced to a room that was opened for
somebody else. -/
theorem answers_created (hp : Home rid u p) (hs : Pod.step a p = some q)
    (hm : a.2 = .message m) (hc : command m = some .roomCreated)
    (hreg : p.regist = true) (hpod : getValue m .podId = pod)
    (hne : pod ≠ p.conf.uuid) (hrid : getValue m .roomId = rid)
    (hu : getValue m .sessID ≠ u) :
    Mirror.Answers {k | q.Up rid u k}
      ((sentTo pod p q).filterMap (word rid u)) .opened := by
  intro k hk
  obtain ⟨⟨tr, rfl⟩, -⟩ := step_created pod hs hm hc
  obtain ⟨s, x, hn, hx, hready⟩ : p.Up rid u k := hk
  obtain ⟨hx, hready⟩ : p.entry .publisher s k = some x ∧
    (p.peer x).isReady = true := ⟨hx, hready⟩
  have hn : p.Named s rid u := hn
  have hlt := (hp.placed _ _ _ _ hx).2.1
  obtain ⟨-, -, hroom, -⟩ := hp.toSound.of_seat (hp.toSound.seat_of_entry hx)
  rw [hn.1, ← hrid] at hroom
  refine List.mem_filterMap.mpr ⟨p.fakePublishMsg s (p.sess s).userid k, ?_, ?_⟩
  · rw [step_roomCreated hs hm hc hreg (hpod ▸ hne) hroom, sentTo,
      newEvents_of_append rfl, mem_answerEvents hp.toSound]
    refine ⟨hpod, _, s, k, x, Homed.seat hp.toPodOk hx,
      ⟨hp.origin s hlt hn, ?_, ?_⟩, hx, rfl⟩
    · exact firstReady_isSome (readyAt_iff.mpr ⟨x, hx, hready⟩)
    · rw [hn.2]; exact hu
  · rw [word_fakePublishMsg, if_pos hn]

end Home

namespace SamePubs

variable (h : SamePubs p q)
include h

theorem named : q.Named s rid u ↔ p.Named s rid u := by
  rw [Pod.Named, Pod.Named, h.parent, h.room,
    show (q.sess s).userid = (p.sess s).userid from congrArg (·.1) (h.ident s)]

theorem marks_iff (hp : PodOk p) : Marks q rid u k ↔ Marks p rid u k := by
  refine exists_congr fun s => exists_congr fun x => ?_
  rw [Shown, Shown, h.entry, h.named]
  refine and_congr_left fun _ => and_congr_right fun hx => ?_
  rw [(h.flags x (hp.placed _ _ _ _ hx).1).2]

theorem up_iff (hp : PodOk p) : q.Up rid u k ↔ p.Up rid u k := by
  refine exists_congr fun s => exists_congr fun x => ?_
  rw [h.entry, h.named]
  refine and_congr_right fun _ => and_congr_right fun hx => ?_
  rw [(h.flags x (hp.placed _ _ _ _ hx).1).1]

end SamePubs

theorem word_of_offers {msg : JsonParser} (h : Offers p s m msg)
    (hu : getValue m .sessID = (p.sess s).userid) :
    word rid u msg = if p.Named s rid u then
      some (.offer (getValue m .peerID)) else none := by
  obtain ⟨hc, hrid, hsid, hpid⟩ := h
  simp only [word, hc, hrid, hsid, hpid, hu]
  rfl

namespace Home

/-- What a `fakesubscribe` makes the pod say. -/
theorem speaks_subscribed (hp : Home rid u p) (hs : Pod.step a p = some q)
    (hq : q.fatal = false) (hm : a.2 = .message m)
    (hc : command m = some .fakeSubscribe)
    (hsrc : getValue m .srcSessID = getValue m .sessID) :
    Mirror.Says {k | Marks p rid u k} {k | p.Up rid u k}
      ((sentTo pod p q).filterMap (word rid u))
      {k | Marks q rid u k} {k | q.Up rid u k} := by
  have hserves := step_samePubs hs hm hc rfl
  rw [show {k | Marks q rid u k} = {k | Marks p rid u k} from
      Set.ext fun _ => hserves.marks_iff hp.toPodOk,
    show {k | q.Up rid u k} = {k | p.Up rid u k} from
      Set.ext fun _ => hserves.up_iff hp.toPodOk]
  have hroute : route m = getValue m .sessID := by simp only [route, hc, hsrc]
  by_cases hno : p.regist = true →
      p.seat (getValue m .roomId) (route m) = none
  · rw [(step_unrouted hs hm hc rfl hno).sent.sentTo]
    exact .still subset_rfl
  obtain ⟨hreg, hseat⟩ := Classical.not_imp.mp hno
  obtain ⟨s, hseat⟩ := Option.ne_none_iff_exists'.mp hseat
  have hstep := step_routed hs hm hc rfl hreg hseat
  simp only [Pod.sessionHandleMessage, hc] at hstep
  rw [hstep] at hq ⊢
  obtain ⟨ms, hsent, hoffers, -⟩ := handleFakeSub_sent hc hq
  rw [hsent.sentTo]
  have hword : ∀ w ∈ ms.filterMap (word rid u),
      w = .offer (getValue m .peerID) ∧
        p.Publishes rid u (getValue m .peerID) := by
    intro w hw
    obtain ⟨msg, hmsg, hw⟩ := List.mem_filterMap.mp hw
    obtain ⟨hoff, hx⟩ := hoffers msg hmsg
    rw [word_of_offers hoff (hroute.symm.trans
      (hp.toSound.of_seat hseat).1.symm)] at hw
    split at hw
    · next hn =>
        obtain ⟨x, hx⟩ := Option.ne_none_iff_exists'.mp hx
        exact ⟨(Option.some.inj hw).symm, s, x, hn, hx⟩
    · cases hw
  by_cases hnil : ms.filterMap (word rid u) = []
  · rw [hnil]
    exact .still subset_rfl
  · obtain ⟨w, hw⟩ := List.exists_mem_of_ne_nil _ hnil
    exact .offer (fun w hw => (hword w hw).1) fun l hl =>
      hp.single l _ (Marks.publishes hl) (hword w hw).2

/-- A stream that is asked for is offered, if it is there. -/
theorem answers_subscribed (hp : Home rid u p) (hs : Pod.step a p = some q)
    (hq : q.fatal = false) (hm : a.2 = .message m)
    (hc : command m = some .fakeSubscribe)
    (hsrc : getValue m .srcSessID = getValue m .sessID)
    (hreg : p.regist = true) (hok : a.1.createOk = true)
    (hpod : getValue m .podId = pod) (hrid : getValue m .roomId = rid)
    (hu : getValue m .sessID = u) :
    Mirror.Answers {k | q.Up rid u k}
      ((sentTo pod p q).filterMap (word rid u))
      (.ask (getValue m .peerID)) := by
  intro hk
  obtain ⟨s, x, hn, hx, -⟩ :=
    ((step_samePubs hs hm hc rfl).up_iff hp.toPodOk).mp hk
  have hroute : route m = u := by simp only [route, hc, hsrc, hu]
  have hseat := hp.toSound.seat_of_entry hx
  rw [hn.1, hn.2, ← hrid, ← hroute] at hseat
  have hstep := step_routed hs hm hc rfl hreg hseat
  simp only [Pod.sessionHandleMessage, hc] at hstep
  rw [hstep] at hq ⊢
  obtain ⟨ms, hsent, hoffers, hne⟩ := handleFakeSub_sent hc hq
  rw [hsent.sentTo]
  obtain ⟨msg, hmsg⟩ := List.exists_mem_of_ne_nil _
    (hne hok hpod (by rw [hx]; exact Option.some_ne_none x))
  refine List.mem_filterMap.mpr ⟨msg, hmsg, ?_⟩
  rw [word_of_offers (hoffers msg hmsg).1 (hu.trans hn.2.symm), if_pos hn]

/-- In every case the pod speaks as a source may. -/
theorem spoken (hp : Home rid u p) (hin : AtHome rid u p a.2)
    (hs : Pod.step a p = some q) (hq : q.fatal = false)
    (hsrc : ∀ m, a.2 = .message m → command m = some .fakeSubscribe →
      getValue m .srcSessID = getValue m .sessID) :
    Mirror.Says {k | Marks p rid u k} {k | p.Up rid u k}
      ((sentTo pod p q).filterMap (word rid u))
      {k | Marks q rid u k} {k | q.Up rid u k} := by
  by_cases hc : ∃ m, a.2 = .message m ∧ command m = some .roomCreated
  · obtain ⟨m, hm, hc⟩ := hc
    exact hp.speaks_created hs hm hc
  by_cases hf : ∃ m, a.2 = .message m ∧ command m = some .fakeSubscribe
  · obtain ⟨m, hm, hf⟩ := hf
    exact hp.speaks_subscribed hs hq hm hf (hsrc m hm hf)
  exact hp.speaks hin hs fun m hm =>
    ⟨fun h => hc ⟨m, hm, h⟩, fun h => hf ⟨m, hm, h⟩⟩

end Home

end MediaServer.Ref
