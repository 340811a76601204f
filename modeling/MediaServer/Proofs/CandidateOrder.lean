import MediaServer.Proofs.Feeding

/-!
# Candidates in order

A subscriber caches the candidates that come before its answer. The answer
hands the cache to pion, and what comes later goes there at once. The cache is
not emptied, so the candidates reach pion once only because pion refuses a
second answer, and with it the process ends.

The sessions do not deliver everything: `candidate`, which clients send, is
ignored, and so is `fakecandidate` at a session that stands in for a user of
another pod. A candidate for a subscriber that comes in one of these ways is
lost. If none does, pion has been given exactly the candidates that came for
the subscriber, in their order, from its answer on, and none before.
-/

namespace MediaServer.Ref

open MediaServer.Lib

variable {p q : Pod} {s : SessRef} {x y z : PeerRef} {m : JsonParser}
variable {env : Env} {a : Env × Input} {got : List String} {t t' : Peer}

/-! ## One subscriber -/

/-- The peer has been given `got`: all of it is in the cache, or, once there
is a remote description, with pion. -/
def Peer.Has (t : Peer) (got : List String) : Prop :=
  t.role = .subscriber →
    if t.setedRemoteDesc then
      t.iceCandidates = got ∧ t.haveLocalOffer = false
    else t.candidateCaches = got ∧ t.iceCandidates = []

namespace Peer.Has

theorem of_fed (h : t.Has got) (hfed : t'.fed = t.fed)
    (hoffer : t'.haveLocalOffer = t.haveLocalOffer) : t'.Has got := by
  intro hrole'
  have hrole : t.role = .subscriber := by
    cases hrole : t.role with
    | subscriber => rfl
    | publisher => simp only [Peer.fed, hrole', hrole, reduceCtorEq] at hfed
  simp only [Peer.fed, hrole', hrole, Option.some.injEq, Prod.mk.injEq] at hfed
  obtain ⟨hset, hcache, hice⟩ := hfed
  rw [hset, hcache, hice, hoffer]
  exact h hrole

theorem of_fresh (h : ∀ f ∈ t.fed, f = (false, [], [])) : t.Has [] := by
  intro hrole
  have hfresh := h (t.setedRemoteDesc, t.candidateCaches, t.iceCandidates)
    (by simp only [Peer.fed, hrole, Option.mem_def])
  simp only [Prod.mk.injEq] at hfresh
  obtain ⟨hset, hcache, hice⟩ := hfresh
  simp only [hset, hcache, hice, Bool.false_eq_true, if_false, and_self]

/-- The answer: an offer is outstanding, so there was none before. -/
theorem answered (h : t.Has got) (hoffer : t.haveLocalOffer = true) :
    Peer.Has { t with
      haveLocalOffer := false
      setedRemoteDesc := true
      iceCandidates := t.iceCandidates ++ t.candidateCaches } got := by
  intro hrole
  have hgot := h hrole
  split at hgot
  · rw [hoffer] at hgot
    cases hgot.2
  · rw [if_pos rfl]
    exact ⟨by rw [hgot.2, hgot.1, List.nil_append], rfl⟩

/-- One more candidate. -/
theorem candidate (h : t.Has got) (c : String) :
    Peer.Has (if t.setedRemoteDesc then
        { t with iceCandidates := t.iceCandidates ++ [c] }
      else { t with candidateCaches := t.candidateCaches ++ [c] })
      (got ++ [c]) := by
  intro hrole
  have hsub : t.role = .subscriber := by
    split at hrole
    · exact hrole
    · exact hrole
  have hgot := h hsub
  split at hgot
  · next hset =>
      rw [if_pos hset, if_pos hset, hgot.1]
      exact ⟨rfl, hgot.2⟩
  · next hset =>
      rw [if_neg hset, if_neg hset, hgot.1]
      exact ⟨rfl, hgot.2⟩

end Peer.Has

/-! ## Runs -/

/-- The commands that carry a candidate. -/
def Cmd.candidates : Cmd → Bool
  | .candidate | .fakeCandidate => true
  | _ => false

/-- The session whose `HandleMessage` gets a candidate, if one does. -/
def Pod.candidateSession (p : Pod) (m : JsonParser) : Option SessRef :=
  if p.regist ∧ (command m).any Cmd.candidates then
    p.seat (getValue m .roomId) (match command m with
      | some .candidate => if getValue m .srcSessID ≠ "" then
          getValue m .srcSessID else getValue m .sessID
      | _ => getValue m .sessID)
  else none

/-- The subscriber that a candidate is for: the one of its key in the session
that gets it. -/
def Pod.candidatePeer (p : Pod) (m : JsonParser) : Option PeerRef :=
  (p.candidateSession m).bind fun s =>
    (p.sess s).subscribers.lookup (keyOf m)

/-- The candidates that a step brings for a peer. -/
def Pod.brings (p : Pod) (a : Env × Input) (x : PeerRef) : List String :=
  match a.2.msg? with
  | some m => if p.candidatePeer m = some x then [getValue m .candidate] else []
  | none => []

/-- A pod, and the candidates that have come for each of its peers. -/
structure Listened where
  pod : Pod
  received : PeerRef → List String

namespace Listened

def start (conf : Config) : Listened :=
  ⟨Pod.createRoomMgr conf, fun _ => []⟩

def step (a : Env × Input) (w : Listened) : Option Listened :=
  (Pod.step a w.pod).map fun q =>
    ⟨q, fun x => w.received x ++ w.pod.brings a x⟩

/-- Of each subscriber of a living process: nothing is with pion before it has
its remote description, and then exactly what has come for it. -/
def Exact (w : Listened) : Prop :=
  w.pod.fatal = false → ∀ x < w.pod.peerHeap.next,
    (w.pod.peer x).role = .subscriber →
      (w.pod.peer x).iceCandidates =
        if (w.pod.peer x).setedRemoteDesc then w.received x else []

/-- A candidate for a subscriber comes from a pod, to a session of a user of
this pod. -/
def Delivers (w : Listened) (a : Env × Input) : Prop :=
  ∀ m ∈ a.2.msg?, ∀ s ∈ w.pod.candidateSession m,
    (w.pod.sess s).subscribers.lookup (keyOf m) ≠ none →
      command m = some .fakeCandidate ∧ (w.pod.sess s).origin = true

instance (w : Listened) (a : Env × Input) : Decidable (w.Delivers a) :=
  inferInstanceAs (Decidable (∀ m ∈ _, _))

/-- What a run keeps. -/
structure Kept (w : Listened) : Prop where
  old : ∀ x < w.pod.peerHeap.next, (w.pod.peer x).Has (w.received x)
  new : ∀ x, w.pod.peerHeap.next ≤ x → w.received x = []

end Listened

theorem brings_of_message (hm : a.2 = .message m) :
    p.brings a x =
      if p.candidatePeer m = some x then [getValue m .candidate] else [] := by
  rw [Pod.brings, hm]
  rfl

/-- What no peer of the maps is addressed by brings nothing. -/
theorem brings_eq_nil (h : ∀ m, a.2 = .message m → p.candidatePeer m ≠ some x) :
    p.brings a x = [] := by
  unfold Pod.brings
  split
  · next m hm => rw [if_neg (h m (Input.msg?_eq_some hm))]
  · rfl

theorem candidatePeer_eq_some (h : p.candidatePeer m = some x) :
    ∃ s, p.candidateSession m = some s ∧
      p.entry .subscriber s (keyOf m) = some x := Option.bind_eq_some_iff.mp h

theorem Pod.brings_lt (hp : Placed p) (h : p.brings a x ≠ []) :
    x < p.peerHeap.next := by
  by_contra hlt
  refine h (brings_eq_nil fun m hm haddr => ?_)
  obtain ⟨s, -, hx⟩ := candidatePeer_eq_some haddr
  exact hlt (hp _ _ _ _ hx).1

/-- The message is handed to the subscriber of its key. -/
def HandsOn (p : Pod) (a : Env × Input) (m : JsonParser) (s : SessRef) :
    Prop :=
  a.2 = .message m ∧ p.regist = true ∧
    p.seat (getValue m .roomId) (route m) = some s ∧
    (command m = some .answer ∨ command m = some .fakeAnswer ∨
      command m = some .fakeCandidate)

theorem candidateSession_eq_some (hc : command m = some .fakeCandidate) :
    p.candidateSession m = some s ↔
      p.regist = true ∧ p.seat (getValue m .roomId) (route m) = some s := by
  simp only [Pod.candidateSession, hc, route, Option.any_some, Cmd.candidates,
    and_true, Option.ite_none_right_eq_some]

/-- Any other step leaves the subscribers with what they had, and nothing
comes for one. -/
theorem step_has_unserved {w : Listened} (hp : InOrder w.pod) (h : w.Kept)
    (ha : w.Delivers a) (hs : Pod.step a w.pod = some q)
    (hno : ∀ m s, ¬HandsOn w.pod a m s) (hx : x < q.peerHeap.next) :
    (q.peer x).Has (w.received x ++ w.pod.brings a x) := by
  have hunfed : Unfed w.pod q := by
    refine step_unfed hs fun m hm hreg s hseat => ?_
    refine .sessionHandleMessage hp.placed fun c hc => ?_
    refine ⟨?_, ?_, ?_⟩
    · rintro rfl
      exact hno m s ⟨hm, hreg, hseat, .inl hc⟩
    · rintro rfl
      exact hno m s ⟨hm, hreg, hseat, .inr (.inl hc)⟩
    · rintro rfl
      exact hno m s ⟨hm, hreg, hseat, .inr (.inr hc)⟩
  have hnil : w.pod.brings a x = [] := by
    refine brings_eq_nil fun m hm haddr => ?_
    obtain ⟨s, hsess, hentry⟩ := candidatePeer_eq_some haddr
    have hc := (ha m (by rw [hm]; rfl) s hsess
      (Option.ne_none_iff_exists'.mpr ⟨x, hentry⟩)).1
    obtain ⟨hreg, hseat⟩ := (candidateSession_eq_some hc).mp hsess
    exact hno m s ⟨hm, hreg, hseat, .inr (.inr hc)⟩
  rw [hnil, List.append_nil]
  by_cases hold : x < w.pod.peerHeap.next
  · refine (h.old x hold).of_fed (hunfed.old x hold) ?_
    rcases step_offer hp hs hold with hsame | ⟨m, r, s, hm, hreach, hlook, hacc⟩
    · exact hsame
    · unfold Accepts at hacc
      split at hacc
      · next hc =>
          have hroom := (hreach.known (by rw [hc]; exact nofun)).1
          exact absurd ⟨hm, hreach.regist, seat_eq_some.mpr ⟨r, hroom, hlook⟩,
            .inl hc⟩ (hno m s)
      · next hc =>
          have hroom := (hreach.known (by rw [hc]; exact nofun)).1
          exact absurd ⟨hm, hreach.regist, seat_eq_some.mpr ⟨r, hroom, hlook⟩,
            .inr (.inl hc)⟩ (hno m s)
      · cases hacc
  · rw [h.new x (Nat.not_lt.mp hold)]
    exact .of_fresh (hunfed.new x hx (Nat.not_lt.mp hold))

/-- An answer hands the cache of its subscriber to pion. -/
theorem answer_has {sid : String} {notFound : Pod → Pod}
    (hc : command m = some .answer ∨ command m = some .fakeAnswer)
    (hn : ∀ p, Spared x p (notFound p))
    (hf : (p.toSubscriber env s m sid notFound).fatal = false)
    (h : (p.peer x).Has got) :
    ((p.toSubscriber env s m sid notFound).peer x).Has got := by
  rw [toSubscriber_peer hn]
  split
  · next hx =>
      have hf := toSubscriber_fatal hf hx
      have hmsg : ∀ p : Pod, p.peerHandleMessage env x m =
          p.handleRemoteAnswer env x := by
        intro p
        rcases hc with hc | hc
        · simp only [Pod.peerHandleMessage, hc]
        · simp only [Pod.peerHandleMessage, hc]
      rw [hmsg] at hf ⊢
      obtain ⟨hoffer, hpeer⟩ := handleRemoteAnswer_peer hf
      rw [hpeer]
      rw [Pod.rlock, Pod.emit_peer] at hoffer ⊢
      exact h.answered hoffer
  · exact h

/-- A candidate of a pod is cached or handed to pion. -/
theorem fakeCandidate_has {sid : String} {notFound : Pod → Pod}
    (hc : command m = some .fakeCandidate)
    (hn : ∀ p, Spared x p (notFound p))
    (hf : (p.toSubscriber env s m sid notFound).fatal = false)
    (h : (p.peer x).Has got) :
    ((p.toSubscriber env s m sid notFound).peer x).Has
      (got ++ if p.entry .subscriber s (subKey sid (getValue m .srcSessID)
        (getValue m .peerID)) = some x then [getValue m .candidate]
        else []) := by
  rw [toSubscriber_peer hn]
  split
  · next hx =>
      have hf := toSubscriber_fatal hf hx
      simp only [Pod.peerHandleMessage, hc] at hf ⊢
      rw [handleRemoteCandidate_peer hf, Pod.rlock, Pod.emit_peer]
      exact h.candidate _
  · rw [List.append_nil]
    exact h

/-- Nothing but a candidate comes for a subscriber. -/
theorem brings_of_not_candidates {c : Cmd} (hm : a.2 = .message m)
    (hc : command m = some c) (hno : c.candidates = false) :
    p.brings a x = [] := by
  rw [brings_of_message hm]
  simp [Pod.candidatePeer, Pod.candidateSession, hc, hno]

theorem step_has_served {w : Listened} (h : w.Kept) (ha : w.Delivers a)
    (hs : Pod.step a w.pod = some q) (hf : q.fatal = false)
    (hhands : HandsOn w.pod a m s) (hx : x < q.peerHeap.next) :
    (q.peer x).Has (w.received x ++ w.pod.brings a x) := by
  obtain ⟨hm, hreg, hseat, hc⟩ := hhands
  rcases hc with hc | hc | hc
  · have hq := step_routed hs hm hc rfl hreg hseat
    simp only [Pod.sessionHandleMessage, hc, Pod.handleAnswer] at hq
    subst hq
    have hquiet : Quiet w.pod (w.pod.handleAnswer a.1 s m) :=
      Pod.toSubscriber_quiet (fun p => p.emit_quiet _) _
    have hx : x < w.pod.peerHeap.next := by rwa [← hquiet.peerNext]
    rw [brings_of_not_candidates hm hc rfl, List.append_nil]
    exact answer_has (.inl hc) (fun p => .emit p _) hf (h.old x hx)
  · have hq := step_routed hs hm hc rfl hreg hseat
    simp only [Pod.sessionHandleMessage, hc, Pod.handleFakeAnswer] at hq
    subst hq
    rw [(Pod.toSubscriber_quiet Asks.refl _).peerNext] at hx
    rw [brings_of_not_candidates hm hc rfl, List.append_nil]
    exact answer_has (.inr hc) (.refl x) hf (h.old x hx)
  · have hq := step_routed hs hm hc rfl hreg hseat
    have hsess := (candidateSession_eq_some hc).mpr ⟨hreg, hseat⟩
    have hkey : keyOf m = subKey (getValue m .podId) (getValue m .srcSessID)
        (getValue m .peerID) := by simp only [keyOf, tripleOf, hc]
    have hbrings : w.pod.brings a x = if w.pod.entry .subscriber s (subKey
        (getValue m .podId) (getValue m .srcSessID) (getValue m .peerID)) =
        some x then [getValue m .candidate] else [] := by
      rw [brings_of_message hm, Pod.candidatePeer, hsess, ← hkey]
      rfl
    simp only [Pod.sessionHandleMessage, hc, Pod.handleFakeCandidate] at hq
    split at hq
    · next horigin =>
        -- the session drops it, so it was for nobody
        subst hq
        have hnone : w.pod.entry .subscriber s (keyOf m) ≠ some x := by
          intro hentry
          have := (ha m (by rw [hm]; rfl) s hsess
            (Option.ne_none_iff_exists'.mpr ⟨x, hentry⟩)).2
          simp [this] at horigin
        rw [hbrings, ← hkey, if_neg hnone, List.append_nil]
        exact h.old x hx
    · subst hq
      rw [(Pod.toSubscriber_quiet Asks.refl _).peerNext] at hx
      rw [hbrings]
      exact fakeCandidate_has hc (.refl x) hf (h.old x hx)

theorem step_kept {w : Listened} (hp : InOrder w.pod) (h : w.Kept)
    (ha : w.Delivers a) (hs : Pod.step a w.pod = some q)
    (hf : q.fatal = false) :
    Listened.Kept ⟨q, fun x => w.received x ++ w.pod.brings a x⟩ where
  old x hx := by
    by_cases hhands : ∃ m s, HandsOn w.pod a m s
    · obtain ⟨m, s, hhands⟩ := hhands
      exact step_has_served h ha hs hf hhands hx
    · exact step_has_unserved hp h ha hs
        (fun m s hms => hhands ⟨m, s, hms⟩) hx
  new x hx := by
    have hle := Nat.le_trans (step_after hp hs).peerNext hx
    have hnil : w.pod.brings a x = [] := by
      by_contra hne
      exact absurd (Pod.brings_lt hp.placed hne) (Nat.not_lt.mpr hle)
    simp only [h.new x hle, hnil, List.append_nil]

theorem Listened.Kept.exact {w : Listened} (h : w.Kept) : w.Exact := by
  intro _ x hx hrole
  have hhas := h.old x hx hrole
  split at hhas
  · next hset => rw [if_pos hset, hhas.1]
  · next hset => rw [if_neg hset, hhas.2]

/-- As long as the candidates for subscribers come from pods, to sessions of
users of this pod, each subscriber's are handed to pion exactly once and in
the order they came in, from its answer on. -/
theorem candidates_exact_of_delivers {conf : Config}
    {as : List (Env × Input)}
    (hg : Guarded Listened.step Listened.Delivers as (.start conf)) :
    Always Listened.step Listened.Exact as (.start conf) := by
  have h : Always Listened.step (fun w => InOrder w.pod ∧
      (w.pod.fatal = false → w.Kept)) as (.start conf) := by
    refine always_of_guarded (fun a w w' hw ha hs => ?_) hg
      ⟨createRoomMgr_inOrder conf, fun _ =>
        ⟨fun x hx => absurd hx (Nat.not_lt_zero x), fun _ _ => rfl⟩⟩
    obtain ⟨q, hq, rfl⟩ := Option.map_eq_some_iff.mp hs
    exact ⟨step_inOrder hw.1 hq,
      step_kept hw.1 (hw.2 (step_fatal hq)) ha hq⟩
  exact h.mono fun w hw hf => (hw.2 hf).exact hf

/-- A message of user `v` about a stream of `u`, with a candidate if it is
one. -/
def fromUser (c : Cmd) (v u pid candi : String) : Env × Input :=
  (Env.calm, .message (c.msg [(.roomId, "R"), (.sessID, v), (.srcSessID, u),
    (.peerID, pid), (.candidate, candi)]))

/-- The same from a pod. -/
def fromPod (c : Cmd) (pod u pid candi : String) : Env × Input :=
  (Env.calm, .message (c.msg [(.podId, pod), (.roomId, "R"), (.sessID, u),
    (.srcSessID, u), (.peerID, pid), (.candidate, candi)]))

/-- A pod that subscribes sends candidates before and after its answer. -/
theorem candidates_exact_podB :
    ∃ w, run Listened.step (streamsOf "u" ["1"] ++
        [fetchedBy "podB" "u" "1", fromPod .fakeCandidate "podB" "u" "1" "c1",
          fromPod .fakeAnswer "podB" "u" "1" "",
          fromPod .fakeCandidate "podB" "u" "1" "c2"])
        (.start (Config.standalone "podA")) = some w ∧
      w.pod.fatal = false ∧ w.received 1 = ["c1", "c2"] ∧
      (w.pod.peer 1).setedRemoteDesc = true ∧ w.Exact := by
  have h : (run Listened.step (streamsOf "u" ["1"] ++
      [fetchedBy "podB" "u" "1", fromPod .fakeCandidate "podB" "u" "1" "c1",
        fromPod .fakeAnswer "podB" "u" "1" "",
        fromPod .fakeCandidate "podB" "u" "1" "c2"])
      (.start (Config.standalone "podA"))).map (fun w =>
        (w.pod.fatal, w.received 1, (w.pod.peer 1).setedRemoteDesc)) =
      some (false, ["c1", "c2"], true) := by decide
  obtain ⟨w, hw, hfacts⟩ := Option.map_eq_some_iff.mp h
  simp only [Prod.mk.injEq] at hfacts
  obtain ⟨hf, hgot, hset⟩ := hfacts
  exact ⟨w, hw, hf, hgot, hset,
    (candidates_exact_of_delivers (by decide)).last hw⟩

/-- The candidate of a user who watches a stream is lost, and so is that of a
pod which subscribed to a stream of another pod. -/
theorem candidates_dropped :
    (∃ w, run Listened.step (streamsOf "u" ["1"] ++ [watchedBy "v" "u" "1",
        fromUser .answer "v" "u" "1" "", fromUser .candidate "v" "u" "1" "c"])
        (.start (Config.standalone "podA")) = some w ∧
      w.pod.fatal = false ∧ ¬w.Exact) ∧
    ∃ w, run Listened.step (streamsOf "u" [] ++
        [fromPod .fakePublish "podB" "w" "1" "",
          fromPod .fakeOffer "podB" "w" "1" "", fetchedBy "podC" "w" "1",
          fromPod .fakeAnswer "podC" "w" "1" "",
          fromPod .fakeCandidate "podC" "w" "1" "c"])
        (.start (Config.standalone "podA")) = some w ∧
      w.pod.fatal = false ∧ ¬w.Exact := by
  have hlost : ∀ as, (run Listened.step as
      (.start (Config.standalone "podA"))).map (fun w => decide
        (w.pod.fatal = false ∧ 1 < w.pod.peerHeap.next ∧
          (w.pod.peer 1).role = .subscriber ∧
          (w.pod.peer 1).setedRemoteDesc = true ∧
          (w.pod.peer 1).iceCandidates = [] ∧ w.received 1 = ["c"])) =
      some true → ∃ w, run Listened.step as
        (.start (Config.standalone "podA")) = some w ∧
        w.pod.fatal = false ∧ ¬w.Exact := by
    intro as has
    obtain ⟨w, hw, hfacts⟩ := Option.map_eq_some_iff.mp has
    obtain ⟨hf, hlt, hrole, hset, hice, hgot⟩ := of_decide_eq_true hfacts
    refine ⟨w, hw, hf, fun hexact => ?_⟩
    have hall := hexact hf 1 hlt hrole
    rw [if_pos hset, hice, hgot] at hall
    cases hall
  exact ⟨hlost _ (by decide), hlost _ (by decide)⟩

end MediaServer.Ref
