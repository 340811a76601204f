import MediaServer.Lib.Latest
import MediaServer.Proofs.Effects

/-!
# Answers and the offers they are for

A `sub` makes a peer and sends its offer; the answer that comes back is handed
to whatever subscriber then stands under the key, since neither message names
the peer. A second `sub` replaces the peer in place, so an answer that was
under way belongs to an offer of the peer before; and an answer that arrives
twice finds its offer taken.

The run here carries what the two ends exchange: every answer produced for an
offer of this pod, by the client or by the pod that asked for the stream, can
be delivered at any time, any number of times or never. What is recorded of
each call of `SetRemoteDescription` is the peer it is made on, the peer whose
offer the answer was produced for, and whether an offer was outstanding.

The argument is one invariant: the last answer produced for a place is that of
the subscriber that stands there, and its offer is open until that answer is
delivered.
-/

namespace MediaServer.Ref

open MediaServer.Lib

variable {p q : Pod} {s : SessRef} {r : RoomRef} {rid u k : String}
variable {a : Env × Input} {m : JsonParser} {x y : PeerRef}

/-! ## Answers under way -/

/-- The answer to the offer that a subscription led to: the client's, or that
of the pod that takes the stream over (`HandleFakeOffer`). -/
def answerFor (m : JsonParser) : JsonParser :=
  if command m = some .sub then
    Cmd.answer.msg [(.roomId, getValue m .roomId),
      (.sessID, getValue m .sessID), (.srcSessID, getValue m .srcSessID),
      (.peerID, getValue m .peerID)]
  else
    Cmd.fakeAnswer.msg [(.podId, getValue m .podId),
      (.roomId, getValue m .roomId), (.sessID, getValue m .sessID),
      (.srcSessID, getValue m .sessID), (.peerID, getValue m .peerID)]

/-- The key under which an answer looks for its subscriber. -/
def answerKey (m : JsonParser) : String :=
  subKey (if command m = some .answer then getValue m .sessID
    else getValue m .podId) (getValue m .srcSessID) (getValue m .peerID)

/-- Where an answer looks: the room, the user, the key. -/
def place (m : JsonParser) : String × String × String :=
  (getValue m .roomId, route m, answerKey m)

def isAnswer (m : JsonParser) : Bool :=
  command m = some .answer || command m = some .fakeAnswer

/-- The peer on which the answer is set. -/
def Pod.answered (p : Pod) (m : JsonParser) : Option PeerRef :=
  if p.regist then
    (p.seat (getValue m .roomId) (route m)).bind fun s =>
      (p.sess s).subscribers.lookup (answerKey m)
  else none

/-- A call of `SetRemoteDescription` with an answer. -/
structure Call where
  on : PeerRef
  madeFor : PeerRef
  outstanding : Bool

/-- A pod, the answers produced for its offers, those of them that were
delivered (by their peer), and the calls made. -/
structure Dialogue where
  pod : Pod
  answers : List (PeerRef × JsonParser)
  delivered : List PeerRef
  calls : List Call

/-- Any input but an answer, or the delivery of an answer. -/
inductive Post where
  | input (a : Env × Input)
  | deliver (env : Env) (i : Nat)

/-- The answer to the offer that a step sent. -/
def produced (a : Input) (p q : Pod) : List (PeerRef × JsonParser) :=
  match a.msg? with
  | some m =>
      if (command m = some .sub ∨ command m = some .fakeSubscribe) ∧
          p.peerHeap.next < q.peerHeap.next ∧
          (q.peer p.peerHeap.next).haveLocalOffer = true then
        [(p.peerHeap.next, answerFor m)]
      else []
  | none => []

namespace Dialogue

def init (conf : Config) : Dialogue := ⟨Pod.createRoomMgr conf, [], [], []⟩

def step : Post → Dialogue → Option Dialogue
  | .input a, w =>
      if a.2.msg?.any isAnswer then none
      else (Pod.step a w.pod).map fun q =>
        { w with pod := q, answers := w.answers ++ produced a.2 w.pod q }
  | .deliver env i, w =>
      w.answers[i]?.bind fun e =>
        (Pod.step (env, .message e.2) w.pod).map fun q =>
          { w with
            pod := q
            delivered := e.1 :: w.delivered
            calls := w.calls ++ ((w.pod.answered e.2).map fun y =>
              ⟨y, e.1, (w.pod.peer y).haveLocalOffer⟩).toList }

/-- Every peer gets at most one answer, its own, and while its offer is
outstanding. -/
def Matched (w : Dialogue) : Prop :=
  (w.calls.map Call.on).Nodup ∧
    ∀ c ∈ w.calls, c.on = c.madeFor ∧ c.outstanding = true

/-- The peer of the last answer produced for a place. -/
def lastFor (w : Dialogue) (π : String × String × String) : Option PeerRef :=
  latest (fun e => if place e.2 = π then some e.1 else none) w.answers

/-- An answer is delivered once and only while no later one was produced for
its place; and a `fakesubscribe` asks for the stream of the user it names. -/
def InTurn (w : Dialogue) : Post → Prop
  | .input a => ∀ m ∈ a.2.msg?, command m = some .fakeSubscribe →
      getValue m .srcSessID = getValue m .sessID
  | .deliver _ i => ∀ e ∈ w.answers[i]?,
      e.1 ∉ w.delivered ∧ w.lastFor (place e.2) = some e.1

instance (w : Dialogue) (t : Post) : Decidable (w.InTurn t) :=
  match t with
  | .input _ => inferInstanceAs (Decidable (∀ _ ∈ _, _))
  | .deliver _ _ => inferInstanceAs (Decidable (∀ _ ∈ _, _))

/-- The invariant. -/
structure Kept (w : Dialogue) : Prop where
  inOrder : InOrder w.pod
  matched : w.Matched
  called : ∀ c ∈ w.calls, c.on ∈ w.delivered
  answers : ∀ e ∈ w.answers, isAnswer e.2 = true
  last : w.pod.fatal = false → ∀ rid u s k y, w.pod.seat rid u = some s →
    w.pod.entry .subscriber s k = some y →
    w.lastFor (rid, u, k) = some y ∧
      (y ∉ w.delivered → (w.pod.peer y).haveLocalOffer = true)

end Dialogue

/-! ## The place of an answer -/

theorem answerFor_isAnswer (m : JsonParser) :
    isAnswer (answerFor m) = true := by
  unfold answerFor
  split
  · simp [isAnswer]
  · simp [isAnswer]

/-- The answer to a subscription looks where the subscriber was stored. -/
theorem place_answerFor
    (hc : command m = some .sub ∨ command m = some .fakeSubscribe)
    (hsrc : command m = some .fakeSubscribe →
      getValue m .srcSessID = getValue m .sessID) :
    place (answerFor m) = (getValue m .roomId, route m, subscriberKey m) := by
  rcases hc with hc | hc
  · have hans : answerFor m = Cmd.answer.msg [(.roomId, getValue m .roomId),
        (.sessID, getValue m .sessID), (.srcSessID, getValue m .srcSessID),
        (.peerID, getValue m .peerID)] := if_pos hc
    have hroute : route m = getValue m .srcSessID := by simp [route, hc]
    simp only [subscriberKey, subscriberId, hc, hroute, hans, place]
    rfl
  · have hans : answerFor m = Cmd.fakeAnswer.msg [(.podId, getValue m .podId),
        (.roomId, getValue m .roomId), (.sessID, getValue m .sessID),
        (.srcSessID, getValue m .sessID), (.peerID, getValue m .peerID)] :=
      if_neg (by simp [hc])
    have hroute : route m = getValue m .sessID := by
      rw [← hsrc hc]; simp [route, hc]
    simp only [subscriberKey, subscriberId, hc, hroute, hans, place, hsrc hc]
    rfl

/-! ## What a subscription does -/

/-- The offer is made, or the server is gone. -/
theorem offerTo_offers {env : Env} {send : Pod → Pod}
    (hsend : ∀ p, Spoke p (send p)) :
    (p.offerTo env x send).fatal = true ∨
      ((p.offerTo env x send).peer x).haveLocalOffer = true := by
  unfold Pod.offerTo
  split
  · exact .inl rfl
  · split
    · right
      rw [(hsend _).peer, Pod.setPeer_peer, if_pos rfl]
    · exact .inl rfl

theorem peerHandleMessage_offers (env : Env)
    (hc : command m = some .sub ∨ command m = some .fakeSubscribe) :
    (p.peerHandleMessage env x m).fatal = true ∨
      ((p.peerHandleMessage env x m).peer x).haveLocalOffer = true := by
  rcases hc with hc | hc
  · simp only [Pod.peerHandleMessage, hc]
    exact offerTo_offers fun p => p.emit_spoke _
  · simp only [Pod.peerHandleMessage, hc]
    exact offerTo_offers fun p => p.emit_spoke _

/-- At most one peer is made. It is stored under the key, and its offer is
made. -/
def OffersNext (s : SessRef) (k : String) (p q : Pod) : Prop :=
  q.peerHeap.next = p.peerHeap.next ∨
    q.peerHeap.next = p.peerHeap.next + 1 ∧
      q.entry .subscriber s k = some p.peerHeap.next ∧
      (q.fatal = true ∨ (q.peer p.peerHeap.next).haveLocalOffer = true)

theorem subscribe_offersNext {env : Env} {sid : String} {isFake : Bool}
    {notFound failed : Pod → Pod} (hp : PodOk p)
    (hc : command m = some .sub ∨ command m = some .fakeSubscribe)
    (hn : ∀ p, Quiet p (notFound p)) (hf : ∀ p, Quiet p (failed p)) :
    OffersNext s (subKey sid (getValue m .srcSessID) (getValue m .peerID)) p
      (p.subscribe env s m sid isFake notFound failed) := by
  have hrem := makeWay_removes hp.placed s (getValue m .peerID)
    (subKey sid (getValue m .srcSessID) (getValue m .peerID))
  have hquiet := Pod.peerHandleMessage_quiet env
  generalize h : p.subscribe env s m sid isFake notFound failed = q
  obtain ⟨-, rfl⟩ | ⟨-, -, rfl⟩ | ⟨-, -, rfl⟩ := Pod.subscribe_cases h
  · exact .inl (hn p).peerNext
  · unfold OffersNext
    rw [← hrem.peerNext]
    refine .inr ⟨?_, ?_, peerHandleMessage_offers env hc⟩
    · rw [(hquiet _ m _).peerNext, Pod.insertSubscriber_peerNext]
    · rw [(hquiet _ m _).entry, Pod.insertSubscriber_entry,
        if_pos ⟨rfl, rfl, rfl⟩]
  · exact .inl ((hf _).peerNext.trans hrem.peerNext)

/-- A message that subscribes makes at most one peer, in the session it is
handed to. -/
theorem step_offersNext (hp : InOrder p) (hs : Pod.step a p = some q)
    (hm : a.2 = .message m)
    (hc : command m = some .sub ∨ command m = some .fakeSubscribe) :
    q.peerHeap.next = p.peerHeap.next ∨
      ∃ s, p.seat (getValue m .roomId) (route m) = some s ∧
        OffersNext s (subscriberKey m) p q := by
  by_cases hto : p.regist = true ∧
      ∃ s, p.seat (getValue m .roomId) (route m) = some s
  · obtain ⟨hreg, s, hseat⟩ := hto
    refine .inr ⟨s, hseat, ?_⟩
    rcases hc with hc | hc
    · rw [step_routed hs hm hc rfl hreg hseat]
      simp only [Pod.sessionHandleMessage, hc, subscriberKey, subscriberId]
      exact subscribe_offersNext hp.toPodOk (.inl hc)
        (fun p => p.emit_quiet _) (fun p => p.emit_quiet _)
    · rw [step_routed hs hm hc rfl hreg hseat]
      simp only [Pod.sessionHandleMessage, hc, subscriberKey, subscriberId]
      exact subscribe_offersNext hp.toPodOk (.inr hc) Asks.refl Asks.refl
  · have hno : p.regist = true →
        p.seat (getValue m .roomId) (route m) = none := fun hreg =>
      Option.eq_none_iff_forall_ne_some.mpr fun s hseat => hto ⟨hreg, s, hseat⟩
    rcases hc with hc | hc
    · exact .inl (step_unrouted hs hm hc rfl hno).peerNext
    · exact .inl (step_unrouted hs hm hc rfl hno).peerNext

/-! ## What an answer does -/

theorem answerKey_answer (hc : command m = some .answer) :
    answerKey m = subKey (getValue m .sessID) (getValue m .srcSessID)
      (getValue m .peerID) := by rw [answerKey, if_pos hc]

theorem answerKey_fakeAnswer (hc : command m = some .fakeAnswer) :
    answerKey m = subKey (getValue m .podId) (getValue m .srcSessID)
      (getValue m .peerID) := by
  rw [answerKey, if_neg (by simp [hc])]

theorem answered_of_accepts (hr : Reaches p m r)
    (hs : (p.room r).sessions.lookup (route m) = some s)
    (hacc : Accepts p s m y) : p.answered m = some y := by
  have hseat : command m ≠ some .login →
      p.seat (getValue m .roomId) (route m) = some s := fun h =>
    seat_eq_some.mpr ⟨r, (hr.known h).1, hs⟩
  unfold Accepts at hacc
  split at hacc
  · next hc =>
      rw [Pod.answered, if_pos hr.regist, hseat (by rw [hc]; exact nofun),
        Option.bind_some, answerKey_answer hc]
      exact hacc
  · next hc =>
      rw [Pod.answered, if_pos hr.regist, hseat (by rw [hc]; exact nofun),
        Option.bind_some, answerKey_fakeAnswer hc]
      exact hacc
  · exact hacc.elim

theorem entry_of_answered (h : p.answered m = some y) :
    ∃ s, p.seat (getValue m .roomId) (route m) = some s ∧
      p.entry .subscriber s (answerKey m) = some y := by
  unfold Pod.answered at h
  split at h
  · exact Option.bind_eq_some_iff.mp h
  · cases h

/-- The peer that `answered` names is the one whose handler runs. -/
theorem step_answered (hs : Pod.step a p = some q) (hm : a.2 = .message m)
    (hans : isAnswer m = true) (hy : p.answered m = some y) :
    ∃ mu, q = ((p.rlock mu).handleRemoteAnswer a.1 y).runlock mu := by
  obtain ⟨s, hseat, hentry⟩ := entry_of_answered hy
  have hreg : p.regist = true := by
    unfold Pod.answered at hy
    split at hy
    · assumption
    · cases hy
  have hlook : ((p.rlock (.subs s)).sess s).subscribers.lookup
      (answerKey m) = some y := by rw [Pod.rlock, Pod.emit_sess]; exact hentry
  refine ⟨.subs s, ?_⟩
  simp only [isAnswer, Bool.or_eq_true, decide_eq_true_eq] at hans
  rcases hans with hc | hc
  · rw [answerKey_answer hc] at hlook
    rw [step_routed hs hm hc rfl hreg hseat]
    simp only [Pod.sessionHandleMessage, hc, Pod.handleAnswer,
      Pod.toSubscriber, hlook, Pod.peerHandleMessage]
  · rw [answerKey_fakeAnswer hc] at hlook
    rw [step_routed hs hm hc rfl hreg hseat]
    simp only [Pod.sessionHandleMessage, hc, Pod.handleFakeAnswer,
      Pod.toSubscriber, hlook, Pod.peerHandleMessage]

/-! ## Runs -/

namespace Dialogue

variable {w w' : Dialogue}

/-- A session has its seat in one room, under one name. -/
theorem old_seat {rid' u' : String} (hp : InOrder p)
    (hs : Pod.step a p = some q) (hold : p.seat rid' u' = some s)
    (hseat : q.seat rid u = some s) : rid' = rid ∧ u' = u := by
  obtain ⟨huser, -, -, -⟩ := (step_inOrder hp hs).toSound.of_seat hseat
  obtain ⟨huser', -, -, hlt⟩ := hp.toSound.of_seat hold
  have hid : (q.sess s).userid = (p.sess s).userid :=
    congrArg (·.1) ((step_after hp hs).sess s hlt)
  exact ⟨step_seat_room hp hs hold hseat, by rw [← huser', ← hid, huser]⟩

/-- What a step that is no subscription keeps of a subscriber it leaves. -/
theorem old_entry {v : String} (hp : InOrder p) (hs : Pod.step a p = some q)
    (hseat : q.seat rid u = some s) (hold : p.entry .subscriber s v = some y) :
    p.seat rid u = some s := by
  have hseat' := hp.toSound.seat_of_entry hold
  obtain ⟨hrid, hu⟩ := old_seat hp hs hseat' hseat
  rw [hrid, hu] at hseat'
  exact hseat'

/-- The invariant's clause about a subscriber, after an answer was added or
none. -/
theorem lastFor_append {l : List (PeerRef × JsonParser)}
    {π : String × String × String} (h : ∀ e ∈ l, place e.2 ≠ π)
    (d : List PeerRef) (c : List Call) :
    lastFor ⟨q, w.answers ++ l, d, c⟩ π = w.lastFor π :=
  latest_silent fun e he => if_neg (h e he)

theorem mem_produced {b : Input} {e : PeerRef × JsonParser}
    (h : e ∈ produced b p q) :
    ∃ m, b = .message m ∧
      (command m = some .sub ∨ command m = some .fakeSubscribe) ∧
      e = (p.peerHeap.next, answerFor m) ∧
      p.peerHeap.next < q.peerHeap.next := by
  unfold produced at h
  split at h
  · next m hm =>
      split at h
      · next hc =>
          exact ⟨m, Input.msg?_eq_some hm, hc.1, List.mem_singleton.mp h,
            hc.2.1⟩
      · cases h
  · cases h

/-- No answer is produced for a place where an older subscriber stays. -/
theorem produced_place (hp : InOrder p) (hs : Pod.step a p = some q)
    (hsrc : ∀ m ∈ a.2.msg?, command m = some .fakeSubscribe →
      getValue m .srcSessID = getValue m .sessID)
    (hseat : p.seat rid u = some s) (hold : p.entry .subscriber s k = some y)
    (hnew : q.entry .subscriber s k = some y) :
    ∀ e ∈ produced a.2 p q, place e.2 ≠ (rid, u, k) := by
  intro e he hplace
  obtain ⟨m, hm, hc, rfl, hlt⟩ := mem_produced he
  rw [place_answerFor hc (hsrc m (by rw [hm]; rfl))] at hplace
  simp only [Prod.mk.injEq] at hplace
  obtain ⟨hrid, hu, hk⟩ := hplace
  have hne : q.peerHeap.next ≠ p.peerHeap.next := Nat.ne_of_gt hlt
  obtain ⟨s', hs', hoff⟩ := (step_offersNext hp hs hm hc).resolve_left hne
  rw [hrid, hu, hseat] at hs'
  cases hs'
  obtain ⟨-, hentry, -⟩ := hoff.resolve_left hne
  rw [hk, hnew] at hentry
  cases hentry
  exact Nat.lt_irrefl _ (hp.placed _ _ _ _ hold).1

theorem Kept.input (hw : Kept w) (ha : w.InTurn (.input a))
    (hs : step (.input a) w = some w') : Kept w' := by
  simp only [step] at hs
  split at hs
  · cases hs
  next hno =>
  obtain ⟨q, hq, rfl⟩ := Option.map_eq_some_iff.mp hs
  have hp := hw.inOrder
  have hf := step_fatal hq
  refine ⟨step_inOrder hp hq, hw.matched, hw.called, ?_, ?_⟩
  · intro e he
    rcases List.mem_append.mp he with he | he
    · exact hw.answers e he
    · obtain ⟨m, -, -, rfl, -⟩ := mem_produced he
      exact answerFor_isAnswer m
  intro hqf rid u s k y hseat hy
  dsimp only at hqf hseat hy ⊢
  rcases step_subscriber hp hq hy with hold | ⟨m, hm, hc, hge, hto, rfl, -⟩
  · have hseat' := old_entry hp hq hseat hold
    obtain ⟨hlast, hopen⟩ := hw.last hf rid u s k y hseat' hold
    refine ⟨?_, fun hd => ?_⟩
    · rw [lastFor_append (produced_place hp hq ha hseat' hold hy)]
      exact hlast
    · rcases step_offer hp hq (hp.placed _ _ _ _ hold).1 with
        hsame | ⟨m, r, i, hm, hreach, hlook, hacc⟩
      · rw [hsame]
        exact hopen hd
      · refine absurd ?_ hno
        rw [hm]
        change isAnswer m = true
        unfold Accepts at hacc
        split at hacc
        · next hc => simp [isAnswer, hc]
        · next hc => simp [isAnswer, hc]
        · exact hacc.elim
  · -- the new subscriber is the next peer, and its answer the last one
    have hlt : y < q.peerHeap.next :=
      ((step_inOrder hp hq).placed _ _ _ _ hy).1
    have hne : q.peerHeap.next ≠ w.pod.peerHeap.next := by
      intro h
      rw [h] at hlt
      exact absurd hge (Nat.not_le_of_lt hlt)
    obtain ⟨s', hs', hoff⟩ := (step_offersNext hp hq hm hc).resolve_left hne
    cases hs'.symm.trans hto
    obtain ⟨-, hentry, hoffer⟩ := hoff.resolve_left hne
    cases hentry.symm.trans hy
    have hoffer := hoffer.resolve_left (by rw [hqf]; exact nofun)
    refine ⟨?_, fun _ => hoffer⟩
    have hplace : place (answerFor m) = (rid, u, subscriberKey m) := by
      have hold := old_seat hp hq hto hseat
      rw [place_answerFor hc (ha m (by rw [hm]; rfl)), hold.1, hold.2]
    have hprod : produced a.2 w.pod q =
        [(w.pod.peerHeap.next, answerFor m)] := by
      simp only [produced, hm, Input.msg?]
      exact if_pos ⟨hc, hlt, hoffer⟩
    rw [hprod]
    refine latest_said ?_ ⟨_, List.mem_singleton_self _, if_pos hplace⟩
    intro e he c hec
    cases List.mem_singleton.mp he
    rw [if_pos hplace] at hec
    exact (Option.some.inj hec).symm

/-- The last answer for a place, if it finds a subscriber, finds its own, with
its offer open. -/
theorem Kept.answered {e : PeerRef × JsonParser} (hw : Kept w)
    (hf : w.pod.fatal = false) (hd : e.1 ∉ w.delivered)
    (hlast : w.lastFor (place e.2) = some e.1)
    (hy : w.pod.answered e.2 = some y) :
    y = e.1 ∧ (w.pod.peer y).haveLocalOffer = true := by
  obtain ⟨s, hseat, hentry⟩ := entry_of_answered hy
  obtain ⟨hlast', hopen⟩ := hw.last hf _ _ s _ y hseat hentry
  have heq : y = e.1 := Option.some.inj (hlast'.symm.trans hlast)
  exact ⟨heq, hopen (by rw [heq]; exact hd)⟩

theorem Kept.deliver {env : Env} {i : Nat} (hw : Kept w)
    (ha : w.InTurn (.deliver env i))
    (hs : step (.deliver env i) w = some w') : Kept w' := by
  simp only [step] at hs
  obtain ⟨e, he, hs⟩ := Option.bind_eq_some_iff.mp hs
  obtain ⟨q, hq, rfl⟩ := Option.map_eq_some_iff.mp hs
  obtain ⟨hd, hlast⟩ := ha e he
  have hp := hw.inOrder
  have hf := step_fatal hq
  have hans := hw.answers e (List.mem_of_getElem? he)
  have hown : ∀ y, w.pod.answered e.2 = some y →
      y = e.1 ∧ (w.pod.peer y).haveLocalOffer = true :=
    fun y hy => hw.answered hf hd hlast hy
  have hcall : ∀ c ∈ ((w.pod.answered e.2).map fun y =>
      (⟨y, e.1, (w.pod.peer y).haveLocalOffer⟩ : Call)).toList,
      c = ⟨e.1, e.1, true⟩ := by
    intro c hc
    obtain ⟨y, hy, rfl⟩ := Option.map_eq_some_iff.mp (Option.mem_toList.mp hc)
    obtain ⟨heq, hopen⟩ := hown y hy
    rw [hopen, heq]
  refine ⟨step_inOrder hp hq, ⟨?_, ?_⟩, ?_, hw.answers, ?_⟩
  · rw [List.map_append, List.nodup_append]
    refine ⟨hw.matched.1, ?_, ?_⟩
    · cases w.pod.answered e.2 with
      | none => exact List.nodup_nil
      | some y => exact List.nodup_singleton _
    · intro x hx y hy
      obtain ⟨c, hc, rfl⟩ := List.mem_map.mp hx
      obtain ⟨c', hc', rfl⟩ := List.mem_map.mp hy
      rw [hcall c' hc']
      intro heq
      have hsame : c.on = e.1 := heq
      exact hd (hsame ▸ hw.called c hc)
  · intro c hc
    rcases List.mem_append.mp hc with hc | hc
    · exact hw.matched.2 c hc
    · rw [hcall c hc]
      exact ⟨rfl, rfl⟩
  · intro c hc
    rcases List.mem_append.mp hc with hc | hc
    · exact List.mem_cons_of_mem _ (hw.called c hc)
    · rw [hcall c hc]
      exact List.mem_cons_self
  · intro _ rid u s k y hseat hy
    dsimp only at hseat hy ⊢
    have hold : w.pod.entry .subscriber s k = some y := by
      refine (step_subscriber hp hq hy).resolve_right ?_
      rintro ⟨m, hm, hc, -⟩
      cases hm
      rcases hc with hc | hc <;> simp [isAnswer, hc] at hans
    obtain ⟨hlast', hopen⟩ := hw.last hf rid u s k y
      (old_entry hp hq hseat hold) hold
    refine ⟨hlast', fun hnot => ?_⟩
    rw [List.mem_cons, not_or] at hnot
    rcases step_offer hp hq (hp.placed _ _ _ _ hold).1 with
      hsame | ⟨m, r, j, hm, hreach, hlook, hacc⟩
    · rw [hsame]
      exact hopen hnot.2
    · cases hm
      exact absurd (hown y (answered_of_accepts hreach hlook hacc)).1 hnot.1

theorem init_kept (conf : Config) : Kept (init conf) where
  inOrder := createRoomMgr_inOrder conf
  matched := ⟨List.nodup_nil, fun _ h => by cases h⟩
  called _ h := by cases h
  answers _ h := by cases h
  last _ _ _ _ _ _ h := by cases h

end Dialogue

/-- In every run in which an answer is delivered once, and only while it is
the last one produced for its place, every subscriber peer gets at most one
answer, its own, and while its offer is outstanding. -/
theorem answers_match_offers {conf : Config} {ts : List Post}
    (hg : Guarded Dialogue.step Dialogue.InTurn ts (Dialogue.init conf)) :
    Always Dialogue.step Dialogue.Matched ts (Dialogue.init conf) := by
  have h : Always Dialogue.step Dialogue.Kept ts (Dialogue.init conf) := by
    refine always_of_guarded (fun t w w' hw ht hs => ?_) hg
      (Dialogue.init_kept conf)
    cases t with
    | input a => exact hw.input ht hs
    | deliver env i => exact hw.deliver ht hs
  exact h.mono fun _ hw => hw.matched

/-- A user watches a stream and asks for it again, so that two answers are
under way. -/
def askedTwice : List Post :=
  [.input (Env.calm, .setSendMessageHandler),
    .input (Env.calm, .message (Cmd.login.msg
      [(.roomId, "R"), (.sessID, "w")])),
    .input (Env.calm, .message (Cmd.login.msg
      [(.roomId, "R"), (.sessID, "u")])),
    .input (Env.calm, .message (Cmd.push.msg
      [(.roomId, "R"), (.sessID, "w"), (.peerID, "1")])),
    .input (Env.calm, .message (Cmd.offer.msg
      [(.roomId, "R"), (.sessID, "w"), (.peerID, "1")])),
    .input (Env.calm, .message (Cmd.sub.msg [(.roomId, "R"), (.sessID, "u"),
      (.srcSessID, "w"), (.peerID, "1")])),
    .input (Env.calm, .message (Cmd.sub.msg [(.roomId, "R"), (.sessID, "u"),
      (.srcSessID, "w"), (.peerID, "1")]))]

/-- The first answer is set on the second peer. The second answer then finds
no offer, and the server is gone. -/
theorem stale_answer_mismatched :
    ∃ w w', run Dialogue.step (askedTwice ++ [.deliver Env.calm 0])
        (Dialogue.init (Config.standalone "podA")) = some w ∧
      ¬w.Matched ∧ Dialogue.step (.deliver Env.calm 1) w = some w' ∧
      w'.pod.fatal = true := by
  have h : (run Dialogue.step (askedTwice ++ [.deliver Env.calm 0])
      (Dialogue.init (Config.standalone "podA"))).bind (fun w =>
        (Dialogue.step (.deliver Env.calm 1) w).map fun w' =>
          decide (w.calls.map (fun c => (c.on, c.madeFor)) = [(2, 1)] ∧
            w'.pod.fatal = true)) = some true := by decide
  obtain ⟨w, hw, hnext⟩ := Option.bind_eq_some_iff.mp h
  obtain ⟨w', hw', hfacts⟩ := Option.map_eq_some_iff.mp hnext
  obtain ⟨hcalls, hfatal⟩ := of_decide_eq_true hfacts
  refine ⟨w, w', hw, fun hmatched => ?_, hw', hfatal⟩
  obtain ⟨c, hc, heq⟩ := List.mem_map.mp
    (hcalls ▸ List.mem_singleton_self ((2 : PeerRef), (1 : PeerRef)))
  have hown := (hmatched.2 c hc).1
  simp only [Prod.mk.injEq] at heq
  rw [heq.1, heq.2] at hown
  exact absurd hown (by decide)

/-- Only the second answer arrives. -/
theorem answers_match_offers_askedTwice :
    ∃ w, run Dialogue.step (askedTwice ++ [.deliver Env.calm 1])
        (Dialogue.init (Config.standalone "podA")) = some w ∧
      w.calls.length = 1 ∧ w.Matched := by
  have h : (run Dialogue.step (askedTwice ++ [.deliver Env.calm 1])
      (Dialogue.init (Config.standalone "podA"))).map (fun w =>
        w.calls.length) = some 1 := by decide
  obtain ⟨w, hw, hlen⟩ := Option.map_eq_some_iff.mp h
  exact ⟨w, hw, hlen, (answers_match_offers (by decide)).last hw⟩

end MediaServer.Ref
