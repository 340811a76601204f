import MediaServer.Proofs.Crashes
import MediaServer.Proofs.Serving
import MediaServer.Proofs.Subscribers

/-!
# Subscriptions that share a key

A subscription is a triple: who subscribes, whose stream it is, and the
stream. The key that a session stores it under is the concatenation of the
three, without a separator, so two triples may have the same key. Then a `sub`
for one of them replaces the peer of the other, a `stopsub` destroys it, and
an answer or a candidate for one is handed to the other, which takes it or
panics.

The theorem says when that happens: exactly if the entry under the message's
key belongs to another triple and the handler gets hold of it, or the message
ends the process. Whoever is handed a message does not stay as it was in a
process that lives.
-/

namespace MediaServer.Ref

open MediaServer.Lib

variable {p q : Pod} {s : SessRef} {k : String} {x y z : PeerRef}
variable {m : JsonParser} {env : Env}

/-- What a subscription is for. -/
def Peer.triple (t : Peer) : String × String × String :=
  (t.userid, t.remoteuserid, t.peerid)

/-- What a message of a subscriber is for; pods subscribe under their own
name. -/
def tripleOf (m : JsonParser) : String × String × String :=
  (match command m with
    | some .fakeSubscribe | some .fakeAnswer | some .fakeCandidate =>
        getValue m .podId
    | _ => getValue m .sessID,
    getValue m .srcSessID, getValue m .peerID)

def keyOf (m : JsonParser) : String :=
  subKey (tripleOf m).1 (tripleOf m).2.1 (tripleOf m).2.2

/-- The session handles the message, and the release that a `stopsub` has
spawned runs. The other handlers spawn nothing. -/
def Pod.serve (env : Env) (s : SessRef) (m : JsonParser) (p : Pod) : Pod :=
  let q := p.sessionHandleMessage env s m
  if command m = some .stopSub then
    match q.pending[p.pending.length]? with
    | some g => Pod.runGoroutine env g
        { q with pending := q.pending.eraseIdx p.pending.length }
    | none => q
  else q

/-- The subscriber that the handler gets hold of: it replaces it, releases it
or hands it the message. A subscription needs a publisher of the stream, and
only origin sessions take candidates. -/
def Pod.handed (s : SessRef) (m : JsonParser) (p : Pod) : Option PeerRef :=
  let found := p.entry .subscriber s (keyOf m)
  match command m with
  | some .sub | some .fakeSubscribe =>
      if (p.sess s).publishers.lookup (getValue m .peerID) = none then none
      else found
  | some .fakeCandidate => if (p.sess s).origin then found else none
  | _ => found

/-- The subscribers of other triples are as they were, in their places, and
the process lives. None of them was handed the message then: whom the handler
gets hold of does not stay as it was, or panics. -/
def ServesOwn (env : Env) (s : SessRef) (m : JsonParser) (p : Pod) : Prop :=
  ∀ k y, (p.sess s).subscribers.lookup k = some y →
    (p.peer y).triple ≠ tripleOf m →
    Spared y p (p.serve env s m) ∧ (p.serve env s m).fatal = false

/-! ## Whom the sections spare -/

namespace Spared

theorem throw (p : Pod) : Spared z p p.throw := .of_heaps rfl rfl

theorem readPublisher (s : SessRef) (pid : String) (p : Pod) :
    Spared z p (p.readPublisher s pid).1 := by
  unfold Pod.readPublisher
  dsimp only
  split
  · exact (Spared.emit p _).trans (.throw _)
  · split
    · exact (Spared.emit p _).trans (.emit _ _)
    · exact (Spared.emit p _).trans (.throw _)

theorem replaceSubscriber (hz : p.entry .subscriber s k ≠ some z) :
    Spared z p (p.replaceSubscriber s k) := by
  unfold Pod.replaceSubscriber
  dsimp only
  split
  · exact (Spared.emit p _).trans (.throw _)
  · next y hy =>
      refine ((Spared.emit p _).trans (.dropSubscriber hy ?_)).trans
        (.emit _ _)
      rintro rfl
      rw [Pod.lock, Pod.emit_sess] at hy
      exact hz hy

theorem insertSubscriber {t : Peer} (hz : z < p.peerHeap.next)
    (hk : p.entry .subscriber s k ≠ some z) :
    Spared z p (p.insertSubscriber s k t) where
  peer := by rw [Pod.insertSubscriber_peer, if_neg (Nat.ne_of_lt hz)]
  entry i l := by
    rw [Pod.insertSubscriber_entry]
    split
    · next hat =>
        obtain ⟨-, rfl, rfl⟩ := hat
        refine ⟨fun h => ?_, fun h => absurd h hk⟩
        cases h
        exact absurd hz (Nat.lt_irrefl _)
    · exact .rfl

theorem offerTo {send : Pod → Pod} (hsend : ∀ p, Spared z p (send p))
    (hz : z ≠ y) (p : Pod) : Spared z p (p.offerTo env y send) := by
  unfold Pod.offerTo
  split
  · exact .throw p
  · split
    · exact (Spared.setPeer p hz).trans (hsend _)
    · exact .throw p

theorem answerTo {send : Pod → Pod} (hsend : ∀ p, Spared z p (send p))
    (hz : z ≠ y) (p : Pod) : Spared z p (p.answerTo env y send) := by
  unfold Pod.answerTo
  split
  · exact ((Spared.setPeer p hz).trans (.setPeer _ hz)).trans (hsend _)
  · exact .throw p

theorem handleRemoteAnswer (hz : z ≠ y) (p : Pod) :
    Spared z p (p.handleRemoteAnswer env y) := by
  unfold Pod.handleRemoteAnswer
  split
  · exact (Spared.setPeer p hz).trans (.setPeer _ hz)
  · exact .throw p

theorem handleRemoteCandidate (hz : z ≠ y) (p : Pod) :
    Spared z p (p.handleRemoteCandidate env y m) := by
  unfold Pod.handleRemoteCandidate
  split
  · exact .setPeer p hz
  · split
    · exact .setPeer p hz
    · exact .throw p

/-- What is handed to one peer is nothing to another. -/
theorem peerHandleMessage (hz : z ≠ y) (p : Pod) :
    Spared z p (p.peerHandleMessage env y m) := by
  unfold Pod.peerHandleMessage
  split
  · exact .offerTo (fun p => .emit p _) hz p
  · exact .answerTo (fun p => .emit p _) hz p
  · exact .handleRemoteAnswer hz p
  · exact .handleRemoteCandidate hz p
  · exact .offerTo (fun p => .emit p _) hz p
  · exact .answerTo (fun p => .emit p _) hz p
  · exact .handleRemoteAnswer hz p
  · exact .handleRemoteCandidate hz p
  · exact .refl z p

theorem makeWay {pid : String} (hk : p.entry .subscriber s k ≠ some z) :
    Spared z p (p.makeWay s pid k) := by
  have hread := Spared.readPublisher (z := z) s pid p
  rw [← (p.readPublisher_quiet s pid).entry] at hk
  unfold Pod.makeWay
  dsimp only
  split
  · exact hread
  · exact hread.trans (.replaceSubscriber hk)

/-- A subscription spares every peer that it does not replace. -/
theorem subscribe {sid : String} {isFake : Bool} {notFound failed : Pod → Pod}
    (hn : ∀ p, Spared z p (notFound p)) (hf : ∀ p, Spared z p (failed p))
    (hp : Placed p) (hz : z < p.peerHeap.next)
    (hk : p.entry .subscriber s (subKey sid (getValue m .srcSessID)
        (getValue m .peerID)) = some z →
      (p.sess s).publishers.lookup (getValue m .peerID) = none) :
    Spared z p (p.subscribe env s m sid isFake notFound failed) := by
  have hrem := makeWay_removes hp s (getValue m .peerID)
    (subKey sid (getValue m .srcSessID) (getValue m .peerID))
  generalize h : p.subscribe env s m sid isFake notFound failed = q
  obtain ⟨-, rfl⟩ | ⟨hpub, -, rfl⟩ | ⟨hpub, -, rfl⟩ := Pod.subscribe_cases h
  · exact hn p
  · refine (Spared.makeWay fun h => hpub (hk h)).trans
      (.trans (.insertSubscriber ?_ ?_) (.peerHandleMessage ?_ _))
    · rw [hrem.peerNext]; exact hz
    · rw [hrem.free]; exact nofun
    · rw [hrem.peerNext]; exact Nat.ne_of_lt hz
  · exact (Spared.makeWay fun h => hpub (hk h)).trans (hf _)

/-- A message for a subscriber spares the others. -/
theorem toSubscriber {sid : String} {notFound : Pod → Pod}
    (hn : ∀ p, Spared z p (notFound p))
    (hk : p.entry .subscriber s (subKey sid (getValue m .srcSessID)
      (getValue m .peerID)) ≠ some z) :
    Spared z p (p.toSubscriber env s m sid notFound) := by
  have hlock : Spared z p (p.rlock (.subs s)) := .emit p _
  unfold Pod.toSubscriber
  dsimp only
  refine (hlock.trans ?_).trans (.emit _ _)
  split
  · next y hy =>
      rw [Pod.rlock, Pod.emit_sess] at hy
      exact .peerHandleMessage (fun h => hk (by rw [h]; exact hy)) _
  · exact hn _

theorem releaseSubscriberPeer {sid ssid pid : String}
    (hz : p.entry .subscriber s (subKey sid ssid pid) ≠ some z) :
    Spared z p (p.releaseSubscriberPeer s sid ssid pid) := by
  have hlock : Spared z p (p.lock (.subs s)) := .emit p _
  refine (hlock.trans ?_).trans (.emit _ _)
  split
  · next y hy =>
      refine .dropSubscriber hy ?_
      rintro rfl
      rw [Pod.lock, Pod.emit_sess] at hy
      exact hz hy
  · exact .refl _ _

end Spared

/-! ## Whom they hit -/

/-- A subscription that finds its publisher takes the old peer of its key out
of the map. -/
theorem subscribe_hits {sid : String} {isFake : Bool}
    {notFound failed : Pod → Pod} (hf : ∀ p, Quiet p (failed p))
    (hp : Placed p)
    (hy : p.entry .subscriber s (subKey sid (getValue m .srcSessID)
        (getValue m .peerID)) = some y)
    (hpub : (p.sess s).publishers.lookup (getValue m .peerID) ≠ none) :
    ¬Spared y p (p.subscribe env s m sid isFake notFound failed) := by
  intro hspared
  have hkept := (hspared.entry _ _).mpr hy
  have hlt := (hp _ _ _ _ hy).1
  have hrem := makeWay_removes hp s (getValue m .peerID)
    (subKey sid (getValue m .srcSessID) (getValue m .peerID))
  generalize h : p.subscribe env s m sid isFake notFound failed = q at hkept
  obtain ⟨hnone, -⟩ | ⟨-, -, rfl⟩ | ⟨-, -, rfl⟩ := Pod.subscribe_cases h
  · exact hpub hnone
  · rw [(Pod.peerHandleMessage_quiet env _ m _).entry,
      Pod.insertSubscriber_entry, if_pos ⟨rfl, rfl, rfl⟩, hrem.peerNext]
      at hkept
    cases hkept
    exact absurd hlt (Nat.lt_irrefl _)
  · rw [(hf _).entry, hrem.free] at hkept
    cases hkept

theorem handleRemoteAnswer_peer
    (hf : (p.handleRemoteAnswer env y).fatal = false) :
    (p.peer y).haveLocalOffer = true ∧
      (p.handleRemoteAnswer env y).peer y = { p.peer y with
        haveLocalOffer := false
        setedRemoteDesc := true
        iceCandidates := (p.peer y).iceCandidates ++
          (p.peer y).candidateCaches } := by
  unfold Pod.handleRemoteAnswer at hf ⊢
  split at hf
  · next h =>
      rw [if_pos h, Pod.setCachedCandidates, Pod.setPeer_peer, if_pos rfl,
        Pod.setPeer_peer, if_pos rfl]
      exact ⟨h.2.1, rfl⟩
  · cases hf

theorem handleRemoteCandidate_peer
    (hf : (p.handleRemoteCandidate env y m).fatal = false) :
    (p.handleRemoteCandidate env y m).peer y =
      if (p.peer y).setedRemoteDesc then
        { p.peer y with iceCandidates :=
            (p.peer y).iceCandidates ++ [getValue m .candidate] }
      else { p.peer y with candidateCaches :=
            (p.peer y).candidateCaches ++ [getValue m .candidate] } := by
  unfold Pod.handleRemoteCandidate at hf ⊢
  by_cases hset : (p.peer y).setedRemoteDesc = true
  · rw [if_neg (by simp [hset])] at hf ⊢
    split at hf
    · next h => rw [if_pos h, Pod.setPeer_peer, if_pos rfl, if_pos hset]
    · cases hf
  · rw [if_pos (by simpa using hset), Pod.setPeer_peer, if_pos rfl,
      if_neg hset]

/-- A message for a subscriber is handed to the peer of its key, and nothing
happens to the others. -/
theorem toSubscriber_peer {sid : String} {notFound : Pod → Pod}
    (hn : ∀ p, Spared z p (notFound p)) :
    (p.toSubscriber env s m sid notFound).peer z =
      if p.entry .subscriber s (subKey sid (getValue m .srcSessID)
          (getValue m .peerID)) = some z then
        ((p.rlock (.subs s)).peerHandleMessage env z m).peer z
      else p.peer z := by
  split
  · next hz =>
      have hlook : ((p.rlock (.subs s)).sess s).subscribers.lookup (subKey sid
          (getValue m .srcSessID) (getValue m .peerID)) = some z := by
        rw [Pod.rlock, Pod.emit_sess]
        exact hz
      simp only [Pod.toSubscriber, hlook]
      rw [Pod.runlock, Pod.emit_peer]
  · next hz => exact (Spared.toSubscriber hn hz).peer

theorem toSubscriber_fatal {sid : String} {notFound : Pod → Pod}
    (hf : (p.toSubscriber env s m sid notFound).fatal = false)
    (hz : p.entry .subscriber s (subKey sid (getValue m .srcSessID)
      (getValue m .peerID)) = some z) :
    ((p.rlock (.subs s)).peerHandleMessage env z m).fatal = false := by
  have hlook : ((p.rlock (.subs s)).sess s).subscribers.lookup (subKey sid
      (getValue m .srcSessID) (getValue m .peerID)) = some z := by
    rw [Pod.rlock, Pod.emit_sess]
    exact hz
  simp only [Pod.toSubscriber, hlook] at hf
  rwa [Pod.runlock, Pod.emit_fatal] at hf

/-- An answer that does not end the process settles the offer. -/
theorem answer_hits {sid : String} {notFound : Pod → Pod}
    (hc : command m = some .answer ∨ command m = some .fakeAnswer)
    (hn : ∀ p, Spared y p (notFound p))
    (hy : p.entry .subscriber s (subKey sid (getValue m .srcSessID)
      (getValue m .peerID)) = some y)
    (hsame : (p.toSubscriber env s m sid notFound).peer y = p.peer y)
    (hlives : (p.toSubscriber env s m sid notFound).fatal = false) : False := by
  rw [toSubscriber_peer hn, if_pos hy] at hsame
  have hlives := toSubscriber_fatal hlives hy
  have hmsg : ∀ p : Pod, p.peerHandleMessage env y m =
      p.handleRemoteAnswer env y := by
    intro p
    rcases hc with hc | hc
    · simp only [Pod.peerHandleMessage, hc]
    · simp only [Pod.peerHandleMessage, hc]
  rw [hmsg] at hsame hlives
  obtain ⟨hoffer, hpeer⟩ := handleRemoteAnswer_peer hlives
  rw [hpeer] at hsame
  rw [Pod.rlock, Pod.emit_peer] at hoffer hsame
  have hsettled := congrArg Peer.haveLocalOffer hsame
  rw [hoffer] at hsettled
  cases hsettled

/-- A candidate that does not end the process is kept. -/
theorem candidate_hits {sid : String} {notFound : Pod → Pod}
    (hc : command m = some .fakeCandidate)
    (hn : ∀ p, Spared y p (notFound p))
    (hy : p.entry .subscriber s (subKey sid (getValue m .srcSessID)
      (getValue m .peerID)) = some y)
    (hsame : (p.toSubscriber env s m sid notFound).peer y = p.peer y)
    (hlives : (p.toSubscriber env s m sid notFound).fatal = false) : False := by
  rw [toSubscriber_peer hn, if_pos hy] at hsame
  have hlives := toSubscriber_fatal hlives hy
  simp only [Pod.peerHandleMessage, hc] at hsame hlives
  rw [handleRemoteCandidate_peer hlives, Pod.rlock, Pod.emit_peer] at hsame
  split at hsame
  · simpa using congrArg (fun t => t.iceCandidates.length) hsame
  · simpa using congrArg (fun t => t.candidateCaches.length) hsame

/-! ## Withdrawals -/

theorem keyOf_stopSub (hc : command m = some .stopSub) :
    keyOf m = subKey (getValue m .sessID) (getValue m .srcSessID)
      (getValue m .peerID) := by simp only [keyOf, tripleOf, hc]

/-- A `stopsub` that finds a subscriber spawns its release. -/
theorem serve_stopSub_found (env : Env) (hc : command m = some .stopSub)
    (hy : p.entry .subscriber s (keyOf m) = some y) :
    p.serve env s m = ((p.rlock (.subs s)).runlock (.subs s)
      |>.releaseSubscriberPeer s (getValue m .sessID) (getValue m .srcSessID)
        (getValue m .peerID)) := by
  have hlook : ((p.rlock (.subs s)).sess s).subscribers.lookup (keyOf m) =
      some y := by
    rw [Pod.rlock, Pod.emit_sess]
    exact hy
  let g := Goroutine.releaseSubscriberPeer s (getValue m .sessID)
    (getValue m .srcSessID) (getValue m .peerID) y
  let t := (p.rlock (.subs s)).runlock (.subs s)
  have hgo : ∀ (p : Pod) e, (p.go g).emit e = (p.emit e).go g := by
    intro p e
    unfold Pod.emit
    split
    · next hf => rw [if_pos (show p.fatal = true from hf)]
    · next hf => rw [if_neg (show ¬p.fatal = true from hf)]; rfl
  have hcall : p.sessionHandleMessage env s m = t.go g := by
    rw [keyOf_stopSub hc] at hlook
    simp only [Pod.sessionHandleMessage, hc, Pod.handleStopSub, hlook]
    exact hgo _ _
  have hpend : t.pending = p.pending := by
    simp only [t, Pod.runlock, Pod.emit_pending, Pod.rlock]
  rw [Pod.serve, hcall, if_pos hc]
  simp only [Pod.go, hpend, List.getElem?_concat_length]
  rw [List.eraseIdx_append_of_length_le le_rfl, Nat.sub_self,
    List.eraseIdx_cons_zero, List.append_nil, ← hpend]
  rfl

theorem serve_stopSub_missing (hc : command m = some .stopSub)
    (hy : p.entry .subscriber s (keyOf m) = none) :
    p.serve env s m = (p.rlock (.subs s)).runlock (.subs s) := by
  have hlook : ((p.rlock (.subs s)).sess s).subscribers.lookup (keyOf m) =
      none := by
    rw [Pod.rlock, Pod.emit_sess]
    exact hy
  rw [keyOf_stopSub hc] at hlook
  have hcall : p.sessionHandleMessage env s m =
      (p.rlock (.subs s)).runlock (.subs s) := by
    simp only [Pod.sessionHandleMessage, hc, Pod.handleStopSub, hlook]
  have hpend : (p.sessionHandleMessage env s m).pending = p.pending := by
    rw [hcall, Pod.runlock, Pod.emit_pending, Pod.rlock, Pod.emit_pending]
  rw [Pod.serve, if_pos hc, hpend, List.getElem?_eq_none le_rfl, hcall]

/-! ## Interference -/

theorem serve_of_ne_stopSub (hc : command m ≠ some .stopSub) :
    p.serve env s m = p.sessionHandleMessage env s m := by
  rw [Pod.serve, if_neg hc]

theorem handed_sub
    (hc : command m = some .sub ∨ command m = some .fakeSubscribe) :
    p.handed s m = some y ↔
      (p.sess s).publishers.lookup (getValue m .peerID) ≠ none ∧
        p.entry .subscriber s (keyOf m) = some y := by
  rcases hc with hc | hc
  · simp [Pod.handed, hc]
  · simp [Pod.handed, hc]

theorem handed_candidate (hc : command m = some .fakeCandidate) :
    p.handed s m = some y ↔ (p.sess s).origin = true ∧
      p.entry .subscriber s (keyOf m) = some y := by
  simp [Pod.handed, hc]

/-- Whoever the handler does not get hold of is spared. -/
theorem serve_spares {c : Cmd} (h : InOrder p) (hc : command m = some c)
    (hserves : c.serves = true) (hz : z < p.peerHeap.next)
    (hno : p.handed s m ≠ some z) : Spared z p (p.serve env s m) := by
  have hemit : ∀ (q : Pod) e, Spared z q (q.emit e) := .emit
  have hpub : command m = some .sub ∨ command m = some .fakeSubscribe →
      p.entry .subscriber s (keyOf m) = some z →
      (p.sess s).publishers.lookup (getValue m .peerID) = none := by
    intro hsub hk
    by_contra hpub
    exact hno ((handed_sub hsub).mpr ⟨hpub, hk⟩)
  cases c with
  | sub =>
      rw [serve_of_ne_stopSub (by simp [hc])]
      have hk := hpub (.inl hc)
      simp only [keyOf, tripleOf, hc] at hk
      simp only [Pod.sessionHandleMessage, hc]
      exact .subscribe (fun q => hemit q _) (fun q => hemit q _) h.placed hz hk
  | fakeSubscribe =>
      rw [serve_of_ne_stopSub (by simp [hc])]
      have hk := hpub (.inr hc)
      simp only [keyOf, tripleOf, hc] at hk
      simp only [Pod.sessionHandleMessage, hc]
      exact .subscribe (.refl z) (.refl z) h.placed hz hk
  | stopSub =>
      simp only [Pod.handed, hc] at hno
      cases hy : p.entry .subscriber s (keyOf m) with
      | none =>
          rw [serve_stopSub_missing hc hy]
          exact (hemit p _).trans (hemit _ _)
      | some y =>
          have hread : Spared z p ((p.rlock (.subs s)).runlock (.subs s)) :=
            (hemit p _).trans (hemit _ _)
          rw [serve_stopSub_found env hc hy]
          refine hread.trans (.releaseSubscriberPeer fun hz => hno ?_)
          rw [← keyOf_stopSub hc] at hz
          exact (hread.entry s (keyOf m)).mp hz
  | answer =>
      rw [serve_of_ne_stopSub (by simp [hc])]
      simp only [Pod.handed, keyOf, tripleOf, hc] at hno
      simp only [Pod.sessionHandleMessage, hc]
      exact .toSubscriber (fun q => hemit q _) hno
  | fakeAnswer =>
      rw [serve_of_ne_stopSub (by simp [hc])]
      simp only [Pod.handed, keyOf, tripleOf, hc] at hno
      simp only [Pod.sessionHandleMessage, hc]
      exact .toSubscriber (.refl z) hno
  | fakeCandidate =>
      rw [serve_of_ne_stopSub (by simp [hc])]
      rw [Ne, handed_candidate hc, not_and] at hno
      simp only [keyOf, tripleOf, hc] at hno
      simp only [Pod.sessionHandleMessage, hc, Pod.handleFakeCandidate]
      split
      · exact .refl z p
      · next horigin =>
          exact .toSubscriber (.refl z) (hno (by simpa using horigin))
  | _ => cases hserves

/-- The process ends where the session panics. -/
theorem serve_fatal (h : InOrder p) (hf : p.fatal = false) (hseat : Sits p s) :
    (p.serve env s m).fatal = p.sessCrashes env s m := by
  by_cases hc : command m = some .stopSub
  · have hread : Still p ((p.rlock (.subs s)).runlock (.subs s)) :=
      (p.rlock_still _).trans (Pod.runlock_still _ _)
    have hno : p.sessCrashes env s m = false := by
      simp only [Pod.sessCrashes, hc]
    rw [hno]
    cases hz : p.entry .subscriber s (keyOf m) with
    | none =>
        rw [serve_stopSub_missing hc hz]
        exact Fate.still hread h.ready hf
    | some z =>
        rw [serve_stopSub_found env hc hz]
        exact (Calm.still (A := Unbound) hread trivial).trans_fate
          (releaseSubscriberPeer_calm (Unbound.base none) (Unbound.touch s)
            _ _ _ _).fate h.ready hf
  · rw [serve_of_ne_stopSub hc]
    exact sessionHandleMessage_fate hseat h.ready hf

/-- The subscriber that the handler gets hold of loses its place or, if the
process lives, its record. -/
theorem serve_hits {c : Cmd} (h : InOrder p) (hc : command m = some c)
    (hserves : c.serves = true) (hu : p.handed s m = some y)
    (hspared : Spared y p (p.serve env s m)) :
    (p.serve env s m).fatal = true := by
  by_contra hlives
  rw [Bool.not_eq_true] at hlives
  cases c with
  | sub =>
      rw [serve_of_ne_stopSub (by simp [hc])] at hspared
      obtain ⟨hpub, hy⟩ := (handed_sub (.inl hc)).mp hu
      simp only [keyOf, tripleOf, hc] at hy
      simp only [Pod.sessionHandleMessage, hc] at hspared
      exact subscribe_hits (fun q => q.emit_quiet _) h.placed hy hpub hspared
  | fakeSubscribe =>
      rw [serve_of_ne_stopSub (by simp [hc])] at hspared
      obtain ⟨hpub, hy⟩ := (handed_sub (.inr hc)).mp hu
      simp only [keyOf, tripleOf, hc] at hy
      simp only [Pod.sessionHandleMessage, hc] at hspared
      exact subscribe_hits Asks.refl h.placed hy hpub hspared
  | stopSub =>
      have hread : Quiet p ((p.rlock (.subs s)).runlock (.subs s)) :=
        (p.emit_quiet _).trans (Pod.emit_quiet _ _)
      simp only [Pod.handed, hc] at hu
      have hkept := (hspared.entry s (keyOf m)).mpr hu
      rw [serve_stopSub_found env hc hu] at hkept
      refine (((Pod.releaseSubscriberPeer_removes (h.placed.of_quiet hread)
        _ _ _).entry .subscriber _ _ _).mp hkept).2 ?_
      rw [Set.mem_ofPred_eq, hread.entry, ← keyOf_stopSub hc]
      exact hu
  | answer =>
      rw [serve_of_ne_stopSub (by simp [hc])] at hspared hlives
      simp only [Pod.handed, keyOf, tripleOf, hc] at hu
      simp only [Pod.sessionHandleMessage, hc, Pod.handleAnswer]
        at hspared hlives
      exact answer_hits (.inl hc) (fun q => .emit q _) hu hspared.peer hlives
  | fakeAnswer =>
      rw [serve_of_ne_stopSub (by simp [hc])] at hspared hlives
      simp only [Pod.handed, keyOf, tripleOf, hc] at hu
      simp only [Pod.sessionHandleMessage, hc, Pod.handleFakeAnswer]
        at hspared hlives
      exact answer_hits (.inr hc) (.refl y) hu hspared.peer hlives
  | fakeCandidate =>
      rw [serve_of_ne_stopSub (by simp [hc])] at hspared hlives
      obtain ⟨horigin, hy⟩ := (handed_candidate hc).mp hu
      simp only [keyOf, tripleOf, hc] at hy
      simp only [Pod.sessionHandleMessage, hc, Pod.handleFakeCandidate, horigin,
        Bool.not_true, Bool.false_eq_true, if_false] at hspared hlives
      exact candidate_hits hc (.refl y) hy hspared.peer hlives
  | _ => cases hserves

/-- A message for one subscription leaves the others alone exactly if the
entry under its key is its own, or is not looked up, and the process lives. -/
theorem servesOwn_iff {conf : Config} {c : Cmd} (env : Env) (s : SessRef)
    (hr : Pod.Reachable conf p) (hf : p.fatal = false)
    (hc : command m = some c) (hserves : c.serves = true) :
    ServesOwn env s m p ↔
      ∀ k y, (p.sess s).subscribers.lookup k = some y →
        (p.peer y).triple ≠ tripleOf m →
        p.handed s m ≠ some y ∧ p.sessCrashes env s m = false := by
  have h := reachable_inOrder hr
  have hfatal : ∀ k y, p.entry .subscriber s k = some y →
      (p.serve env s m).fatal = p.sessCrashes env s m := by
    intro k y hy
    obtain ⟨r, -, hlook⟩ := seat_eq_some.mp (h.toSound.seat_of_entry hy)
    exact serve_fatal h hf ⟨r, _, hlook⟩
  constructor
  · intro hown k y hy hne
    obtain ⟨hspared, hlives⟩ := hown k y hy hne
    refine ⟨fun hu => ?_, (hfatal k y hy).symm.trans hlives⟩
    have hdead := serve_hits h hc hserves hu hspared
    rw [hlives] at hdead
    cases hdead
  · intro hall k y hy hne
    obtain ⟨hno, hdead⟩ := hall k y hy hne
    have hlt := (h.placed .subscriber s k y hy).1
    exact ⟨serve_spares h hc hserves hlt hno, (hfatal k y hy).trans hdead⟩

/-- Two users watch the same stream, and the first one answers. -/
theorem servesOwn_twoWatchers :
    ∃ p, Pod.Reachable (Config.standalone "podA") p ∧ p.fatal = false ∧
      (p.sess 0).subscribers.lookup "wu1" = some 2 ∧
      ServesOwn Env.calm 0 (Cmd.answer.msg [(.roomId, "R"), (.sessID, "v"),
        (.srcSessID, "u"), (.peerID, "1")]) p := by
  have h : (run Pod.step (streamsOf "u" ["1"] ++
      [watchedBy "v" "u" "1", watchedBy "w" "u" "1"])
      (Pod.createRoomMgr (Config.standalone "podA"))).map (fun p =>
        decide (p.fatal = false ∧
          (p.sess 0).subscribers.lookup "wu1" = some 2 ∧
          (p.sess 0).subscribers.lookup "vu1" = some 1 ∧
          (p.peer 1).triple = ("v", "u", "1") ∧
          p.sessCrashes Env.calm 0 (Cmd.answer.msg [(.roomId, "R"),
            (.sessID, "v"), (.srcSessID, "u"), (.peerID, "1")]) = false)) =
      some true := by decide
  obtain ⟨p, hp, hfacts⟩ := Option.map_eq_some_iff.mp h
  obtain ⟨hf, h2, h1, htriple, hno⟩ := of_decide_eq_true hfacts
  refine ⟨p, ⟨_, hp⟩, hf, h2, ?_⟩
  refine (servesOwn_iff Env.calm 0 ⟨_, hp⟩ hf (c := .answer) (by decide)
    rfl).mpr fun k y hy hne => ⟨fun hu => ?_, hno⟩
  cases h1.symm.trans hu
  exact hne (htriple.trans (by decide))

/-- User `va` subscribes to the stream `1` of user `a`, under the key of user
`v`, who watches the stream `a1`: the peer of `v` is destroyed. -/
theorem shared_key_replaces :
    ∃ p q, Pod.Reachable (Config.standalone "podA") p ∧
      (p.sess 0).subscribers.lookup "vaa1" = some 2 ∧
      (p.peer 2).triple = ("v", "a", "a1") ∧ (p.peer 2).closed = 0 ∧
      Pod.step (watchedBy "va" "a" "1") p = some q ∧ q.fatal = false ∧
      (q.sess 0).subscribers.lookup "vaa1" = some 3 ∧
      (q.peer 2).closed = 1 ∧
      ¬ServesOwn Env.calm 0 (Cmd.sub.msg [(.roomId, "R"), (.sessID, "va"),
        (.srcSessID, "a"), (.peerID, "1")]) p := by
  have h : (run Pod.step (streamsOf "a" ["a1", "1"] ++
      [watchedBy "v" "a" "a1"])
      (Pod.createRoomMgr (Config.standalone "podA"))).map (fun p =>
        ((p.sess 0).subscribers.lookup "vaa1", (p.peer 2).triple,
          (p.peer 2).closed,
          (Pod.step (watchedBy "va" "a" "1") p).map fun q => decide
            (q.fatal = false ∧ (q.sess 0).subscribers.lookup "vaa1" = some 3 ∧
              (q.peer 2).closed = 1),
          ((p.serve Env.calm 0 (Cmd.sub.msg [(.roomId, "R"), (.sessID, "va"),
            (.srcSessID, "a"), (.peerID, "1")])).peer 2).closed)) =
      some (some 2, ("v", "a", "a1"), 0, some true, 1) := by decide
  obtain ⟨p, hp, hfacts⟩ := Option.map_eq_some_iff.mp h
  simp only [Prod.mk.injEq] at hfacts
  obtain ⟨hy, htriple, hopen, hstep, hclosed⟩ := hfacts
  obtain ⟨q, hq, hafter⟩ := Option.map_eq_some_iff.mp hstep
  obtain ⟨hf, hnew, hgone⟩ := of_decide_eq_true hafter
  refine ⟨p, q, ⟨_, hp⟩, hy, htriple, hopen, hq, hf, hnew, hgone, ?_⟩
  intro hown
  have hspared := (hown _ 2 hy (by rw [htriple]; decide)).1
  rw [hspared.peer, hopen] at hclosed
  cases hclosed

end MediaServer.Ref
