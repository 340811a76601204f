import MediaServer.Proofs.Calls
import MediaServer.Proofs.Outcome
import MediaServer.Proofs.Refinement

/-!
# Rooms do not disturb each other

A room is left as it is by whatever happens in other rooms: by messages that
name another one, by callbacks and timers of other rooms' peers and sessions,
and by all the calls that these start, in whatever order they run.

The invariant that carries this along a run is that no call about the room is
pending. A spawned call holds references, so it must first be known that a
reference goes on meaning what it meant (`Rooted`, `Known`); then every call
is in the room of the input that started it (`Starts.not_touches`). The
keepalive ticker starts a check for every session there is; such a check does
no harm unless its user has been silent for too long.
-/

namespace MediaServer.Ref

open MediaServer.Lib Function

variable {p q t : Pod} {s : SessRef} {r : RoomRef} {x : PeerRef} {b : Act}
variable {rid : String} {g : Goroutine} {a : Env × Input} {conf : Config}

/-! ## References keep their meaning -/

theorem After.parent (h : After p q) (hs : s < p.sessHeap.next) :
    (q.sess s).parent = (p.sess s).parent :=
  congrArg (·.2.2.2.2.2) (h.sess s hs)

/-- The references that a call holds and works with are known. -/
def Goroutine.Known (p : Pod) : Goroutine → Prop
  | .kickoutFromRoom r _ | .onPublisherPeerFailed r ..
  | .onPublisherPeerClosed r .. | .onSubscriberPeerFailed r ..
  | .onSubscriberPeerClosed r .. =>
      r < p.roomHeap.next
  | .handleSubscriberLeaved s _ | .releaseSubscriberPeer s ..
  | .checkKeepAlive s =>
      s < p.sessHeap.next
  | _ => True

/-- The call may change room `rid`. -/
def Goroutine.Touches (p : Pod) (rid : String) : Goroutine → Prop
  | .releaseRoom rid' => rid' = rid
  | .kickoutFromRoom r _ | .onPublisherPeerFailed r ..
  | .onPublisherPeerClosed r .. | .onSubscriberPeerFailed r ..
  | .onSubscriberPeerClosed r .. =>
      (p.room r).roomid = rid
  | .handleSubscriberLeaved s _ | .releaseSubscriberPeer s .. =>
      (p.room (p.sess s).parent).roomid = rid
  | _ => False

theorem Goroutine.Known.after (h : g.Known p) (ha : After p q) : g.Known q := by
  cases g with
  | kickoutFromRoom | onPublisherPeerFailed | onPublisherPeerClosed
  | onSubscriberPeerFailed | onSubscriberPeerClosed =>
      exact Nat.lt_of_lt_of_le h ha.roomNext
  | handleSubscriberLeaved | releaseSubscriberPeer | checkKeepAlive =>
      exact Nat.lt_of_lt_of_le h ha.sessNext
  | releaseRoom | onPublisherReady | fakePublisherReConnect
  | requestKeyframe => trivial

theorem Goroutine.touches_after (hk : g.Known p) (hg : Rooted p)
    (ha : After p q) : g.Touches q rid ↔ g.Touches p rid := by
  cases g with
  | kickoutFromRoom | onPublisherPeerFailed | onPublisherPeerClosed
  | onSubscriberPeerFailed | onSubscriberPeerClosed =>
      simp only [Goroutine.Touches]
      rw [ha.roomid _ hk]
  | handleSubscriberLeaved | releaseSubscriberPeer =>
      simp only [Goroutine.Touches]
      rw [ha.parent hk, ha.roomid _ (hg.sess _ hk)]
  | releaseRoom | checkKeepAlive | onPublisherReady | fakePublisherReConnect
  | requestKeyframe => exact Iff.rfl

/-! ## Inputs that are about other rooms -/

/-- The input is not about room `rid`: a message names another one, a callback
is for a peer of another one, and no check finds a user of this one silent for
too long. -/
def aloof (rid : String) (p : Pod) (a : Env × Input) : Bool :=
  match a.2 with
  | .message m => getValue m .roomId ≠ rid
  | .ice x _ => p.roomidOf x ≠ rid
  | .go i =>
      match p.pending[i]? with
      | some (.checkKeepAlive s) =>
          (p.room (p.sess s).parent).roomid ≠ rid ∨
            (p.sess s).origin = false ∨
            a.1.now - (p.sess s).alivetime ≤ 60
      | _ => true
  | _ => true

/-- What is started knows its references. -/
theorem Starts.known {env : Env} {i : Input} (h : Starts p env i g)
    (hp : Seated p) (hg : Rooted p)
    (hice : ∀ x st, i = .ice x st → x < p.peerHeap.next)
    (hpend : ∀ g ∈ p.pending, g.Known p) : g.Known p := by
  have hroom : ∀ {x st}, i = .ice x st →
      (p.sess (p.peer x).parent).parent < p.roomHeap.next := fun hi =>
    hg.sess _ (hg.peer _ (hice _ _ hi))
  cases h with
  | emptied | vacated | ready | wanted | retried => trivial
  | left _ _ hs => exact (hp.sessions _ _ _ hs).2.2
  | stopped _ _ hs => exact (hp.sessions _ _ _ hs).2.2
  | due _ hs => exact (hp.sessions _ _ _ hs).2.2
  | expired hi _ _ =>
      exact hg.sess _ (hpend _ (List.mem_of_getElem? hi))
  | kicked _ hs => exact (hp.sessions _ _ _ hs).2.2
  | pubFailed => exact hroom rfl
  | subFailed => exact hroom rfl
  | pubClosed => exact hroom rfl
  | subClosed => exact hroom rfl

/-- A call is in the room of the input that starts it. -/
theorem Starts.not_touches (h : Starts p a.1 a.2 g) (hp : Seated p)
    (hpend : ∀ g ∈ p.pending, ¬g.Touches p rid) (ha : aloof rid p a = true) :
    ¬g.Touches p rid := by
  obtain ⟨env, i⟩ := a
  dsimp only at h
  have hmsg : ∀ m, i = .message m → getValue m .roomId ≠ rid := by
    rintro m rfl
    exact of_decide_eq_true ha
  have hice : ∀ x st, i = .ice x st → p.roomidOf x ≠ rid := by
    rintro x st rfl
    exact of_decide_eq_true ha
  cases h with
  | emptied _ => exact hmsg _ rfl
  | left _ hr hs =>
      intro htouch
      refine hmsg _ rfl (Eq.trans ?_ htouch)
      rw [(hp.sessions _ _ _ hs).2.1]
      exact (hp.rooms _ _ hr).1.symm
  | stopped _ hr hs =>
      intro htouch
      refine hmsg _ rfl (Eq.trans ?_ htouch)
      rw [(hp.sessions _ _ _ hs).2.1]
      exact (hp.rooms _ _ hr).1.symm
  | due | ready | wanted | retried => exact id
  | expired hi ho hnow =>
      intro htouch
      simp only [aloof, hi] at ha
      obtain hne | hno | hle := of_decide_eq_true ha
      · exact hne htouch
      · rw [ho] at hno
        cases hno
      · omega
  | kicked hi hs =>
      intro htouch
      refine hpend _ (List.mem_of_getElem? hi) ?_
      simp only [Goroutine.Touches] at htouch ⊢
      rwa [(hp.sessions _ _ _ hs).2.1] at htouch
  | vacated hi =>
      intro htouch
      exact hpend _ (List.mem_of_getElem? hi) htouch
  | pubFailed => exact hice _ _ rfl
  | subFailed => exact hice _ _ rfl
  | pubClosed => exact hice _ _ rfl
  | subClosed => exact hice _ _ rfl

/-! ## Requests for other rooms -/

theorem called_room {req : ConfRequest} (h : p.called g = some req) :
    g.Touches p req.room := by
  have hroom : ∀ {r u c}, p.inRoom r u c = some req →
      (p.room r).roomid = req.room := by
    intro r u c h
    unfold Pod.inRoom at h
    split at h
    · cases h
      rfl
    · cases h
  have hseat : ∀ {s c}, p.atSeat s c = some req →
      (p.room (p.sess s).parent).roomid = req.room := by
    intro s c h
    unfold Pod.atSeat at h
    dsimp only at h
    split at h
    · cases h
      rfl
    · cases h
  cases g with
  | releaseRoom rid =>
      cases h
      rfl
  | kickoutFromRoom | onPublisherPeerFailed | onPublisherPeerClosed
  | onSubscriberPeerFailed | onSubscriberPeerClosed => exact hroom h
  | handleSubscriberLeaved | releaseSubscriberPeer => exact hseat h
  | checkKeepAlive | onPublisherReady | fakePublisherReConnect
  | requestKeyframe => cases h

theorem asked_room {env : Env} {m : JsonParser} {req : ConfRequest}
    (h : p.asked env m = some req) : req.room = getValue m .roomId := by
  unfold Pod.asked at h
  dsimp only at h
  split at h
  case h_8 =>
      split at h
      · cases h
        rfl
      · cases h
  case h_9 =>
      split at h
      · cases h
        rfl
      · cases h
  case h_10 => cases h
  all_goals
    cases h
    rfl

/-- The request of an input that is not about a room is about another one. -/
theorem request_room {req : ConfRequest}
    (hpend : ∀ g ∈ p.pending, ¬g.Touches p rid) (ha : aloof rid p a = true)
    (h : p.request a = some req) : req.room ≠ rid := by
  obtain ⟨env, i⟩ := a
  unfold Pod.request at h
  dsimp only at h
  split at h
  · split at h
    · rw [asked_room h]
      exact of_decide_eq_true ha
    · cases h
  · obtain ⟨g, hg, hcall⟩ := Option.bind_eq_some_iff.mp h
    rintro rfl
    exact hpend g (List.mem_of_getElem? hg) (called_room hcall)
  · cases h

theorem perform_other {c : Conference} {o : Option ConfRequest}
    (h : ∀ req, o = some req → req.room ≠ rid) :
    ConfRequest.perform c o rid = c rid := by
  cases o with
  | none => rfl
  | some req => exact update_of_ne (h req rfl).symm _ _

/-! ## Steps and runs -/

theorem mem_found {i : Input} (h : g ∈ (p.found i).pending) :
    g ∈ p.pending := by
  unfold Pod.found at h
  split at h
  · exact List.mem_of_mem_eraseIdx h
  · exact h

/-- What is pending was so before or has been started by the input. -/
theorem step_pending_cases (hr : Pod.Reachable conf p)
    (hs : Pod.step a p = some q) (hg : g ∈ q.pending) :
    g ∈ p.pending ∨ Starts p a.1 a.2 g := by
  obtain ⟨gs, hpend, hgs⟩ := (step_outcome hr hs).pending
  rw [hpend] at hg
  rcases List.mem_append.mp hg with hg | hg
  · exact .inl (mem_found hg)
  · exact .inr (hgs g hg)

theorem ice_peer_lt {st : IceState} (hs : Pod.step a p = some q)
    (ha : a.2 = .ice x st) : x < p.peerHeap.next := by
  have hf := step_fatal hs
  unfold Pod.step at hs
  rw [if_neg (by simp [hf]), ha] at hs
  dsimp only at hs
  split at hs
  · assumption
  · cases hs

/-- Every reference leads somewhere, and so do those of the pending calls. -/
structure Anchored (p : Pod) : Prop extends Rooted p where
  calls : ∀ g ∈ p.pending, g.Known p

theorem step_anchored (hr : Pod.Reachable conf p) (h : Anchored p)
    (hs : Pod.step a p = some q) : Anchored q := by
  have hp := reachable_inOrder hr
  refine ⟨step_rooted hp h.toRooted hs, fun g hg => ?_⟩
  refine Goroutine.Known.after ?_ (step_after hp hs)
  obtain hold | hnew := step_pending_cases hr hs hg
  · exact h.calls g hold
  · exact hnew.known hp.toSeated h.toRooted (fun x st ha => ice_peer_lt hs ha)
      h.calls

theorem reachable_anchored (hr : Pod.Reachable conf p) : Anchored p := by
  obtain ⟨as, hrun⟩ := hr
  have hinit : Anchored (Pod.createRoomMgr conf) :=
    ⟨createRoomMgr_rooted conf, fun g hg => by cases hg⟩
  exact (run_invariant (P := fun t => Pod.Reachable conf t ∧ Anchored t)
    (fun _ _ _ ht _ hs => ⟨ht.1.step hs, step_anchored ht.1 ht.2 hs⟩)
    (guarded_true as _) ⟨⟨[], rfl⟩, hinit⟩ hrun).2

/-- No call about the room is pending. -/
def Undisturbed (rid : String) (p : Pod) : Prop :=
  ∀ g ∈ p.pending, ¬g.Touches p rid

theorem step_undisturbed (hr : Pod.Reachable conf p)
    (hu : Undisturbed rid p) (ha : aloof rid p a = true)
    (hs : Pod.step a p = some q) :
    Undisturbed rid q ∧ q.conference rid = p.conference rid := by
  have hp := reachable_inOrder hr
  have hanchor := reachable_anchored hr
  have hafter := step_after hp hs
  constructor
  · intro g hg
    obtain hold | hnew := step_pending_cases hr hs hg
    · rw [Goroutine.touches_after (hanchor.calls g hold) hanchor.toRooted
        hafter]
      exact hu g hold
    · have hknown := hnew.known hp.toSeated hanchor.toRooted
        (fun x st ha => ice_peer_lt hs ha) hanchor.calls
      rw [Goroutine.touches_after hknown hanchor.toRooted hafter]
      exact hnew.not_touches hp.toSeated hu ha
  · rw [step_refines hp hs]
    exact perform_other fun req hreq => request_room hu ha hreq

/-- Traffic in other rooms leaves a room alone. However messages, callbacks,
timers and the calls they start are mixed, as long as none of the former is
about the room and nobody in it times out, its users, their streams and who
views them stay what they were, and no call that could change them comes up. -/
theorem room_undisturbed {as : List (Env × Input)} (hr : Pod.Reachable conf p)
    (hu : Undisturbed rid p) (ha : Guarded Pod.step (aloof rid · ·) as p)
    (hrun : run Pod.step as p = some q) :
    q.conference rid = p.conference rid ∧ Undisturbed rid q := by
  have h := run_invariant (P := fun t => Pod.Reachable conf t ∧
      Undisturbed rid t ∧ t.conference rid = p.conference rid)
    (fun a t t' ht ha hs => by
      obtain ⟨hr, hu, hconf⟩ := ht
      obtain ⟨hu', hstep⟩ := step_undisturbed hr hu ha hs
      exact ⟨hr.step hs, hu', hstep.trans hconf⟩)
    ha ⟨hr, hu, rfl⟩ hrun
  exact ⟨h.2.2, h.2.1⟩

/-- Users are in rooms `R` and `S`; the one in `S` publishes and logs out, a
keepalive tick goes by, and everything that was started runs. -/
def busyNeighbour : List (Env × Input) :=
  [(Env.calm, .message (Cmd.push.msg
      [(.roomId, "S"), (.sessID, "w"), (.peerID, "1")])),
    (Env.calm, .ice 0 .connected),
    (Env.calm, .keepaliveTick),
    (Env.calm, .message (Cmd.logout.msg [(.roomId, "S"), (.sessID, "w")])),
    (Env.calm, .go 3), (Env.calm, .go 0), (Env.calm, .go 0),
    (Env.calm, .go 0)]

def twoRooms : List (Env × Input) :=
  [(Env.calm, .setSendMessageHandler),
    (Env.calm, .message (Cmd.login.msg [(.roomId, "R"), (.sessID, "u")])),
    (Env.calm, .message (Cmd.login.msg [(.roomId, "S"), (.sessID, "w")]))]

/-- Room `R` comes through. -/
theorem busyNeighbour_spares :
    ∃ p q, Pod.Reachable (.standalone "podA") p ∧
      run Pod.step busyNeighbour p = some q ∧
      q.conference "R" = p.conference "R" ∧ Undisturbed "R" q := by
  have h : (run Pod.step twoRooms (Pod.createRoomMgr (.standalone "podA"))).map
      (fun p => (p.pending, (run Pod.step busyNeighbour p).isSome,
        decide (Guarded Pod.step (aloof "R" · ·) busyNeighbour p))) =
      some ([], true, true) := by decide
  obtain ⟨p, hp, hfacts⟩ := Option.map_eq_some_iff.mp h
  simp only [Prod.mk.injEq, decide_eq_true_eq] at hfacts
  obtain ⟨hpend, hsome, hguard⟩ := hfacts
  obtain ⟨q, hq⟩ := Option.isSome_iff_exists.mp hsome
  have hr : Pod.Reachable (.standalone "podA") p := ⟨twoRooms, hp⟩
  exact ⟨p, q, hr, hq, room_undisturbed hr
    (fun g hg => by rw [hpend] at hg; cases hg) hguard hq⟩

end MediaServer.Ref
