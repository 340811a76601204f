import MediaServer.Proofs.Steps

/-!
# Stand-ins and origin sessions

A session is either an origin session, whose publishers are clients, or a
stand-in, whose publishers are the other pod's forwarders. Two messages insert
a publisher, `publish` and `fakeoffer`, and the room routes both by user id
alone: neither it nor the session looks at `origin` first. The branch for
`fakecandidate` and `FakePublisherReConnect` do, so the two roles are meant to
stay apart, and they do as long as each message finds the session it was sent
for.
-/

namespace MediaServer.Ref

open MediaServer.Lib Relation

variable {p : Pod}

/-- Every publisher is a forwarder exactly if its session is a stand-in. -/
def Unmixed (p : Pod) : Prop :=
  ∀ s k x, (p.sess s).publishers.lookup k = some x →
    (p.peer x).isFake = !(p.sess s).origin

/-- The same, as a relation between a peer and its session. -/
def SameKind (t : Peer) (u : Session) : Prop :=
  t.role = .publisher → t.isFake = !u.origin

theorem sameKind_onIdent : OnIdent SameKind := by
  intro a a' b b' ha hb h hrole
  obtain ⟨-, -, -, hr, hf, -⟩ := Peer.ident_eq ha
  have ho : b'.origin = b.origin := congrArg (·.2.2.2.2.1) hb
  rw [hf, ho]
  exact h (by rw [← hr]; exact hrole)

theorem unmixed_iff_linked (hp : Placed p) :
    Unmixed p ↔ Linked SameKind p := by
  constructor
  · intro h role s k x hx hrole
    rw [(hp role s k x hx).2.2.1] at hrole
    subst hrole
    exact h s k x hx
  · intro h s k x hx
    exact h .publisher s k x hx (hp .publisher s k x hx).2.2.1

/-- The session that a message about its own user reaches. -/
def Pod.sessionOf (p : Pod) (m : JsonParser) : Option SessRef :=
  (p.rooms.lookup (getValue m .roomId)).bind fun r =>
    (p.room r).sessions.lookup (getValue m .sessID)

/-- A `publish` meets an origin session and a `fakeoffer` a stand-in, if they
meet a session at all. -/
def RightSession (p : Pod) (a : Env × Input) : Prop :=
  ∀ m ∈ a.2.msg?, ∀ s ∈ p.sessionOf m,
    (command m = some .push → (p.sess s).origin = true) ∧
      (command m = some .fakeOffer → (p.sess s).origin = false)

instance (p : Pod) (a : Env × Input) : Decidable (RightSession p a) :=
  inferInstanceAs (Decidable (∀ m ∈ a.2.msg?, ∀ s ∈ p.sessionOf m, _ ∧ _))

/-- What an input adds in the right session has the right flag. -/
theorem isFake_of_added {a : Env × Input} (ha : RightSession p a)
    {s : SessRef} {t : Peer} (h : Added p a.2 s t) :
    SameKind t (p.sess s) := by
  intro hrole
  obtain ⟨m, r, hm, hr, hs, hadd⟩ := h
  have hright : route m = getValue m .sessID → _ := fun hroute =>
    ha m (by rw [hm]; rfl) s (by
      rw [hroute] at hs
      rw [Pod.sessionOf, hr]
      exact hs)
  unfold Adds at hadd
  split at hadd
  · next hc =>
      rw [(hright (by simp only [route, hc])).1 hc, hadd]
      rfl
  · next hc =>
      rw [(hright (by simp only [route, hc])).2 hc, hadd]
      rfl
  · obtain ⟨-, sdp, rfl⟩ := hadd; cases hrole
  · obtain ⟨-, sdp, rfl⟩ := hadd; cases hrole
  · exact hadd.elim

/-- In every run in which each `publish` and each `fakeoffer` is handled by a
session of its own kind, the two kinds never mix. -/
theorem unmixed_of_rightSession {conf : Config} {as : List (Env × Input)}
    (hg : Guarded Pod.step RightSession as (Pod.createRoomMgr conf)) :
    Always Pod.step Unmixed as (Pod.createRoomMgr conf) := by
  have h : Always Pod.step (fun p => PodOk p ∧ Linked SameKind p) as
      (Pod.createRoomMgr conf) := by
    refine always_of_guarded (fun a p q hp ha hs => ?_) hg
      ⟨createRoomMgr_podOk conf, fun role s k x hx => by
        cases role <;> cases hx⟩
    exact ⟨(step_does hs).podOk hp.1, step_linked sameKind_onIdent hp.1 hp.2
      (fun s t hadd => isFake_of_added ha hadd) hs⟩
  exact h.mono fun p hp => (unmixed_iff_linked hp.1.placed).mpr hp.2

/-- Pod B announces a stream of `u` and is asked for it; before its offer
arrives, `u` logs in here. -/
def lateOffer : List (Env × Input) :=
  [(Env.calm, .setSendMessageHandler),
    (Env.calm, .message (Cmd.login.msg [(.roomId, "R"), (.sessID, "w")])),
    (Env.calm, .message (Cmd.fakePublish.msg
      [(.roomId, "R"), (.sessID, "u"), (.peerID, "1"), (.podId, "podB")])),
    (Env.calm, .message (Cmd.login.msg [(.roomId, "R"), (.sessID, "u")])),
    (Env.calm, .message (Cmd.fakeOffer.msg
      [(.roomId, "R"), (.sessID, "u"), (.peerID, "1"), (.podId, "podB")]))]

theorem lateOffer_mixes :
    ∃ p, Pod.Reachable (Config.standalone "podA") p ∧ ¬Unmixed p := by
  have h : (run Pod.step lateOffer
      (Pod.createRoomMgr (Config.standalone "podA"))).map (fun p =>
        ((p.sess 2).publishers.lookup "1", (p.peer 0).isFake,
          (p.sess 2).origin)) = some (some 0, true, true) := by decide
  obtain ⟨p, hp, hfacts⟩ := Option.map_eq_some_iff.mp h
  simp only [Prod.mk.injEq] at hfacts
  obtain ⟨hpub, hfake, ho⟩ := hfacts
  refine ⟨p, ⟨lateOffer, hp⟩, fun hu => ?_⟩
  have hbad := hu 2 "1" 0 hpub
  rw [hfake, ho] at hbad
  cases hbad

/-- Without the login in between the offer meets the stand-in. -/
theorem unmixed_standIn :
    (run Pod.step (lateOffer.eraseIdx 3)
      (Pod.createRoomMgr (Config.standalone "podA"))).isSome ∧
    Always Pod.step Unmixed (lateOffer.eraseIdx 3)
      (Pod.createRoomMgr (Config.standalone "podA")) :=
  ⟨by decide, unmixed_of_rightSession (by decide)⟩

end MediaServer.Ref
