import MediaServer.Proofs.Forwarding
import MediaServer.Proofs.Runs

/-!
# No peer is left behind

A peer is a connection with its own sockets and goroutines, and Go collects
none of them before `Destroy`. So what the server holds open has to be what
somebody can still find and close: the peers in the maps of the sessions in
the rooms. This is one list against another, and as neither names a peer twice
it is enough to compare their members.
-/

namespace MediaServer.Ref

open MediaServer.Lib

variable {p : Pod} {x : PeerRef} {conf : Config}

/-- The peers that were created and not destroyed. -/
def Pod.openPeers (p : Pod) : List PeerRef :=
  (List.range p.peerHeap.next).filter fun x => (p.peer x).closed = 0

/-- The peers that are found on a walk through the rooms. -/
def Pod.heldPeers (p : Pod) : List PeerRef :=
  p.rooms.entries.flatMap fun e => p.members e.2

theorem mem_heldPeers (hp : Sound p) : x ∈ p.heldPeers ↔ Mapped p x := by
  simp only [Pod.heldPeers, List.mem_flatMap, mem_members]
  constructor
  · rintro ⟨e, -, u, s, -, role, k, hk⟩
    exact ⟨role, s, k, hk⟩
  · rintro ⟨role, s, k, hk⟩
    have hseat := Homed.seat hp.toPodOk hk
    exact ⟨⟨_, _⟩, GoMap.mem_entries.mpr (hp.registered _ _ _ hseat), _, s,
      hseat, role, k, hk⟩

/-- The walk comes across no peer twice: a room has each of its members once,
and a member tells its room. -/
theorem heldPeers_nodup (hp : Sound p) : p.heldPeers.Nodup := by
  refine GoMap.nodup_flatMap p.roomidOf ?_ fun e _ =>
    members_nodup hp.toPodOk e.2
  intro e he x hx
  rw [Pod.roomidOf, room_of_member hp.toPodOk hx]
  exact (hp.rooms e.1 e.2 (GoMap.mem_entries.mp he)).1

/-- In every state that a pod can reach, the connections it holds open are
those of the peers that a walk through its rooms comes across, each of them
once; and a peer that is not among them was destroyed, once. -/
theorem open_peers_held (hr : Pod.Reachable conf p) :
    p.openPeers.Perm p.heldPeers ∧
      ∀ x < p.peerHeap.next, x ∉ p.heldPeers → (p.peer x).closed = 1 := by
  have hp := reachable_inOrder hr
  refine ⟨?_, fun x hx hno => hp.lives.gone x hx fun hm =>
    hno ((mem_heldPeers hp.toSound).mpr hm)⟩
  refine (List.perm_ext_iff_of_nodup (List.nodup_range.filter _)
    (heldPeers_nodup hp.toSound)).mpr fun x => ?_
  rw [mem_heldPeers hp.toSound, List.mem_filter, List.mem_range,
    decide_eq_true_eq]
  constructor
  · rintro ⟨hlt, hopen⟩
    exact ⟨_, _, _, hp.ready.entry_of_open hlt hopen⟩
  · intro hm
    exact ⟨hp.placed.lt hm, hp.lives.mapped x hm⟩

/-- A stream is published, taken by two, published again and stopped being
taken by one of them. -/
def comesAndGoes : List (Env × Input) :=
  [(Env.calm, .setSendMessageHandler),
    (Env.calm, .message (Cmd.login.msg [(.roomId, "R"), (.sessID, "u")])),
    (Env.calm, .message (Cmd.push.msg
      [(.roomId, "R"), (.sessID, "u"), (.peerID, "1")])),
    (Env.calm, .message (Cmd.offer.msg
      [(.roomId, "R"), (.sessID, "u"), (.peerID, "1")])),
    (Env.calm, .message (Cmd.sub.msg [(.roomId, "R"), (.sessID, "v"),
      (.srcSessID, "u"), (.peerID, "1")])),
    (Env.calm, .message (Cmd.sub.msg [(.roomId, "R"), (.sessID, "w"),
      (.srcSessID, "u"), (.peerID, "1")])),
    (Env.calm, .message (Cmd.push.msg
      [(.roomId, "R"), (.sessID, "u"), (.peerID, "1")])),
    (Env.calm, .message (Cmd.stopSub.msg [(.roomId, "R"), (.sessID, "v"),
      (.srcSessID, "u"), (.peerID, "1")])),
    (Env.calm, .go 0)]

/-- Of four connections two are open, and they are those in the room. -/
theorem comesAndGoes_held :
    ∃ p, run Pod.step comesAndGoes (Pod.createRoomMgr (.standalone "podA")) =
        some p ∧ p.peerHeap.next = 4 ∧ p.openPeers = [2, 3] ∧
      p.openPeers.Perm p.heldPeers := by
  have h : (run Pod.step comesAndGoes
      (Pod.createRoomMgr (.standalone "podA"))).map
        (fun p => (p.peerHeap.next, p.openPeers)) = some (4, [2, 3]) := by
    decide
  obtain ⟨p, hp, hfacts⟩ := Option.map_eq_some_iff.mp h
  obtain ⟨hnext, hopen⟩ := Prod.mk.inj hfacts
  exact ⟨p, hp, hnext, hopen, (open_peers_held ⟨_, hp⟩).1⟩

end MediaServer.Ref
