import MediaServer.Lib.History
import MediaServer.Proofs.Cascade
import MediaServer.Proofs.Latecomers
import MediaServer.Proofs.Refinement
import MediaServer.Proofs.Sent

/-!
# Where stand-ins come from

A user who is logged in on one pod has a stand-in in the rooms of that name on
other pods, as soon as there is a stream to be seen. A pod believes what it is
told about this: whatever a `fakepublish` says is taken over. Here is what can
be relied upon if only pods send this command. A stand-in was put there by a
pod other than the one it is on, and this pod had the user in the room with
one stream at least.

On the level of the conference only one request makes a stand-in
(`guest_of_perform`), and only one command makes this request. What is on the
way was sent, and the pod that sent it had what it says (`announced_hosted`).
How long ago that was is another matter: by the time a stand-in is put up its
user may be gone.
-/

namespace MediaServer.Ref

open MediaServer.Lib Function

variable {p q : Pod} {a : Env × Input} {m : JsonParser} {conf : Config}
variable {s : SessRef} {r : RoomRef} {x : PeerRef} {rid u d k uuid : String}

/-! ## Hosts and guests -/

/-- User `u` is logged in, and has stream `k`. -/
def Conference.Hosts (c : Conference) (rid u k : String) : Prop :=
  ∃ h t, c rid = some h ∧ h u = some t ∧ t.origin = true ∧ k ∈ t.streams

/-- There is a stand-in for user `u` of the pod `d`. -/
def Conference.Guest (c : Conference) (rid u d : String) : Prop :=
  ∃ h t, c rid = some h ∧ h u = some t ∧ t.origin = false ∧ t.podid = d

/-- Whoever keeps the seat stays who they are. -/
theorem Change.after_same {c : Change} {t t' : Seat}
    (h : c.after t = some t') : t'.origin = t.origin ∧ t'.podid = t.podid := by
  cases c with
  | leaves => cases h
  | retracted podid =>
      rw [Change.after] at h
      split at h
      · cases h
      · cases h
        exact ⟨rfl, rfl⟩
  | viewed who v pid ok =>
      rw [Change.after] at h
      split at h
      · cases h
        exact ⟨rfl, rfl⟩
      · cases h
        exact ⟨rfl, rfl⟩
  | publishes | unpublishes | unviewed | abandoned =>
      cases h
      exact ⟨rfl, rfl⟩

/-- A stand-in was there before, or was asked for. -/
theorem guest_of_apply {c : Conference} {req : ConfRequest}
    (hg : (req.apply c).Guest rid u d) :
    c.Guest rid u d ∨ ∃ name clusterid,
      req = .standsIn rid u name clusterid d := by
  obtain ⟨h, t, hrid, hu, ho, hd⟩ := hg
  unfold ConfRequest.apply at hrid
  by_cases hroom : rid = req.room
  swap
  · rw [update_of_ne hroom] at hrid
    exact .inl ⟨h, t, hrid, hu, ho, hd⟩
  subst hroom
  rw [update_self] at hrid
  cases req with
  | enters rid v name =>
      cases hrid
      by_cases huv : u = v
      · subst huv
        rw [update_self] at hu
        cases hu
        cases ho
      · rw [update_of_ne huv] at hu
        cases hc : c rid with
        | none =>
            simp only [ConfRequest.room, hc] at hu
            cases hu
        | some h =>
            simp only [ConfRequest.room, hc] at hu
            exact .inl ⟨h, t, hc, hu, ho, hd⟩
  | standsIn rid v name clusterid podid =>
      obtain ⟨h, hc, rfl⟩ := Option.map_eq_some_iff.mp hrid
      by_cases huv : u = v
      · subst huv
        rw [update_self] at hu
        split at hu
        · cases hu
          cases hd
          exact .inr ⟨name, clusterid, rfl⟩
        · cases hu
      · rw [update_of_ne huv] at hu
        exact .inl ⟨h, t, hc, hu, ho, hd⟩
  | changes rid v c' =>
      obtain ⟨h, hc, rfl⟩ := Option.map_eq_some_iff.mp hrid
      by_cases huv : u = v
      · subst huv
        rw [update_self] at hu
        obtain ⟨t', ht', hafter⟩ := Option.bind_eq_some_iff.mp hu
        obtain ⟨ho', hd'⟩ := Change.after_same hafter
        exact .inl ⟨h, t', hc, ht', ho'.symm.trans ho, hd'.symm.trans hd⟩
      · rw [update_of_ne huv] at hu
        exact .inl ⟨h, t, hc, hu, ho, hd⟩
  | closes rid => cases hrid

/-- Stand-ins are asked for by the `fakepublish` of another pod. -/
theorem request_standsIn {name clusterid : String}
    (h : p.request a = some (.standsIn rid u name clusterid d)) :
    d ≠ p.conf.uuid ∧ ∃ m, a.2 = .message m ∧
      command m = some .fakePublish ∧ getValue m .roomId = rid ∧
      getValue m .sessID = u ∧ getValue m .podId = d := by
  unfold Pod.request at h
  cases ha : a.2 with
  | message m =>
      rw [ha] at h
      dsimp only at h
      split at h
      · unfold Pod.asked at h
        cases hc : command m with
        | none =>
            rw [hc] at h
            cases h
        | some cmd =>
            rw [hc] at h
            cases cmd with
            | fakePublish =>
                dsimp only at h
                split at h
                · next hne =>
                    cases h
                    exact ⟨hne, m, rfl, hc, rfl, rfl, rfl⟩
                · cases h
            | fakeUnpublish =>
                dsimp only at h
                split at h
                · cases h
                · cases h
            | _ => cases h
      · cases h
  | go i =>
      rw [ha] at h
      obtain ⟨g, -, hg⟩ := Option.bind_eq_some_iff.mp h
      cases g with
      | kickoutFromRoom | onPublisherPeerFailed | onPublisherPeerClosed
      | onSubscriberPeerFailed | onSubscriberPeerClosed =>
          simp only [Pod.called, Pod.inRoom] at hg
          split at hg
          · cases hg
          · cases hg
      | releaseSubscriberPeer | handleSubscriberLeaved =>
          simp only [Pod.called, Pod.atSeat] at hg
          split at hg
          · cases hg
          · cases hg
      | releaseRoom | checkKeepAlive | onPublisherReady
      | fakePublisherReConnect | requestKeyframe => cases hg
  | _ =>
      rw [ha] at h
      cases h

/-! ## What is announced is there -/

theorem Sound.hosts (hp : Sound p) (hx : p.entry .publisher s k = some x)
    (ho : (p.sess s).origin = true) :
    p.conference.Hosts (p.room (p.sess s).parent).roomid (p.peer x).userid
      (p.peer x).peerid := by
  have hseat := Homed.seat hp.toPodOk hx
  obtain ⟨huser, hpid⟩ := hp.publisher hx
  refine ⟨p.hall (p.sess s).parent, p.seatView s, ?_, ?_, ho, ?_⟩
  · rw [Pod.conference, hp.registered _ _ _ hseat, Option.map_some]
  · rw [Pod.hall, huser, hseat, Option.map_some]
  · rw [hpid]
    have hne : (p.sess s).publishers.lookup k ≠ none := by
      rw [show (p.sess s).publishers.lookup k = some x from hx]
      exact Option.some_ne_none x
    exact hne

theorem connected_hosted (hp : InOrder p) (hf : p.fatal = false)
    (hlt : x < p.peerHeap.next)
    (hm : m ∈ sentTo uuid p (p.onICEConnectionStateChange x .connected)) :
    p.conference.Hosts (getValue m .roomId) (getValue m .sessID)
      (getValue m .peerID) := by
  have hsilent : ∀ {q}, Sent uuid p q [] → m ∉ sentTo uuid p q := by
    intro q hq hin
    rw [hq.sentTo] at hin
    cases hin
  unfold Pod.onICEConnectionStateChange at hm
  split at hm
  · exact absurd hm (hsilent (.of_log rfl))
  · next hopen =>
      have hx := hp.ready.entry_of_open hlt (Nat.eq_zero_of_not_pos hopen)
      cases hrole : (p.peer x).role with
      | publisher =>
          rw [hrole, Peer.key_publisher hrole] at hx
          rw [(announce_sent hf hrole hx).sentTo] at hm
          split at hm
          · next ho =>
              rw [List.mem_singleton.mp hm]
              exact hp.toSound.hosts hx ho
          · cases hm
      | subscriber =>
          have hq := p.setIceFlags_quiet x .connected
          obtain ⟨-, -, -, hr, -, -, -⟩ := Peer.ident_eq (hq.peerIdent x)
          simp only [Pod.reportIce, hr, hrole, Pod.onIceReady] at hm
          split at hm
          · exact absurd hm (hsilent (.of_log rfl))
          · exact absurd hm (hsilent (.of_log rfl))

/-- The answers to a `createroom` are about the publishers of those who are
logged in. -/
theorem roomCreated_hosted {m' : JsonParser} (hp : InOrder p)
    (hs : Pod.step a p = some q) (ha : a.2 = .message m')
    (hc : command m' = some .roomCreated) (hm : m ∈ sentTo uuid p q) :
    p.conference.Hosts (getValue m .roomId) (getValue m .sessID)
      (getValue m .peerID) := by
  have hsame : q = p → False := by
    rintro rfl
    rw [sentTo, newEvents, List.drop_length] at hm
    cases hm
  have hq := step_message hs ha
  simp only [Pod.mgrHandleMessage, hc] at hq
  cases hreg : p.regist with
  | false =>
      rw [hreg, if_neg Bool.false_ne_true] at hq
      rw [hq, Pod.notifyServiceNotAvailable,
        (emit_sentNothing p rfl).sentTo] at hm
      cases hm
  | true =>
      rw [hreg, if_pos rfl, Pod.mgrForward, Pod.forwards, hc] at hq
      by_cases hpod : getValue m' .podId = p.conf.uuid
      · rw [if_neg (by simp [hpod])] at hq
        exact (hsame hq).elim
      cases hroom : p.rooms.lookup (getValue m' .roomId) with
      | none =>
          rw [if_pos (by simp [hpod]), hroom, Pod.notFoundRoom, hc] at hq
          exact (hsame hq).elim
      | some r =>
          rw [step_roomCreated hs ha hc hreg hpod hroom, sentTo,
            newEvents_of_append rfl, answerEvents_filterMap fun _ => rfl] at hm
          obtain ⟨⟨v, i⟩, he, hm⟩ := List.mem_flatMap.mp hm
          split at hm
          · next hans =>
              obtain ⟨⟨l, y⟩, hy, hm⟩ := List.mem_filterMap.mp hm
              have hentry : p.entry .publisher i l = some y :=
                GoMap.mem_entries.mp hy
              have hmsg : m = p.fakePublishMsg i (p.peer y).userid
                  (p.peer y).peerid := by
                unfold Pod.answerFor at hm
                split at hm
                · rw [Event.crossTo] at hm
                  split at hm
                  · cases hm; rfl
                  · cases hm
                · rw [Event.crossTo] at hm
                  split at hm
                  · cases hm; rfl
                  · cases hm
              rw [hmsg]
              exact hp.toSound.hosts hentry hans.1
          · cases hm

theorem command_of_replies (h : .fakePublish ∈ replies m) :
    command m = some .roomCreated := by
  unfold replies at h
  split at h
  · simp at h
  · simp at h
  · simp at h
  · simp at h
  · assumption
  · simp at h
  · split at h
    · simp at h
    · simp at h
  · simp at h
  · simp at h
  · simp at h

/-- A pod announces only streams that it has. -/
theorem announced_hosted (hr : Pod.Reachable conf p)
    (hs : Pod.step a p = some q) (hm : m ∈ sentTo uuid p q)
    (hc : command m = some .fakePublish) :
    p.conference.Hosts (getValue m .roomId) (getValue m .sessID)
      (getValue m .peerID) := by
  have hp := reachable_inOrder hr
  obtain ⟨-, c, hcmd, hin⟩ := mem_sentTo hr hs hm
  obtain rfl : c = .fakePublish := Option.some.inj (hcmd.symm.trans hc)
  cases ha : a.2 with
  | message m' =>
      rw [ha] at hin
      exact roomCreated_hosted hp hs ha (command_of_replies hin) hm
  | ice x st =>
      rw [ha, Pod.replies] at hin
      have hf := step_fatal hs
      rw [Pod.step, if_neg (by simp [hf]), ha] at hs
      dsimp only at hs
      split at hs
      · next hlt =>
          cases hs
          cases st with
          | connected => exact connected_hosted hp hf hlt hm
          | disconnected | failed | closed => simp [IceState.replies] at hin
      · cases hs
  | go i =>
      rw [ha, Pod.replies] at hin
      split at hin
      · next g _ =>
          cases g with
          | _ => simp [Goroutine.replies] at hin
      · cases hin
  | _ =>
      rw [ha] at hin
      cases hin

/-! ## The network -/

namespace Network

variable {t t' : Network} {confs : List Config} {as : List Act} {i : Nat}

/-- Nobody but a pod sends a `fakepublish`. -/
def Act.genuine : Act → Bool
  | .input _ _ (.message m) => command m ≠ some .fakePublish
  | _ => true

/-- The pod with id `d` has user `u` logged in, with a stream. -/
def Hosting (d rid u : String) (t : Network) : Prop :=
  ∃ p ∈ t.pods, p.conf.uuid = d ∧ ∃ k, p.conference.Hosts rid u k

/-- What is on the way was announced by a host, and every stand-in is one for
a user of a host elsewhere. -/
structure Vouched (confs : List Config) (as : List Act) (t : Network) :
    Prop where
  grown : t.Grown
  wire : ∀ l ∈ t.wire, command l.2 = some .fakePublish →
    Passes step (Hosting (getValue l.2 .podId) (getValue l.2 .roomId)
      (getValue l.2 .sessID)) as (init confs)
  guests : ∀ p ∈ t.pods, ∀ rid u d, p.conference.Guest rid u d →
    d ≠ p.conf.uuid ∧ Passes step (Hosting d rid u) as (init confs)

/-- Something happens to a pod. If it is a `fakepublish`, then one that a host
has sent. -/
theorem Vouched.act (h : Vouched confs as t)
    (hrun : Passes step (fun t' => t'.pods = t.pods) as (init confs))
    (hmsg : ∀ m, a.2 = .message m → command m = some .fakePublish →
      Passes step (Hosting (getValue m .podId) (getValue m .roomId)
        (getValue m .sessID)) as (init confs))
    (ht : t.act i a = some t') : Vouched confs as t' := by
  have hgrown := h.grown.act ht
  obtain ⟨p, q, hp, hq, rfl⟩ := act_cases ht
  have hmem := List.mem_of_getElem? hp
  obtain ⟨conf, hr⟩ := h.grown p hmem
  refine ⟨hgrown, fun l hl hc => ?_, fun p' hp' rid u d hg => ?_⟩
  · rcases List.mem_append.mp hl with hold | hnew
    · exact h.wire l hold hc
    · obtain ⟨e, -, he⟩ := List.mem_flatMap.mp hnew
      obtain ⟨m, hm, rfl⟩ := List.mem_map.mp he
      have hhost := announced_hosted hr hq hm hc
      have hsign := (mem_sentTo hr hq hm).1
      obtain ⟨as₁, as₂, t₀, has, hrun₀, hpods⟩ := hrun
      exact ⟨as₁, as₂, t₀, has, hrun₀, p, hpods ▸ hmem, hsign.1.symm, _, hhost⟩
  · rcases List.mem_or_eq_of_mem_set hp' with hold | rfl
    · exact h.guests p' hold rid u d hg
    · have hin := reachable_inOrder hr
      rw [step_uuid hin hq]
      rw [step_refines hin hq] at hg
      cases hreq : p.request a with
      | none =>
          rw [hreq] at hg
          exact h.guests p hmem rid u d hg
      | some req =>
          rw [hreq] at hg
          rcases guest_of_apply hg with hold | ⟨name, clusterid, rfl⟩
          · exact h.guests p hmem rid u d hold
          · obtain ⟨hne, m, ha, hc, rfl, rfl, rfl⟩ := request_standsIn hreq
            exact ⟨hne, hmsg m ha hc⟩

theorem Vouched.later (h : Vouched confs as t) (b : Act) :
    Vouched confs (as ++ [b]) t where
  grown := h.grown
  wire l hl hc := (h.wire l hl hc).append [b]
  guests p hp rid u d hg :=
    ⟨(h.guests p hp rid u d hg).1, (h.guests p hp rid u d hg).2.append [b]⟩

theorem Vouched.step {b : Act} (h : Vouched confs as t)
    (hrun : run step as (init confs) = some t) (hb : b.genuine = true)
    (ht : step b t = some t') : Vouched confs (as ++ [b]) t' := by
  refine Vouched.later ?_ b
  cases b with
  | input i env a =>
      refine h.act (.last hrun rfl) (fun m ha hc => ?_) ht
      cases ha
      exact absurd hc (of_decide_eq_true hb)
  | deliver env k =>
      simp only [Network.step] at ht
      split at ht
      · cases ht
      · next l hl =>
          have hrest : Vouched confs as { t with wire := t.wire.eraseIdx k } :=
            ⟨h.grown, fun l hl => h.wire l (List.mem_of_mem_eraseIdx hl),
              h.guests⟩
          refine hrest.act (.last hrun rfl) (fun m ha hc => ?_) ht
          cases ha
          exact h.wire l (List.mem_of_getElem? hl) hc
  | lose k =>
      simp only [Network.step] at ht
      split at ht
      · cases ht
        exact ⟨h.grown, fun l hl => h.wire l (List.mem_of_mem_eraseIdx hl),
          h.guests⟩
      · cases ht

/-- No pod shows a user it was not told of. In every deployment and every run
in which only pods send `fakepublish`, whatever is delivered when or lost:
where a room of a pod has a stand-in for user `u` of the pod `d`, then `d` is
not this pod, and at some time during the run the pod `d` had `u` logged in in
the room of that name, with a stream. -/
theorem guests_come_from_hosts (hrun : run step as (init confs) = some t)
    (hown : ∀ b ∈ as, b.genuine = true) (hp : p ∈ t.pods)
    (hg : p.conference.Guest rid u d) :
    d ≠ p.conf.uuid ∧ Passes step (Hosting d rid u) as (init confs) := by
  have hvouched : Vouched confs as t :=
    run_history (I := Vouched confs)
      ⟨reachable_grown ⟨[], rfl⟩, fun l hl => (by cases hl),
        fun p hp rid u d hg => by
          obtain ⟨conf, -, rfl⟩ := List.mem_map.mp hp
          obtain ⟨h, -, hrid, -⟩ := hg
          cases hrid⟩
      (fun _ _ _ _ hrun hv hb hs => hv.step hrun hb hs) hown hrun
  exact hvouched.guests p hp rid u d hg

/-- A stream of user `u` comes up on the first pod, and the second hears of
it. -/
def firstStream : List Act :=
  [.input 0 Env.calm .setSendMessageHandler,
    .input 1 Env.calm .setSendMessageHandler,
    .input 0 Env.calm (.message (Cmd.login.msg
      [(.roomId, "R"), (.sessID, "u")])),
    .input 1 Env.calm (.message (Cmd.login.msg
      [(.roomId, "R"), (.sessID, "w")])),
    .input 0 Env.calm (.message (Cmd.push.msg
      [(.roomId, "R"), (.sessID, "u"), (.peerID, "1")])),
    .input 0 Env.calm (.ice 0 .connected),
    .deliver Env.calm 5]

theorem firstStream_vouched :
    ∃ t p, run step firstStream (init [.standalone "podA",
        .standalone "podB"]) = some t ∧ p ∈ t.pods ∧
      p.conference.Guest "R" "u" "podA" ∧ "podA" ≠ p.conf.uuid ∧
      Passes step (Hosting "podA" "R" "u") firstStream
        (init [.standalone "podA", .standalone "podB"]) := by
  have h : (run step firstStream (init [.standalone "podA",
      .standalone "podB"])).bind (fun t => t.pods[1]?.map fun p =>
        decide (p.rooms.lookup "R" = some 0 ∧
          (p.room 0).sessions.lookup "u" = some 1 ∧
          (p.sess 1).origin = false ∧ (p.sess 1).podid = "podA")) =
      some true := by decide
  obtain ⟨t, ht, hfacts⟩ := Option.bind_eq_some_iff.mp h
  obtain ⟨p, hp, hfacts⟩ := Option.map_eq_some_iff.mp hfacts
  obtain ⟨hroom, hseat, ho, hd⟩ := of_decide_eq_true hfacts
  have hmem := List.mem_of_getElem? hp
  have hg : p.conference.Guest "R" "u" "podA" :=
    ⟨p.hall 0, p.seatView 1, by rw [Pod.conference, hroom]; rfl,
      by rw [Pod.hall, hseat]; rfl, ho, hd⟩
  have hown : ∀ b ∈ firstStream, b.genuine = true := by decide
  exact ⟨t, p, ht, hmem, hg, guests_come_from_hosts ht hown hmem hg⟩

end Network

end MediaServer.Ref
