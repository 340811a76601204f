import MediaServer.Proofs.Steps

/-!
# Which subscribers get a packet

The subscribers of all streams of a user share one map, and a packet of one
stream is handed to the entries whose key contains the stream's peer id. The
key is the subscriber's user id, the publisher's user id and the peer id in
one string, so a subscriber of the stream is always among them; whether others
are depends on strings that have nothing to do with the stream. `selects_iff`
says when the selection is the right one.
-/

namespace MediaServer.Ref

open MediaServer.Lib

variable {p : Pod} {s : SessRef} {pid : String} {buff : List UInt8}

/-- The subscribers that a packet of stream `pid` is handed to. -/
def recipients (p : Pod) (s : SessRef) (pid : String) : List PeerRef :=
  ((p.sess s).subscribers.entries.filter fun e =>
    pid.toList <:+: e.1.toList).map Sigma.snd

/-- The loop of the two calls that hand on a packet, in its section. -/
theorem packet_newEvents (deliver : PeerRef → Event) (hp : p.fatal = false) :
    newEvents p (((p.sess s).subscribers.entries.foldl (fun p e =>
      if pid.toList <:+: e.1.toList then p.emit (deliver e.2) else p)
        (p.rlock (.subs s))).runlock (.subs s)) =
      .sync (.rlock (.subs s)) :: ((recipients p s pid).map deliver ++
        [.sync (.runlock (.subs s))]) := by
  have hloop := Logs.pick (fun e : (_ : String) × PeerRef => deliver e.2)
    (p.sess s).subscribers.entries hp
    (c := fun _ e => pid.toList <:+: e.1.toList) fun _ _ => Iff.rfl
  have h := ((Logs.emit hp (.sync (.rlock (.subs s)))).comp hloop).comp
    (Logs.emit hp (.sync (.runlock (.subs s))))
  rw [recipients, List.map_map]
  exact h.newEvents

theorem audio_newEvents (hp : p.fatal = false) :
    newEvents p (p.onReceivedAudioData s buff pid) =
      .sync (.rlock (.subs s)) ::
        ((recipients p s pid).map (Event.deliverAudio · buff) ++
          [.sync (.runlock (.subs s))]) := by
  rw [← packet_newEvents _ hp, Pod.onReceivedAudioData]
  simp only [Pod.rlock, Pod.emit_sess]

theorem video_newEvents (hp : p.fatal = false) :
    newEvents p (p.onReceivedVideoData s buff pid) =
      .sync (.rlock (.subs s)) ::
        ((recipients p s pid).map (Event.deliverVideo · buff) ++
          [.sync (.runlock (.subs s))]) := by
  rw [← packet_newEvents _ hp, Pod.onReceivedVideoData]
  simp only [Pod.rlock, Pod.emit_sess]

theorem mem_recipients {x : PeerRef} :
    x ∈ recipients p s pid ↔ ∃ k, p.entry .subscriber s k = some x ∧
      pid.toList <:+: k.toList := by
  simp only [recipients, List.mem_map, List.mem_filter, decide_eq_true_eq]
  constructor
  · rintro ⟨⟨k, y⟩, ⟨hmem, hin⟩, rfl⟩
    exact ⟨k, GoMap.mem_entries.mp hmem, hin⟩
  · rintro ⟨k, hk, hin⟩
    exact ⟨⟨k, x⟩, ⟨GoMap.mem_entries.mpr hk, hin⟩, rfl⟩

/-- The key of a subscriber ends with its peer id. -/
theorem peerid_infix_subKey (sid ssid pid : String) :
    pid.toList <:+: (subKey sid ssid pid).toList := by
  rw [subKey, String.toList_append]
  exact (List.suffix_append _ _).isInfix

/-- A call hands the packet to exactly the subscribers of stream `pid`. -/
def Selects (deliver : PeerRef → Event) (s : SessRef) (pid : String)
    (p q : Pod) : Prop :=
  ∀ x, deliver x ∈ newEvents p q ↔
    (∃ k, (p.sess s).subscribers.lookup k = some x) ∧ (p.peer x).peerid = pid

/-- No subscriber of another stream has `pid` somewhere in its key. -/
def KeysApart (p : Pod) (s : SessRef) (pid : String) : Prop :=
  ∀ k x, (p.sess s).subscribers.lookup k = some x → (p.peer x).peerid ≠ pid →
    ¬pid.toList <:+: (subKey (p.peer x).userid (p.peer x).remoteuserid
      (p.peer x).peerid).toList

theorem recipients_iff (hp : Placed p) :
    (∀ x, x ∈ recipients p s pid ↔
      (∃ k, (p.sess s).subscribers.lookup k = some x) ∧
        (p.peer x).peerid = pid) ↔ KeysApart p s pid := by
  have hkey : ∀ k x, (p.sess s).subscribers.lookup k = some x →
      subKey (p.peer x).userid (p.peer x).remoteuserid (p.peer x).peerid =
        k := by
    intro k x hx
    obtain ⟨-, -, hrole, -, hk⟩ := hp .subscriber s k x hx
    rw [← Peer.key_subscriber hrole, hk]
  constructor
  · intro h k x hx hne hin
    rw [hkey k x hx] at hin
    exact hne ((h x).mp (mem_recipients.mpr ⟨k, hx, hin⟩)).2
  · intro h x
    rw [mem_recipients]
    constructor
    · rintro ⟨k, hx, hin⟩
      refine ⟨⟨k, hx⟩, ?_⟩
      by_contra hne
      exact h k x hx hne (by rw [hkey k x hx]; exact hin)
    · rintro ⟨⟨k, hx⟩, rfl⟩
      refine ⟨k, hx, ?_⟩
      rw [← hkey k x hx]
      exact peerid_infix_subKey _ _ _

/-- In every reachable state both kinds of packets of a stream go to exactly
its subscribers, if and only if no subscriber of another stream of the session
has the stream's peer id somewhere in the text of its user id, the publisher's
user id and its peer id. -/
theorem selects_iff {conf : Config} (hr : Pod.Reachable conf p)
    (hf : p.fatal = false) (s : SessRef) (pid : String) (buff : List UInt8) :
    (Selects (Event.deliverAudio · buff) s pid p
        (p.onReceivedAudioData s buff pid) ∧
      Selects (Event.deliverVideo · buff) s pid p
        (p.onReceivedVideoData s buff pid)) ↔ KeysApart p s pid := by
  have hplaced := (reachable_podOk hr).placed
  have haudio : ∀ x, Event.deliverAudio x buff ∈
      newEvents p (p.onReceivedAudioData s buff pid) ↔
        x ∈ recipients p s pid := by
    intro x; simp [audio_newEvents hf]
  have hvideo : ∀ x, Event.deliverVideo x buff ∈
      newEvents p (p.onReceivedVideoData s buff pid) ↔
        x ∈ recipients p s pid := by
    intro x; simp [video_newEvents hf]
  rw [← recipients_iff hplaced]
  simp only [Selects, haudio, hvideo]
  exact and_self_iff

/-- User `u` publishes the streams `1` and `12`, and `w` subscribes to the
second. -/
def twoStreams : List (Env × Input) :=
  [(Env.calm, .setSendMessageHandler),
    (Env.calm, .message (Cmd.login.msg [(.roomId, "R"), (.sessID, "u")])),
    (Env.calm, .message (Cmd.login.msg [(.roomId, "R"), (.sessID, "w")])),
    (Env.calm, .message (Cmd.push.msg
      [(.roomId, "R"), (.sessID, "u"), (.peerID, "1")])),
    (Env.calm, .message (Cmd.push.msg
      [(.roomId, "R"), (.sessID, "u"), (.peerID, "12")])),
    (Env.calm, .message (Cmd.offer.msg
      [(.roomId, "R"), (.sessID, "u"), (.peerID, "12")])),
    (Env.calm, .message (Cmd.sub.msg [(.roomId, "R"), (.sessID, "w"),
      (.srcSessID, "u"), (.peerID, "12")]))]

theorem twoStreams_reaches :
    ∃ p, Pod.Reachable (Config.standalone "podA") p ∧ p.fatal = false ∧
      (p.sess 0).publishers.lookup "1" = some 0 ∧
      (p.sess 0).subscribers.entries = [⟨"wu12", 2⟩] ∧
      (p.peer 2).peerid = "12" := by
  have h : (run Pod.step twoStreams
      (Pod.createRoomMgr (Config.standalone "podA"))).map (fun p =>
        (p.fatal, (p.sess 0).publishers.lookup "1",
          (p.sess 0).subscribers.entries, (p.peer 2).peerid)) =
      some (false, some 0, [⟨"wu12", 2⟩], "12") := by decide
  obtain ⟨p, hp, hfacts⟩ := Option.map_eq_some_iff.mp h
  simp only [Prod.mk.injEq] at hfacts
  exact ⟨p, ⟨twoStreams, hp⟩, hfacts⟩

/-- In that state a packet of stream `1` goes to the subscriber of `12`. -/
theorem audio_crosses_streams :
    ∃ p, Pod.Reachable (Config.standalone "podA") p ∧ p.fatal = false ∧
      (p.sess 0).publishers.lookup "1" = some 0 ∧
      ¬Selects (Event.deliverAudio · [7]) 0 "1" p
        (p.onReceivedAudioData 0 [7] "1") := by
  obtain ⟨p, hr, hf, hpub, hsubs, hpid⟩ := twoStreams_reaches
  refine ⟨p, hr, hf, hpub, fun hsel => ?_⟩
  have hdel : Event.deliverAudio 2 [7] ∈
      newEvents p (p.onReceivedAudioData 0 [7] "1") := by
    rw [audio_newEvents hf, recipients, hsubs]
    decide
  have hwrong := ((hsel 2).mp hdel).2
  rw [hpid] at hwrong
  exact absurd hwrong (by decide)

theorem selects_second_stream :
    ∃ p, Pod.Reachable (Config.standalone "podA") p ∧
      Selects (Event.deliverAudio · [7]) 0 "12" p
        (p.onReceivedAudioData 0 [7] "12") ∧
      Selects (Event.deliverVideo · [7]) 0 "12" p
        (p.onReceivedVideoData 0 [7] "12") := by
  obtain ⟨p, hr, hf, -, hsubs, hpid⟩ := twoStreams_reaches
  refine ⟨p, hr, (selects_iff hr hf 0 "12" [7]).mpr fun k x hx hne => ?_⟩
  have hmem := GoMap.mem_entries.mpr hx
  rw [hsubs, List.mem_singleton] at hmem
  cases hmem
  exact absurd hpid hne

end MediaServer.Ref
