import MediaServer.Lib.Flood
import MediaServer.Proofs.Steps
import MediaServer.Ref.Forward

/-!
# Where an application message ends up

The forwarding of application data has no memory, so whether a message comes
back is a question about the channels between the pods. Two pods that both
have a user who publishes are joined by two channels, one for each stream, and
a message that arrives by one of them is passed back by the other; from then
on it circulates. And a user who publishes and subscribes has two peers in the
room, so that the second is asked to deliver what came in by the first.

`onceOnly_of_clear` says that these are the only reasons: if the channels form
a forest and the sender has no other peer, every run of the forwarding asks
every peer at most once, and none of the sender's. Inside a pod that is a fact
about the loops (`onAppMessage_delivers`); across pods it is the general fact
about flooding a forest.
-/

namespace MediaServer.Ref

open MediaServer.Lib

/-! ## One pod -/

/-- The test of the two loops of `BroadcastAppData`. -/
def Pod.Hears (p : Pod) (sid pid : String) (y : PeerRef) : Prop :=
  (p.peer y).userid ≠ sid ∨ (p.peer y).peerid ≠ pid

instance (p : Pod) (sid pid : String) : DecidablePred (p.Hears sid pid) :=
  fun _ => inferInstanceAs (Decidable (_ ∨ _))

/-- The call `f` does nothing but log, and asks the peers in `l` to deliver. -/
def Delivers (p : Pod) (f : Pod → Pod) (l : List PeerRef) : Prop :=
  ∃ tr, Logs p f tr ∧ asked tr = l

section Delivers

variable {p : Pod} {f g : Pod → Pod} {l l' : List PeerRef}
variable {sid pid : String} {buff : List UInt8}

theorem Delivers.sync (hp : p.fatal = false) (op : LockOp Mutex) :
    Delivers p (Pod.emit · (.sync op)) [] :=
  ⟨_, .emit hp _, rfl⟩

theorem Delivers.comp (hf : Delivers p f l) (hg : Delivers p g l') :
    Delivers p (fun q => g (f q)) (l ++ l') := by
  obtain ⟨tr, hf, rfl⟩ := hf
  obtain ⟨tr', hg, rfl⟩ := hg
  exact ⟨tr ++ tr', hf.comp hg, List.filterMap_append⟩

theorem Delivers.foldl {α : Type} {f : Pod → α → Pod} {g : α → List PeerRef}
    {l : List α} (hf : ∀ a ∈ l, Delivers p (f · a) (g a)) :
    Delivers p (l.foldl f ·) (l.flatMap g) := by
  induction l with
  | nil => exact ⟨[], fun tr => by simp, rfl⟩
  | cons a l ih =>
      have ha := hf a List.mem_cons_self
      have ih := ih fun b hb => hf b (List.mem_cons_of_mem _ hb)
      exact ha.comp ih

theorem deliverAppTo_delivers (hp : p.fatal = false) (peers : GoMap PeerRef) :
    Delivers p (Pod.deliverAppTo sid pid buff peers)
      ((peers.entries.map Sigma.snd).filter (p.Hears sid pid)) := by
  have h := Logs.pick (fun e : (_ : String) × PeerRef =>
    Event.deliverApp e.2 buff) peers.entries hp
    (c := fun p e => p.Hears sid pid e.2) fun _ _ => Iff.rfl
  refine ⟨_, h, ?_⟩
  rw [asked, List.filterMap_map, List.filter_map]
  exact congrFun (List.filterMap_eq_map
    (f := fun e : (_ : String) × PeerRef => e.2)) _

/-- One of the two sections of `BroadcastAppData`. -/
theorem section_delivers (hp : p.fatal = false) (m : Mutex) (s : SessRef)
    (get : Session → GoMap PeerRef) :
    Delivers p (fun q => ((q.rlock m).deliverAppTo sid pid buff
        (get (q.sess s))).runlock m)
      (((get (p.sess s)).entries.map Sigma.snd).filter (p.Hears sid pid)) := by
  obtain ⟨tr, h, hasked⟩ := ((Delivers.sync hp (.rlock m)).comp
    (deliverAppTo_delivers hp (get (p.sess s)))).comp
      (Delivers.sync hp (.runlock m))
  refine ⟨tr, h, ?_⟩
  rw [hasked, List.nil_append, List.append_nil]

theorem broadcastAppData_delivers (hp : p.fatal = false) (s : SessRef) :
    Delivers p (Pod.broadcastAppData s sid pid buff)
      (((p.sess s).publishers.entries.map Sigma.snd ++
        (p.sess s).subscribers.entries.map Sigma.snd).filter
          (p.Hears sid pid)) := by
  rw [List.filter_append]
  exact (section_delivers hp (.pubs s) s Session.publishers).comp
    (section_delivers hp (.subs s) s Session.subscribers)

theorem onReceivedAppData_delivers (sid pid : String) (buff : List UInt8)
    (hp : p.fatal = false) (r : RoomRef) :
    Delivers p (Pod.onReceivedAppData r sid pid buff)
      ((p.members r).filter (p.Hears sid pid)) := by
  have hloop : Delivers p (fun q => (q.room r).sessions.entries.foldl
      (fun p e => p.broadcastAppData e.2 sid pid buff) q)
        ((p.members r).filter (p.Hears sid pid)) := by
    rw [Pod.members, List.filter_flatMap]
    obtain ⟨tr, h, hasked⟩ := Delivers.foldl
      (f := fun p (e : (_ : String) × SessRef) =>
        p.broadcastAppData e.2 sid pid buff)
      (l := (p.room r).sessions.entries)
      fun e _ => broadcastAppData_delivers hp e.2
    exact ⟨tr, fun l => h l, hasked⟩
  obtain ⟨tr, h, hasked⟩ := ((Delivers.sync hp (.rlock (.sessions r))).comp
    hloop).comp (Delivers.sync hp (.runlock (.sessions r)))
  refine ⟨tr, h, ?_⟩
  rw [hasked, List.nil_append, List.append_nil]

end Delivers

section Members

variable {p : Pod} {r : RoomRef} {x : PeerRef}

theorem mem_members : x ∈ p.members r ↔
    ∃ u s, (p.room r).sessions.lookup u = some s ∧
      ∃ role k, p.entry role s k = some x := by
  simp only [Pod.members, List.mem_flatMap, List.mem_append]
  constructor
  · rintro ⟨⟨u, s⟩, he, hx⟩
    refine ⟨u, s, GoMap.mem_entries.mp he, ?_⟩
    rcases hx with hx | hx
    · exact ⟨.publisher, (p.mem_entries .publisher s x).mpr hx⟩
    · exact ⟨.subscriber, (p.mem_entries .subscriber s x).mpr hx⟩
  · rintro ⟨u, s, hs, role, hk⟩
    refine ⟨⟨u, s⟩, GoMap.mem_entries.mpr hs, ?_⟩
    cases role with
    | publisher => exact .inl ((p.mem_entries .publisher s x).mp hk)
    | subscriber => exact .inr ((p.mem_entries .subscriber s x).mp hk)

/-- The room of a member is the one its session belongs to. -/
theorem room_of_member (hok : PodOk p) (hx : x ∈ p.members r) :
    (p.sess (p.peer x).parent).parent = r := by
  obtain ⟨u, s, hs, role, k, hk⟩ := mem_members.mp hx
  rw [(hok.placed role s k x hk).2.2.2.1]
  exact (hok.sessions r u s hs).2.1

theorem members_nodup (hok : PodOk p) (r : RoomRef) : (p.members r).Nodup := by
  refine List.nodup_flatMap.mpr ⟨?_, ?_⟩
  · rintro ⟨u, s⟩ -
    refine List.nodup_append.mpr ⟨p.nodup_entries hok.placed .publisher s,
      p.nodup_entries hok.placed .subscriber s, ?_⟩
    rintro x hx y hy rfl
    obtain ⟨k, hk⟩ := (p.mem_entries .publisher s x).mpr hx
    obtain ⟨k', hk'⟩ := (p.mem_entries .subscriber s x).mpr hy
    have h := (hok.placed.unique hk hk').1
    cases h
  · have hnd := List.NodupKeys.nodup (p.room r).sessions.nodupKeys
    refine hnd.imp_of_mem ?_
    rintro ⟨u, s⟩ ⟨u', s'⟩ he he' hne x hx hx'
    have hmem : ∀ {s}, x ∈ (p.sess s).publishers.entries.map Sigma.snd ++
        (p.sess s).subscribers.entries.map Sigma.snd →
        ∃ role k, p.entry role s k = some x := by
      intro s h
      rcases List.mem_append.mp h with h | h
      · exact ⟨.publisher, (p.mem_entries .publisher s x).mpr h⟩
      · exact ⟨.subscriber, (p.mem_entries .subscriber s x).mpr h⟩
    obtain ⟨role, k, hk⟩ := hmem hx
    obtain ⟨role', k', hk'⟩ := hmem hx'
    obtain rfl := (hok.placed.unique hk hk').2.1
    refine hne ?_
    have hu := (hok.sessions r u s' (GoMap.mem_entries.mp he)).1
    have hu' := (hok.sessions r u' s' (GoMap.mem_entries.mp he')).1
    rw [← hu, ← hu']

/-- What arrives at a member of a room is handed to every other member, apart
from those with its user id and peer id. -/
theorem onAppMessage_delivers (buff : List UInt8) (hok : PodOk p)
    (hp : p.fatal = false) (hx : x ∈ p.members r) :
    Delivers p (Pod.onAppMessage x buff)
      ((p.members r).filter
        (p.Hears (p.peer x).userid (p.peer x).peerid)) := by
  obtain ⟨tr, h, hasked⟩ := onReceivedAppData_delivers (p.peer x).userid
    (p.peer x).peerid buff hp r
  rw [← room_of_member hok hx] at h
  exact ⟨tr, h, hasked⟩

end Members

/-! ## The channels as wires -/

section Ends

variable {ι : Type} {c : Cluster ι} {x y z : Port ι}

/-- The two are the ends of one channel. -/
def Cluster.Joined (c : Cluster ι) (x y : Port ι) : Prop :=
  (x, y) ∈ c.wires ∨ (y, x) ∈ c.wires

/-- A peer is the end of one channel: subscribers and publishers have their
sides, and no side has a peer twice. -/
theorem Cluster.Joined.unique (h : c.Joined x y) (h' : c.Joined x z) :
    y = z := by
  have hside : ∀ {y z}, (x, y) ∈ c.wires → (z, x) ∉ c.wires := by
    intro y z hy hz
    have hsub := (c.serves _ hy).2.2.2.1
    have hpub := (c.serves _ hz).2.2.2.2.2.2.2.1
    rw [hsub] at hpub
    cases hpub
  rcases h with h | h
  · rcases h' with h' | h'
    · exact congrArg Prod.snd (List.inj_on_of_nodup_map c.subs h h' rfl)
    · exact (hside h h').elim
  · rcases h' with h' | h'
    · exact (hside h' h).elim
    · exact congrArg Prod.fst (List.inj_on_of_nodup_map c.pubs h h' rfl)

theorem Cluster.Joined.member (h : c.Joined x y) : c.Member y := by
  rcases h with h | h
  · exact (c.serves _ h).2.2.1
  · exact (c.serves _ h).2.1

theorem Cluster.podOk (c : Cluster ι) (i : ι) : PodOk (c.pod i) :=
  reachable_podOk (c.reach i)

/-- The peers that are asked to deliver what arrived at `x`. -/
def Cluster.others (c : Cluster ι) (x : Port ι) : List PeerRef :=
  ((c.pod x.1).members (c.room x.1)).filter ((c.pod x.1).Hears
    ((c.pod x.1).peer x.2).userid ((c.pod x.1).peer x.2).peerid)

theorem Cluster.not_mem_others (c : Cluster ι) (x : Port ι) :
    x.2 ∉ c.others x := by
  intro h
  have h := (List.mem_filter.mp h).2
  simp [Pod.Hears] at h

theorem Cluster.others_nodup (c : Cluster ι) (x : Port ι) :
    (c.others x).Nodup :=
  (members_nodup (c.podOk x.1) _).filter _

/-- Those of them that have a channel to send on. -/
def Cluster.out (c : Cluster ι) (x : Port ι) : List (Port ι) :=
  ((c.others x).filter fun y => ((c.pod x.1).peer y).dataChannel).map
    (Prod.mk x.1)

end Ends

section Cluster

variable {ι : Type} [DecidableEq ι] {c : Cluster ι} {x y o : Port ι}
variable {buff : List UInt8}

theorem Cluster.joined_of_far (h : c.far x = some y) : c.Joined x y := by
  obtain ⟨⟨a, b⟩, hw, hif⟩ := List.exists_of_findSome?_eq_some h
  dsimp only at hif
  split at hif
  · next hx => cases hif; exact .inl (hx ▸ hw)
  · split at hif
    · next hx => cases hif; exact .inr (hx ▸ hw)
    · cases hif

theorem Cluster.far_of_joined (h : c.Joined x y) : c.far x = some y := by
  cases hfar : c.far x with
  | some z => rw [h.unique (joined_of_far hfar)]
  | none =>
      have hnone := List.findSome?_eq_none_iff.mp hfar
      rcases h with h | h
      · exact absurd (hnone _ h) (by simp)
      · have := hnone _ h
        split at this
        · cases this
        · simp at this

def Cluster.toWires (c : Cluster ι) : Wires ι (Port ι) where
  home := Prod.fst
  far := c.far
  symm h := far_of_joined (joined_of_far h).symm

theorem Cluster.out_local (c : Cluster ι) : c.toWires.Local c.out where
  home h := by
    obtain ⟨y, -, rfl⟩ := List.mem_map.mp h
    rfl
  other {x _} h := by
    obtain ⟨y, hy, rfl⟩ := List.mem_map.mp h
    intro heq
    have hyx : y = x.2 := congrArg Prod.snd heq
    rw [hyx] at hy
    exact c.not_mem_others x (List.mem_of_mem_filter hy)
  nodup x := by
    refine List.Nodup.map (Prod.mk_right_injective _) ?_
    exact (c.others_nodup x).filter _

/-! ## The run of a message -/

/-- The state `t` is the flood `f` carried out by the pods: nothing but the
logs has changed, and each pod was asked once for each arrival. -/
structure Follows (c : Cluster ι) (t : Net ι) (f : Flood (Port ι)) : Prop where
  flight : t.flight = f.flight
  member : ∀ x ∈ f.ports, c.Member x
  pod : ∀ i, ∃ tr, t.pod i = (c.pod i).logged tr ∧
    asked tr = (f.done.filter (·.1 = i)).flatMap c.others

theorem follows_inject (ho : c.Member o) :
    Follows c (c.inject o) (Flood.start o) where
  flight := rfl
  member x hx := by rw [List.mem_singleton.mp hx]; exact ho
  pod i := ⟨[], (Pod.logged_nil _).symm, rfl⟩

/-- The copies that leave, as the pods compute them and as the flood does. -/
theorem Cluster.sent_eq (c : Cluster ι) (x : Port ι) :
    ((c.others x).filterMap fun y =>
      if ((c.pod x.1).peer y).dataChannel then c.far (x.1, y) else none) =
      (c.out x).filterMap c.far := by
  rw [out, List.filterMap_map, List.filterMap_filter]
  rfl

theorem follows_step {k : Nat} {t t' : Net ι} {f : Flood (Port ι)}
    (h : Follows c t f) (hs : Net.step c buff k t = some t') :
    ∃ f', Flood.step c.toWires c.out k f = some f' ∧ Follows c t' f' := by
  unfold Net.step at hs
  rw [h.flight] at hs
  split at hs
  · cases hs
  · next x hx =>
      have hstep : Flood.step c.toWires c.out k f = some ⟨f.done ++ [x],
          f.flight.eraseIdx k ++ (c.out x).filterMap c.far⟩ := by
        rw [Flood.step, hx]
        rfl
      refine ⟨_, hstep, ?_⟩
      have hmem := h.member x
        (List.mem_append_right _ (List.mem_of_getElem? hx))
      obtain ⟨tr, hpod, hasked⟩ := h.pod x.1
      obtain ⟨tr', hlogs, hothers⟩ := onAppMessage_delivers buff
        (c.podOk x.1) (c.alive x.1) hmem
      have hq : (t.pod x.1).onAppMessage x.2 buff =
          (c.pod x.1).logged (tr ++ tr') := by rw [hpod, hlogs]
      have hnew : newEvents (t.pod x.1) ((t.pod x.1).onAppMessage x.2 buff) =
          tr' := by
        refine newEvents_of_append ?_
        rw [hq, hpod]
        exact (List.append_assoc _ _ _).symm
      dsimp only at hs
      rw [hnew, hq, hothers] at hs
      cases hs
      refine ⟨?_, ?_, ?_⟩
      · rw [← c.sent_eq x]
        rfl
      · obtain ⟨x', -, -, hperm⟩ := Flood.ports_step hstep
        intro z hz
        rcases List.mem_append.mp (hperm.mem_iff.mp hz) with hz | hz
        · exact h.member z hz
        · obtain ⟨y, -, hfar⟩ := List.mem_filterMap.mp hz
          exact (Cluster.joined_of_far hfar).member
      · intro i
        rw [List.filter_append, List.flatMap_append]
        by_cases hi : x.1 = i
        · subst hi
          refine ⟨tr ++ tr', Function.update_self .., ?_⟩
          rw [asked, List.filterMap_append]
          simp only [List.filter_singleton, decide_true, cond_true,
            List.flatMap_singleton]
          exact congrArg₂ _ hasked hothers
        · obtain ⟨tr, hpod, hasked⟩ := h.pod i
          refine ⟨tr, ?_, ?_⟩
          · rw [← hpod]
            exact Function.update_of_ne (Ne.symm hi) ..
          · simp [hi, hasked]

/-! ## The result -/

/-- Every peer was asked at most once, and no peer of the sender was. -/
def OnceOnly (c : Cluster ι) (sender : String) (t : Net ι) : Prop :=
  ∀ i, (t.asked c i).Nodup ∧ ∀ y ∈ t.asked c i, ¬c.OfClient sender (i, y)

/-- The peer `o` is a real one in the room, the channels between the pods form
a forest, and the client of `o` has no other peer in the room. -/
structure Clear (c : Cluster ι) (o : Port ι) : Prop where
  member : c.Member o
  real : c.OfClient ((c.pod o.1).peer o.2).userid o
  forest : c.toWires.Forest
  alone : ∀ x, c.Member x → c.OfClient ((c.pod o.1).peer o.2).userid x → x = o

theorem onceOnly_of_follows (hc : Clear c o) {t : Net ι} {f : Flood (Port ι)}
    (h : Follows c t f) (hs : Flood.Spread c.toWires c.out o f) :
    OnceOnly c ((c.pod o.1).peer o.2).userid t := by
  intro i
  obtain ⟨tr, hpod, hasked⟩ := h.pod i
  have hnew : t.asked c i = (f.done.filter (·.1 = i)).flatMap c.others := by
    rw [Net.asked, newEvents_of_append (by rw [hpod]; rfl), hasked]
  rw [hnew]
  constructor
  · refine List.nodup_flatMap.mpr ⟨fun x _ => c.others_nodup x, ?_⟩
    -- the pod has passed the message on at most once
    refine ((List.pairwise_map.mp hs.once).filter _).imp_of_mem ?_
    intro x x' hx hx' hne
    have hi := of_decide_eq_true (List.mem_filter.mp hx).2
    have hi' := of_decide_eq_true (List.mem_filter.mp hx').2
    exact absurd (hi.trans hi'.symm) hne
  · intro y hy hclient
    obtain ⟨x, hx, hyx⟩ := List.mem_flatMap.mp hy
    obtain ⟨hdone, hi⟩ := List.mem_filter.mp hx
    obtain rfl := of_decide_eq_true hi
    obtain rfl := hc.alone (x.1, y) (List.mem_of_mem_filter hyx) hclient
    have hxo := hs.eq_of_home (List.mem_append_left _ hdone) hs.origin rfl
    exact c.not_mem_others x (by rw [hxo] at hyx ⊢; exact hyx)

/-- In every run of the forwarding of a message that a client sent, each peer
of each pod is asked at most once to deliver it, and none of the sender's, if
the channels form a forest and the sender has no second peer in the room. -/
theorem onceOnly_of_clear (c : Cluster ι) (o : Port ι) (buff : List UInt8)
    (hc : Clear c o) (ks : List Nat) :
    Always (Net.step c buff) (OnceOnly c ((c.pod o.1).peer o.2).userid) ks
      (c.inject o) := by
  have h : Always (Net.step c buff) (fun t => ∃ f, Follows c t f ∧
      Flood.Spread c.toWires c.out o f) ks (c.inject o) := by
    refine always_of_guarded ?_ (guarded_true ks _)
      ⟨_, follows_inject hc.member, Flood.spread_start ..⟩
    rintro k t t' ⟨f, hfol, hspread⟩ - hs
    obtain ⟨f', hs', hfol'⟩ := follows_step hfol hs
    exact ⟨f', hfol', Flood.spread_step hc.forest c.out_local hspread hs'⟩
  exact h.mono fun t ⟨f, hfol, hspread⟩ => onceOnly_of_follows hc hfol hspread

end Cluster

/-! ## Two pods -/

/-- Where a list of calls leads from the start, if all of them are enabled. -/
def Pod.after (conf : Config) (as : List (Env × Input)) : Pod :=
  (run Pod.step as (Pod.createRoomMgr conf)).getD (Pod.createRoomMgr conf)

theorem Pod.after_reachable (conf : Config) (as : List (Env × Input)) :
    Pod.Reachable conf (Pod.after conf as) := by
  cases h : run Pod.step as (Pod.createRoomMgr conf) with
  | none => exact ⟨[], by rw [Pod.after, h]; rfl⟩
  | some p => exact ⟨as, by rw [Pod.after, h]; rfl⟩

/-- Surroundings in which every description has a data channel. -/
def Env.board : Env := ⟨0, true, true, ⟨"v=0", ["audio", "application"]⟩⟩

/-- The pod starts and user `u` publishes a stream with a data channel. -/
def publishes (u pid : String) : List (Env × Input) :=
  [(Env.board, .setSendMessageHandler),
    (Env.board, .message (Cmd.login.msg [(.roomId, "R"), (.sessID, u)])),
    (Env.board, .message (Cmd.push.msg
      [(.roomId, "R"), (.sessID, u), (.peerID, pid)])),
    (Env.board, .message (Cmd.offer.msg
      [(.roomId, "R"), (.sessID, u), (.peerID, pid)])),
    (Env.board, .dataChannel 0),
    (Env.board, .ice 0 .connected)]

/-- Another pod asks for the stream and answers the offer. -/
def servesTo (pod u pid : String) : List (Env × Input) :=
  [(Env.board, .message (Cmd.fakeSubscribe.msg [(.podId, pod),
      (.roomId, "R"), (.sessID, u), (.srcSessID, u), (.peerID, pid)])),
    (Env.board, .message (Cmd.fakeAnswer.msg [(.podId, pod),
      (.roomId, "R"), (.sessID, u), (.srcSessID, u), (.peerID, pid)]))]

/-- Another pod announces a stream of `u` and offers it; `x` is the peer that
is created for it. -/
def takesFrom (pod u pid : String) (x : PeerRef) : List (Env × Input) :=
  [(Env.board, .message (Cmd.fakePublish.msg [(.podId, pod),
      (.roomId, "R"), (.sessID, u), (.peerID, pid)])),
    (Env.board, .message (Cmd.fakeOffer.msg [(.podId, pod),
      (.roomId, "R"), (.sessID, u), (.peerID, pid)])),
    (Env.board, .dataChannel x),
    (Env.board, .ice x .connected)]

/-- User `u` publishes on one pod and `w` on the other, and each pod has taken
over the stream of the other. -/
def mesh : Cluster Bool where
  rid := "R"
  conf b := Config.standalone (if b then "podB" else "podA")
  pod
    | false => Pod.after (Config.standalone "podA")
        (publishes "u" "1" ++ servesTo "podB" "u" "1" ++
          takesFrom "podB" "w" "2" 2)
    | true => Pod.after (Config.standalone "podB")
        (publishes "w" "2" ++ servesTo "podA" "w" "2" ++
          takesFrom "podA" "u" "1" 2)
  room _ := 0
  wires := [((false, 1), (true, 2)), ((true, 1), (false, 2))]
  reach b := by cases b <;> exact Pod.after_reachable _ _
  alive := by decide
  shared := by decide
  serves := by decide
  subs := by decide
  pubs := by decide

/-- After four steps the publisher of `w` has been asked twice, and the one by
which `u` sent the message has been asked as well. -/
theorem message_circulates :
    mesh.Member (false, 0) ∧ mesh.OfClient "u" (false, 0) ∧
      ∃ t, run (Net.step mesh [7]) [0, 0, 0, 0] (mesh.inject (false, 0)) =
          some t ∧
        (t.asked mesh true).count 0 = 2 ∧ 0 ∈ t.asked mesh false ∧
        ¬OnceOnly mesh "u" t := by
  have h : (run (Net.step mesh [7]) [0, 0, 0, 0] (mesh.inject (false, 0))).map
      (fun t => ((t.asked mesh true).count 0,
        decide (0 ∈ t.asked mesh false))) = some (2, true) := by decide
  obtain ⟨t, ht, hfacts⟩ := Option.map_eq_some_iff.mp h
  simp only [Prod.mk.injEq, decide_eq_true_eq] at hfacts
  refine ⟨by unfold Cluster.Member; decide, by unfold Cluster.OfClient; decide,
    t, ht, hfacts.1, hfacts.2, fun honce => ?_⟩
  exact (honce false).2 0 hfacts.2 (by unfold Cluster.OfClient; decide)

/-- User `u` publishes on one pod; `w`, on the other, only subscribes. -/
def audience : Cluster Bool where
  rid := "R"
  conf b := Config.standalone (if b then "podB" else "podA")
  pod
    | false => Pod.after (Config.standalone "podA")
        (publishes "u" "1" ++ servesTo "podB" "u" "1")
    | true => Pod.after (Config.standalone "podB")
        ([(Env.board, .setSendMessageHandler),
          (Env.board, .message (Cmd.login.msg
            [(.roomId, "R"), (.sessID, "w")]))] ++
          takesFrom "podA" "u" "1" 0 ++
          [(Env.board, .message (Cmd.sub.msg [(.roomId, "R"), (.sessID, "w"),
            (.srcSessID, "u"), (.peerID, "1")]))])
  room _ := 0
  wires := [((false, 1), (true, 0))]
  reach b := by cases b <;> exact Pod.after_reachable _ _
  alive := by decide
  shared := by decide
  serves := by decide
  subs := by decide
  pubs := by decide

theorem audience_forest : audience.toWires.Forest where
  apart h := by
    rcases Cluster.joined_of_far h with h | h
    · exact (audience.serves _ h).1
    · exact (audience.serves _ h).1.symm
  single {x y x' y'} h h' hx hy := by
    have hends : ∀ {x y}, audience.far x = some y →
        x = (false, 1) ∨ x = (true, 0) := by
      intro x y h
      rcases Cluster.joined_of_far h with h | h
      · exact .inl (congrArg Prod.fst (List.mem_singleton.mp h))
      · exact .inr (congrArg Prod.snd (List.mem_singleton.mp h))
    rcases hends h with rfl | rfl <;> rcases hends h' with rfl | rfl
    · rfl
    · cases hx
    · cases hx
    · rfl
  acyclic := SimpleGraph.IsAcyclic.of_card_le_two (by simp)

theorem audience_clear : Clear audience (false, 0) where
  member := by unfold Cluster.Member; decide
  real := by unfold Cluster.OfClient; decide
  forest := audience_forest
  alone := by
    have hall : ∀ i, ∀ y ∈ (audience.pod i).members 0,
        ((audience.pod i).peer y).isFake = false →
        ((audience.pod i).peer y).userid = "u" → (i, y) = (false, 0) := by
      decide
    intro x hm hc
    exact hall x.1 x.2 hm hc.1 hc.2

theorem onceOnly_audience :
    (run (Net.step audience [7]) [0, 0] (audience.inject (false, 0))).map
        (fun t => (t.asked audience false, t.asked audience true)) =
      some ([1], [1]) ∧
    Always (Net.step audience [7]) (OnceOnly audience "u") [0, 0]
      (audience.inject (false, 0)) :=
  ⟨by decide, onceOnly_of_clear audience (false, 0) [7] audience_clear [0, 0]⟩

end MediaServer.Ref
