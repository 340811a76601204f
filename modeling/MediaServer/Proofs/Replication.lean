import MediaServer.Proofs.Sink

/-!
# Streams known on two pods

A stand-in is installed and taken out per user, and a stream is announced and
withdrawn per stream. So when a user publishes a second stream, the other pod
replaces the stand-in that had the first one, and when one of two streams
stops, it takes out both. Nothing brings the lost stream back: the two pods
then disagree for good, with no message under way.

As long as the user publishes one stream at a time the pods do agree. The
pair is then a `Mirror`: the streams told and ready on the one pod, the
stand-in on the other, and the two queues between them; each step of the pair
is one of the steps of the mirror.
-/

namespace MediaServer.Ref

open MediaServer.Lib

variable {rid u k : String} {m : JsonParser} {p : Pod}

theorem mem_published {f : Peer → Bool} : k ∈ p.published rid u f ↔
    ∃ s x, p.seat rid u = some s ∧ p.entry .publisher s k = some x ∧
      f (p.peer x) = true := by
  unfold Pod.published
  split
  · next s hs =>
      rw [List.mem_map, hs]
      constructor
      · rintro ⟨⟨l, x⟩, he, rfl⟩
        obtain ⟨he, hf⟩ := List.mem_filter.mp he
        exact ⟨s, x, rfl, GoMap.mem_entries.mp he, hf⟩
      · rintro ⟨s', x, hs', hx, hf⟩
        cases hs'
        exact ⟨⟨k, x⟩, List.mem_filter.mpr ⟨GoMap.mem_entries.mpr hx, hf⟩, rfl⟩
  · next hs =>
      rw [hs]
      simp

theorem mem_published_iff_up (hp : Sound p) :
    k ∈ p.published rid u (·.isReady) ↔ p.Up rid u k := by
  rw [mem_published, ← hp.isUp_iff_up, isUp_iff]
  constructor
  · rintro ⟨s, x, hs, hx, hr⟩
    exact ⟨s, hs, readyAt_iff.mpr ⟨x, hx, hr⟩⟩
  · rintro ⟨s, hs, hr⟩
    obtain ⟨x, hx, hr⟩ := readyAt_iff.mp hr
    exact ⟨s, x, hs, hx, hr⟩

theorem mem_published_of_publishes (hp : Sound p) (h : p.Publishes rid u k) :
    k ∈ p.published rid u fun _ => true := by
  obtain ⟨s, x, ⟨hr, hu⟩, hx⟩ := h
  have hseat := hp.seat_of_entry hx
  rw [hr, hu] at hseat
  exact mem_published.mpr ⟨s, x, hseat, hx, rfl⟩

theorem mem_published_iff_copy : k ∈ p.published rid u (fun _ => true) ↔
    ∃ ks, p.copy rid u = some ks ∧ k ∈ ks := by
  rw [mem_published]
  constructor
  · rintro ⟨s, x, hs, hx, -⟩
    refine ⟨_, by rw [Pod.copy, hs]; rfl, ?_⟩
    rw [Set.mem_ofPred_eq, hx]
    exact Option.some_ne_none x
  · rintro ⟨ks, hks, hk⟩
    obtain ⟨s, hs, rfl⟩ := Option.map_eq_some_iff.mp hks
    obtain ⟨x, hx⟩ := Option.ne_none_iff_exists'.mp hk
    exact ⟨s, x, hs, hx, rfl⟩

/-! ## The condition -/

/-- The message names user `u` of room `rid`. -/
def names (rid u : String) (m : JsonParser) : Bool :=
  getValue m .roomId = rid ∧ getValue m .sessID = u

/-- A message that pods send to each other. -/
def crossing (m : JsonParser) : Bool := (command m).any Cmd.crosses

/-- A publisher of user `u` loses its connection for good. -/
def Pod.breaks (p : Pod) (rid u : String) : Input → Bool
  | .ice x st => (st = .failed ∨ st = .closed) ∧
      (p.peer x).role = .publisher ∧ (p.peer x).userid = u ∧
      p.roomidOf x = rid
  | _ => false

namespace Pair

/-- Messages between the pods come over the queues only, and the user's own
messages go to the first pod. There they publish a stream only if they have
none under another id. Both pods are registered when they handle a message of
the other, and the peers that the streams need are created; none of the
connections on the second pod fails, and it is not asked for the user's
streams. -/
def Orderly (rid u : String) (t : Pair) : Act → Prop
  | .onA _ a => ∀ m ∈ a.msg?, crossing m = false ∧
      (command m = some .push → names rid u m = true →
        ∀ l ∈ t.a.published rid u (fun _ => true), l = getValue m .peerID)
  | .onB _ a => t.b.breaks rid u a = false ∧
      ∀ m ∈ a.msg?, crossing m = false ∧ names rid u m = false
  | .recvA env => t.a.regist = true ∧ ∀ m ∈ t.toA.head?,
      command m = some .fakeSubscribe → names rid u m = true →
        env.createOk = true
  | .recvB env => t.b.regist = true ∧ ∀ m ∈ t.toB.head?,
      names rid u m = true → command m ≠ some .fakeSubscribe ∧
        (command m = some .fakeOffer → env.createOk = true)

instance (rid u : String) (t : Pair) : DecidablePred (Orderly rid u t)
  | .onA _ _ => by unfold Orderly; infer_instance
  | .onB _ _ => by unfold Orderly; infer_instance
  | .recvA _ => by unfold Orderly; infer_instance
  | .recvB _ => by unfold Orderly; infer_instance

/-- Everything sent was handled, and both pods are at rest. -/
def Settled (t : Pair) : Prop :=
  t.toA = [] ∧ t.toB = [] ∧ t.a.pending = [] ∧ t.b.pending = [] ∧
    t.a.fatal = false ∧ t.b.fatal = false

instance (t : Pair) : Decidable t.Settled := by
  unfold Settled
  infer_instance

/-- At rest, if somebody is logged in to the room on the second pod, the user's
publishers there are their ready publishers on the first. -/
def Converged (rid u : String) (t : Pair) : Prop :=
  t.Settled → (∃ v, t.b.isIn rid v = true) →
    ∀ k, k ∈ t.b.published rid u (fun _ => true) ↔
      k ∈ t.a.published rid u (·.isReady)

/-! ## The pair as a mirror -/

def mirror (rid u : String) (t : Pair) : Mirror String where
  told := {k | Marks t.a rid u k}
  live := {k | t.a.Up rid u k}
  words := t.toB.filterMap (word rid u)
  requests := t.toA.filterMap (request rid u)
  sink := t.b.sink rid u
  closing := .releaseRoom rid ∈ t.b.pending

structure Replicates (rid u : String) (t : Pair) : Prop where
  home : Home rid u t.a
  away : Away t.a.conf.uuid rid u t.b
  ids : t.a.conf.uuid ≠ t.b.conf.uuid
  toA : ∀ m ∈ t.toA, Spoken t.b.conf.uuid m ∧ word rid u m = none
  toB : ∀ m ∈ t.toB, Spoken t.a.conf.uuid m
  ok : (t.mirror rid u).Ok

theorem Replicates.converged {t : Pair} (h : Replicates rid u t) :
    t.Converged rid u := by
  rintro ⟨htoA, htoB, hpa, hpb, -, -⟩ ⟨v, hv⟩ k
  obtain ⟨r, hr⟩ : ∃ r, t.b.rooms.lookup rid = some r := by
    unfold Pod.isIn at hv
    split at hv
    · next s hs =>
        obtain ⟨r, hr, -⟩ := seat_eq_some.mp hs
        exact ⟨r, hr⟩
    · cases hv
  have hset := h.ok.settled (v := t.b.copy rid u)
    (by simp only [mirror, htoB, List.filterMap_nil])
    (by simp only [mirror, htoA, List.filterMap_nil])
    (by simp only [mirror, hpb, List.not_mem_nil, not_false_eq_true])
    (sink_of_room hr) fun k hk => h.home.up_of_marks hpa hk
  rw [mem_published_iff_copy, mem_published_iff_up h.home.toSound]
  exact Set.ext_iff.mp hset k

/-! ## What the condition gives the pods -/

variable {t t' : Pair} {env : Env} {a : Input} {ms : List JsonParser}

theorem names_iff :
    names rid u m = true ↔ getValue m .roomId = rid ∧ getValue m .sessID = u :=
  decide_eq_true_iff

theorem word_of_not_names (h : names rid u m = false) :
    word rid u m = none :=
  if_neg (of_decide_eq_false h)

theorem Orderly.atHome (h : Orderly rid u t (.onA env a)) (hp : Sound t.a) :
    AtHome rid u t.a a := by
  rintro m rfl hrid hu
  obtain ⟨hcross, hpush⟩ := h m rfl
  refine ⟨fun hc => ?_, fun hc => ?_, fun hc l hl => ?_⟩
  · rw [crossing, hc] at hcross; cases hcross
  · rw [crossing, hc] at hcross; cases hcross
  · exact hpush hc (names_iff.mpr ⟨hrid, hu⟩) l
      (mem_published_of_publishes hp hl)

/-- Nothing that came from the second pod is news about the user. -/
theorem atHome_of_spoken {uuid : String} (h : Spoken uuid m)
    (hw : word rid u m = none) : AtHome rid u p (.message m) := by
  rintro m' ⟨⟩ hrid hu
  rw [word, if_pos ⟨hrid, hu⟩] at hw
  refine ⟨fun hc => ?_, fun hc => ?_, fun hc => ?_⟩
  · rw [hc] at hw; cases hw
  · rw [hc] at hw; cases hw
  · obtain ⟨-, c, hc', hcross, -⟩ := h
    rw [hc] at hc'
    cases hc'
    cases hcross

theorem Orderly.abroad {src : String} (h : Orderly rid u t (.onB env a)) :
    Abroad src rid u t.b a where
  named := by
    rintro m rfl hrid hu
    have hn := (h.2 m rfl).2
    rw [names_iff.mpr ⟨hrid, hu⟩] at hn
    cases hn
  asked := by
    rintro m rfl hc
    have hcross := (h.2 m rfl).1
    rw [crossing, hc] at hcross
    cases hcross
  up := by
    rintro x st rfl hst hrole hu hrid
    exact of_decide_eq_false h.1 ⟨hst, hrole, hu, hrid⟩

theorem Orderly.abroad_of_spoken (h : Orderly rid u t (.recvB env))
    (ht : t.toB = m :: ms) (hsp : Spoken t.a.conf.uuid m) :
    Abroad t.a.conf.uuid rid u t.b (.message m) where
  named := by
    rintro m' ⟨⟩ hrid hu
    rw [Orderly, ht] at h
    exact ⟨hsp, (h.2 m rfl (names_iff.mpr ⟨hrid, hu⟩)).1⟩
  asked := by
    rintro m' ⟨⟩ hc
    obtain ⟨-, c, hc', -, hsrc⟩ := hsp
    rw [hc] at hc'
    cases hc'
    exact hsrc rfl
  up := nofun

/-! ## The steps of the pair -/

namespace Replicates

/-- The first pod does something that needs no answer or gives one. -/
theorem movedA (ms : List JsonParser) (h : Replicates rid u t)
    (hin : AtHome rid u t.a a) (hs : Pod.step (env, a) t.a = some p)
    (hf : p.fatal = false)
    (hsrc : ∀ m, a = .message m → command m = some .fakeSubscribe →
      getValue m .srcSessID = getValue m .sessID)
    (hsub : ∀ m ∈ ms, m ∈ t.toA)
    (hreq : ∀ rq ∈ t.toA.filterMap (request rid u),
      rq ∈ ms.filterMap (request rid u) ∨
        Mirror.Answers {k | p.Up rid u k}
          ((sentTo t.b.conf.uuid t.a p).filterMap (word rid u)) rq) :
    Replicates rid u (Pair.movedA { t with toA := ms } p) := by
  have hid := step_uuid h.home.toInOrder hs
  refine ⟨h.home.step hin hs, ?_, ?_, fun m hm => h.toA m (hsub m hm), ?_, ?_⟩
  · exact (congrArg (Away · rid u t.b) hid).mpr h.away
  · exact (congrArg (· ≠ t.b.conf.uuid) hid).mpr h.ids
  · intro m hm
    refine (congrArg (Spoken · m) hid).mpr ?_
    rcases List.mem_append.mp hm with hm | hm
    · exact h.toB m hm
    · exact step_spoken h.home.toInOrder hs m hm
  · have hok := h.ok.said (h.home.spoken hin hs hf hsrc) hreq
    simpa only [mirror, Pair.movedA, List.filterMap_append] using hok

/-- The second pod does something, and the stand-in with it. -/
theorem movedB (ms : List JsonParser) (h : Replicates rid u t)
    (hin : Abroad t.a.conf.uuid rid u t.b a)
    (hs : Pod.step (env, a) t.b = some p) (hf : p.fatal = false)
    (hsub : ∀ m ∈ ms, m ∈ t.toB)
    (hok : (mirror rid u (Pair.movedB { t with toB := ms } p)).Ok) :
    Replicates rid u (Pair.movedB { t with toB := ms } p) := by
  have hid := step_uuid h.away.toInOrder hs
  refine ⟨h.home, h.away.step hin hs, ?_, ?_,
    fun m hm => h.toB m (hsub m hm), hok⟩
  · exact (congrArg (t.a.conf.uuid ≠ ·) hid).mpr h.ids
  · intro m hm
    refine (congrArg (fun i => Spoken i m ∧ word rid u m = none) hid).mpr ?_
    rcases List.mem_append.mp hm with hm | hm
    · exact h.toA m hm
    · exact ⟨step_spoken h.away.toInOrder hs m hm,
        h.away.silent hin hs hf m hm⟩

theorem onA (h : Replicates rid u t) (ho : Orderly rid u t (.onA env a))
    (hs : Pod.step (env, a) t.a = some p) (hf : p.fatal = false) :
    Replicates rid u (Pair.movedA t p) := by
  refine h.movedA t.toA (ho.atHome h.home.toSound) hs hf ?_
    (fun _ hm => hm) fun _ hrq => .inl hrq
  rintro m rfl hc
  have hcross := (ho m rfl).1
  rw [crossing, hc] at hcross
  cases hcross

/-- What the second pod asks of the user is answered. -/
theorem answered {rq : Request String} (h : Replicates rid u t)
    (ho : Orderly rid u t (.recvA env)) (ht : t.toA = m :: ms)
    (hs : Pod.step (env, .message m) t.a = some p) (hf : p.fatal = false)
    (hrq : request rid u m = some rq) :
    Mirror.Answers {k | p.Up rid u k}
      ((sentTo t.b.conf.uuid t.a p).filterMap (word rid u)) rq := by
  rw [Orderly, ht] at ho
  obtain ⟨⟨hpod, c, hc, -, hsrc⟩, -⟩ := h.toA m (ht ▸ List.mem_cons_self)
  unfold request at hrq
  split at hrq
  · next hrid =>
      split at hrq
      · next hcreated =>
          split at hrq
          · cases hrq
          · next hu =>
              cases hrq
              exact h.home.answers_created hs rfl hcreated ho.1 hpod
                (Ne.symm h.ids) hrid hu
      · next hasks =>
          split at hrq
          · next hu =>
              cases hrq
              rw [hasks] at hc
              cases hc
              exact h.home.answers_subscribed hs hf rfl hasks (hsrc rfl) ho.1
                (ho.2 m rfl hasks (names_iff.mpr ⟨hrid, hu⟩)) hpod hrid hu
          · cases hrq
      · cases hrq
  · cases hrq

theorem recvA (h : Replicates rid u t) (ho : Orderly rid u t (.recvA env))
    (ht : t.toA = m :: ms) (hs : Pod.step (env, .message m) t.a = some p)
    (hf : p.fatal = false) :
    Replicates rid u (Pair.movedA { t with toA := ms } p) := by
  obtain ⟨hsp, hw⟩ := h.toA m (ht ▸ List.mem_cons_self)
  refine h.movedA ms (atHome_of_spoken hsp hw) hs hf ?_
    (fun _ hm => ht ▸ List.mem_cons_of_mem _ hm) fun rq hrq => ?_
  · rintro m' ⟨⟩ hc
    obtain ⟨-, c, hc', -, hsrc⟩ := hsp
    rw [hc] at hc'
    cases hc'
    exact hsrc rfl
  · obtain ⟨m', hm', hrq⟩ := List.mem_filterMap.mp hrq
    rw [ht] at hm'
    rcases List.mem_cons.mp hm' with rfl | hm'
    · exact .inr (h.answered ho ht hs hf hrq)
    · exact .inl (List.mem_filterMap.mpr ⟨m', hm', hrq⟩)

/-- A step of the second pod that hears no word. -/
theorem ok_of_turns (h : Replicates rid u t)
    (hin : Abroad t.a.conf.uuid rid u t.b a)
    (hnw : ∀ m, a = .message m → word rid u m = none)
    (hs : Pod.step (env, a) t.b = some p)
    (hms : ms.filterMap (word rid u) = t.toB.filterMap (word rid u)) :
    (mirror rid u (Pair.movedB { t with toB := ms } p)).Ok := by
  rw [mirror, Pair.movedB, List.filterMap_append, hms]
  exact h.ok.turns (h.away.turns hin hnw hs)

theorem onB (h : Replicates rid u t) (ho : Orderly rid u t (.onB env a))
    (hs : Pod.step (env, a) t.b = some p) (hf : p.fatal = false) :
    Replicates rid u (Pair.movedB t p) := by
  refine h.movedB t.toB ho.abroad hs hf (fun _ hm => hm)
    (h.ok_of_turns ho.abroad ?_ hs rfl)
  rintro m rfl
  exact word_of_not_names (ho.2 m rfl).2

theorem recvB (h : Replicates rid u t) (ho : Orderly rid u t (.recvB env))
    (ht : t.toB = m :: ms) (hs : Pod.step (env, .message m) t.b = some p)
    (hf : p.fatal = false) :
    Replicates rid u (Pair.movedB { t with toB := ms } p) := by
  have hsp := h.toB m (ht ▸ List.mem_cons_self)
  have hin := ho.abroad_of_spoken ht hsp
  refine h.movedB ms hin hs hf (fun _ hm => ht ▸ List.mem_cons_of_mem _ hm) ?_
  cases hw : word rid u m with
  | none =>
      refine h.ok_of_turns hin ?_ hs (by rw [ht, List.filterMap_cons, hw])
      rintro m' ⟨⟩
      exact hw
  | some w =>
      rw [Orderly, ht] at ho
      have hname : names rid u m = true := by
        by_contra hn
        rw [word_of_not_names (Bool.eq_false_of_not_eq_true hn)] at hw
        cases hw
      have hwords : (t.mirror rid u).words =
          w :: ms.filterMap (word rid u) := by
        rw [mirror, ht, List.filterMap_cons, hw]
      have hok := h.ok.hears hwords
        (h.away.hears hs rfl hw hsp h.ids ho.1 (ho.2 m rfl hname).2)
      simpa only [mirror, Pair.movedB, List.filterMap_append] using hok

end Replicates

/-- One of the pods is gone, or the pair is a mirror. -/
def Ok (rid u : String) (t : Pair) : Prop :=
  t.a.fatal = false → t.b.fatal = false → Replicates rid u t

theorem step_ok {b : Act} (h : Ok rid u t) (ho : Orderly rid u t b)
    (hs : step b t = some t') : Ok rid u t' := by
  cases b with
  | onA env a =>
      obtain ⟨q, hq, rfl⟩ := Option.map_eq_some_iff.mp hs
      exact fun ha hb => (h (step_fatal hq) hb).onA ho hq ha
  | onB env a =>
      obtain ⟨q, hq, rfl⟩ := Option.map_eq_some_iff.mp hs
      exact fun ha hb => (h ha (step_fatal hq)).onB ho hq hb
  | recvA env =>
      rw [step] at hs
      split at hs
      · cases hs
      · next ht =>
          obtain ⟨q, hq, rfl⟩ := Option.map_eq_some_iff.mp hs
          exact fun ha hb => (h (step_fatal hq) hb).recvA ho ht hq ha
  | recvB env =>
      rw [step] at hs
      split at hs
      · cases hs
      · next ht =>
          obtain ⟨q, hq, rfl⟩ := Option.map_eq_some_iff.mp hs
          exact fun ha hb => (h ha (step_fatal hq)).recvB ho ht hq hb

theorem createRoomMgr_home (conf : Config) :
    Home rid u (Pod.createRoomMgr conf) where
  toInOrder := createRoomMgr_inOrder conf
  rooted := createRoomMgr_rooted conf
  marked _ := nofun
  owing _ _ _ hx := by cases hx.1
  origin _ hs := absurd hs (Nat.not_lt_zero _)
  single _ _ hk := by
    obtain ⟨s, x, -, hx⟩ := hk
    cases hx

theorem createRoomMgr_away {src : String} (conf : Config) :
    Away src rid u (Pod.createRoomMgr conf) where
  toInOrder := createRoomMgr_inOrder conf
  rooted := createRoomMgr_rooted conf
  blank _ _ := rfl
  guest _ hs := absurd hs (Nat.not_lt_zero _)
  calm := nofun

theorem init_ok {confA confB : Config} (hne : confA.uuid ≠ confB.uuid) :
    Ok rid u (init confA confB) := by
  refine fun _ _ => ⟨createRoomMgr_home confA, createRoomMgr_away confB, hne,
    nofun, nofun, nofun, ?_⟩
  rintro k ⟨s, x, -, hx, -⟩
  cases hx

/-- At rest the two pods agree on the user's streams, in every run in which
one stream is published at a time. -/
theorem converged_of_orderly {confA confB : Config} {as : List Act}
    (hne : confA.uuid ≠ confB.uuid)
    (h : Guarded step (Orderly rid u) as (init confA confB)) :
    Always step (Converged rid u) as (init confA confB) := by
  have hok : Always step (Ok rid u) as (init confA confB) :=
    always_of_guarded (fun _ _ _ hok ho hs => step_ok hok ho hs) h
      (init_ok hne)
  refine hok.mono fun t ht hset => ?_
  exact (ht hset.2.2.2.2.1 hset.2.2.2.2.2).converged hset

/-- User `u` logs in on one pod and `w` on the other. -/
def bothIn : List Act :=
  [.onA Env.calm .setSendMessageHandler, .onB Env.calm .setSendMessageHandler,
    .onA Env.calm (.message (Cmd.login.msg [(.roomId, "R"), (.sessID, "u")])),
    .onB Env.calm (.message (Cmd.login.msg [(.roomId, "R"), (.sessID, "w")])),
    .recvA Env.calm, .recvB Env.calm]

/-- User `u` publishes a stream, its connection comes up, and all messages
between the pods are handled. -/
def publishes (pid : String) (x : PeerRef) : List Act :=
  [.onA Env.calm (.message (Cmd.push.msg
      [(.roomId, "R"), (.sessID, "u"), (.peerID, pid)])),
    .onA Env.calm (.message (Cmd.offer.msg
      [(.roomId, "R"), (.sessID, "u"), (.peerID, pid)])),
    .onA Env.calm (.ice x .connected), .onA Env.calm (.go 0),
    .recvB Env.calm, .recvA Env.calm, .recvB Env.calm, .recvA Env.calm]

def pods : Pair := init (Config.standalone "podA") (Config.standalone "podB")

/-- The stream's connection fails, and the other pod hears of it. -/
def loses (x : PeerRef) : List Act :=
  [.onA Env.calm (.ice x .failed), .onA Env.calm (.go 0), .recvB Env.calm]

/-- A second stream takes the place of the first on the other pod. -/
theorem second_stream_replaces_first :
    ∃ t, run step (bothIn ++ publishes "1" 0 ++ publishes "2" 2) pods =
        some t ∧
      t.Settled ∧ t.b.isIn "R" "w" = true ∧
      t.a.published "R" "u" (·.isReady) = ["2", "1"] ∧
      t.b.published "R" "u" (fun _ => true) = ["2"] ∧
      ¬t.Converged "R" "u" := by
  have hrun : (run step (bothIn ++ publishes "1" 0 ++ publishes "2" 2)
      pods).map (fun t => decide (t.Settled ∧ t.b.isIn "R" "w" = true ∧
        t.a.published "R" "u" (·.isReady) = ["2", "1"] ∧
        t.b.published "R" "u" (fun _ => true) = ["2"])) = some true := by
    decide
  obtain ⟨t, ht, hdec⟩ := Option.map_eq_some_iff.mp hrun
  obtain ⟨hset, hin, ha, hb⟩ := of_decide_eq_true hdec
  refine ⟨t, ht, hset, hin, ha, hb, fun hconv => ?_⟩
  have hone := (hconv hset ⟨"w", hin⟩ "1").mpr (by rw [ha]; decide)
  rw [hb] at hone
  exact absurd hone (by decide)

/-- If the first is gone before, the pods agree on the second. -/
theorem converged_one_at_a_time :
    let as := bothIn ++ publishes "1" 0 ++ loses 0 ++ publishes "2" 2
    (run step as pods).map (fun t => decide (t.Settled ∧
      t.b.isIn "R" "w" = true ∧
      t.a.published "R" "u" (·.isReady) = ["2"] ∧
      t.b.published "R" "u" (fun _ => true) = ["2"])) = some true ∧
    Always step (Converged "R" "u") as pods :=
  ⟨by decide, converged_of_orderly (by decide) (by decide)⟩

end Pair

end MediaServer.Ref
