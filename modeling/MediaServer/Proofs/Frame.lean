import MediaServer.Ref.Roommgr

/-!
# What the handlers leave alone

Most of a pod is untouched by most of its code. Two relations say so once per
function, and every invariant proof reads what it needs off them.

`SameStore` is about who is where: the rooms, their session maps and the
identity of every session are the same, and no spawned call is lost. Nothing
below `room.HandleMessage` changes these. `Quiet` adds the same for the peers:
every publisher and subscriber map is unchanged, no peer was created and none
destroyed, and no release was spawned. `Asks G` is the same with the releases
in `G` allowed, for the callbacks that spawn one. What remains are the
sections that insert a peer and those that destroy one; `Peers.lean` says what
they do.

The first section is the `simp` set for the primitive operations.
-/

namespace MediaServer.Ref

open MediaServer.Lib

namespace Pod

variable {p q r : Pod} {e : Event} {g : Goroutine} {m : Mutex}

@[simp] theorem emit_conf : (p.emit e).conf = p.conf := by
  unfold emit; split <;> rfl

@[simp] theorem emit_regist : (p.emit e).regist = p.regist := by
  unfold emit; split <;> rfl

@[simp] theorem emit_loops : (p.emit e).loops = p.loops := by
  unfold emit; split <;> rfl

@[simp] theorem emit_rooms : (p.emit e).rooms = p.rooms := by
  unfold emit; split <;> rfl

@[simp] theorem emit_roomHeap : (p.emit e).roomHeap = p.roomHeap := by
  unfold emit; split <;> rfl

@[simp] theorem emit_sessHeap : (p.emit e).sessHeap = p.sessHeap := by
  unfold emit; split <;> rfl

@[simp] theorem emit_peerHeap : (p.emit e).peerHeap = p.peerHeap := by
  unfold emit; split <;> rfl

@[simp] theorem emit_pending : (p.emit e).pending = p.pending := by
  unfold emit; split <;> rfl

@[simp] theorem emit_fatal : (p.emit e).fatal = p.fatal := by
  unfold emit; split <;> rfl

/-- The trace of a single event. -/
theorem emit_log (p : Pod) (e : Event) :
    (p.emit e).log = p.log ++ (if p.fatal then [] else [e]) := by
  unfold emit
  split
  · next h => simp
  · next h => simp

@[simp] theorem emit_room {i : RoomRef} : (p.emit e).room i = p.room i := by
  simp [room]

@[simp] theorem emit_sess {i : SessRef} : (p.emit e).sess i = p.sess i := by
  simp [sess]

@[simp] theorem emit_peer {i : PeerRef} : (p.emit e).peer i = p.peer i := by
  simp [peer]

theorem setRoom_room (p : Pod) (r i : RoomRef) (f : Room → Room) :
    (p.setRoom r f).room i = if i = r then f (p.room i) else p.room i :=
  p.roomHeap.modify_cell r i f

theorem setSess_sess (p : Pod) (s i : SessRef) (f : Session → Session) :
    (p.setSess s f).sess i = if i = s then f (p.sess i) else p.sess i :=
  p.sessHeap.modify_cell s i f

theorem setPeer_peer (p : Pod) (x i : PeerRef) (f : Peer → Peer) :
    (p.setPeer x f).peer i = if i = x then f (p.peer i) else p.peer i :=
  p.peerHeap.modify_cell x i f

end Pod

theorem newEvents_of_append {p q : Pod} {tr : List Event}
    (h : q.log = p.log ++ tr) : newEvents p q = tr := by
  rw [newEvents, h, List.drop_left]

/-! ## Calls that only log -/

def Pod.logged (p : Pod) (tr : List Event) : Pod :=
  { p with log := p.log ++ tr }

/-- The call `f` does nothing but log `tr`, whatever was logged before. -/
def Logs (p : Pod) (f : Pod → Pod) (tr : List Event) : Prop :=
  ∀ l, f (p.logged l) = p.logged (l ++ tr)

section Logs

variable {p : Pod} {f g : Pod → Pod} {tr tr' : List Event}

theorem Pod.logged_nil (p : Pod) : p.logged [] = p := by
  rw [Pod.logged, List.append_nil]

theorem Logs.self (h : Logs p f tr) : f p = p.logged tr := by
  have h := h []
  rwa [Pod.logged_nil, List.nil_append] at h

theorem Logs.newEvents (h : Logs p f tr) : newEvents p (f p) = tr := by
  rw [h.self]
  exact newEvents_of_append rfl

theorem Logs.emit (hp : p.fatal = false) (e : Event) :
    Logs p (Pod.emit · e) [e] := by
  intro l
  simp [Pod.emit, Pod.logged, hp]

theorem Logs.comp (hf : Logs p f tr) (hg : Logs p g tr') :
    Logs p (fun q => g (f q)) (tr ++ tr') := by
  intro l
  dsimp only
  rw [hf, hg, List.append_assoc]

theorem Logs.foldl {α : Type} {f : Pod → α → Pod} {g : α → List Event}
    {l : List α} (hf : ∀ a ∈ l, Logs p (f · a) (g a)) :
    Logs p (l.foldl f ·) (l.flatMap g) := by
  induction l with
  | nil => intro l; simp
  | cons a l ih =>
      have ha := hf a List.mem_cons_self
      have ih := ih fun b hb => hf b (List.mem_cons_of_mem _ hb)
      exact ha.comp ih

/-- A loop that emits one event for each element it picks. -/
theorem Logs.pick {α : Type} {c : Pod → α → Prop} [∀ p a, Decidable (c p a)]
    (f : α → Event) (l : List α) (hp : p.fatal = false)
    (hc : ∀ tr a, c (p.logged tr) a ↔ c p a) :
    Logs p (l.foldl (fun p a => if c p a then p.emit (f a) else p) ·)
      ((l.filter (c p ·)).map f) := by
  have hpicks : (l.filter (c p ·)).map f =
      l.flatMap fun a => if c p a then [f a] else [] := by
    induction l with
    | nil => rfl
    | cons a l ih =>
        by_cases ha : c p a
        · simp [ha, ih]
        · simp [ha, ih]
  rw [hpicks]
  refine Logs.foldl fun a _ tr => ?_
  simp only [hc]
  split
  · exact Logs.emit hp (f a) tr
  · rw [List.append_nil]

end Logs

/-! ## The two relations -/

/-- The fields of a session that are fixed when it enters its room. -/
def Session.ident (t : Session) :
    String × String × String × String × Bool × RoomRef :=
  (t.userid, t.username, t.clusterid, t.podid, t.origin, t.parent)

/-- The fields of a peer that are fixed when it is created. -/
def Peer.ident (q : Peer) :
    String × String × String × Role × Bool × SessRef × Option Sdp :=
  (q.userid, q.remoteuserid, q.peerid, q.role, q.isFake, q.parent,
    q.publishersdp)

theorem Peer.ident_eq {a b : Peer} (h : a.ident = b.ident) :
    a.userid = b.userid ∧ a.remoteuserid = b.remoteuserid ∧
      a.peerid = b.peerid ∧ a.role = b.role ∧ a.isFake = b.isFake ∧
      a.parent = b.parent ∧ a.publishersdp = b.publishersdp := by
  simpa [Peer.ident] using h

/-- Nobody entered or left a room, and no spawned call was lost. -/
structure SameStore (p q : Pod) : Prop where
  rooms : q.rooms = p.rooms
  roomHeap : q.roomHeap = p.roomHeap
  sessNext : q.sessHeap.next = p.sessHeap.next
  ident : ∀ s, (q.sess s).ident = (p.sess s).ident
  pending : p.pending <+: q.pending
  uuid : q.conf.uuid = p.conf.uuid
  fatal : p.fatal = true → q.fatal = true

/-- The spawned calls that remove a peer by its key. -/
def Goroutine.isRelease : Goroutine → Bool
  | .onPublisherPeerFailed .. | .onPublisherPeerClosed ..
  | .onSubscriberPeerFailed .. | .onSubscriberPeerClosed ..
  | .releaseSubscriberPeer .. => true
  | _ => false

/-- In addition no peer was created, destroyed or moved, and only releases in
`G` were spawned. -/
structure Asks (G : Goroutine → Prop) (p q : Pod) : Prop
    extends SameStore p q where
  pubs : ∀ s, (q.sess s).publishers = (p.sess s).publishers
  subs : ∀ s, (q.sess s).subscribers = (p.sess s).subscribers
  peerNext : q.peerHeap.next = p.peerHeap.next
  peerIdent : ∀ x, (q.peer x).ident = (p.peer x).ident
  closed : ∀ x, (q.peer x).closed = (p.peer x).closed
  spawned : ∀ g ∈ q.pending, g.isRelease = true → g ∈ p.pending ∨ G g

/-- No release was spawned either. -/
abbrev Quiet (p q : Pod) : Prop := Asks (fun _ => False) p q

theorem SameStore.refl (p : Pod) : SameStore p p :=
  ⟨rfl, rfl, rfl, fun _ => rfl, List.prefix_refl _, rfl, id⟩

theorem SameStore.trans {p q r : Pod} (h : SameStore p q)
    (h' : SameStore q r) : SameStore p r where
  rooms := h'.rooms.trans h.rooms
  roomHeap := h'.roomHeap.trans h.roomHeap
  sessNext := h'.sessNext.trans h.sessNext
  ident s := (h'.ident s).trans (h.ident s)
  pending := h.pending.trans h'.pending
  uuid := h'.uuid.trans h.uuid
  fatal hp := h'.fatal (h.fatal hp)

theorem Asks.refl {G : Goroutine → Prop} (p : Pod) : Asks G p p :=
  { SameStore.refl p with
    pubs := fun _ => rfl
    subs := fun _ => rfl
    peerNext := rfl
    peerIdent := fun _ => rfl
    closed := fun _ => rfl
    spawned := fun _ hg _ => .inl hg }

theorem Asks.trans {G : Goroutine → Prop} {p q r : Pod} (h : Asks G p q)
    (h' : Asks G q r) : Asks G p r :=
  { h.toSameStore.trans h'.toSameStore with
    pubs := fun s => (h'.pubs s).trans (h.pubs s)
    subs := fun s => (h'.subs s).trans (h.subs s)
    peerNext := h'.peerNext.trans h.peerNext
    peerIdent := fun x => (h'.peerIdent x).trans (h.peerIdent x)
    closed := fun x => (h'.closed x).trans (h.closed x)
    spawned := fun g hg hr => by
      rcases h'.spawned g hg hr with hq | hG
      · exact h.spawned g hq hr
      · exact .inr hG }

theorem Asks.mono {G G' : Goroutine → Prop} {p q : Pod} (h : Asks G p q)
    (hG : ∀ g, G g → G' g) : Asks G' p q :=
  { h with
    spawned := fun g hg hr => (h.spawned g hg hr).imp_right (hG g) }

theorem Asks.any {G : Goroutine → Prop} {p q : Pod} (h : Quiet p q) :
    Asks G p q := h.mono fun _ => False.elim

/-- A loop whose every turn is quiet is quiet. -/
theorem Asks.foldl {α : Type} {f : Pod → α → Pod}
    {G : Goroutine → Prop} (hf : ∀ p a, Asks G p (f p a)) (l : List α)
    (p : Pod) : Asks G p (l.foldl f p) := by
  induction l generalizing p with
  | nil => exact .refl p
  | cons a l ih => exact (hf p a).trans (ih (f p a))

theorem SameStore.foldl {α : Type} {f : Pod → α → Pod}
    (hf : ∀ p a, SameStore p (f p a)) (l : List α) (p : Pod) :
    SameStore p (l.foldl f p) := by
  induction l generalizing p with
  | nil => exact .refl p
  | cons a l ih => exact (hf p a).trans (ih (f p a))

namespace SameStore

variable {p q : Pod}

theorem room (h : SameStore p q) (r : RoomRef) : q.room r = p.room r := by
  simp only [Pod.room, h.roomHeap]

theorem userid (h : SameStore p q) (s : SessRef) :
    (q.sess s).userid = (p.sess s).userid := congrArg (·.1) (h.ident s)

theorem origin (h : SameStore p q) (s : SessRef) :
    (q.sess s).origin = (p.sess s).origin := congrArg (·.2.2.2.2.1) (h.ident s)

theorem parent (h : SameStore p q) (s : SessRef) :
    (q.sess s).parent = (p.sess s).parent := congrArg (·.2.2.2.2.2) (h.ident s)

end SameStore

/-! ## Primitive operations -/

namespace Pod

variable {p q : Pod} {e : Event} {g : Goroutine} {m : Mutex}

theorem emit_quiet (p : Pod) (e : Event) : Quiet p (p.emit e) where
  rooms := emit_rooms
  roomHeap := emit_roomHeap
  sessNext := by simp
  ident s := by simp
  pending := by simp
  uuid := by simp
  fatal := by simp
  pubs s := by simp
  subs s := by simp
  peerNext := by simp
  peerIdent x := by simp
  closed x := by simp
  spawned g hg _ := .inl (by simpa using hg)

theorem throw_quiet (p : Pod) : Quiet p p.throw :=
  { Asks.refl p with fatal := fun _ => rfl }

theorem getSn_quiet (p : Pod) : Quiet p p.getSn := { Asks.refl p with }

theorem go_asks {G : Goroutine → Prop} (p : Pod)
    (hg : g.isRelease = true → G g) : Asks G p (p.go g) :=
  { Asks.refl (G := G) p with
    pending := List.prefix_append _ _
    spawned := fun i hi hr => by
      rcases List.mem_append.mp hi with h | h
      · exact .inl h
      · cases List.mem_singleton.mp h; exact .inr (hg hr) }

theorem go_quiet (p : Pod) (hg : g.isRelease = false) : Quiet p (p.go g) :=
  p.go_asks fun h => by rw [hg] at h; cases h

/-- A write to the working fields of a peer. -/
theorem setPeer_quiet (p : Pod) (x : PeerRef) {f : Peer → Peer}
    (hf : ∀ t, (f t).ident = t.ident ∧ (f t).closed = t.closed) :
    Quiet p (p.setPeer x f) :=
  { Asks.refl p with
    peerIdent := fun y => by
      rw [setPeer_peer]
      split
      · exact (hf _).1
      · rfl
    closed := fun y => by
      rw [setPeer_peer]
      split
      · exact (hf _).2
      · rfl }

theorem setPeer_sameStore (p : Pod) (x : PeerRef) (f : Peer → Peer) :
    SameStore p (p.setPeer x f) := { SameStore.refl p with }

/-- A write to a session other than to its maps. -/
theorem setSess_quiet (p : Pod) (s : SessRef) {f : Session → Session}
    (hf : ∀ t, (f t).ident = t.ident ∧ (f t).publishers = t.publishers ∧
      (f t).subscribers = t.subscribers) : Quiet p (p.setSess s f) :=
  { Asks.refl p with
    ident := fun i => by
      rw [setSess_sess]
      split
      · exact (hf _).1
      · rfl
    pubs := fun i => by
      rw [setSess_sess]
      split
      · exact (hf _).2.1
      · rfl
    subs := fun i => by
      rw [setSess_sess]
      split
      · exact (hf _).2.2
      · rfl }

theorem setSess_sameStore (p : Pod) (s : SessRef) {f : Session → Session}
    (hid : ∀ t, (f t).ident = t.ident) : SameStore p (p.setSess s f) :=
  { SameStore.refl p with
    ident := fun i => by
      rw [setSess_sess]
      split
      · exact hid _
      · rfl }

theorem erasePublisher_sameStore (p : Pod) (s : SessRef) (pid : String) :
    SameStore p (p.erasePublisher s pid) := p.setSess_sameStore s fun _ => rfl

theorem eraseSubscriber_sameStore (p : Pod) (s : SessRef) (key : String) :
    SameStore p (p.eraseSubscriber s key) := p.setSess_sameStore s fun _ => rfl

theorem waitChecks_quiet (p : Pod) (s : SessRef) : Quiet p (p.waitChecks s) :=
  p.setSess_quiet s fun _ => ⟨rfl, rfl, rfl⟩

theorem destroy_sameStore (p : Pod) (x : PeerRef) :
    SameStore p (p.destroy x) := by
  have h : SameStore p ((p.emit (.destroy x)).setPeer x
      fun q => { q with closed := q.closed + 1 }) :=
    (p.emit_quiet _).toSameStore.trans (setPeer_sameStore _ x _)
  unfold destroy
  dsimp only
  split
  · exact h.trans (throw_quiet _).toSameStore
  · exact h

/-! ## `peer.go` -/

theorem setCachedCandidates_quiet (p : Pod) (x : PeerRef) :
    Quiet p (p.setCachedCandidates x) :=
  p.setPeer_quiet x fun _ => ⟨rfl, rfl⟩

theorem offerTo_quiet {env : Env} {x : PeerRef} {send : Pod → Pod}
    (hs : ∀ p, Quiet p (send p)) (p : Pod) : Quiet p (p.offerTo env x send) := by
  unfold offerTo
  split
  · exact p.throw_quiet
  · split
    · refine Asks.trans ?_ (hs _)
      exact p.setPeer_quiet x fun _ => ⟨rfl, rfl⟩
    · exact p.throw_quiet

theorem answerTo_quiet {env : Env} {x : PeerRef} {send : Pod → Pod}
    (hs : ∀ p, Quiet p (send p)) (p : Pod) :
    Quiet p (p.answerTo env x send) := by
  unfold answerTo
  split
  · refine Asks.trans (Asks.trans ?_ (setCachedCandidates_quiet _ x)) (hs _)
    exact p.setPeer_quiet x fun _ => ⟨rfl, rfl⟩
  · exact p.throw_quiet

theorem handleRemoteAnswer_quiet (env : Env) (x : PeerRef) (p : Pod) :
    Quiet p (p.handleRemoteAnswer env x) := by
  unfold handleRemoteAnswer
  split
  · refine Asks.trans ?_ (setCachedCandidates_quiet _ x)
    exact p.setPeer_quiet x fun _ => ⟨rfl, rfl⟩
  · exact p.throw_quiet

theorem handleRemoteCandidate_quiet (env : Env) (x : PeerRef)
    (j : JsonParser) (p : Pod) : Quiet p (p.handleRemoteCandidate env x j) := by
  unfold handleRemoteCandidate
  split
  · exact p.setPeer_quiet x fun _ => ⟨rfl, rfl⟩
  · split
    · exact p.setPeer_quiet x fun _ => ⟨rfl, rfl⟩
    · exact p.throw_quiet

theorem peerHandleMessage_quiet (env : Env) (x : PeerRef) (j : JsonParser)
    (p : Pod) : Quiet p (p.peerHandleMessage env x j) := by
  unfold peerHandleMessage
  split
  · exact offerTo_quiet (fun p => p.emit_quiet _) p
  · exact answerTo_quiet (fun p => p.emit_quiet _) p
  · exact handleRemoteAnswer_quiet env x p
  · exact handleRemoteCandidate_quiet env x j p
  · exact offerTo_quiet (fun p => p.emit_quiet _) p
  · exact answerTo_quiet (fun p => p.emit_quiet _) p
  · exact handleRemoteAnswer_quiet env x p
  · exact handleRemoteCandidate_quiet env x j p
  · exact .refl p

/-! ## `session.go` -/

theorem notifyStopPush_quiet (r : RoomRef) (origin : Bool) (sid pid : String)
    (p : Pod) : Quiet p (p.notifyStopPush r origin sid pid) := by
  unfold notifyStopPush
  have hloop : ∀ (p : Pod) (a : (_ : String) × SessRef),
      Quiet p (if (p.sess a.2).origin then
        p.emit (.toClient (p.sess a.2).userid
          [(.cmd, .str Cmd.unpub.text),
            (.roomId, .str (p.room r).roomid),
            (.sessID, .str sid),
            (.peerID, .str pid)])
      else p) := by
    intro p a
    split
    · exact p.emit_quiet _
    · exact .refl p
  dsimp only
  split
  · exact (Asks.foldl hloop _ p).trans (emit_quiet _ _)
  · exact Asks.foldl hloop _ p

theorem stopNotify_quiet (s : SessRef) (x : PeerRef) (pid : String) (p : Pod) :
    Quiet p (p.stopNotify s x pid) := by
  unfold stopNotify
  split
  · refine Asks.trans ?_ (notifyStopPush_quiet _ _ _ _ _)
    exact p.setPeer_quiet x fun _ => ⟨rfl, rfl⟩
  · exact .refl p

theorem dropPublisher_sameStore (s : SessRef) (x : PeerRef) (pid : String)
    (p : Pod) : SameStore p (p.dropPublisher s x pid) :=
  ((p.stopNotify_quiet s x pid).toSameStore.trans
    (destroy_sameStore _ x)).trans (erasePublisher_sameStore _ s pid)

theorem replacePublisher_sameStore (s : SessRef) (x : PeerRef) (pid : String)
    (p : Pod) : SameStore p (p.replacePublisher s x pid) :=
  ((p.emit_quiet _).toSameStore.trans
    (dropPublisher_sameStore s x pid _)).trans (emit_quiet _ _).toSameStore

theorem stopSection_sameStore (s : SessRef) (x : PeerRef) (pid : String)
    (p : Pod) : SameStore p (p.stopSection s x pid) :=
  ((p.emit_quiet _).toSameStore.trans
    (dropPublisher_sameStore s x pid _)).trans (emit_quiet _ _).toSameStore

theorem readPublisher_quiet (s : SessRef) (pid : String) (p : Pod) :
    Quiet p (p.readPublisher s pid).1 := by
  unfold readPublisher
  dsimp only
  split
  · exact (p.emit_quiet _).trans (throw_quiet _)
  · split
    · exact (p.emit_quiet _).trans (emit_quiet _ _)
    · exact (p.emit_quiet _).trans (throw_quiet _)

theorem dropSubscriber_sameStore (s : SessRef) (y : PeerRef) (key : String)
    (p : Pod) : SameStore p (p.dropSubscriber s y key) :=
  (p.destroy_sameStore y).trans (eraseSubscriber_sameStore _ s key)

theorem replaceSubscriber_sameStore (s : SessRef) (key : String) (p : Pod) :
    SameStore p (p.replaceSubscriber s key) := by
  unfold replaceSubscriber
  dsimp only
  split
  · exact ((p.emit_quiet _).trans (throw_quiet _)).toSameStore
  · exact ((p.emit_quiet _).toSameStore.trans
      (dropSubscriber_sameStore s _ key _)).trans (emit_quiet _ _).toSameStore

theorem notifyReleasePublish_quiet (env : Env) (s : SessRef) (pid : String)
    (p : Pod) : Quiet p (p.notifyReleasePublish env s pid) :=
  p.getSn_quiet.trans (emit_quiet _ _)

theorem fakeSubscribe_quiet (s : SessRef) (sid pid : String) (n : Nat)
    (p : Pod) : Quiet p (p.fakeSubscribe s sid pid n) :=
  (p.emit_quiet _).trans
    (setSess_quiet _ s fun _ => ⟨rfl, rfl, rfl⟩)

theorem releasePubs_sameStore (s : SessRef) (pid : String) (p : Pod) :
    SameStore p (p.releasePubs s pid) := by
  unfold releasePubs
  dsimp only
  refine SameStore.trans ?_ (emit_quiet _ _).toSameStore
  split
  · exact (p.emit_quiet _).toSameStore.trans (dropPublisher_sameStore s _ pid _)
  · exact (p.emit_quiet _).toSameStore

theorem releaseSubsOf_sameStore (s : SessRef) (pid : String) (p : Pod)
    (y : PeerRef) : SameStore p (p.releaseSubsOf s pid y) := by
  unfold releaseSubsOf
  split
  · exact p.dropSubscriber_sameStore s y _
  · exact .refl p

theorem releaseSubs_sameStore (s : SessRef) (pid : String) (p : Pod) :
    SameStore p (p.releaseSubs s pid) :=
  ((p.emit_quiet _).toSameStore.trans
    (SameStore.foldl (fun p _ => p.releaseSubsOf_sameStore s pid _) _ _)).trans
    (emit_quiet _ _).toSameStore

theorem releasePublisher_sameStore (env : Env) (s : SessRef) (pid : String)
    (p : Pod) : SameStore p (p.releasePublisher env s pid) :=
  ((p.releasePubs_sameStore s pid).trans (releaseSubs_sameStore s pid _)).trans
    (notifyReleasePublish_quiet env s pid _).toSameStore

theorem releaseSubscriberPeer_sameStore (s : SessRef) (sid ssid pid : String)
    (p : Pod) : SameStore p (p.releaseSubscriberPeer s sid ssid pid) := by
  unfold releaseSubscriberPeer
  dsimp only
  refine SameStore.trans ?_ (emit_quiet _ _).toSameStore
  split
  · exact (p.emit_quiet _).toSameStore.trans (dropSubscriber_sameStore s _ _ _)
  · exact (p.emit_quiet _).toSameStore

theorem leavedSubs_sameStore (s : SessRef) (sid : String) (lst : List String)
    (p : Pod) : SameStore p (p.leavedSubs s sid lst) := by
  unfold leavedSubs
  refine ((p.emit_quiet _).toSameStore.trans
    (SameStore.foldl (fun p pid => ?_) _ _)).trans (emit_quiet _ _).toSameStore
  split
  · exact p.dropSubscriber_sameStore s _ _
  · exact .refl p

theorem handleSubscriberLeaved_sameStore (s : SessRef) (sid : String)
    (p : Pod) : SameStore p (p.handleSubscriberLeaved s sid) :=
  ((p.emit_quiet _).trans (emit_quiet _ _)).toSameStore.trans
    (leavedSubs_sameStore s sid _ _)

theorem clearPublishers_sameStore (s : SessRef) (p : Pod) :
    SameStore p (p.clearPublishers s) := p.setSess_sameStore s fun _ => rfl

theorem clearSubscribers_sameStore (s : SessRef) (p : Pod) :
    SameStore p (p.clearSubscribers s) := p.setSess_sameStore s fun _ => rfl

theorem doLeavePubs_sameStore (s : SessRef) (p : Pod) :
    SameStore p (p.doLeavePubs s) := by
  have hloop : ∀ (p : Pod) (a : (_ : String) × PeerRef),
      SameStore p ((p.stopNotify s a.2 (p.peer a.2).peerid).destroy a.2) :=
    fun p a => (p.stopNotify_quiet s _ _).toSameStore.trans
      (destroy_sameStore _ _)
  exact (((p.emit_quiet _).toSameStore.trans (SameStore.foldl hloop _ _)).trans
    (clearPublishers_sameStore s _)).trans (emit_quiet _ _).toSameStore

theorem doLeaveSubs_sameStore (s : SessRef) (p : Pod) :
    SameStore p (p.doLeaveSubs s) :=
  (((p.emit_quiet _).toSameStore.trans
    (SameStore.foldl (fun p _ => p.destroy_sameStore _) _ _)).trans
    (clearSubscribers_sameStore s _)).trans (emit_quiet _ _).toSameStore

theorem doLeave_sameStore (s : SessRef) (p : Pod) :
    SameStore p (p.doLeave s) :=
  ((p.doLeavePubs_sameStore s).trans (doLeaveSubs_sameStore s _)).trans
    (waitChecks_quiet _ s).toSameStore

theorem fakePublisherReConnect_quiet (s : SessRef) (sid pid : String)
    (n : Nat) (p : Pod) : Quiet p (p.fakePublisherReConnect s sid pid n) := by
  unfold fakePublisherReConnect
  split
  · exact .refl p
  · exact (p.waitChecks_quiet s).trans (fakeSubscribe_quiet s sid pid n _)

theorem setCheck_quiet (s : SessRef) (i : Nat) (c : Check) (p : Pod) :
    Quiet p (p.setCheck s i c) :=
  p.setSess_quiet s fun _ => ⟨rfl, rfl, rfl⟩

theorem checkTimer_quiet (s : SessRef) (i : Nat) (p : Pod) :
    Quiet p (p.checkTimer s i) := by
  unfold checkTimer
  dsimp only
  repeat' split
  all_goals first
    | exact .refl p
    | exact setCheck_quiet s i _ p
    | exact (setCheck_quiet s i _ p).trans (go_quiet _ rfl)

theorem handleStopPush_sameStore (env : Env) (s : SessRef) (j : JsonParser)
    (p : Pod) : SameStore p (p.handleStopPush env s j) := by
  unfold handleStopPush
  dsimp only
  split
  · exact ((p.stopSection_sameStore s _ _).trans
      (throw_quiet _).toSameStore).trans ((emit_quiet _ _).trans
        (notifyReleasePublish_quiet env s _ _)).toSameStore
  · exact .refl p

/-- `stopsub` spawns the release of the subscriber it finds. -/
theorem handleStopSub_asks (s : SessRef) (j : JsonParser) (p : Pod) :
    Asks (fun g => ∃ y,
        (p.sess s).subscribers.lookup (subKey (getValue j .sessID)
          (getValue j .srcSessID) (getValue j .peerID)) = some y ∧
        g = .releaseSubscriberPeer s (getValue j .sessID)
          (getValue j .srcSessID) (getValue j .peerID) y)
      p (p.handleStopSub s j) := by
  unfold handleStopSub
  dsimp only
  refine Asks.trans ?_ (emit_quiet _ _).any
  split
  · rename_i y hy
    simp only [rlock, emit_sess] at hy
    exact (p.emit_quiet _).any.trans (go_asks _ fun _ => ⟨y, hy, rfl⟩)
  · exact (p.emit_quiet _).any

theorem handleOffer_quiet (env : Env) (s : SessRef) (j : JsonParser)
    (p : Pod) : Quiet p (p.handleOffer env s j) := by
  unfold handleOffer
  dsimp only
  refine Asks.trans ?_ (emit_quiet _ _)
  split
  · exact (p.emit_quiet _).trans (peerHandleMessage_quiet env _ j _)
  · exact (p.emit_quiet _).trans (emit_quiet _ _)

theorem toSubscriber_quiet {env : Env} {s : SessRef} {j : JsonParser}
    {sid : String} {notFound : Pod → Pod} (hn : ∀ p, Quiet p (notFound p))
    (p : Pod) : Quiet p (p.toSubscriber env s j sid notFound) := by
  unfold toSubscriber
  dsimp only
  refine Asks.trans ?_ (emit_quiet _ _)
  split
  · exact (p.emit_quiet _).trans (peerHandleMessage_quiet env _ j _)
  · exact (p.emit_quiet _).trans (hn _)

theorem handleFakeCandidate_quiet (env : Env) (s : SessRef) (j : JsonParser)
    (p : Pod) : Quiet p (p.handleFakeCandidate env s j) := by
  unfold handleFakeCandidate
  split
  · exact .refl p
  · exact toSubscriber_quiet Asks.refl p

theorem handleRoomCreated_quiet (s : SessRef) (j : JsonParser) (p : Pod) :
    Quiet p (p.handleRoomCreated s j) := by
  refine Asks.foldl (fun p a => ?_) _ p
  dsimp only
  split
  · exact p.emit_quiet _
  · exact p.emit_quiet _

theorem heartbeat_quiet (env : Env) (s : SessRef) (p : Pod) :
    Quiet p (p.setSess s fun t => { t with alivetime := env.now }) :=
  p.setSess_quiet s fun _ => ⟨rfl, rfl, rfl⟩

theorem testPublisher_asks (s : SessRef) (pid : String) (g : Goroutine)
    (p : Pod) : Asks (· = g) p (p.testPublisher s pid g) := by
  unfold testPublisher
  dsimp only
  refine Asks.trans ?_ (emit_quiet _ _).any
  split
  · exact (p.emit_quiet _).any.trans (go_asks _ fun _ => rfl)
  · exact (p.emit_quiet _).any

theorem testSubscriber_asks (s : SessRef) (pid : String) (g : Goroutine)
    (p : Pod) : Asks (· = g) p (p.testSubscriber s pid g) := by
  unfold testSubscriber
  dsimp only
  refine Asks.trans ?_ (emit_quiet _ _).any
  split
  · exact (p.emit_quiet _).any.trans (go_asks _ fun _ => rfl)
  · exact (p.emit_quiet _).any

theorem onIceReady_quiet (role : Role) (s : SessRef) (sid pid : String)
    (p : Pod) : Quiet p (p.onIceReady role s sid pid) := by
  unfold onIceReady
  split
  · dsimp only
    refine Asks.trans ?_ (emit_quiet _ _)
    split
    · split
      · exact ((p.emit_quiet _).trans (go_quiet _ rfl)).trans (emit_quiet _ _)
      · exact (p.emit_quiet _).trans (go_quiet _ rfl)
    · exact p.emit_quiet _
  · split
    · exact p.go_quiet rfl
    · exact .refl p

theorem onIceDisconnected_quiet (s : SessRef) (pid : String) (p : Pod) :
    Quiet p (p.onIceDisconnected s pid) := by
  unfold onIceDisconnected
  dsimp only
  refine Asks.trans ?_ (emit_quiet _ _)
  split
  · exact (p.emit_quiet _).trans (stopNotify_quiet s _ pid _)
  · exact p.emit_quiet _

/-- The releases that a callback of peer `x` can spawn. -/
def ReleaseFor (p : Pod) (x : PeerRef) (g : Goroutine) : Prop :=
  let q := p.peer x
  let r := (p.sess q.parent).parent
  match q.role with
  | .publisher =>
      g = .onPublisherPeerFailed r q.userid q.peerid x ∨
        g = .onPublisherPeerClosed r q.userid q.peerid x
  | .subscriber =>
      g = .onSubscriberPeerFailed r q.userid q.remoteuserid q.peerid x ∨
        g = .onSubscriberPeerClosed r q.userid q.remoteuserid q.peerid x

theorem releaseFor_of_quiet {x : PeerRef} {g : Goroutine} (h : Quiet p q)
    (hg : ReleaseFor q x g) : ReleaseFor p x g := by
  obtain ⟨hu, hru, hpid, hrole, -, hpar, -⟩ := Peer.ident_eq (h.peerIdent x)
  simp only [ReleaseFor, hu, hru, hpid, hrole, hpar, h.parent] at hg
  exact hg

theorem onIceFailed_asks (x : PeerRef) (p : Pod) :
    Asks (ReleaseFor p x) p (p.onIceFailed x) := by
  unfold onIceFailed
  dsimp only
  cases hrole : (p.peer x).role with
  | publisher =>
      have h : Asks (ReleaseFor p x) p (p.testPublisher (p.peer x).parent
          (p.peer x).peerid (.onPublisherPeerFailed
            (p.sess (p.peer x).parent).parent (p.peer x).userid
            (p.peer x).peerid x)) :=
        (testPublisher_asks _ _ _ p).mono fun g hg => by
          simp only [ReleaseFor, hrole]; exact .inl hg
      dsimp only
      split
      · exact h.trans (fakePublisherReConnect_quiet _ _ _ _ _).any
      · exact h
  | subscriber =>
      exact (testSubscriber_asks _ _ _ p).mono fun g hg => by
        simp only [ReleaseFor, hrole]; exact .inl hg

theorem onIceClosed_asks (x : PeerRef) (p : Pod) :
    Asks (ReleaseFor p x) p (p.onIceClosed x) := by
  unfold onIceClosed
  dsimp only
  cases hrole : (p.peer x).role with
  | publisher =>
      exact (testPublisher_asks _ _ _ p).mono fun g hg => by
        simp only [ReleaseFor, hrole]; exact .inr hg
  | subscriber =>
      exact (testSubscriber_asks _ _ _ p).mono fun g hg => by
        simp only [ReleaseFor, hrole]; exact .inr hg

theorem setIceFlags_quiet (x : PeerRef) (st : IceState) (p : Pod) :
    Quiet p (p.setIceFlags x st) := by
  refine p.setPeer_quiet x fun t => ?_
  cases st <;> exact ⟨rfl, rfl⟩

theorem reportIce_asks (x : PeerRef) (st : IceState) (p : Pod) :
    Asks (ReleaseFor p x) p (p.reportIce x st) := by
  unfold reportIce
  dsimp only
  cases st with
  | connected => exact (onIceReady_quiet _ _ _ _ _).any
  | disconnected =>
      dsimp only
      split
      · exact (onIceDisconnected_quiet _ _ _).any
      · exact .refl p
  | failed => exact onIceFailed_asks x p
  | closed => exact onIceClosed_asks x p

theorem onICEConnectionStateChange_asks (x : PeerRef) (st : IceState)
    (p : Pod) :
    Asks (ReleaseFor p x) p (p.onICEConnectionStateChange x st) := by
  have hf := p.setIceFlags_quiet x st
  unfold onICEConnectionStateChange
  split
  · exact .refl p
  · exact hf.any.trans ((reportIce_asks x st _).mono fun _ =>
      releaseFor_of_quiet hf)

theorem onReceivedAudioData_quiet (s : SessRef) (buff : List UInt8)
    (pid : String) (p : Pod) : Quiet p (p.onReceivedAudioData s buff pid) := by
  refine ((p.emit_quiet _).trans (Asks.foldl (fun p a => ?_) _ _)).trans
    (emit_quiet _ _)
  split
  · exact p.emit_quiet _
  · exact .refl p

theorem onReceivedVideoData_quiet (s : SessRef) (buff : List UInt8)
    (pid : String) (p : Pod) : Quiet p (p.onReceivedVideoData s buff pid) := by
  refine ((p.emit_quiet _).trans (Asks.foldl (fun p a => ?_) _ _)).trans
    (emit_quiet _ _)
  split
  · exact p.emit_quiet _
  · exact .refl p

theorem deliverAppTo_quiet (sid pid : String) (buff : List UInt8)
    (peers : GoMap PeerRef) (p : Pod) :
    Quiet p (p.deliverAppTo sid pid buff peers) := by
  refine Asks.foldl (fun p a => ?_) _ p
  split
  · exact p.emit_quiet _
  · exact .refl p

theorem broadcastAppData_quiet (s : SessRef) (sid pid : String)
    (buff : List UInt8) (p : Pod) :
    Quiet p (p.broadcastAppData s sid pid buff) :=
  (((((p.emit_quiet _).trans (deliverAppTo_quiet _ _ _ _ _)).trans
    (emit_quiet _ _)).trans (emit_quiet _ _)).trans
    (deliverAppTo_quiet _ _ _ _ _)).trans (emit_quiet _ _)

theorem checkKeepAlive_quiet (env : Env) (s : SessRef) (p : Pod) :
    Quiet p (p.checkKeepAlive env s) := by
  unfold checkKeepAlive
  split
  · exact .refl p
  · split
    · exact p.go_quiet rfl
    · exact .refl p

/-! ## The insertions

They leave the store alone. -/

theorem allocPeer_sameStore (t : Peer) (p : Pod) :
    SameStore p (p.allocPeer t) := { SameStore.refl p with }

theorem storePublisher_sameStore (s : SessRef) (pid : String) (x : PeerRef)
    (p : Pod) : SameStore p (p.storePublisher s pid x) :=
  p.setSess_sameStore s fun _ => rfl

theorem storeSubscriber_sameStore (s : SessRef) (key : String) (y : PeerRef)
    (p : Pod) : SameStore p (p.storeSubscriber s key y) :=
  p.setSess_sameStore s fun _ => rfl

theorem insertPublisher_sameStore (s : SessRef) (pid : String) (t : Peer)
    (p : Pod) : SameStore p (p.insertPublisher s pid t) :=
  (((p.allocPeer_sameStore t).trans (emit_quiet _ _).toSameStore).trans
    (storePublisher_sameStore s pid _ _)).trans (emit_quiet _ _).toSameStore

theorem insertSubscriber_sameStore (s : SessRef) (key : String) (t : Peer)
    (p : Pod) : SameStore p (p.insertSubscriber s key t) :=
  (((p.allocPeer_sameStore t).trans (emit_quiet _ _).toSameStore).trans
    (storeSubscriber_sameStore s key _ _)).trans (emit_quiet _ _).toSameStore

/-- The first half of `publish` and `fakeoffer`. -/
theorem retirePublisher_sameStore (s : SessRef) (pid : String) (p : Pod) :
    SameStore p (match (p.sess s).publishers.lookup pid with
      | some x => p.replacePublisher s x pid
      | none => p) := by
  split
  · exact p.replacePublisher_sameStore s _ pid
  · exact .refl p

theorem handlePush_sameStore (env : Env) (s : SessRef) (j : JsonParser)
    (p : Pod) : SameStore p (p.handlePush env s j) := by
  have h := p.retirePublisher_sameStore s (getValue j .peerID)
  unfold handlePush
  dsimp only
  split
  · exact (h.trans (insertPublisher_sameStore s _ _ _)).trans
      (emit_quiet _ _).toSameStore
  · exact h

theorem handleFakeOfferMsg_sameStore (env : Env) (s : SessRef)
    (j : JsonParser) (p : Pod) : SameStore p (p.handleFakeOfferMsg env s j) := by
  have h := p.retirePublisher_sameStore s (getValue j .peerID)
  unfold handleFakeOfferMsg
  dsimp only
  split
  · exact (h.trans (insertPublisher_sameStore s _ _ _)).trans
      (peerHandleMessage_quiet env _ j _).toSameStore
  · exact h

/-- The part of `sub` and `fakesubscribe` before the new peer is stored: the
publisher is read, and the old subscriber of the key goes. -/
def makeWay (s : SessRef) (pid key : String) (p : Pod) : Pod :=
  let p := (p.readPublisher s pid).1
  if (p.sess s).subscribers.lookup key = none then p
  else p.replaceSubscriber s key

section Subscribe

variable {env : Env} {s : SessRef} {j : JsonParser} {sid : String}
  {isFake : Bool} {notFound failed : Pod → Pod} {p q : Pod}

/-- The three ways through `sub` and `fakesubscribe`: there is no publisher;
or there is one, and the new subscriber is stored and handed the message, or
cannot be created. -/
theorem subscribe_cases
    (h : p.subscribe env s j sid isFake notFound failed = q) :
    let pid := getValue j .peerID
    let key := subKey sid (getValue j .srcSessID) pid
    let p₁ := p.makeWay s pid key
    (p.sess s).publishers.lookup pid = none ∧ q = notFound p ∨
    (p.sess s).publishers.lookup pid ≠ none ∧ env.createOk = true ∧
      q = (p₁.insertSubscriber s key (createSubscribePeer s sid
        (getValue j .srcSessID) pid (p.readPublisher s pid).2
        isFake)).peerHandleMessage env p₁.peerHeap.next j ∨
    (p.sess s).publishers.lookup pid ≠ none ∧ env.createOk = false ∧
      q = failed p₁ := by
  subst h
  dsimp only
  by_cases hx : (p.sess s).publishers.lookup (getValue j .peerID) = none
  · exact .inl ⟨hx, if_pos hx⟩
  · refine .inr ?_
    have hfound : p.subscribe env s j sid isFake notFound failed = _ :=
      if_neg hx
    cases hc : env.createOk with
    | true => exact .inl ⟨hx, rfl, hfound.trans (if_pos hc)⟩
    | false => exact .inr ⟨hx, rfl, hfound.trans (if_neg (by simp [hc]))⟩

/-- What every part of `sub` and `fakesubscribe` keeps, the whole keeps. -/
theorem subscribe_frame {R : Pod → Pod → Prop}
    (trans : ∀ {p q t}, R p q → R q t → R p t)
    (missing : ∀ p, R p (notFound p)) (refused : ∀ p, R p (failed p))
    (cleared : ∀ key p, R p (p.makeWay s (getValue j .peerID) key))
    (stored : ∀ key sdp p, R p (p.insertSubscriber s key
      (createSubscribePeer s sid (getValue j .srcSessID) (getValue j .peerID)
        sdp isFake)))
    (told : ∀ y p, R p (p.peerHandleMessage env y j)) (p : Pod) :
    R p (p.subscribe env s j sid isFake notFound failed) := by
  generalize h : p.subscribe env s j sid isFake notFound failed = q
  obtain ⟨-, rfl⟩ | ⟨-, -, rfl⟩ | ⟨-, -, rfl⟩ := subscribe_cases h
  · exact missing p
  · exact trans (trans (cleared _ p) (stored _ _ _)) (told _ _)
  · exact trans (cleared _ p) (refused _)

end Subscribe

theorem makeWay_sameStore (s : SessRef) (pid key : String) (p : Pod) :
    SameStore p (p.makeWay s pid key) := by
  have hread := (p.readPublisher_quiet s pid).toSameStore
  unfold makeWay
  dsimp only
  split
  · exact hread
  · exact hread.trans (replaceSubscriber_sameStore s key _)

theorem subscribe_sameStore {env : Env} {s : SessRef} {j : JsonParser}
    {sid : String} {isFake : Bool} {notFound failed : Pod → Pod}
    (hn : ∀ p, Quiet p (notFound p)) (hf : ∀ p, Quiet p (failed p)) (p : Pod) :
    SameStore p (p.subscribe env s j sid isFake notFound failed) :=
  subscribe_frame (R := SameStore) .trans (fun p => (hn p).toSameStore)
    (fun p => (hf p).toSameStore) (makeWay_sameStore s _)
    (fun key _ => insertSubscriber_sameStore s key _)
    (fun y p => (peerHandleMessage_quiet env y j p).toSameStore) p

theorem sessionHandleMessage_sameStore (env : Env) (s : SessRef)
    (j : JsonParser) (p : Pod) :
    SameStore p (p.sessionHandleMessage env s j) := by
  unfold sessionHandleMessage
  split
  · exact (heartbeat_quiet env s p).toSameStore
  · exact handlePush_sameStore env s j p
  · exact handleStopPush_sameStore env s j p
  · exact subscribe_sameStore (fun p => p.emit_quiet _)
      (fun p => p.emit_quiet _) p
  · exact (handleStopSub_asks s j p).toSameStore
  · exact (handleOffer_quiet env s j p).toSameStore
  · exact (toSubscriber_quiet (fun p => p.emit_quiet _) p).toSameStore
  · exact (handleRoomCreated_quiet s j p).toSameStore
  · exact (fakeSubscribe_quiet s _ _ _ p).toSameStore
  · exact subscribe_sameStore Asks.refl Asks.refl p
  · exact handleFakeOfferMsg_sameStore env s j p
  · exact (toSubscriber_quiet Asks.refl p).toSameStore
  · exact (handleFakeCandidate_quiet env s j p).toSameStore
  · exact .refl p

end Pod

end MediaServer.Ref
