import MediaServer.Proofs.Steps

/-!
# What a call does, move by move

`Steps.lean` takes a call apart as far as the maps and the peers go. Here it
is taken apart completely: what is sent and to whom, which flags change, which
calls are spawned, and in what order. A `Move` is one of these changes with
what is known when the code makes it, and an `Act` is its name. So a fact
about what the server sends is a fact about single moves: a stream is withdrawn
while its publisher still stands in its map, a peer is destroyed only after
that, and an entry is erased only after its peer was destroyed.

Everything of no interest to anybody outside (a lock, an answer to the client
that asked, media, a serial number, the description of a peer, which is set
and not taken back) is `Still`. Moves are made by a pod that
has not crashed; the move that ends the process comes last.
-/

namespace MediaServer.Ref

open MediaServer.Lib Relation

variable {p q t : Pod} {s : SessRef} {x : PeerRef} {r : RoomRef}
variable {role : Role} {k u : String} {env : Env} {j : JsonParser}

/-! ## Nothing happens -/

/-- What is kept of a session: all but the check goroutines. -/
def Session.state (t : Session) :=
  (t.ident, t.publishers, t.subscribers, t.alivetime)

/-- What is kept of a peer: what it was created with, how often it was
destroyed, its two flags and whether its offer is outstanding. -/
def Peer.state (t : Peer) :=
  (t.ident, t.closed, t.isReady, t.shouldNotify, t.haveLocalOffer)

/-- An event of no interest: a lock, media, or a message about nothing in a
room. The clients hear of streams, and the load balancer of users and streams,
in messages that name the room. -/
def Event.plain : Event → Bool
  | .sync _ | .deliverAudio _ _ | .deliverVideo _ _ | .deliverApp _ _ => true
  | .toClient _ m | .toLB m => (m.lookup .roomId).isNone
  | .toPod _ _ | .toCrossClusterPod _ _ | .broadcastCrossCluster _
  | .destroy _ => false

structure Still (p q : Pod) : Prop where
  rooms : q.rooms = p.rooms
  roomHeap : q.roomHeap = p.roomHeap
  sessNext : q.sessHeap.next = p.sessHeap.next
  sess : ∀ s, (q.sess s).state = (p.sess s).state
  peerNext : q.peerHeap.next = p.peerHeap.next
  peer : ∀ x, (q.peer x).state = (p.peer x).state
  desc : ∀ x, (p.peer x).localDesc ≠ none → (q.peer x).localDesc ≠ none
  pending : q.pending = p.pending
  fatal : q.fatal = p.fatal
  uuid : q.conf.uuid = p.conf.uuid
  log : ∃ tr, q.log = p.log ++ tr ∧ ∀ e ∈ tr, e.plain = true

namespace Still

theorem refl (p : Pod) : Still p p :=
  ⟨rfl, rfl, rfl, fun _ => rfl, rfl, fun _ => rfl, fun _ h => h, rfl, rfl, rfl,
    [], by simp, fun _ h => by cases h⟩

theorem trans (h : Still p q) (h' : Still q t) : Still p t where
  rooms := h'.rooms.trans h.rooms
  roomHeap := h'.roomHeap.trans h.roomHeap
  sessNext := h'.sessNext.trans h.sessNext
  sess s := (h'.sess s).trans (h.sess s)
  peerNext := h'.peerNext.trans h.peerNext
  peer x := (h'.peer x).trans (h.peer x)
  desc x hx := h'.desc x (h.desc x hx)
  pending := h'.pending.trans h.pending
  fatal := h'.fatal.trans h.fatal
  uuid := h'.uuid.trans h.uuid
  log := by
    obtain ⟨tr, hl, htr⟩ := h.log
    obtain ⟨tr', hl', htr'⟩ := h'.log
    refine ⟨tr ++ tr', by rw [hl', hl, List.append_assoc], fun e he => ?_⟩
    exact (List.mem_append.mp he).elim (htr e) (htr' e)

theorem foldl {α : Type} {f : Pod → α → Pod} (hf : ∀ p a, Still p (f p a))
    (l : List α) (p : Pod) : Still p (l.foldl f p) := by
  induction l generalizing p with
  | nil => exact .refl p
  | cons a l ih => exact (hf p a).trans (ih (f p a))

variable (h : Still p q)
include h

theorem ident (s : SessRef) : (q.sess s).ident = (p.sess s).ident :=
  congrArg (·.1) (h.sess s)

theorem pubs (s : SessRef) : (q.sess s).publishers = (p.sess s).publishers :=
  congrArg (·.2.1) (h.sess s)

theorem subs (s : SessRef) : (q.sess s).subscribers = (p.sess s).subscribers :=
  congrArg (·.2.2.1) (h.sess s)

theorem alivetime (s : SessRef) :
    (q.sess s).alivetime = (p.sess s).alivetime :=
  congrArg (·.2.2.2) (h.sess s)

theorem peerIdent (x : PeerRef) : (q.peer x).ident = (p.peer x).ident :=
  congrArg (·.1) (h.peer x)

theorem closed (x : PeerRef) : (q.peer x).closed = (p.peer x).closed :=
  congrArg (·.2.1) (h.peer x)

theorem isReady (x : PeerRef) : (q.peer x).isReady = (p.peer x).isReady :=
  congrArg (·.2.2.1) (h.peer x)

theorem shouldNotify (x : PeerRef) :
    (q.peer x).shouldNotify = (p.peer x).shouldNotify :=
  congrArg (·.2.2.2.1) (h.peer x)

theorem room (r : RoomRef) : q.room r = p.room r := by
  simp only [Pod.room, h.roomHeap]

theorem quiet : Quiet p q where
  rooms := h.rooms
  roomHeap := h.roomHeap
  sessNext := h.sessNext
  ident := h.ident
  pending := ⟨[], by rw [List.append_nil, h.pending]⟩
  uuid := h.uuid
  fatal hp := by rw [h.fatal]; exact hp
  pubs := h.pubs
  subs := h.subs
  peerNext := h.peerNext
  peerIdent := h.peerIdent
  closed := h.closed
  spawned g hg _ := .inl (by rwa [h.pending] at hg)

theorem entry (role : Role) (s : SessRef) (k : String) :
    q.entry role s k = p.entry role s k := h.quiet.entry role s k

end Still

namespace Pod

theorem emit_still (p : Pod) {e : Event} (he : e.plain = true) :
    Still p (p.emit e) where
  rooms := emit_rooms
  roomHeap := emit_roomHeap
  sessNext := by simp
  sess s := by simp
  peerNext := by simp
  peer x := by simp
  desc x := by simp
  pending := emit_pending
  fatal := emit_fatal
  uuid := by simp
  log := by
    refine ⟨_, p.emit_log e, fun e' he' => ?_⟩
    split at he'
    · cases he'
    · rw [List.mem_singleton.mp he']; exact he

theorem lock_still (p : Pod) (m : Mutex) : Still p (p.lock m) :=
  p.emit_still rfl

theorem unlock_still (p : Pod) (m : Mutex) : Still p (p.unlock m) :=
  p.emit_still rfl

theorem rlock_still (p : Pod) (m : Mutex) : Still p (p.rlock m) :=
  p.emit_still rfl

theorem runlock_still (p : Pod) (m : Mutex) : Still p (p.runlock m) :=
  p.emit_still rfl

theorem getSn_still (p : Pod) : Still p p.getSn := { Still.refl p with }

/-- A write to the working fields of a peer. -/
theorem setPeer_still (p : Pod) (x : PeerRef) {f : Peer → Peer}
    (hf : ∀ t, (f t).state = t.state)
    (hd : ∀ t, t.localDesc ≠ none → (f t).localDesc ≠ none) :
    Still p (p.setPeer x f) :=
  { Still.refl p with
    peer := fun y => by
      rw [setPeer_peer]
      split
      · exact hf _
      · rfl
    desc := fun y hy => by
      rw [setPeer_peer]
      split
      · exact hd _ hy
      · exact hy }

/-- A write to the check goroutines of a session. -/
theorem setSess_still (p : Pod) (s : SessRef) {f : Session → Session}
    (hf : ∀ t, (f t).state = t.state) : Still p (p.setSess s f) :=
  { Still.refl p with
    sess := fun i => by
      rw [setSess_sess]
      split
      · exact hf _
      · rfl }

theorem waitChecks_still (p : Pod) (s : SessRef) :
    Still p (p.waitChecks s) := p.setSess_still s fun _ => rfl

theorem setCachedCandidates_still (p : Pod) (x : PeerRef) :
    Still p (p.setCachedCandidates x) := p.setPeer_still x (fun _ => rfl)
    fun _ h => h

end Pod

/-- Nothing happened but that messages were sent. -/
def Spoke (p q : Pod) : Prop := ∃ tr, q = p.logged tr

namespace Spoke

theorem refl (p : Pod) : Spoke p p := ⟨[], p.logged_nil.symm⟩

theorem trans (h : Spoke p q) (h' : Spoke q t) : Spoke p t := by
  obtain ⟨tr, rfl⟩ := h
  obtain ⟨tr', rfl⟩ := h'
  exact ⟨tr ++ tr', by simp [Pod.logged]⟩

theorem foldl {α : Type} {f : Pod → α → Pod} (hf : ∀ p a, Spoke p (f p a))
    (l : List α) (p : Pod) : Spoke p (l.foldl f p) := by
  induction l generalizing p with
  | nil => exact .refl p
  | cons a l ih => exact (hf p a).trans (ih (f p a))

variable (h : Spoke p q)
include h

theorem room (r : RoomRef) : q.room r = p.room r := by
  obtain ⟨tr, rfl⟩ := h; rfl

theorem peer (x : PeerRef) : q.peer x = p.peer x := by
  obtain ⟨tr, rfl⟩ := h; rfl

theorem sess (s : SessRef) : q.sess s = p.sess s := by
  obtain ⟨tr, rfl⟩ := h; rfl

theorem pending : q.pending = p.pending := by
  obtain ⟨tr, rfl⟩ := h; rfl

theorem fatal : q.fatal = p.fatal := by
  obtain ⟨tr, rfl⟩ := h; rfl

end Spoke

namespace Pod

theorem emit_spoke (p : Pod) (e : Event) : Spoke p (p.emit e) := by
  unfold emit
  split
  · exact .refl p
  · exact ⟨[e], rfl⟩

/-! ## The maps by role -/

def eraseEntry (role : Role) (s : SessRef) (k : String) (p : Pod) : Pod :=
  match role with
  | .publisher => p.erasePublisher s k
  | .subscriber => p.eraseSubscriber s k

def clearEntries (role : Role) (s : SessRef) (p : Pod) : Pod :=
  match role with
  | .publisher => p.clearPublishers s
  | .subscriber => p.clearSubscribers s

def insertEntry (s : SessRef) (t : Peer) (p : Pod) : Pod :=
  match t.role with
  | .publisher => p.insertPublisher s t.key t
  | .subscriber => p.insertSubscriber s t.key t

end Pod

/-! ## The moves -/

/-- The names of the moves. -/
inductive Act where
  | still
  | dies
  | sends (e : Event)
  | spawns (g : Goroutine)
  | tells (topic : String) (r : RoomRef) (sid name pid : String)
  | unpush (s : SessRef) (k : String)
  | leaves (r : RoomRef) (u : String)
  | withdraws (s : SessRef) (k : String) (x : PeerRef)
  | destroys (s : SessRef) (x : PeerRef)
  | erases (role : Role) (s : SessRef) (k : String)
  | clears (role : Role) (s : SessRef)
  | adds (s : SessRef) (t : Peer)
  | offers (x : PeerRef)
  | accepts (x : PeerRef)
  | flags (x : PeerRef) (st : IceState)
  | announces (x : PeerRef)
  | beats (s : SessRef) (now : Int)
  | seats (r : RoomRef) (u : String) (t : Session)
  | unseats (r : RoomRef) (u : String)
  | vacates (r : RoomRef)
  | opens (rid : String)
  | closes (rid : String)
  | takes (i : Nat)

/-- The commands that pods send to each other. -/
def Cmd.crosses : Cmd → Bool
  | .roomCreated | .fakePublish | .fakeUnpublish | .fakeSubscribe
  | .fakeOffer | .fakeAnswer => true
  | _ => false

/-- A message to another pod names its sender, and who asks for a stream asks
the user who publishes it. -/
def Spoken (uuid : String) (m : JsonParser) : Prop :=
  getValue m .podId = uuid ∧ ∃ c, command m = some c ∧ c.crosses = true ∧
    (c = .fakeSubscribe → getValue m .srcSessID = getValue m .sessID)

/-- A message is read by the command it is built with. -/
theorem command_cons (c : Cmd) (m : JsonParser) :
    command ((.cmd, .str c.text) :: m) = some c := by
  simp [command, getValue, Value.sprint]

/-- A message of the pod `uuid` to another one, other than the announcements
that a change of a publisher's state makes to all of them. -/
def Event.said (uuid : String) : Event → Prop
  | .toPod _ m | .toCrossClusterPod _ m => Spoken uuid m
  | .broadcastCrossCluster m => Spoken uuid m ∧ command m = some .roomCreated
  | _ => False

/-- The peer was destroyed, and taken back before that. -/
def Pod.Gone (p : Pod) (x : PeerRef) : Prop :=
  0 < (p.peer x).closed ∧
    ((p.peer x).role = .publisher → (p.peer x).shouldNotify = false)

/-- A peer as the code creates it. -/
def Peer.fresh (t : Peer) : Prop :=
  t.closed = 0 ∧ t.isReady = false ∧ t.shouldNotify = false ∧
    t.haveLocalOffer = false

/-- The changes, with what holds when the code makes them. -/
inductive Move : Act → Pod → Pod → Prop where
  | still {p q : Pod} (h : Still p q) : Move .still p q
  | dies {p : Pod} : Move .dies p p.throw
  | sends {p : Pod} {e : Event} (he : e.said p.conf.uuid) :
      Move (.sends e) p (p.emit e)
  | spawns {p : Pod} (g : Goroutine) : Move (.spawns g) p (p.go g)
  | tells {p : Pod} (topic : String) (r : RoomRef) (sid name pid : String)
      (hr : r < p.roomHeap.next) :
      Move (.tells topic r sid name pid) p
        (p.emit (.toClient topic (p.pubMsg r sid name pid)))
  | unpush {p : Pod} (env : Env) (s : SessRef) (k : String) :
      Move (.unpush s k) p (p.notifyReleasePublish env s k)
  | leaves {p : Pod} (env : Env) (r : RoomRef) (u : String) :
      Move (.leaves r u) p (p.notifyLeaveRoom env r u)
  | withdraws {p : Pod} (s : SessRef) (k : String) (x : PeerRef)
      (hx : p.entry .publisher s k = some x)
      (hn : (p.peer x).shouldNotify = true) :
      Move (.withdraws s k x) p (p.stopNotify s x k)
  | destroys {p : Pod} (s : SessRef) (x : PeerRef) (role : Role) (k : String)
      (hx : p.entry role s k = some x)
      (hn : role = .publisher → (p.peer x).shouldNotify = false)
      (hc : (p.peer x).closed = 0) : Move (.destroys s x) p (p.destroy x)
  | erases {p : Pod} (role : Role) (s : SessRef) (k : String)
      (h : ∀ x, p.entry role s k = some x → p.Gone x) :
      Move (.erases role s k) p (p.eraseEntry role s k)
  | clears {p : Pod} (role : Role) (s : SessRef)
      (h : ∀ k x, p.entry role s k = some x → p.Gone x) :
      Move (.clears role s) p (p.clearEntries role s)
  | adds {p : Pod} (s : SessRef) (t : Peer)
      (hseat : ∃ r u, (p.room r).sessions.lookup u = some s)
      (hpar : t.parent = s) (ht : t.fresh)
      (hfree : p.entry t.role s t.key = none) :
      Move (.adds s t) p (p.insertEntry s t)
  | offers {p : Pod} (x : PeerRef) (app : Bool) (hx : x < p.peerHeap.next) :
      Move (.offers x) p (p.setPeer x fun q =>
        { q with
          dataChannel := q.dataChannel || app
          haveLocalOffer := true })
  | accepts {p : Pod} (x : PeerRef) (hx : (p.peer x).haveLocalOffer = true) :
      Move (.accepts x) p (p.setPeer x fun q => { q with haveLocalOffer := false })
  | flags {p : Pod} (x : PeerRef) (st : IceState)
      (hst : st = .connected → (p.peer x).role = .subscriber) :
      Move (.flags x st) p (p.setIceFlags x st)
  | announces {p : Pod} (x : PeerRef)
      (hx : p.entry .publisher (p.peer x).parent (p.peer x).peerid = some x) :
      Move (.announces x) p
        ((p.setIceFlags x .connected).reportIce x .connected)
  | beats {p : Pod} (s : SessRef) (now : Int) :
      Move (.beats s now) p (p.setSess s fun t => { t with alivetime := now })
  | seats {p : Pod} (r : RoomRef) (u : String) (t : Session)
      (hr : r < p.roomHeap.next) (hreg : p.rooms.lookup (p.room r).roomid = some r)
      (hfree : (p.room r).sessions.lookup u = none) (hu : t.userid = u)
      (hpar : t.parent = r) (hpubs : t.publishers = ∅)
      (hsubs : t.subscribers = ∅) : Move (.seats r u t) p (p.insertSession r u t)
  | unseats {p : Pod} (r : RoomRef) (u : String)
      (hleft : ∀ s, (p.room r).sessions.lookup u = some s →
        ∀ role k, p.entry role s k = none) :
      Move (.unseats r u) p (p.eraseSession r u)
  | vacates {p : Pod} (r : RoomRef)
      (hleft : ∀ u s, (p.room r).sessions.lookup u = some s →
        ∀ role k, p.entry role s k = none) :
      Move (.vacates r) p (p.clearSessions r)
  | opens {p : Pod} (rid : String) (hfree : p.rooms.lookup rid = none) :
      Move (.opens rid) p (p.insertRoom rid)
  | closes {p : Pod} (rid : String)
      (hempty : ∀ r, p.rooms.lookup rid = some r → (p.room r).sessions = ∅) :
      Move (.closes rid) p (p.eraseRoom rid)
  | takes {p : Pod} (i : Nat) :
      Move (.takes i) p { p with pending := p.pending.eraseIdx i }

/-! ## What the moves keep -/

/-- The moves that change nothing about who sits where. -/
def Act.inner : Act → Bool
  | .adds .. | .seats .. | .unseats .. | .vacates .. | .opens ..
  | .closes .. | .takes .. => false
  | _ => true

/-- Nobody moved, no peer was created or changed what it is, and the maps only
lost entries. -/
structure Shrinks (p q : Pod) : Prop extends SameStore p q where
  entry : ∀ role s k x, q.entry role s k = some x → p.entry role s k = some x
  peerNext : q.peerHeap.next = p.peerHeap.next
  peerIdent : ∀ x, (q.peer x).ident = (p.peer x).ident

theorem Asks.shrinks {G : Goroutine → Prop} (h : Asks G p q) : Shrinks p q where
  toSameStore := h.toSameStore
  entry role s k x hx := by rwa [h.entry] at hx
  peerNext := h.peerNext
  peerIdent := h.peerIdent

theorem Shrinks.podOk (h : Shrinks p q) (hp : PodOk p) : PodOk q where
  toSeated := hp.toSeated.of_sameStore h.toSameStore
  placed role s k x hx := by
    obtain ⟨hlt, hs, hrole, hpar, hk⟩ := hp.placed role s k x
      (h.entry role s k x hx)
    obtain ⟨-, -, -, hrole', -, hpar', -⟩ := Peer.ident_eq (h.peerIdent x)
    refine ⟨by rw [h.peerNext]; exact hlt, by rw [h.sessNext]; exact hs, ?_⟩
    rw [hrole', hpar', Peer.key_eq (h.peerIdent x)]
    exact ⟨hrole, hpar, hk⟩
  homed := hp.homed.of_same h.entry h.room

theorem Pod.eraseEntry_entry (p : Pod) (role' : Role) (i : SessRef)
    (l : String) : (p.eraseEntry role s k).entry role' i l =
      if role' = role ∧ i = s ∧ l = k then none else p.entry role' i l := by
  cases role with
  | publisher => exact p.erasePublisher_entry i l
  | subscriber => exact p.eraseSubscriber_entry i l

theorem Pod.clearEntries_entry (p : Pod) (role' : Role) (i : SessRef)
    (l : String) : (p.clearEntries role s).entry role' i l =
      if role' = role ∧ i = s then none else p.entry role' i l := by
  cases role with
  | publisher => exact p.clearPublishers_entry i l
  | subscriber => exact p.clearSubscribers_entry i l

theorem Pod.insertEntry_inserts {t : Peer} (hs : s < p.sessHeap.next)
    (hpar : t.parent = s) (hc : t.closed = 0)
    (hfree : p.entry t.role s t.key = none) :
    Inserts s t p (p.insertEntry s t) := by
  unfold Pod.insertEntry
  cases hrole : t.role with
  | publisher =>
      rw [hrole] at hfree
      exact Pod.insertPublisher_inserts hs hrole hpar hc hfree
  | subscriber =>
      rw [hrole] at hfree
      exact Pod.insertSubscriber_inserts hs hrole hpar hc hfree

theorem Pod.eraseEntry_shrinks (p : Pod) :
    Shrinks p (p.eraseEntry role s k) := by
  have hentry : ∀ role' i l x, (p.eraseEntry role s k).entry role' i l =
      some x → p.entry role' i l = some x := by
    intro role' i l x hx
    rw [Pod.eraseEntry_entry] at hx
    split at hx
    · cases hx
    · exact hx
  cases role with
  | publisher => exact ⟨p.erasePublisher_sameStore s k, hentry, rfl, fun _ => rfl⟩
  | subscriber => exact ⟨p.eraseSubscriber_sameStore s k, hentry, rfl, fun _ => rfl⟩

theorem Pod.clearEntries_shrinks (p : Pod) :
    Shrinks p (p.clearEntries role s) := by
  have hentry : ∀ role' i l x, (p.clearEntries role s).entry role' i l =
      some x → p.entry role' i l = some x := by
    intro role' i l x hx
    rw [Pod.clearEntries_entry] at hx
    split at hx
    · cases hx
    · exact hx
  cases role with
  | publisher => exact ⟨p.clearPublishers_sameStore s, hentry, rfl, fun _ => rfl⟩
  | subscriber => exact ⟨p.clearSubscribers_sameStore s, hentry, rfl, fun _ => rfl⟩

theorem Destroys.shrinks {X : Set PeerRef} (h : Destroys X p q) :
    Shrinks p q where
  toSameStore := h.toSameStore
  entry role s k x hx := by rwa [h.entry] at hx
  peerNext := h.peerNext
  peerIdent := h.peerIdent

theorem Move.shrinks {a : Act} (h : Move a p q) (ha : a.inner = true) :
    Shrinks p q := by
  cases h with
  | still h => exact h.quiet.shrinks
  | dies => exact p.throw_quiet.shrinks
  | sends _ => exact (p.emit_quiet _).shrinks
  | spawns g =>
      exact (p.go_asks (G := fun _ => True) fun _ => trivial).shrinks
  | tells => exact (p.emit_quiet _).shrinks
  | unpush env s k => exact (p.notifyReleasePublish_quiet env s k).shrinks
  | leaves env r u => exact (p.notifyLeaveRoom_quiet env r u).shrinks
  | withdraws s k x _ _ => exact (p.stopNotify_quiet s x k).shrinks
  | destroys s x _ _ _ _ _ => exact (p.destroy_destroys x).shrinks
  | erases role s k _ => exact p.eraseEntry_shrinks
  | clears role s _ => exact p.clearEntries_shrinks
  | offers x app _ =>
      refine Asks.shrinks (G := fun _ => False) ?_
      exact p.setPeer_quiet x fun _ => ⟨rfl, rfl⟩
  | accepts x _ =>
      refine Asks.shrinks (G := fun _ => False) ?_
      exact p.setPeer_quiet x fun _ => ⟨rfl, rfl⟩
  | flags x st _ => exact (p.setIceFlags_quiet x st).shrinks
  | announces x _ =>
      exact ((p.setIceFlags_quiet x .connected).trans
        (Pod.onIceReady_quiet _ _ _ _ _)).shrinks
  | beats s now =>
      refine Asks.shrinks (G := fun _ => False) ?_
      exact p.setSess_quiet s fun _ => ⟨rfl, rfl, rfl⟩
  | adds | seats | unseats | vacates | opens | closes | takes => cases ha

/-- The moves that are small changes of the store. -/
theorem Move.micro {a : Act} (h : Move a p q) (hp : PodOk p)
    (ha : a.inner = false) :
    Micro (fun _ => False) (fun s t => a = .adds s t) p q := by
  cases h with
  | adds s t hseat hpar ht hfree =>
      obtain ⟨r, u, hs⟩ := hseat
      exact .inserts (Pod.insertEntry_inserts (hp.sessions r u s hs).2.2 hpar
        ht.1 hfree) ⟨r, u, hs⟩ rfl
  | seats r u t hr _ hfree hu hpar hpubs hsubs =>
      exact .seat r u t hr hfree hu hpar hpubs hsubs
  | unseats r u hleft => exact .unseat r u hleft
  | vacates r hleft => exact .vacate r hleft
  | opens rid _ => exact .openRoom rid
  | closes rid _ => exact .closeRoom rid
  | takes i => exact .take i
  | still | dies | sends | spawns | tells | unpush | leaves | withdraws
  | destroys | erases | clears | offers | accepts | flags | announces
  | beats => cases ha

theorem Move.podOk {a : Act} (h : Move a p q) (hp : PodOk p) : PodOk q := by
  cases ha : a.inner with
  | true => exact (h.shrinks ha).podOk hp
  | false => exact (h.micro hp ha).podOk hp

/-! ## Sequences of moves -/

/-- A move of a pod that has not crashed, with a name in `A`. -/
def Makes (A : Act → Prop) (p q : Pod) : Prop :=
  p.fatal = false ∧ ∃ a, A a ∧ Move a p q

/-- A move with a name in `A`, or two that belong together: a publisher that
is destroyed is withdrawn first. -/
inductive Strokes (A : Act → Prop) (p q : Pod) : Prop where
  | move (b : Act) (hf : p.fatal = false) (hb : A b) (hm : Move b p q)
  | retires (s : SessRef) (k : String) (x : PeerRef) (t : Pod)
      (hf : p.fatal = false) (hw : Move (.withdraws s k x) p t)
      (ht : t.fatal = false) (hb : A (.destroys s x))
      (hd : Move (.destroys s x) t q)

/-- From `p`, `q` is reached by moves with names in `A`. -/
abbrev Path (A : Act → Prop) : Pod → Pod → Prop := ReflTransGen (Strokes A)

/-- The names in `A` when the moves are taken one by one. -/
def Also (A : Act → Prop) : Act → Prop
  | .withdraws s k x => A (.withdraws s k x) ∨ A (.destroys s x)
  | b => A b

/-- The invariants the code relies on between two of its calls. -/
structure Ready (p : Pod) : Prop extends PodOk p where
  lives : Lives p

variable {A : Act → Prop}

/-- The call moves from `p` to `q` and the pod is as good as before. -/
def Calm (A : Act → Prop) (p q : Pod) : Prop :=
  Ready p → p.fatal = false → Path A p q ∧ q.fatal = false ∧ Ready q

/-- The call moves from `p` to `q`, where it may have crashed. -/
def Ends (A : Act → Prop) (p q : Pod) : Prop :=
  Ready p → p.fatal = false → Path A p q

theorem Calm.ends (h : Calm A p q) : Ends A p q := fun hp hf => (h hp hf).1

theorem Calm.refl (p : Pod) : Calm A p p := fun hp hf => ⟨.refl, hf, hp⟩

theorem Calm.trans (h : Calm A p q) (h' : Calm A q t) : Calm A p t := by
  intro hp hf
  obtain ⟨hpath, hfq, hq⟩ := h hp hf
  obtain ⟨hpath', hrest⟩ := h' hq hfq
  exact ⟨hpath.trans hpath', hrest⟩

theorem Calm.trans_ends (h : Calm A p q) (h' : Ends A q t) : Ends A p t := by
  intro hp hf
  obtain ⟨hpath, hfq, hq⟩ := h hp hf
  exact hpath.trans (h' hq hfq)

theorem Calm.of (h : Ready p → p.fatal = false → Calm A p q) : Calm A p q :=
  fun hp hf => h hp hf hp hf

theorem Ends.of (h : Ready p → p.fatal = false → Ends A p q) : Ends A p q :=
  fun hp hf => h hp hf hp hf

theorem Calm.foldl {α : Type} {f : Pod → α → Pod} {l : List α}
    (hf : ∀ p, ∀ a ∈ l, Calm A p (f p a)) (p : Pod) :
    Calm A p (l.foldl f p) := by
  induction l generalizing p with
  | nil => exact .refl p
  | cons a l ih =>
      exact (hf p a List.mem_cons_self).trans
        (ih (fun p b hb => hf p b (List.mem_cons_of_mem _ hb)) (f p a))

/-- What logs after the crash is not heard. -/
theorem Ends.emit {e : Event} (h : Ends A p q) (he : e.plain = true)
    (hA : A .still) : Ends A p (q.emit e) := by
  intro hp hf
  have hpath := h hp hf
  cases hq : q.fatal with
  | true =>
      rw [show q.emit e = q by simp [Pod.emit, hq]]
      exact hpath
  | false => exact hpath.tail (.move .still hq hA (.still (q.emit_still he)))

theorem also_of {b : Act} (h : A b) : Also A b := by
  cases b with
  | withdraws s k x => exact .inl h
  | _ => exact h

theorem Also.elim {P : Act → Prop} {b : Act} (h : Also A b)
    (hA : ∀ b, A b → P b) (hw : ∀ s k x, P (.withdraws s k x)) : P b := by
  cases b with
  | withdraws s k x => exact hw s k x
  | _ => exact hA _ h

theorem Path.moves (h : Path A p q) : ReflTransGen (Makes (Also A)) p q := by
  induction h with
  | refl => exact .refl
  | tail _ hm ih =>
      cases hm with
      | move b hf hb hm => exact ih.tail ⟨hf, b, also_of hb, hm⟩
      | retires s k x t hf hw ht hb hd =>
          have hw' : Also A (.withdraws s k x) := .inr hb
          exact (ih.tail ⟨hf, _, hw', hw⟩).tail ⟨ht, _, also_of hb, hd⟩

theorem Path.mono {A' : Act → Prop} (hA : ∀ a, A a → A' a) (h : Path A p q) :
    Path A' p q := by
  refine ReflTransGen.mono (fun p q hm => ?_) _ _ h
  cases hm with
  | move b hf hb hm => exact .move b hf (hA b hb) hm
  | retires s k x t hf hw ht hb hd =>
      exact .retires s k x t hf hw ht (hA _ hb) hd

/-- What every single move keeps, a path keeps. -/
theorem Path.invariant {P : Pod → Prop} (h : Path A p q) (hp : PodOk p)
    (hP : P p) (hstep : ∀ {b p q}, Also A b → PodOk p → p.fatal = false →
      Move b p q → P p → P q) : P q := by
  suffices hboth : PodOk q ∧ P q from hboth.2
  have hmoves := h.moves
  clear h
  induction hmoves with
  | refl => exact ⟨hp, hP⟩
  | tail _ hm ih =>
      obtain ⟨hf, b, hb, hm⟩ := hm
      exact ⟨hm.podOk ih.1, hstep hb ih.1 hf hm ih.2⟩

theorem Ready.of_micro {G : Goroutine → Prop} {I : SessRef → Peer → Prop}
    (h : Micro G I p q) (hp : Ready p) : Ready q :=
  ⟨h.podOk hp.toPodOk, h.lives hp.toPodOk hp.lives⟩

theorem Ready.of_removes {X : Set PeerRef} (hp : Ready p)
    (h : Removes X p q) : Ready q :=
  Ready.of_micro (G := fun _ => False) (I := fun _ _ => False) (.removes h) hp

theorem Ready.of_asks {G : Goroutine → Prop} (hp : Ready p)
    (h : Asks G p q) : Ready q :=
  Ready.of_micro (I := fun _ _ => False) (.asks h) hp

/-- A single move that keeps the maps. -/
theorem Calm.asks {G : Goroutine → Prop} {a : Act} (h : Asks G p q)
    (hm : Ready p → Move a p q) (hA : A a) (hf : q.fatal = p.fatal) :
    Calm A p q := fun hp hfp =>
  ⟨.single (.move a hfp hA (hm hp)), hf.trans hfp, hp.of_asks h⟩

theorem Calm.still (h : Still p q) (hA : A .still) : Calm A p q :=
  .asks h.quiet (fun _ => .still h) hA h.fatal

theorem Calm.emit {e : Event} (p : Pod) (he : e.plain = true) (hA : A .still) :
    Calm A p (p.emit e) := .still (p.emit_still he) hA

theorem Ends.throw (p : Pod) (hA : A .dies) : Ends A p p.throw :=
  fun _ hf => .single (.move .dies hf hA .dies)

theorem Calm.sends {e : Event} (p : Pod) (he : e.said p.conf.uuid)
    (hA : A (.sends e)) : Calm A p (p.emit e) :=
  .asks (p.emit_quiet e) (fun _ => .sends he) hA Pod.emit_fatal

theorem Calm.go {g : Goroutine} (p : Pod) (hA : A (.spawns g)) :
    Calm A p (p.go g) :=
  .asks (p.go_asks (G := fun _ => True) fun _ => trivial)
    (fun _ => .spawns g) hA rfl

end MediaServer.Ref
