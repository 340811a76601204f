import MediaServer.Proofs.Steps

/-!
# Deferred releases

A failed or closed connection, and `stopsub`, do not take the peer out: they
spawn a call that does so later, by the names of the user and the stream. By
then another peer may stand under the same names. The file proves when that
cannot happen: no message stores a peer under names that a spawned release
will look up. It is a condition on the message and the list of pending calls,
and the code does not check it.

The argument follows a release from the moment it is spawned. `Release.Safe`
says that whatever it would find if it ran now is the peer it was spawned for.
It holds at the spawn, where it rests on `Lives` (an open connection belongs
to a peer that stands in its map) and on the names of a peer being those of
its session, and every small change keeps it.
-/

namespace MediaServer.Ref

open MediaServer.Lib Relation

variable {p q : Pod} {s : SessRef} {G : Goroutine → Prop}
variable {I : SessRef → Peer → Prop}

/-! ## Releases -/

/-- What a spawned release looks for: through the room under a user id or in a
session it was given, a peer of one role under one key. -/
structure Release where
  via : (RoomRef × String) ⊕ SessRef
  role : Role
  key : String
  cause : PeerRef
  deriving DecidableEq

def Goroutine.release? : Goroutine → Option Release
  | .onPublisherPeerFailed r sid pid x | .onPublisherPeerClosed r sid pid x =>
      some ⟨.inl (r, sid), .publisher, pid, x⟩
  | .onSubscriberPeerFailed r sid ssid pid x
  | .onSubscriberPeerClosed r sid ssid pid x =>
      some ⟨.inl (r, ssid), .subscriber, subKey sid ssid pid, x⟩
  | .releaseSubscriberPeer s sid ssid pid x =>
      some ⟨.inr s, .subscriber, subKey sid ssid pid, x⟩
  | _ => none

theorem isRelease_of_release? {g : Goroutine} {l : Release}
    (h : g.release? = some l) : g.isRelease = true := by
  cases g <;> first | rfl | cases h

namespace Release

variable {l : Release}

/-- The session the release acts on if it runs now. -/
def session (p : Pod) (l : Release) : Option SessRef :=
  match l.via with
  | .inl (r, u) => (p.room r).sessions.lookup u
  | .inr s => some s

/-- The peers it takes out: the entry of its key, and with a publisher the
subscribers to its stream. -/
def victims (p : Pod) (l : Release) : Set PeerRef :=
  {x | ∃ s, l.session p = some s ∧ (p.entry l.role s l.key = some x ∨
    l.role = .publisher ∧ ∃ k, p.entry .subscriber s k = some x ∧
      (p.peer x).peerid = l.key)}

/-- The room, user, role and key it is aimed at. -/
def target (p : Pod) (l : Release) : RoomRef × String × Role × String :=
  match l.via with
  | .inl (r, u) => (r, u, l.role, l.key)
  | .inr s => ((p.sess s).parent, (p.sess s).userid, l.role, l.key)

end Release

theorem victims_of_session {l : Release} (hs : l.session p = some s) :
    l.victims p = {x | p.entry l.role s l.key = some x} ∪
      {y | l.role = .publisher ∧ ∃ k, p.entry .subscriber s k = some y ∧
        (p.peer y).peerid = l.key} := by
  ext x
  simp only [Release.victims, hs, Option.some.injEq, exists_eq_left',
    Set.mem_ofPred_eq, Set.mem_union]

theorem victims_of_none {l : Release} (hs : l.session p = none) :
    l.victims p = ∅ := by
  ext x
  simp [Release.victims, hs]

theorem onPublisherPeerFailed_removes (env : Env) (hp : Placed p) (r : RoomRef)
    (sid pid : String) (c : PeerRef) :
    Removes (Release.victims p ⟨.inl (r, sid), .publisher, pid, c⟩) p
      (p.onPublisherPeerFailed env r sid pid) := by
  unfold Pod.onPublisherPeerFailed
  split
  · next s hs =>
      rw [victims_of_session (p := p)
        (l := ⟨.inl (r, sid), .publisher, pid, c⟩) hs]
      simp only [true_and]
      exact Pod.releasePublisher_removes env hp pid
  · next hs =>
      rw [victims_of_none (p := p)
        (l := ⟨.inl (r, sid), .publisher, pid, c⟩) hs]
      exact (Asks.refl p).removes

theorem subscriber_victims {l : Release} (hs : l.session p = some s)
    (hrole : l.role = .subscriber) :
    l.victims p = {x | p.entry .subscriber s l.key = some x} := by
  rw [victims_of_session hs]
  ext x
  simp [hrole]

theorem onSubscriberPeerFailed_removes (hp : Placed p) (r : RoomRef)
    (sid ssid pid : String) (c : PeerRef) :
    Removes (Release.victims p
        ⟨.inl (r, ssid), .subscriber, subKey sid ssid pid, c⟩) p
      (p.onSubscriberPeerFailed r sid ssid pid) := by
  unfold Pod.onSubscriberPeerFailed
  split
  · next s hs =>
      rw [subscriber_victims (p := p)
        (l := ⟨.inl (r, ssid), .subscriber, subKey sid ssid pid, c⟩) hs rfl]
      exact Pod.releaseSubscriberPeer_removes hp sid ssid pid
  · next hs =>
      rw [victims_of_none (p := p)
        (l := ⟨.inl (r, ssid), .subscriber, subKey sid ssid pid, c⟩) hs]
      exact (Asks.refl p).removes

/-- A release takes out exactly its victims. -/
theorem runGoroutine_removes (env : Env) (hp : Placed p) {g : Goroutine}
    {l : Release} (hg : g.release? = some l) :
    Removes (l.victims p) p (p.runGoroutine env g) := by
  cases g with
  | onPublisherPeerFailed r sid pid x =>
      cases hg; exact onPublisherPeerFailed_removes env hp r sid pid x
  | onPublisherPeerClosed r sid pid x =>
      cases hg; exact onPublisherPeerFailed_removes env hp r sid pid x
  | onSubscriberPeerFailed r sid ssid pid x =>
      cases hg; exact onSubscriberPeerFailed_removes hp r sid ssid pid x
  | onSubscriberPeerClosed r sid ssid pid x =>
      cases hg; exact onSubscriberPeerFailed_removes hp r sid ssid pid x
  | releaseSubscriberPeer s sid ssid pid x =>
      cases hg
      rw [subscriber_victims (s := s) rfl rfl]
      exact Pod.releaseSubscriberPeer_removes hp sid ssid pid
  | _ => cases hg

/-! ## What a release may hit -/

/-- The subscribers of the stream that publisher `c` stands for. -/
def Attached (p : Pod) (c y : PeerRef) : Prop :=
  (p.peer c).role = .publisher ∧ (p.peer y).role = .subscriber ∧
    (p.peer y).parent = (p.peer c).parent ∧
    (p.peer y).peerid = (p.peer c).peerid

/-- A peer was destroyed or lost its entry. -/
def Hit (p q : Pod) (x : PeerRef) : Prop :=
  (q.peer x).closed ≠ (p.peer x).closed ∨ Mapped p x ∧ ¬Mapped q x

theorem Removes.of_hit {X : Set PeerRef} (h : Removes X p q) {x : PeerRef}
    (hx : Hit p q x) : x ∈ X := by
  by_contra hno
  rcases hx with hc | ⟨hm, hm'⟩
  · exact hc (h.miss x hno)
  · exact hm' ((h.mapped x).mpr ⟨hm, hno⟩)

/-- If the step runs a release, it hits the peer it was spawned for and, with
a publisher, the subscribers attached to it, and no other. -/
def HitsOwn (p : Pod) (a : Env × Input) (q : Pod) : Prop :=
  ∀ i g l, a.2 = .go i → p.pending[i]? = some g → g.release? = some l →
    ∀ x, Hit p q x → x = l.cause ∨ Attached p l.cause x

/-- What the release would find if it ran now is its own. -/
structure Release.Safe (p : Pod) (l : Release) : Prop where
  cause_lt : l.cause < p.peerHeap.next
  given : ∀ s, l.via = .inr s → s < p.sessHeap.next
  stream : l.role = .publisher →
    (p.peer l.cause).role = .publisher ∧ (p.peer l.cause).peerid = l.key
  own : ∀ s, l.session p = some s → ∀ x, p.entry l.role s l.key = some x →
    x = l.cause
  others : ∀ s, l.session p = some s → l.role = .publisher →
    s ≠ (p.peer l.cause).parent → ∀ k y, p.entry .subscriber s k = some y →
      (p.peer y).peerid ≠ l.key

theorem Release.Safe.victims {l : Release} (hl : l.Safe p) (hp : Placed p)
    {x : PeerRef} (hx : x ∈ l.victims p) :
    x = l.cause ∨ Attached p l.cause x := by
  obtain ⟨s, hs, hx | ⟨hrole, k, hx, hpid⟩⟩ := hx
  · exact .inl (hl.own s hs x hx)
  · refine .inr ?_
    obtain ⟨-, -, hsub, hpar, -⟩ := hp _ _ _ _ hx
    obtain ⟨hpub, hkey⟩ := hl.stream hrole
    refine ⟨hpub, hsub, ?_, hpid.trans hkey.symm⟩
    by_contra hne
    exact hl.others s hs hrole (fun h => hne (hpar.trans h)) k x hx hpid

/-! ## Every small change keeps a release safe -/

theorem Micro.peerIdent (hm : Micro G I p q) {x : PeerRef}
    (hx : x < p.peerHeap.next) :
    x < q.peerHeap.next ∧ (q.peer x).ident = (p.peer x).ident := by
  cases hm with
  | asks h => exact ⟨by rw [h.peerNext]; exact hx, h.peerIdent x⟩
  | removes h => exact ⟨by rw [h.peerNext]; exact hx, h.peerIdent x⟩
  | inserts h _ _ =>
      exact ⟨by rw [h.peerNext]; exact Nat.lt_succ_of_lt hx,
        by rw [h.peer_of_lt hx]⟩
  | seat r u t =>
      rw [Pod.peer, insertSession_peerHeap]
      exact ⟨hx, rfl⟩
  | openRoom rid =>
      rw [Pod.peer, insertRoom_peerHeap]
      exact ⟨hx, rfl⟩
  | unseat r u _ => exact ⟨hx, rfl⟩
  | vacate r _ => exact ⟨hx, rfl⟩
  | closeRoom rid => exact ⟨hx, rfl⟩
  | take i => exact ⟨hx, rfl⟩

theorem peerIdent_of_micros (h : ReflTransGen (Micro G I) p q) {x : PeerRef}
    (hx : x < p.peerHeap.next) :
    x < q.peerHeap.next ∧ (q.peer x).ident = (p.peer x).ident := by
  induction h with
  | refl => exact ⟨hx, rfl⟩
  | tail _ hm ih =>
      obtain ⟨hlt, hid⟩ := hm.peerIdent ih.1
      exact ⟨hlt, hid.trans ih.2⟩

/-- A new peer `t` of session `s` is not in the way of the release. -/
def Release.Spares (p : Pod) (l : Release) (s : SessRef) (t : Peer) : Prop :=
  l.session p = some s → ¬(t.role = l.role ∧ t.key = l.key) ∧
    (l.role = .publisher → t.role = .subscriber →
      s ≠ (p.peer l.cause).parent → t.peerid ≠ l.key)

section Safe

variable {l : Release}

/-- The session that a release finds was there before, or is a new one with
empty maps, and what it finds in it was there before. -/
theorem Release.Safe.of_shrink (hl : l.Safe p) (hp : Placed p)
    (hx : ∀ x, x < p.peerHeap.next →
      x < q.peerHeap.next ∧ (q.peer x).ident = (p.peer x).ident)
    (hn : p.sessHeap.next ≤ q.sessHeap.next)
    (hs : ∀ s, l.session q = some s → l.session p = some s ∨
      ∀ role k, q.entry role s k = none)
    (he : ∀ role s k x, q.entry role s k = some x →
      p.entry role s k = some x) : l.Safe q := by
  obtain ⟨hlt, hid⟩ := hx _ hl.cause_lt
  obtain ⟨-, -, hpid, hrole, -, hpar, -⟩ := Peer.ident_eq hid
  refine ⟨hlt, fun s h => Nat.lt_of_lt_of_le (hl.given s h) hn, ?_, ?_, ?_⟩
  · rw [hrole, hpid]
    exact hl.stream
  · intro s h x hq
    rcases hs s h with hold | hempty
    · exact hl.own s hold x (he _ _ _ _ hq)
    · rw [hempty] at hq
      cases hq
  · intro s h hpub hne k y hq
    rw [hpar] at hne
    rcases hs s h with hold | hempty
    · have hp' := he _ _ _ _ hq
      rw [(Peer.ident_eq (hx y (hp _ _ _ _ hp').1).2).2.2.1]
      exact hl.others s hold hpub hne k y hp'
    · rw [hempty] at hq
      cases hq

theorem session_of_rooms (hr : ∀ r, q.room r = p.room r) :
    l.session q = l.session p := by
  unfold Release.session
  split
  · rw [hr]
  · rfl

/-- A room in which only seats were given up. -/
theorem session_of_left
    (h : ∀ r u s, (q.room r).sessions.lookup u = some s →
      (p.room r).sessions.lookup u = some s) (hs : l.session q = some s) :
    l.session p = some s := by
  unfold Release.session at hs ⊢
  split at hs
  · exact h _ _ _ hs
  · exact hs

theorem Release.Safe.of_inserts {i : SessRef} {t : Peer} (hl : l.Safe p)
    (hp : Placed p) (h : Inserts i t p q) (hsp : l.Spares p i t) :
    l.Safe q := by
  have hroom := session_of_rooms (l := l) h.room
  have hcause := h.peer_of_lt hl.cause_lt
  refine ⟨by rw [h.peerNext]; exact Nat.lt_succ_of_lt hl.cause_lt,
    fun s hs => by rw [h.sessNext]; exact hl.given s hs,
    by rw [hcause]; exact hl.stream, ?_, ?_⟩
  · intro s hs x hx
    rw [hroom] at hs
    rw [h.entry] at hx
    split at hx
    · next hat =>
        obtain ⟨hrole, rfl, hkey⟩ := hat
        exact absurd ⟨hrole.symm, hkey.symm⟩ (hsp hs).1
    · exact hl.own s hs x hx
  · intro s hs hpub hne k y hy
    rw [hroom] at hs
    rw [hcause] at hne
    rw [h.entry] at hy
    split at hy
    · next hat =>
        obtain ⟨hrole, rfl, -⟩ := hat
        cases hy
        rw [h.peer, if_pos rfl]
        exact (hsp hs).2 hpub hrole.symm hne
    · rw [h.peer_of_lt (hp _ _ _ _ hy).1]
      exact hl.others s hs hpub hne k y hy

theorem Micro.safe (hm : Micro G I p q) (hok : PodOk p) (hl : l.Safe p)
    (hI : ∀ s t, I s t → l.Spares p s t) : l.Safe q := by
  have hpeers : ∀ x, x < p.peerHeap.next →
      x < q.peerHeap.next ∧ (q.peer x).ident = (p.peer x).ident :=
    fun x hx => hm.peerIdent hx
  have hnext := hm.sessNext_le
  cases hm with
  | asks h =>
      exact hl.of_shrink hok.placed hpeers hnext
        (fun s hs => .inl (by rwa [session_of_rooms h.room] at hs))
        fun _ _ _ _ hx => by rwa [h.entry] at hx
  | removes h =>
      exact hl.of_shrink hok.placed hpeers hnext
        (fun s hs => .inl (by rwa [session_of_rooms h.room] at hs))
        fun role s k x hx => ((h.entry role s k x).mp hx).1
  | inserts h _ hi => exact hl.of_inserts hok.placed h (hI _ _ hi)
  | seat r u t hr hfree hu hpar hpubs hsubs =>
      refine hl.of_shrink hok.placed hpeers hnext (fun s hs => ?_)
        fun _ _ _ _ hx => by
          rwa [insertSession_entry hok.placed hpubs hsubs] at hx
      unfold Release.session at hs ⊢
      split at hs
      · next r' u' _ =>
          rw [Pod.insertSession_lookup] at hs
          split at hs
          · cases hs
            refine .inr fun role k => ?_
            rw [insertSession_entry hok.placed hpubs hsubs]
            cases hx : p.entry role p.sessHeap.next k with
            | none => rfl
            | some x =>
                exact absurd (hok.placed role _ k x hx).2.1 (Nat.lt_irrefl _)
          · exact .inl hs
      · exact .inl hs
  | unseat r u _ =>
      refine hl.of_shrink hok.placed hpeers hnext (fun s hs => .inl ?_)
        fun _ _ _ _ hx => hx
      refine session_of_left (fun r' u' s' h => ?_) hs
      by_cases hr : r' = r
      · subst hr
        by_cases hu : u' = u
        · rw [hu, Pod.eraseSession_lookup_self] at h
          cases h
        · rwa [(Pod.eraseSession_edits r' u p).keep u' hu] at h
      · rwa [(Pod.eraseSession_edits r u p).other r' hr] at h
  | vacate r _ =>
      refine hl.of_shrink hok.placed hpeers hnext (fun s hs => .inl ?_)
        fun _ _ _ _ hx => hx
      refine session_of_left (fun r' u' s' h => ?_) hs
      by_cases hr : r' = r
      · subst hr
        rw [(clearSessions_clears r' p).empty] at h
        cases h
      · rwa [(clearSessions_clears r p).other r' hr] at h
  | openRoom rid =>
      refine hl.of_shrink hok.placed hpeers hnext (fun s hs => .inl ?_)
        fun _ _ _ _ hx => by
          rwa [entry_of_sessHeap (insertRoom_sessHeap rid p)] at hx
      refine session_of_left (fun r' u' s' h => ?_) hs
      rw [insertRoom_room] at h
      split at h
      · cases h
      · exact h
  | closeRoom rid =>
      exact hl.of_shrink hok.placed hpeers hnext (fun s hs => .inl hs)
        fun _ _ _ _ hx => hx
  | take i =>
      exact hl.of_shrink hok.placed hpeers hnext (fun s hs => .inl hs)
        fun _ _ _ _ hx => hx

end Safe

/-! ## The names a message stores a peer under -/

/-- The role and the key of the peer that a message stores, if it stores
one. -/
def storeKey (j : JsonParser) : Option (Role × String) :=
  match command j with
  | some .push | some .fakeOffer => some (.publisher, getValue j .peerID)
  | some .sub => some (.subscriber, subKey (getValue j .sessID)
      (getValue j .srcSessID) (getValue j .peerID))
  | some .fakeSubscribe => some (.subscriber, subKey (getValue j .podId)
      (getValue j .srcSessID) (getValue j .peerID))
  | _ => none

/-- With the room and the user it goes to. -/
def Pod.storeTarget (p : Pod) (j : JsonParser) :
    Option (RoomRef × String × Role × String) :=
  (p.rooms.lookup (getValue j .roomId)).bind fun r =>
    (storeKey j).map fun e => (r, route j, e)

/-- No message stores a peer where a release that is already spawned will
look for its own. -/
def Unaimed (p : Pod) (a : Env × Input) : Prop :=
  ∀ m ∈ a.2.msg?, ∀ e ∈ p.storeTarget m, ∀ g ∈ p.pending,
    ∀ l ∈ g.release?, l.target p ≠ e

instance (p : Pod) (a : Env × Input) : Decidable (Unaimed p a) :=
  inferInstanceAs (Decidable (∀ m ∈ a.2.msg?, ∀ e ∈ p.storeTarget m,
    ∀ g ∈ p.pending, ∀ l ∈ g.release?, _))

section Adds

variable {j : JsonParser} {t : Peer}

theorem storeKey_of_adds (h : Adds p s j t) :
    storeKey j = some (t.role, t.key) := by
  unfold Adds at h
  split at h
  · next hc => rw [h]; simp only [storeKey, hc]; rfl
  · next hc => rw [h]; simp only [storeKey, hc]; rfl
  · next hc => obtain ⟨-, sdp, rfl⟩ := h; simp only [storeKey, hc]; rfl
  · next hc => obtain ⟨-, sdp, rfl⟩ := h; simp only [storeKey, hc]; rfl
  · exact h.elim

theorem publisher_of_adds (h : Adds p s j t) (hrole : t.role = .subscriber) :
    p.entry .publisher s t.peerid ≠ none := by
  unfold Adds at h
  split at h
  · rw [h] at hrole; cases hrole
  · rw [h] at hrole; cases hrole
  · obtain ⟨hpub, sdp, rfl⟩ := h; exact hpub
  · obtain ⟨hpub, sdp, rfl⟩ := h; exact hpub
  · exact h.elim

end Adds

section Added

variable {l : Release}

/-- A release that finds the session a message goes to is aimed at its user
and room. -/
theorem target_of_session (hok : PodOk p)
    (hsteps : ReflTransGen (Micro G I) p q) {r : RoomRef} {u : String}
    (hseat : (p.room r).sessions.lookup u = some s)
    (hs : l.session q = some s) :
    l.session p = some s ∧ l.target p = (r, u, l.role, l.key) := by
  obtain ⟨hu, hr, hlt⟩ := hok.sessions r u s hseat
  have hid := (ident_of_micros hsteps hlt).2
  unfold Release.session at hs ⊢
  unfold Release.target
  split at hs
  · next r' u' hvia =>
      obtain ⟨hu', hr', -⟩ :=
        (podOk_of_micros hsteps hok).sessions r' u' s hs
      have huid : (q.sess s).userid = (p.sess s).userid := congrArg (·.1) hid
      have hpar : (q.sess s).parent = (p.sess s).parent :=
        congrArg (·.2.2.2.2.2) hid
      have hru : r' = r ∧ u' = u :=
        ⟨hr'.symm.trans (hpar.trans hr), hu'.symm.trans (huid.trans hu)⟩
      obtain ⟨rfl, rfl⟩ := hru
      exact ⟨hseat, rfl⟩
  · next s' hvia =>
      cases hs
      simp only [hu, hr, and_self]

theorem spares_of_added {a : Input} {t : Peer} (hok : PodOk p)
    (hl : l.Safe p) (hsteps : ReflTransGen (Micro G I) p q)
    (hadd : Added p a s t)
    (hun : ∀ m ∈ a.msg?, ∀ e ∈ p.storeTarget m, l.target p ≠ e) :
    l.Spares q s t := by
  obtain ⟨m, r, ha, hr, hseat, hadds⟩ := hadd
  intro hs
  obtain ⟨hsess, htgt⟩ := target_of_session hok hsteps hseat hs
  constructor
  · rintro ⟨hrole, hkey⟩
    refine hun m (by rw [ha]; rfl) (r, route m, t.role, t.key) ?_ ?_
    · rw [Pod.storeTarget, hr, storeKey_of_adds hadds]
      rfl
    · rw [htgt, hrole, hkey]
  · intro hpub hrole hne hpid
    obtain ⟨x, hx⟩ := Option.ne_none_iff_exists'.mp
      (publisher_of_adds hadds hrole)
    have hcause : x = l.cause :=
      hl.own s hsess x (by rw [hpub, ← hpid]; exact hx)
    subst hcause
    have hpar := (Peer.ident_eq
      (peerIdent_of_micros hsteps hl.cause_lt).2).2.2.2.2.2.1
    rw [hpar] at hne
    exact hne (hok.placed _ _ _ _ hx).2.2.2.1.symm

theorem safe_of_micros {a : Input} (hok : PodOk p) (hl : l.Safe p)
    (hsteps : ReflTransGen (Micro G (Added p a)) p q)
    (hun : ∀ m ∈ a.msg?, ∀ e ∈ p.storeTarget m, l.target p ≠ e) :
    l.Safe q := by
  induction hsteps with
  | refl => exact hl
  | tail hsteps hm ih =>
      exact hm.safe (podOk_of_micros hsteps hok) ih fun s t hadd =>
        spares_of_added hok hl hsteps hadd hun

end Added

/-! ## At the spawn -/

/-- The user a peer belongs to, which is the user of its session. -/
def Peer.owner (t : Peer) : String :=
  match t.role with
  | .publisher => t.userid
  | .subscriber => t.remoteuserid

def Owned (t : Peer) (u : Session) : Prop := t.owner = u.userid

theorem owned_onIdent : OnIdent Owned := by
  intro a a' b b' ha hb h
  obtain ⟨hu, hru, -, hrole, -⟩ := Peer.ident_eq ha
  have huid : b'.userid = b.userid := congrArg (·.1) hb
  simp only [Owned, Peer.owner, hu, hru, hrole, huid]
  exact h

/-- What an input adds belongs to the user of the session it is added to. -/
theorem owned_of_roomAdds {r : RoomRef} {m : JsonParser} {t : Peer}
    (hok : PodOk p) (hadd : RoomAdds p r m s t) : Owned t (p.sess s) := by
  obtain ⟨hseat, hadds⟩ := hadd
  rw [Owned, (hok.sessions r _ s hseat).1]
  unfold Adds at hadds
  split at hadds
  · next hc => rw [hadds]; simp only [route, hc]; rfl
  · next hc => rw [hadds]; simp only [route, hc]; rfl
  · next hc => obtain ⟨-, sdp, rfl⟩ := hadds; simp only [route, hc]; rfl
  · next hc => obtain ⟨-, sdp, rfl⟩ := hadds; simp only [route, hc]; rfl
  · exact hadds.elim

theorem owned_of_added {a : Input} {t : Peer} (hok : PodOk p)
    (h : Added p a s t) : Owned t (p.sess s) := by
  obtain ⟨m, r, -, -, hadd⟩ := h
  exact owned_of_roomAdds hok hadd

theorem Homed.seat {role : Role} {k : String} {x : PeerRef} (hok : PodOk p)
    (hx : p.entry role s k = some x) :
    (p.room (p.sess s).parent).sessions.lookup (p.sess s).userid = some s := by
  obtain ⟨r, u, hseat⟩ := hok.homed role s k x hx
  obtain ⟨hu, hr, -⟩ := hok.sessions r u s hseat
  rw [hu, hr]
  exact hseat

/-- A release that leads to the session and the key of its cause is safe as
long as the cause stands there. -/
theorem safe_of_entry {l : Release} (hp : Placed p)
    (hx : p.entry l.role s l.key = some l.cause)
    (hs : ∀ s', l.session p = some s' → s' = s) : l.Safe p := by
  obtain ⟨hlt, hknown, hrole, hpar, hkey⟩ := hp _ _ _ _ hx
  refine ⟨hlt, fun s' hvia => ?_, fun hpub => ?_, fun s' hs' x hx' => ?_,
    fun s' hs' _ hne => ?_⟩
  · rw [hs s' (by simp only [Release.session, hvia])]
    exact hknown
  · rw [hpub] at hrole
    exact ⟨hrole, by rw [← hkey, Peer.key_publisher hrole]⟩
  · rw [hs s' hs', hx] at hx'
    exact (Option.some.inj hx').symm
  · exact absurd ((hs s' hs').trans hpar.symm) hne

theorem safe_of_freed {a : Input} {g : Goroutine} {l : Release} (hok : PodOk p)
    (hlives : Lives p) (howned : Linked Owned p) (hg : Freed p a g)
    (hl : g.release? = some l) : l.Safe p := by
  rcases hg with ⟨m, r, -, -, s, -, -, y, hy, rfl⟩ |
    ⟨x, st, -, hlt, hopen, hfor⟩
  · cases hl
    refine safe_of_entry (s := s) hok.placed hy fun s' hs' => ?_
    cases hs'
    rfl
  · have hm : Mapped p x := by
      by_contra hno
      rw [hlives.gone x hlt hno] at hopen
      cases hopen
    have hx := hok.placed.self hm
    have hseat := Homed.seat hok hx
    have howner : (p.peer x).owner = (p.sess (p.peer x).parent).userid :=
      howned _ _ _ _ hx
    rw [← howner] at hseat
    cases hrole : (p.peer x).role with
    | publisher =>
        rw [hrole, Peer.key_publisher hrole] at hx
        rw [show (p.peer x).owner = (p.peer x).userid by
          simp only [Peer.owner, hrole]] at hseat
        simp only [Pod.ReleaseFor, hrole] at hfor
        rcases hfor with rfl | rfl
        all_goals cases hl
        all_goals refine safe_of_entry hok.placed hx fun s' hs' => ?_
        all_goals exact Option.some.inj (hs'.symm.trans hseat)
    | subscriber =>
        rw [hrole, Peer.key_subscriber hrole] at hx
        rw [show (p.peer x).owner = (p.peer x).remoteuserid by
          simp only [Peer.owner, hrole]] at hseat
        simp only [Pod.ReleaseFor, hrole] at hfor
        rcases hfor with rfl | rfl
        all_goals cases hl
        all_goals refine safe_of_entry hok.placed hx fun s' hs' => ?_
        all_goals exact Option.some.inj (hs'.symm.trans hseat)

/-- An input that spawns a release stores no peer. -/
theorem storeTarget_of_freed {a : Input} {g : Goroutine} (hg : Freed p a g) :
    ∀ m ∈ a.msg?, p.storeTarget m = none := by
  intro m hm
  rcases hg with ⟨m', r, rfl, -, s, -, hc, -⟩ | ⟨x, st, rfl, -⟩
  · cases hm
    simp only [Pod.storeTarget, storeKey, hc]
    cases p.rooms.lookup (getValue m .roomId) <;> rfl
  · cases hm

/-! ## Runs -/

theorem Micro.pending (hm : Micro G I p q) {g : Goroutine}
    (hg : g ∈ q.pending) (hr : g.isRelease = true) : g ∈ p.pending ∨ G g := by
  cases hm with
  | asks h => exact h.spawned g hg hr
  | removes h => exact .inl (h.spawned g hg hr)
  | inserts h _ _ => exact .inl (by rwa [h.waiting] at hg)
  | seat r u t =>
      refine .inl ?_
      simpa [Pod.insertSession, Pod.unlock, Pod.lock, Pod.storeSession,
        Pod.setRoom, Pod.allocSess] using hg
  | openRoom rid =>
      refine .inl ?_
      simpa [Pod.insertRoom, Pod.unlock, Pod.lock, Pod.storeRoom,
        Pod.allocRoom] using hg
  | unseat r u _ => exact .inl hg
  | vacate r _ => exact .inl hg
  | closeRoom rid => exact .inl hg
  | take i => exact .inl (List.mem_of_mem_eraseIdx hg)

theorem pending_of_micros (h : ReflTransGen (Micro G I) p q) {g : Goroutine}
    (hg : g ∈ q.pending) (hr : g.isRelease = true) : g ∈ p.pending ∨ G g := by
  induction h with
  | refl => exact .inl hg
  | tail _ hm ih =>
      rcases hm.pending hg hr with h | h
      · exact ih h
      · exact .inr h

theorem lives_of_micros (h : ReflTransGen (Micro G I) p q) (hok : PodOk p)
    (hl : Lives p) : Lives q := by
  induction h with
  | refl => exact hl
  | tail hsteps hm ih => exact hm.lives (podOk_of_micros hsteps hok) ih

structure ReleasesOk (p : Pod) : Prop extends PodOk p where
  lives : Lives p
  owned : Linked Owned p
  safe : ∀ g ∈ p.pending, ∀ l, g.release? = some l → l.Safe p

theorem createRoomMgr_releasesOk (conf : Config) :
    ReleasesOk (Pod.createRoomMgr conf) where
  toPodOk := createRoomMgr_podOk conf
  lives := createRoomMgr_lives conf
  owned role s k x h := by cases role <;> cases h
  safe g hg := by cases hg

theorem step_releasesOk {a : Env × Input} (h : ReleasesOk p)
    (ha : Unaimed p a) (hs : Pod.step a p = some q) : ReleasesOk q := by
  have hsteps := step_does hs h.toPodOk
  refine ⟨podOk_of_micros hsteps h.toPodOk,
    lives_of_micros hsteps h.toPodOk h.lives,
    step_linked owned_onIdent h.toPodOk h.owned
      (fun s t => owned_of_added h.toPodOk) hs, fun g hg l hl => ?_⟩
  rcases pending_of_micros hsteps hg (isRelease_of_release? hl) with hold | hnew
  · exact safe_of_micros h.toPodOk (h.safe g hold l hl) hsteps
      fun m hm e he => ha m hm e he g hold l hl
  · refine safe_of_micros h.toPodOk
      (safe_of_freed h.toPodOk h.lives h.owned hnew hl) hsteps
      fun m hm e he => ?_
    rw [storeTarget_of_freed hnew m hm] at he
    cases he

theorem step_hitsOwn {a : Env × Input} (h : ReleasesOk p)
    (hs : Pod.step a p = some q) : HitsOwn p a q := by
  intro i g l ha hg hl x hx
  obtain ⟨env, inp⟩ := a
  dsimp only at ha
  subst ha
  unfold Pod.step at hs
  split at hs
  · cases hs
  · simp only [hg] at hs
    cases hs
    have hrem := runGoroutine_removes env
      (p := { p with pending := p.pending.eraseIdx i })
      (h.placed.of_heaps rfl rfl) hl
    exact (h.safe g (List.mem_of_getElem? hg) l hl).victims h.placed
      (hrem.of_hit hx)

/-- In every run in which no message stores a peer under the names of a
release that is already spawned, every release hits its own peer only. -/
theorem releases_hit_own {conf : Config} {as : List (Env × Input)}
    (hg : Guarded Pod.step Unaimed as (Pod.createRoomMgr conf)) :
    AlwaysStep Pod.step HitsOwn as (Pod.createRoomMgr conf) :=
  alwaysStep_of_guarded (fun _ _ _ h ha hs =>
    ⟨step_releasesOk h ha hs, step_hitsOwn h hs⟩) hg
    (createRoomMgr_releasesOk conf)

/-- The connection of a publisher fails, and its client publishes again before
the release runs. -/
def republish : List (Env × Input) :=
  [(Env.calm, .setSendMessageHandler),
    (Env.calm, .message (Cmd.login.msg [(.roomId, "R"), (.sessID, "u")])),
    (Env.calm, .message (Cmd.push.msg
      [(.roomId, "R"), (.sessID, "u"), (.peerID, "1")])),
    (Env.calm, .ice 0 .failed),
    (Env.calm, .message (Cmd.push.msg
      [(.roomId, "R"), (.sessID, "u"), (.peerID, "1")]))]

theorem release_hits_replacement :
    ∃ p q, Pod.Reachable (Config.standalone "podA") p ∧
      (p.sess 0).publishers.lookup "1" = some 1 ∧
      Pod.step (Env.calm, .go 0) p = some q ∧
      (p.pending.head?.bind Goroutine.release?).map Release.cause = some 0 ∧
      Hit p q 1 ∧ ¬HitsOwn p (Env.calm, .go 0) q := by
  have h : ((run Pod.step republish
      (Pod.createRoomMgr (Config.standalone "podA"))).bind fun p =>
        (Pod.step (Env.calm, .go 0) p).map fun q =>
          ((p.sess 0).publishers.lookup "1", p.pending[0]?, (p.peer 1).role,
            (p.peer 1).closed, (q.peer 1).closed)) =
      some (some 1, some (.onPublisherPeerFailed 0 "u" "1" 0), .publisher, 0,
        1) := by decide
  obtain ⟨p, hp, hrest⟩ := Option.bind_eq_some_iff.mp h
  obtain ⟨q, hq, hfacts⟩ := Option.map_eq_some_iff.mp hrest
  simp only [Prod.mk.injEq] at hfacts
  obtain ⟨hpub, hpend, hrole, hbefore, hafter⟩ := hfacts
  have hhit : Hit p q 1 := .inl (by rw [hbefore, hafter]; decide)
  refine ⟨p, q, ⟨republish, hp⟩, hpub, hq, ?_, hhit, fun hown => ?_⟩
  · rw [List.head?_eq_getElem?, hpend]
    rfl
  · rcases hown 0 _ _ rfl hpend rfl 1 hhit with hc | ⟨-, hsub, -⟩
    · cases hc
    · rw [hrole] at hsub
      cases hsub

/-- If the release runs before the client publishes again, it hits the old
publisher. -/
theorem release_before_republish :
    (run Pod.step (republish.insertIdx 4 (Env.calm, .go 0))
      (Pod.createRoomMgr (Config.standalone "podA"))).map (fun p =>
        ((p.peer 0).closed, (p.peer 1).closed)) = some (1, 0) ∧
    AlwaysStep Pod.step HitsOwn (republish.insertIdx 4 (Env.calm, .go 0))
      (Pod.createRoomMgr (Config.standalone "podA")) :=
  ⟨by decide, releases_hit_own (by decide)⟩

end MediaServer.Ref
