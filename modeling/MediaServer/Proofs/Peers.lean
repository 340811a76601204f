import MediaServer.Proofs.Frame
import Mathlib.Data.Set.BooleanAlgebra
import Mathlib.Data.Set.Insert
import Mathlib.Logic.Relation
import Mathlib.Order.CompletePartialOrder

/-!
# Peers come and go

A peer enters a map once, when it is created, and leaves it by being
destroyed. The file says so in two steps. `Removes X` is the effect of the
sections that destroy: exactly the peers of `X`, all of them entries of some
map, lost their entry and were destroyed once, and everything else about maps
and peers is as before. `Inserts s t` is the effect of those that store a new
peer. `Steps.lean` takes every call of the server apart into these two and
into changes that touch no peer, so that an invariant of peers and maps is
proved for the two and holds along every call.

Both rest on one invariant, `Placed`: every entry stands where the fields of
its peer say. It is what makes a peer the entry of one map and one key only,
so that deleting the key a section works on takes out the peer that it
destroyed.
-/

namespace MediaServer.Ref

open MediaServer.Lib

variable {p q r : Pod} {role : Role} {s : SessRef} {k : String} {x y : PeerRef}
variable {X Y : Set PeerRef}

/-! ## Maps and places

A publisher and a subscriber live in different maps of the session, under
different keys; the role of a peer says which. -/

def Session.peers (t : Session) : Role → GoMap PeerRef
  | .publisher => t.publishers
  | .subscriber => t.subscribers

def Pod.entry (p : Pod) (role : Role) (s : SessRef) (k : String) :
    Option PeerRef := ((p.sess s).peers role).lookup k

/-- The key a peer is stored under. -/
def Peer.key (t : Peer) : String :=
  match t.role with
  | .publisher => t.peerid
  | .subscriber => subKey t.userid t.remoteuserid t.peerid

theorem Peer.key_publisher {t : Peer} (h : t.role = .publisher) :
    t.key = t.peerid := by simp only [Peer.key, h]

theorem Peer.key_subscriber {t : Peer} (h : t.role = .subscriber) :
    t.key = subKey t.userid t.remoteuserid t.peerid := by
  simp only [Peer.key, h]

theorem Peer.key_eq {a b : Peer} (h : a.ident = b.ident) : a.key = b.key := by
  obtain ⟨hu, hru, hpid, hrole, -⟩ := Peer.ident_eq h
  simp only [Peer.key, hu, hru, hpid, hrole]

/-- The peer is an entry of some map. -/
def Mapped (p : Pod) (x : PeerRef) : Prop := ∃ role s k, p.entry role s k = some x

/-- Every entry stands where the fields of its peer say. -/
def Placed (p : Pod) : Prop :=
  ∀ role s k x, p.entry role s k = some x →
    x < p.peerHeap.next ∧ s < p.sessHeap.next ∧ (p.peer x).role = role ∧
      (p.peer x).parent = s ∧ (p.peer x).key = k

theorem Placed.lt (h : Placed p) (hx : Mapped p x) : x < p.peerHeap.next := by
  obtain ⟨role, s, k, hx⟩ := hx
  exact (h role s k x hx).1

/-- A peer is the entry of one key of one map of one session. -/
theorem Placed.unique (h : Placed p) {role' : Role} {s' : SessRef}
    {k' : String} (hx : p.entry role s k = some x)
    (hx' : p.entry role' s' k' = some x) : role' = role ∧ s' = s ∧ k' = k := by
  obtain ⟨-, -, hr, hs, hk⟩ := h role s k x hx
  obtain ⟨-, -, hr', hs', hk'⟩ := h role' s' k' x hx'
  exact ⟨hr'.symm.trans hr, hs'.symm.trans hs, hk'.symm.trans hk⟩

theorem Placed.self (h : Placed p) (hx : Mapped p x) :
    p.entry (p.peer x).role (p.peer x).parent (p.peer x).key = some x := by
  obtain ⟨role, s, k, hx⟩ := hx
  obtain ⟨-, -, hr, hs, hk⟩ := h role s k x hx
  rw [hr, hs, hk]
  exact hx

theorem Asks.entry {G : Goroutine → Prop} (h : Asks G p q) (role : Role)
    (s : SessRef) (k : String) : q.entry role s k = p.entry role s k := by
  cases role with
  | publisher => simp only [Pod.entry, Session.peers, h.pubs]
  | subscriber => simp only [Pod.entry, Session.peers, h.subs]

/-! ## Removals -/

/-- Exactly the peers of `X` were destroyed and lost their entries. -/
structure Removes (X : Set PeerRef) (p q : Pod) : Prop
    extends SameStore p q where
  entry : ∀ role s k x, q.entry role s k = some x ↔
    p.entry role s k = some x ∧ x ∉ X
  peerNext : q.peerHeap.next = p.peerHeap.next
  peerIdent : ∀ x, (q.peer x).ident = (p.peer x).ident
  hit : ∀ x ∈ X, Mapped p x ∧ (q.peer x).closed = (p.peer x).closed + 1
  miss : ∀ x ∉ X, (q.peer x).closed = (p.peer x).closed
  spawned : ∀ g ∈ q.pending, g.isRelease = true → g ∈ p.pending

theorem Removes.mapped (h : Removes X p q) (x : PeerRef) :
    Mapped q x ↔ Mapped p x ∧ x ∉ X := by
  simp only [Mapped, h.entry, exists_and_right]

theorem Asks.removes (h : Quiet p q) : Removes ∅ p q where
  toSameStore := h.toSameStore
  entry role s k x := by simp [h.entry]
  peerNext := h.peerNext
  peerIdent := h.peerIdent
  hit x hx := absurd hx (Set.notMem_empty x)
  miss x _ := h.closed x
  spawned g hg hr := (h.spawned g hg hr).resolve_right id

/-- What is destroyed later was still there, so no peer is hit twice. -/
theorem Removes.trans (h : Removes X p q) (h' : Removes Y q r) :
    Removes (X ∪ Y) p r where
  toSameStore := h.toSameStore.trans h'.toSameStore
  entry role s k x := by
    rw [h'.entry, h.entry, Set.mem_union]
    tauto
  peerNext := h'.peerNext.trans h.peerNext
  peerIdent x := (h'.peerIdent x).trans (h.peerIdent x)
  hit x hx := by
    by_cases hY : x ∈ Y
    · obtain ⟨hm, hc⟩ := h'.hit x hY
      obtain ⟨hmp, hX⟩ := (h.mapped x).mp hm
      exact ⟨hmp, by rw [hc, h.miss x hX]⟩
    · obtain ⟨hm, hc⟩ := h.hit x (hx.resolve_right hY)
      exact ⟨hm, by rw [h'.miss x hY, hc]⟩
  miss x hx := by
    rw [Set.mem_union, not_or] at hx
    rw [h'.miss x hx.2, h.miss x hx.1]
  spawned g hg hr := h.spawned g (h'.spawned g hg hr) hr

theorem Removes.trans_quiet (h : Removes X p q) (h' : Quiet q r) :
    Removes X p r := by
  have h := h.trans h'.removes
  rwa [Set.union_empty] at h

theorem Asks.trans_removes (h : Quiet p q) (h' : Removes X q r) :
    Removes X p r := by
  have h := h.removes.trans h'
  rwa [Set.empty_union] at h

theorem Placed.of_removes (hp : Placed p) (h : Removes X p q) : Placed q := by
  intro role s k x hx
  obtain ⟨hlt, hs, hrole, hpar, hk⟩ :=
    hp role s k x ((h.entry role s k x).mp hx).1
  obtain ⟨-, -, -, hrole', -, hpar', -⟩ := Peer.ident_eq (h.peerIdent x)
  refine ⟨by rw [h.peerNext]; exact hlt, by rw [h.sessNext]; exact hs, ?_⟩
  rw [hrole', hpar', Peer.key_eq (h.peerIdent x)]
  exact ⟨hrole, hpar, hk⟩

theorem Placed.of_quiet (hp : Placed p) (h : Quiet p q) : Placed q :=
  hp.of_removes h.removes

/-! ## The sections that destroy -/

namespace Pod

@[simp] theorem destroy_sess (p : Pod) (x : PeerRef) (s : SessRef) :
    (p.destroy x).sess s = p.sess s := by
  unfold destroy
  dsimp only
  split
  · simp [throw, sess, setPeer]
  · simp [sess, setPeer]

theorem destroy_peer (p : Pod) (x y : PeerRef) :
    (p.destroy x).peer y =
      if y = x then { p.peer y with closed := (p.peer y).closed + 1 }
      else p.peer y := by
  have h : ((p.emit (.destroy x)).setPeer x
      fun q => { q with closed := q.closed + 1 }).peer y =
      if y = x then { p.peer y with closed := (p.peer y).closed + 1 }
      else p.peer y := by rw [setPeer_peer, emit_peer]
  unfold destroy
  dsimp only
  split
  · exact h
  · exact h

theorem destroy_peerNext (p : Pod) (x : PeerRef) :
    (p.destroy x).peerHeap.next = p.peerHeap.next := by
  unfold destroy
  dsimp only
  split
  · simp [throw, setPeer]
  · simp [setPeer]

theorem destroy_pending (p : Pod) (x : PeerRef) :
    (p.destroy x).pending = p.pending := by
  unfold destroy
  dsimp only
  split
  · simp [throw, setPeer]
  · simp [setPeer]

theorem destroy_peerIdent (p : Pod) (x y : PeerRef) :
    ((p.destroy x).peer y).ident = (p.peer y).ident := by
  rw [destroy_peer]
  split
  · rfl
  · rfl

theorem destroy_closed (p : Pod) (x y : PeerRef) :
    ((p.destroy x).peer y).closed =
      if y = x then (p.peer y).closed + 1 else (p.peer y).closed := by
  rw [destroy_peer]
  split
  · rfl
  · rfl

/-- A write to one of the two maps of a session. -/
theorem setSess_entry {own : Role} {f : Session → Session} {C : Prop}
    [Decidable C] {v : Option PeerRef} {i : SessRef} {l : String}
    (hown : ((f (p.sess s)).peers own).lookup l =
      if C then v else p.entry own s l)
    (hother : ∀ r ≠ own, (f (p.sess s)).peers r = (p.sess s).peers r) :
    (p.setSess s f).entry role i l =
      if role = own ∧ i = s ∧ C then v else p.entry role i l := by
  rw [entry, setSess_sess]
  by_cases hi : i = s
  · subst hi
    rw [if_pos rfl]
    by_cases hr : role = own
    · subst hr
      simp only [hown, true_and]
    · simp only [hother role hr, hr, false_and, if_false, entry]
  · simp only [hi, if_neg, not_false_iff, false_and, and_false, entry]

theorem erasePublisher_entry (p : Pod) (i : SessRef) (l : String) :
    (p.erasePublisher s k).entry role i l =
      if role = .publisher ∧ i = s ∧ l = k then none else p.entry role i l :=
  setSess_entry (GoMap.lookup_erase_eq _ k l) fun r hr => by
    cases r with
    | publisher => exact absurd rfl hr
    | subscriber => rfl

theorem eraseSubscriber_entry (p : Pod) (i : SessRef) (l : String) :
    (p.eraseSubscriber s k).entry role i l =
      if role = .subscriber ∧ i = s ∧ l = k then none
      else p.entry role i l :=
  setSess_entry (GoMap.lookup_erase_eq _ k l) fun r hr => by
    cases r with
    | publisher => rfl
    | subscriber => exact absurd rfl hr

end Pod

/-- Exactly the peers of `X` were destroyed; the maps still hold them. -/
structure Destroys (X : Set PeerRef) (p q : Pod) : Prop
    extends SameStore p q where
  entry : ∀ role s k, q.entry role s k = p.entry role s k
  peerNext : q.peerHeap.next = p.peerHeap.next
  peerIdent : ∀ x, (q.peer x).ident = (p.peer x).ident
  hit : ∀ x ∈ X, (q.peer x).closed = (p.peer x).closed + 1
  miss : ∀ x ∉ X, (q.peer x).closed = (p.peer x).closed
  spawned : ∀ g ∈ q.pending, g.isRelease = true → g ∈ p.pending

theorem Asks.destroys (h : Quiet p q) : Destroys ∅ p q where
  toSameStore := h.toSameStore
  entry := h.entry
  peerNext := h.peerNext
  peerIdent := h.peerIdent
  hit x hx := absurd hx (Set.notMem_empty x)
  miss x _ := h.closed x
  spawned g hg hr := (h.spawned g hg hr).resolve_right id

theorem Destroys.trans (h : Destroys X p q) (h' : Destroys Y q r)
    (hXY : Disjoint X Y) : Destroys (X ∪ Y) p r where
  toSameStore := h.toSameStore.trans h'.toSameStore
  entry role s k := (h'.entry role s k).trans (h.entry role s k)
  peerNext := h'.peerNext.trans h.peerNext
  peerIdent x := (h'.peerIdent x).trans (h.peerIdent x)
  hit x hx := by
    rcases hx with hX | hY
    · rw [h'.miss x (Set.disjoint_left.mp hXY hX), h.hit x hX]
    · rw [h'.hit x hY, h.miss x (Set.disjoint_right.mp hXY hY)]
  miss x hx := by
    rw [Set.mem_union, not_or] at hx
    rw [h'.miss x hx.2, h.miss x hx.1]
  spawned g hg hr := h.spawned g (h'.spawned g hg hr) hr

theorem Asks.trans_destroys (h : Quiet p q) (h' : Destroys X q r) :
    Destroys X p r := by
  have h := h.destroys.trans h' (Set.empty_disjoint X)
  rwa [Set.empty_union] at h

theorem Pod.destroy_destroys (p : Pod) (x : PeerRef) :
    Destroys {x} p (p.destroy x) where
  toSameStore := p.destroy_sameStore x
  entry role s k := by simp only [Pod.entry, Pod.destroy_sess]
  peerNext := p.destroy_peerNext x
  peerIdent := p.destroy_peerIdent x
  hit y hy := (p.destroy_closed x y).trans (if_pos hy)
  miss y hy := (p.destroy_closed x y).trans (if_neg hy)
  spawned g hg _ := by rwa [p.destroy_pending] at hg

/-- A loop that destroys the entries of a map, one after the other. -/
theorem Destroys.foldl {α : Type} {f : Pod → α → Pod} {ref : α → PeerRef}
    (hf : ∀ p a, Destroys {ref a} p (f p a)) {l : List α}
    (hl : (l.map ref).Nodup) (p : Pod) :
    Destroys {x | x ∈ l.map ref} p (l.foldl f p) := by
  induction l generalizing p with
  | nil =>
      have h := (Asks.refl (G := fun _ => False) p).destroys
      simpa using h
  | cons a l ih =>
      rw [List.map_cons, List.nodup_cons] at hl
      have h := (hf p a).trans (ih hl.2 (f p a))
        (Set.disjoint_singleton_left.mpr hl.1)
      have hset : {x | x ∈ (a :: l).map ref} =
          {ref a} ∪ {x | x ∈ l.map ref} := by
        ext x
        simp only [List.map_cons, List.mem_cons, Set.mem_ofPred_eq,
          Set.mem_union, Set.mem_singleton_iff]
      rw [hset]
      exact h

/-- Deleting the places `E` after destroying exactly the peers that stand in
them. -/
theorem Destroys.removes {p₁ : Pod} {E : Role → SessRef → String → Prop}
    (hd : Destroys X p p₁) (hp : Placed p) (hstore : SameStore p₁ q)
    (hpeers : q.peerHeap = p₁.peerHeap) (hpend : q.pending = p₁.pending)
    (hq : ∀ role i l x, q.entry role i l = some x ↔
      p₁.entry role i l = some x ∧ ¬E role i l)
    (hX : ∀ x, x ∈ X ↔ ∃ role i l, E role i l ∧ p.entry role i l = some x) :
    Removes X p q where
  toSameStore := hd.toSameStore.trans hstore
  entry role i l y := by
    rw [hq, hd.entry]
    refine and_congr_right fun hy => not_congr ?_
    rw [hX]
    constructor
    · intro hE
      exact ⟨role, i, l, hE, hy⟩
    · rintro ⟨role', i', l', hE, hy'⟩
      obtain ⟨rfl, rfl, rfl⟩ := hp.unique hy hy'
      exact hE
  peerNext := by rw [hpeers, hd.peerNext]
  peerIdent y := by rw [← hd.peerIdent y, Pod.peer, Pod.peer, hpeers]
  hit y hy := by
    obtain ⟨role, i, l, -, hmap⟩ := (hX y).mp hy
    refine ⟨⟨role, i, l, hmap⟩, ?_⟩
    rw [← hd.hit y hy, Pod.peer, Pod.peer, hpeers]
  miss y hy := by rw [← hd.miss y hy, Pod.peer, Pod.peer, hpeers]
  spawned g hg hr := hd.spawned g (by rwa [hpend] at hg) hr

/-- One peer is destroyed, and its key is deleted. -/
theorem Destroys.removes_one {p₁ : Pod} {role : Role}
    (hd : Destroys {x} p p₁) (hp : Placed p) (hx : p.entry role s k = some x)
    (hstore : SameStore p₁ q) (hpeers : q.peerHeap = p₁.peerHeap)
    (hpend : q.pending = p₁.pending)
    (hq : ∀ role' i l, q.entry role' i l =
      if role' = role ∧ i = s ∧ l = k then none else p₁.entry role' i l) :
    Removes {x} p q := by
  refine hd.removes (E := fun role' i l => role' = role ∧ i = s ∧ l = k) hp
    hstore hpeers hpend (fun role' i l y => ?_) (fun y => ?_)
  · rw [hq]
    split
    · next hE => simp [hE]
    · next hE => simp [hE]
  · rw [Set.mem_singleton_iff]
    constructor
    · rintro rfl
      exact ⟨_, _, _, ⟨rfl, rfl, rfl⟩, hx⟩
    · rintro ⟨_, _, _, ⟨rfl, rfl, rfl⟩, hy⟩
      exact Option.some.inj (hy.symm.trans hx)

namespace Pod

theorem destroyErase_removes (hp : Placed p)
    (hx : p.entry .publisher s k = some x) :
    Removes {x} p ((p.destroy x).erasePublisher s k) :=
  (p.destroy_destroys x).removes_one hp hx (erasePublisher_sameStore _ s k) rfl
    rfl fun _ => erasePublisher_entry _

theorem dropSubscriber_removes (hp : Placed p)
    (hx : p.entry .subscriber s k = some x) :
    Removes {x} p (p.dropSubscriber s x k) :=
  (p.destroy_destroys x).removes_one hp hx (eraseSubscriber_sameStore _ s k)
    rfl rfl fun _ => eraseSubscriber_entry _

theorem dropPublisher_removes (hp : Placed p)
    (hx : p.entry .publisher s k = some x) :
    Removes {x} p (p.dropPublisher s x k) := by
  have hn := p.stopNotify_quiet s x k
  refine hn.trans_removes (destroyErase_removes (hp.of_quiet hn) ?_)
  rw [hn.entry]
  exact hx

/-- A removal between a lock and its unlock. -/
theorem bracket_removes {m m' : LockOp Mutex} {f : Pod → Pod} (hp : Placed p)
    (hf : Placed (p.emit (.sync m)) →
      Removes X (p.emit (.sync m)) (f (p.emit (.sync m)))) :
    Removes X p ((f (p.emit (.sync m))).emit (.sync m')) :=
  ((p.emit_quiet _).trans_removes
    (hf (hp.of_quiet (p.emit_quiet _)))).trans_quiet (emit_quiet _ _)

theorem replacePublisher_removes (hp : Placed p)
    (hx : p.entry .publisher s k = some x) :
    Removes {x} p (p.replacePublisher s x k) :=
  bracket_removes (f := fun p => p.dropPublisher s x k) hp fun h =>
    dropPublisher_removes h (by rw [(p.emit_quiet _).entry]; exact hx)

theorem stopSection_removes (hp : Placed p)
    (hx : p.entry .publisher s k = some x) :
    Removes {x} p (p.stopSection s x k) :=
  bracket_removes (f := fun p => p.dropPublisher s x k) hp fun h =>
    dropPublisher_removes h (by rw [(p.emit_quiet _).entry]; exact hx)

theorem replaceSubscriber_removes (hp : Placed p)
    (hy : p.entry .subscriber s k = some y) :
    Removes {y} p (p.replaceSubscriber s k) := by
  have hlook : ((p.lock (.subs s)).sess s).subscribers.lookup k = some y := by
    rw [lock, emit_sess]; exact hy
  unfold replaceSubscriber
  simp only [hlook]
  exact bracket_removes (f := fun p => p.dropSubscriber s y k) hp fun h =>
    dropSubscriber_removes h (by rw [(p.emit_quiet _).entry]; exact hy)

/-- A subscriber that is gone by now is a nil pointer. -/
theorem replaceSubscriber_quiet
    (hy : (p.sess s).subscribers.lookup k = none) :
    Quiet p (p.replaceSubscriber s k) := by
  have hlook : ((p.lock (.subs s)).sess s).subscribers.lookup k = none := by
    rw [lock, emit_sess]; exact hy
  unfold replaceSubscriber
  simp only [hlook]
  exact (p.emit_quiet _).trans (throw_quiet _)

theorem removes_found {o : Option PeerRef} (hx : o = some x)
    (h : Removes {x} p q) : Removes {y | o = some y} p q := by
  have hset : {y | o = some y} = {x} := by
    ext y
    simp only [Set.mem_ofPred_eq, Set.mem_singleton_iff, hx, Option.some.injEq]
    exact eq_comm
  rw [hset]
  exact h

theorem removes_missing {o : Option PeerRef} (ho : o = none) :
    Removes {y | o = some y} p p := by
  have hset : {y | o = some y} = ∅ := by ext y; simp [ho]
  rw [hset]
  exact (Asks.refl p).removes

theorem releasePubs_removes (hp : Placed p) :
    Removes {x | p.entry .publisher s k = some x} p (p.releasePubs s k) := by
  have hlock := p.emit_quiet (.sync (.lock (.pubs s)))
  rw [← hlock.entry]
  refine (hlock.trans_removes ?_).trans_quiet (emit_quiet _ _)
  split
  · next x hx =>
      exact removes_found hx (dropPublisher_removes (hp.of_quiet hlock) hx)
  · next hx => exact removes_missing hx

theorem releaseSubscriberPeer_removes (hp : Placed p) (sid ssid pid : String) :
    Removes {x | p.entry .subscriber s (subKey sid ssid pid) = some x} p
      (p.releaseSubscriberPeer s sid ssid pid) := by
  have hlock := p.emit_quiet (.sync (.lock (.subs s)))
  rw [← hlock.entry]
  refine (hlock.trans_removes ?_).trans_quiet (emit_quiet _ _)
  split
  · next y hy =>
      exact removes_found hy (dropSubscriber_removes (hp.of_quiet hlock) hy)
  · next hy => exact removes_missing hy

/-- The loop of `ReleasePublisher` over the subscribers: each entry is still
there when its turn comes, because the keys are different. -/
theorem releaseSubsOf_foldl (s : SessRef) (pid : String)
    (l : List ((_ : String) × PeerRef)) (p : Pod) (hp : Placed p)
    (hl : ∀ e ∈ l, p.entry .subscriber s e.1 = some e.2)
    (hnd : (l.map Sigma.fst).Nodup) :
    Removes {y | ∃ e ∈ l, e.2 = y ∧ (p.peer y).peerid = pid} p
      (l.foldl (fun p e => p.releaseSubsOf s pid e.2) p) := by
  induction l generalizing p with
  | nil =>
      have h := (Asks.refl (G := fun _ => False) p).removes
      simpa using h
  | cons e l ih =>
      rw [List.map_cons, List.nodup_cons] at hnd
      have he := hl e List.mem_cons_self
      obtain ⟨-, -, hrole, -, hkey⟩ := hp _ _ _ _ he
      simp only [Peer.key, hrole] at hkey
      have hone : Removes {y | e.2 = y ∧ (p.peer y).peerid = pid} p
          (p.releaseSubsOf s pid e.2) := by
        unfold releaseSubsOf
        split
        · next hpid =>
            have hset : {y | e.2 = y ∧ (p.peer y).peerid = pid} = {e.2} := by
              ext y
              simp only [Set.mem_ofPred_eq, Set.mem_singleton_iff]
              exact ⟨fun h => h.1.symm, fun h => by subst h; exact ⟨rfl, hpid⟩⟩
            rw [hset, hkey]
            exact dropSubscriber_removes hp he
        · next hpid =>
            have hset : {y | e.2 = y ∧ (p.peer y).peerid = pid} = ∅ := by
              ext y
              simp only [Set.mem_ofPred_eq, Set.mem_empty_iff_false,
                iff_false, not_and]
              rintro rfl
              exact hpid
            rw [hset]
            exact (Asks.refl p).removes
      have hrest := ih (p.releaseSubsOf s pid e.2) (hp.of_removes hone) (by
        intro e' he'
        refine (hone.entry _ _ _ _).mpr ⟨hl e' (List.mem_cons_of_mem _ he'), ?_⟩
        rintro ⟨heq, -⟩
        have hk := (hp.unique he (heq ▸ hl e' (List.mem_cons_of_mem _ he'))).2.2
        exact hnd.1 (hk ▸ List.mem_map_of_mem he')) hnd.2
      have hset : {y | ∃ e' ∈ e :: l, e'.2 = y ∧ (p.peer y).peerid = pid} =
          {y | e.2 = y ∧ (p.peer y).peerid = pid} ∪
            {y | ∃ e' ∈ l, e'.2 = y ∧
              ((p.releaseSubsOf s pid e.2).peer y).peerid = pid} := by
        ext y
        have hpid := (Peer.ident_eq (hone.peerIdent y)).2.2.1
        simp only [Set.mem_ofPred_eq, Set.mem_union, List.mem_cons, hpid,
          exists_eq_or_imp]
      rw [hset]
      exact hone.trans hrest

theorem releaseSubs_removes (hp : Placed p) (pid : String) :
    Removes {y | ∃ k, p.entry .subscriber s k = some y ∧
      (p.peer y).peerid = pid} p (p.releaseSubs s pid) := by
  have hlock := p.emit_quiet (.sync (.lock (.subs s)))
  refine (hlock.trans_removes ?_).trans_quiet (emit_quiet _ _)
  have h := releaseSubsOf_foldl s pid
    ((p.lock (.subs s)).sess s).subscribers.entries (p.lock (.subs s))
    (hp.of_quiet hlock) (fun e he => GoMap.mem_entries.mp he)
    ((p.lock (.subs s)).sess s).subscribers.nodupKeys
  have hset : {y | ∃ k, p.entry .subscriber s k = some y ∧
      (p.peer y).peerid = pid} =
      {y | ∃ e ∈ ((p.lock (.subs s)).sess s).subscribers.entries, e.2 = y ∧
        ((p.lock (.subs s)).peer y).peerid = pid} := by
    ext y
    simp only [Set.mem_ofPred_eq, lock, emit_sess, emit_peer]
    constructor
    · rintro ⟨k, hk, hpid⟩
      exact ⟨⟨k, y⟩, GoMap.mem_entries.mpr hk, rfl, hpid⟩
    · rintro ⟨⟨k, z⟩, hk, rfl, hpid⟩
      exact ⟨k, GoMap.mem_entries.mp hk, hpid⟩
  rw [hset]
  exact h

/-- `ReleasePublisher` takes the publisher of the key and the subscribers with
its peer id. -/
theorem releasePublisher_removes (env : Env) (hp : Placed p) (pid : String) :
    Removes ({x | p.entry .publisher s pid = some x} ∪
        {y | ∃ k, p.entry .subscriber s k = some y ∧ (p.peer y).peerid = pid})
      p (p.releasePublisher env s pid) := by
  have h := releasePubs_removes (s := s) (k := pid) hp
  have h' := releaseSubs_removes (s := s) (hp.of_removes h) pid
  have hset : {y | ∃ k, (p.releasePubs s pid).entry .subscriber s k = some y ∧
      ((p.releasePubs s pid).peer y).peerid = pid} =
      {y | ∃ k, p.entry .subscriber s k = some y ∧
        (p.peer y).peerid = pid} := by
    ext y
    have hpid := (Peer.ident_eq (h.peerIdent y)).2.2.1
    simp only [Set.mem_ofPred_eq, hpid]
    constructor
    · rintro ⟨k, hk, hpid⟩
      exact ⟨k, ((h.entry _ _ _ _).mp hk).1, hpid⟩
    · rintro ⟨k, hk, hpid⟩
      refine ⟨k, (h.entry _ _ _ _).mpr ⟨hk, fun hx => ?_⟩, hpid⟩
      cases (hp.unique hx hk).1
  rw [hset] at h'
  exact (h.trans h').trans_quiet (notifyReleasePublish_quiet env s pid _)

theorem clearPublishers_entry (p : Pod) (i : SessRef) (l : String) :
    (p.clearPublishers s).entry role i l =
      if role = .publisher ∧ i = s then none else p.entry role i l := by
  suffices h : _ = if role = .publisher ∧ i = s ∧ True then none else _ by
    simpa only [and_true] using h
  refine setSess_entry rfl fun r hr => ?_
  cases r with
  | publisher => exact absurd rfl hr
  | subscriber => rfl

theorem clearSubscribers_entry (p : Pod) (i : SessRef) (l : String) :
    (p.clearSubscribers s).entry role i l =
      if role = .subscriber ∧ i = s then none else p.entry role i l := by
  suffices h : _ = if role = .subscriber ∧ i = s ∧ True then none else _ by
    simpa only [and_true] using h
  refine setSess_entry rfl fun r hr => ?_
  cases r with
  | publisher => rfl
  | subscriber => exact absurd rfl hr

/-- The peers that stand in one map of a session. -/
def entries (p : Pod) (role : Role) (s : SessRef) : Set PeerRef :=
  {x | ∃ k, p.entry role s k = some x}

theorem mem_entries (p : Pod) (role : Role) (s : SessRef) (x : PeerRef) :
    x ∈ p.entries role s ↔
      x ∈ ((p.sess s).peers role).entries.map Sigma.snd := by
  rw [List.mem_map]
  constructor
  · rintro ⟨k, hk⟩
    exact ⟨⟨k, x⟩, GoMap.mem_entries.mpr hk, rfl⟩
  · rintro ⟨⟨k, y⟩, hk, rfl⟩
    exact ⟨k, GoMap.mem_entries.mp hk⟩

theorem nodup_entries (hp : Placed p) (role : Role) (s : SessRef) :
    (((p.sess s).peers role).entries.map Sigma.snd).Nodup := by
  refine List.Nodup.map_on ?_
    (List.NodupKeys.nodup ((p.sess s).peers role).nodupKeys)
  rintro ⟨k, x⟩ hk ⟨k', x'⟩ hk' rfl
  obtain ⟨-, -, rfl⟩ := hp.unique (GoMap.mem_entries.mp hk)
    (GoMap.mem_entries.mp hk')
  rfl

/-- Destroying every entry of a map and replacing it by an empty one. -/
theorem clear_removes {f : Pod → (_ : String) × PeerRef → Pod}
    (hf : ∀ p e, Destroys {e.2} p (f p e)) {clear : Pod → Pod}
    (hp : Placed p) (hstore : ∀ p, SameStore p (clear p))
    (hpeers : ∀ p, (clear p).peerHeap = p.peerHeap)
    (hpend : ∀ p, (clear p).pending = p.pending)
    (hclear : ∀ (p : Pod) role' i l, (clear p).entry role' i l =
      if role' = role ∧ i = s then none else p.entry role' i l) :
    Removes (p.entries role s) p
      (clear (((p.sess s).peers role).entries.foldl f p)) := by
  have hd := Destroys.foldl hf (nodup_entries hp role s) p
  have hset : {x | x ∈ ((p.sess s).peers role).entries.map Sigma.snd} =
      p.entries role s := by
    ext x
    exact (p.mem_entries role s x).symm
  rw [hset] at hd
  refine hd.removes (E := fun role' i _ => role' = role ∧ i = s) hp
    (hstore _) (hpeers _) (hpend _) (fun role' i l y => ?_) (fun y => ?_)
  · rw [hclear]
    split
    · next hE => simp [hE]
    · next hE => simp [hE]
  · constructor
    · rintro ⟨k, hk⟩
      exact ⟨role, s, k, ⟨rfl, rfl⟩, hk⟩
    · rintro ⟨_, _, k, ⟨rfl, rfl⟩, hk⟩
      exact ⟨k, hk⟩

theorem entries_of_quiet (h : Quiet p q) :
    q.entries role s = p.entries role s := by
  simp only [entries, h.entry]

theorem doLeavePubs_removes (hp : Placed p) :
    Removes (p.entries .publisher s) p (p.doLeavePubs s) := by
  have hlock := p.emit_quiet (.sync (.lock (.pubs s)))
  rw [← entries_of_quiet hlock]
  refine (hlock.trans_removes ?_).trans_quiet (emit_quiet _ _)
  exact clear_removes
    (fun p e => (p.stopNotify_quiet s _ _).trans_destroys
      (destroy_destroys _ _))
    (hp.of_quiet hlock) (clearPublishers_sameStore s) (fun _ => rfl)
    (fun _ => rfl) (fun p _ i l => p.clearPublishers_entry i l)

theorem doLeaveSubs_removes (hp : Placed p) :
    Removes (p.entries .subscriber s) p (p.doLeaveSubs s) := by
  have hlock := p.emit_quiet (.sync (.lock (.subs s)))
  rw [← entries_of_quiet hlock]
  refine (hlock.trans_removes ?_).trans_quiet (emit_quiet _ _)
  exact clear_removes (fun p e => p.destroy_destroys _)
    (hp.of_quiet hlock) (clearSubscribers_sameStore s) (fun _ => rfl)
    (fun _ => rfl) (fun p _ i l => p.clearSubscribers_entry i l)

/-- `DoLeave` takes every peer of the session. -/
theorem doLeave_removes (hp : Placed p) :
    Removes (p.entries .publisher s ∪ p.entries .subscriber s) p
      (p.doLeave s) := by
  have h := doLeavePubs_removes (s := s) hp
  have h' := doLeaveSubs_removes (s := s) (hp.of_removes h)
  have hset : (p.doLeavePubs s).entries .subscriber s =
      p.entries .subscriber s := by
    ext y
    constructor
    · rintro ⟨k, hk⟩
      exact ⟨k, ((h.entry _ _ _ _).mp hk).1⟩
    · rintro ⟨k, hk⟩
      refine ⟨k, (h.entry _ _ _ _).mpr ⟨hk, ?_⟩⟩
      rintro ⟨l, hl⟩
      cases (hp.unique hl hk).1
  rw [hset] at h'
  exact (h.trans h').trans_quiet (waitChecks_quiet _ s)

end Pod

/-- A loop every turn of which removes peers. -/
theorem Removes.foldl {α : Type} {f : Pod → α → Pod}
    (hf : ∀ p a, Placed p → ∃ X, Removes X p (f p a)) (l : List α) (p : Pod)
    (hp : Placed p) : ∃ X, Removes X p (l.foldl f p) := by
  induction l generalizing p with
  | nil => exact ⟨∅, (Asks.refl p).removes⟩
  | cons a l ih =>
      obtain ⟨X, hX⟩ := hf p a hp
      obtain ⟨Y, hY⟩ := ih (f p a) (hp.of_removes hX)
      exact ⟨X ∪ Y, hX.trans hY⟩

/-- The second section of `HandleSubscriberLeaved`. -/
theorem Pod.leavedSubs_removes (hp : Placed p) (sid : String)
    (lst : List String) : ∃ X, Removes X p (p.leavedSubs s sid lst) := by
  have hlock := p.emit_quiet (.sync (.lock (.subs s)))
  unfold Pod.leavedSubs
  suffices h : ∃ X, Removes X (p.lock (.subs s)) _ by
    obtain ⟨X, hX⟩ := h
    exact ⟨X, (hlock.trans_removes hX).trans_quiet (Pod.emit_quiet _ _)⟩
  refine Removes.foldl (fun p pid hp => ?_) lst _ (hp.of_quiet hlock)
  split
  · next y hy => exact ⟨{y}, Pod.dropSubscriber_removes hp hy⟩
  · exact ⟨∅, (Asks.refl p).removes⟩

/-! ## Insertions -/

/-- The new peer `t` became the entry of its key in session `s`. -/
structure Inserts (s : SessRef) (t : Peer) (p q : Pod) : Prop
    extends SameStore p q where
  known : s < p.sessHeap.next
  free : p.entry t.role s t.key = none
  parent : t.parent = s
  unused : t.closed = 0
  entry : ∀ role i l, q.entry role i l =
    if role = t.role ∧ i = s ∧ l = t.key then some p.peerHeap.next
    else p.entry role i l
  peerNext : q.peerHeap.next = p.peerHeap.next + 1
  peer : ∀ x, q.peer x = if x = p.peerHeap.next then t else p.peer x
  waiting : q.pending = p.pending

theorem Pod.storePublisher_entry (p : Pod) (i : SessRef) (l : String) :
    (p.storePublisher s k x).entry role i l =
      if role = .publisher ∧ i = s ∧ l = k then some x
      else p.entry role i l :=
  setSess_entry (GoMap.lookup_insert_eq _ k l x) fun r hr => by
    cases r with
    | publisher => exact absurd rfl hr
    | subscriber => rfl

theorem Pod.storeSubscriber_entry (p : Pod) (i : SessRef) (l : String) :
    (p.storeSubscriber s k x).entry role i l =
      if role = .subscriber ∧ i = s ∧ l = k then some x
      else p.entry role i l :=
  setSess_entry (GoMap.lookup_insert_eq _ k l x) fun r hr => by
    cases r with
    | publisher => rfl
    | subscriber => exact absurd rfl hr

theorem Pod.insertPublisher_entry (t : Peer) (p : Pod) (i : SessRef)
    (l : String) : (p.insertPublisher s k t).entry role i l =
      if role = .publisher ∧ i = s ∧ l = k then some p.peerHeap.next
      else p.entry role i l := by
  rw [Pod.insertPublisher, Pod.unlock, (emit_quiet _ _).entry,
    Pod.storePublisher_entry, Pod.lock, (emit_quiet _ _).entry]
  rfl

theorem Pod.insertPublisher_peer (t : Peer) (p : Pod) (x : PeerRef) :
    (p.insertPublisher s k t).peer x =
      if x = p.peerHeap.next then t else p.peer x := by
  simp [Pod.insertPublisher, Pod.unlock, Pod.lock, Pod.storePublisher,
    Pod.setSess, Pod.allocPeer, Pod.peer, Heap.alloc_cell]

@[simp]
theorem Pod.insertPublisher_peerNext (t : Peer) (p : Pod) :
    (p.insertPublisher s k t).peerHeap.next = p.peerHeap.next + 1 := by
  simp [Pod.insertPublisher, Pod.unlock, Pod.lock, Pod.storePublisher,
    Pod.setSess, Pod.allocPeer]

@[simp]
theorem Pod.insertPublisher_pending (t : Peer) (p : Pod) :
    (p.insertPublisher s k t).pending = p.pending := by
  simp [Pod.insertPublisher, Pod.unlock, Pod.lock, Pod.storePublisher,
    Pod.setSess, Pod.allocPeer]

@[simp]
theorem Pod.insertPublisher_fatal (t : Peer) (p : Pod) :
    (p.insertPublisher s k t).fatal = p.fatal := by
  simp [Pod.insertPublisher, Pod.unlock, Pod.lock, Pod.storePublisher,
    Pod.setSess, Pod.allocPeer]

theorem Pod.insertSubscriber_entry (t : Peer) (p : Pod) (i : SessRef)
    (l : String) : (p.insertSubscriber s k t).entry role i l =
      if role = .subscriber ∧ i = s ∧ l = k then some p.peerHeap.next
      else p.entry role i l := by
  rw [Pod.insertSubscriber, Pod.unlock, (emit_quiet _ _).entry,
    Pod.storeSubscriber_entry, Pod.lock, (emit_quiet _ _).entry]
  rfl

theorem Pod.insertSubscriber_peer (t : Peer) (p : Pod) (x : PeerRef) :
    (p.insertSubscriber s k t).peer x =
      if x = p.peerHeap.next then t else p.peer x := by
  simp [Pod.insertSubscriber, Pod.unlock, Pod.lock, Pod.storeSubscriber,
    Pod.setSess, Pod.allocPeer, Pod.peer, Heap.alloc_cell]

@[simp]
theorem Pod.insertSubscriber_peerNext (t : Peer) (p : Pod) :
    (p.insertSubscriber s k t).peerHeap.next = p.peerHeap.next + 1 := by
  simp [Pod.insertSubscriber, Pod.unlock, Pod.lock, Pod.storeSubscriber,
    Pod.setSess, Pod.allocPeer]

@[simp]
theorem Pod.insertSubscriber_pending (t : Peer) (p : Pod) :
    (p.insertSubscriber s k t).pending = p.pending := by
  simp [Pod.insertSubscriber, Pod.unlock, Pod.lock, Pod.storeSubscriber,
    Pod.setSess, Pod.allocPeer]

@[simp]
theorem Pod.insertSubscriber_fatal (t : Peer) (p : Pod) :
    (p.insertSubscriber s k t).fatal = p.fatal := by
  simp [Pod.insertSubscriber, Pod.unlock, Pod.lock, Pod.storeSubscriber,
    Pod.setSess, Pod.allocPeer]

theorem Pod.insertPublisher_inserts {t : Peer} (hs : s < p.sessHeap.next)
    (hrole : t.role = .publisher) (hpar : t.parent = s) (hc : t.closed = 0)
    (hfree : p.entry .publisher s t.key = none) :
    Inserts s t p (p.insertPublisher s t.key t) where
  toSameStore := p.insertPublisher_sameStore s t.key t
  known := hs
  free := by rw [hrole]; exact hfree
  parent := hpar
  unused := hc
  entry role i l := by rw [hrole]; exact Pod.insertPublisher_entry t p i l
  peerNext := Pod.insertPublisher_peerNext t p
  peer := Pod.insertPublisher_peer t p
  waiting := Pod.insertPublisher_pending t p

theorem Pod.insertSubscriber_inserts {t : Peer} (hs : s < p.sessHeap.next)
    (hrole : t.role = .subscriber) (hpar : t.parent = s) (hc : t.closed = 0)
    (hfree : p.entry .subscriber s t.key = none) :
    Inserts s t p (p.insertSubscriber s t.key t) where
  toSameStore := p.insertSubscriber_sameStore s t.key t
  known := hs
  free := by rw [hrole]; exact hfree
  parent := hpar
  unused := hc
  entry role i l := by rw [hrole]; exact Pod.insertSubscriber_entry t p i l
  peerNext := Pod.insertSubscriber_peerNext t p
  peer := Pod.insertSubscriber_peer t p
  waiting := Pod.insertSubscriber_pending t p

/-- An old peer is untouched by an insertion. -/
theorem Inserts.peer_of_lt {t : Peer} (h : Inserts s t p q)
    (hx : x < p.peerHeap.next) : q.peer x = p.peer x := by
  rw [h.peer, if_neg (Nat.ne_of_lt hx)]

theorem Placed.of_inserts {t : Peer} (hp : Placed p) (h : Inserts s t p q) :
    Placed q := by
  intro role i l x hx
  rw [h.entry] at hx
  rw [h.peerNext, h.sessNext]
  split at hx
  · next hat =>
      obtain ⟨rfl, rfl, rfl⟩ := hat
      cases hx
      rw [h.peer, if_pos rfl]
      exact ⟨Nat.lt_succ_self _, h.known, rfl, h.parent, rfl⟩
  · obtain ⟨hlt, hs, hfields⟩ := hp role i l x hx
    rw [h.peer_of_lt hlt]
    exact ⟨Nat.lt_succ_of_lt hlt, hs, hfields⟩

/-! ## Destroyed exactly once -/

/-- A peer that is an entry is open, and one that no longer is was destroyed
once. -/
structure Lives (p : Pod) : Prop where
  mapped : ∀ x, Mapped p x → (p.peer x).closed = 0
  gone : ∀ x, x < p.peerHeap.next → ¬Mapped p x → (p.peer x).closed = 1

theorem Lives.of_removes (hl : Lives p) (h : Removes X p q) : Lives q where
  mapped x hx := by
    obtain ⟨hm, hX⟩ := (h.mapped x).mp hx
    rw [h.miss x hX, hl.mapped x hm]
  gone x hlt hx := by
    rw [h.peerNext] at hlt
    by_cases hX : x ∈ X
    · obtain ⟨hm, hc⟩ := h.hit x hX
      rw [hc, hl.mapped x hm]
    · rw [h.miss x hX]
      exact hl.gone x hlt fun hm => hx ((h.mapped x).mpr ⟨hm, hX⟩)

theorem Inserts.mapped {t : Peer} (h : Inserts s t p q) (x : PeerRef) :
    Mapped q x ↔ x = p.peerHeap.next ∨ Mapped p x := by
  simp only [Mapped, h.entry]
  constructor
  · rintro ⟨role, i, l, hx⟩
    split at hx
    · exact .inl (Option.some.inj hx).symm
    · exact .inr ⟨role, i, l, hx⟩
  · rintro (rfl | ⟨role, i, l, hx⟩)
    · exact ⟨t.role, s, t.key, if_pos ⟨rfl, rfl, rfl⟩⟩
    · refine ⟨role, i, l, ?_⟩
      rw [if_neg]
      · exact hx
      · rintro ⟨rfl, rfl, rfl⟩
        rw [h.free] at hx
        cases hx

theorem Lives.of_inserts {t : Peer} (hl : Lives p) (hp : Placed p)
    (h : Inserts s t p q) : Lives q where
  mapped x hx := by
    rcases (h.mapped x).mp hx with rfl | hm
    · rw [h.peer, if_pos rfl]; exact h.unused
    · rw [h.peer_of_lt (hp.lt hm)]; exact hl.mapped x hm
  gone x hlt hx := by
    rw [h.mapped, not_or] at hx
    rw [h.peerNext] at hlt
    have hlt' : x < p.peerHeap.next :=
      Nat.lt_of_le_of_ne (Nat.le_of_lt_succ hlt) hx.1
    rw [h.peer_of_lt hlt']
    exact hl.gone x hlt' hx.2

/-- A change that touches neither the maps nor the peers. -/
theorem Lives.of_same (hl : Lives p)
    (he : ∀ role s k, q.entry role s k = p.entry role s k)
    (hn : q.peerHeap.next = p.peerHeap.next)
    (hc : ∀ x, (q.peer x).closed = (p.peer x).closed) : Lives q where
  mapped x hx := by
    rw [hc]
    exact hl.mapped x (by simpa only [Mapped, he] using hx)
  gone x hlt hx := by
    rw [hc]
    exact hl.gone x (by rwa [hn] at hlt) (by simpa only [Mapped, he] using hx)

end MediaServer.Ref
