import MediaServer.Proofs.Runs
import MediaServer.Ref.Sched

/-!
# What each move changes

For every part of a pod that a property may speak of (the entries of the
maps, the state of a peer, the seats of a room, the registered rooms, the
pending calls, the time of the last heartbeat) a function of the pod and the
name of the move that gives its value afterwards, and the theorem that it
does. Together with `Move.notes` and `Move.after` these are all that a proof
about runs needs to know of the code.
-/

namespace MediaServer.Ref

open MediaServer.Lib

variable {p q : Pod} {b : Act} {x : PeerRef}

/-! ## Entries -/

def Act.entry (p : Pod) (role : Role) (s : SessRef) (k : String) :
    Act → Option PeerRef
  | .erases role' i l =>
      if role = role' ∧ s = i ∧ k = l then none else p.entry role s k
  | .clears role' i =>
      if role = role' ∧ s = i then none else p.entry role s k
  | .adds i t =>
      if role = t.role ∧ s = i ∧ k = t.key then some p.peerHeap.next
      else p.entry role s k
  | _ => p.entry role s k

theorem announces_quiet (p : Pod) (x : PeerRef) :
    Quiet p ((p.setIceFlags x .connected).reportIce x .connected) :=
  (p.setIceFlags_quiet x .connected).trans (Pod.onIceReady_quiet _ _ _ _ _)

theorem Move.entry (h : Move b p q) (hp : PodOk p) (role : Role) (s : SessRef)
    (k : String) : q.entry role s k = b.entry p role s k := by
  cases h with
  | still h => exact h.entry role s k
  | sends | tells => exact (p.emit_quiet _).entry role s k
  | unpush env i l =>
      exact (p.notifyReleasePublish_quiet env i l).entry role s k
  | leaves env r u => exact (p.notifyLeaveRoom_quiet env r u).entry role s k
  | withdraws i l x => exact (p.stopNotify_quiet i x l).entry role s k
  | destroys i x => exact (p.destroy_destroys x).entry role s k
  | erases role' i l => exact p.eraseEntry_entry role s k
  | clears role' i => exact p.clearEntries_entry role s k
  | adds i t hseat hpar ht hfree =>
      obtain ⟨r, u, hs⟩ := hseat
      exact (Pod.insertEntry_inserts (hp.sessions r u i hs).2.2 hpar ht.1
        hfree).entry role s k
  | announces x => exact (announces_quiet p x).entry role s k
  | beats i now =>
      refine Asks.entry (G := fun _ => False) ?_ role s k
      exact p.setSess_quiet i fun _ => ⟨rfl, rfl, rfl⟩
  | seats r u t _ _ _ _ _ hpubs hsubs =>
      exact insertSession_entry hp.placed hpubs hsubs role s k
  | opens rid => exact entry_of_sessHeap (insertRoom_sessHeap rid p) role s k
  | dies | spawns | offers | accepts | flags | unseats | vacates | closes
  | takes => rfl

/-! ## Peers -/

/-- The part of a peer that `Peer.state` keeps. -/
def Act.peer (p : Pod) (x : PeerRef) : Act → Peer
  | .withdraws _ _ y =>
      if x = y then { p.peer x with shouldNotify := false } else p.peer x
  | .destroys _ y =>
      if x = y then { p.peer x with closed := (p.peer x).closed + 1 }
      else p.peer x
  | .adds _ t => if x = p.peerHeap.next then t else p.peer x
  | .offers y =>
      if x = y then { p.peer x with haveLocalOffer := true } else p.peer x
  | .accepts y =>
      if x = y then { p.peer x with haveLocalOffer := false } else p.peer x
  | .flags y st =>
      if x = y then
        match st with
        | .connected => { p.peer x with isReady := true, shouldNotify := true }
        | _ => { p.peer x with isReady := false }
      else p.peer x
  | .announces y =>
      if x = y then { p.peer x with isReady := true, shouldNotify := true }
      else p.peer x
  | _ => p.peer x

theorem setIceFlags_peer (x y : PeerRef) (st : IceState) (p : Pod) :
    (p.setIceFlags y st).peer x = (Act.flags y st).peer p x := by
  rw [Pod.setIceFlags, Pod.setPeer_peer]
  rfl

theorem onIceReady_peer (role : Role) (s : SessRef) (sid pid : String)
    (p : Pod) (x : PeerRef) : (p.onIceReady role s sid pid).peer x =
      p.peer x := by
  unfold Pod.onIceReady
  cases role with
  | publisher =>
      dsimp only
      rw [Pod.runlock, Pod.emit_peer]
      split
      · split
        · rw [Pod.emit_peer]; exact Pod.emit_peer
        · exact Pod.emit_peer
      · exact Pod.emit_peer
  | subscriber =>
      dsimp only
      split
      · rfl
      · rfl

theorem Move.peer (h : Move b p q) (hp : PodOk p) (x : PeerRef) :
    (q.peer x).state = (b.peer p x).state := by
  cases h with
  | still h => exact h.peer x
  | sends | tells => rw [Pod.emit_peer]; rfl
  | unpush env i l => rw [Pod.notifyReleasePublish, Pod.emit_peer]; rfl
  | leaves env r u => rw [Pod.notifyLeaveRoom, Pod.emit_peer]; rfl
  | withdraws i l y => rw [Pod.stopNotify_peer]; rfl
  | destroys i y => rw [Pod.destroy_peer]; rfl
  | erases role i l => cases role <;> rfl
  | clears role i => cases role <;> rfl
  | adds i t hseat hpar ht hfree =>
      obtain ⟨r, u, hs⟩ := hseat
      rw [(Pod.insertEntry_inserts (hp.sessions r u i hs).2.2 hpar ht.1
        hfree).peer]
      rfl
  | offers y app =>
      rw [Pod.setPeer_peer, Act.peer]
      split
      · rfl
      · rfl
  | accepts y => rw [Pod.setPeer_peer]; rfl
  | flags y st => rw [setIceFlags_peer]
  | announces y =>
      rw [Pod.reportIce, onIceReady_peer, setIceFlags_peer]
      rfl
  | seats r u t => rw [Pod.peer, insertSession_peerHeap]; rfl
  | opens rid => rw [Pod.peer, insertRoom_peerHeap]; rfl
  | dies | spawns | beats | unseats | vacates | closes | takes => rfl

theorem Move.closed (h : Move b p q) (hp : PodOk p) (x : PeerRef) :
    (q.peer x).closed = (b.peer p x).closed := congrArg (·.2.1) (h.peer hp x)

theorem Move.isReady (h : Move b p q) (hp : PodOk p) (x : PeerRef) :
    (q.peer x).isReady = (b.peer p x).isReady :=
  congrArg (·.2.2.1) (h.peer hp x)

theorem Move.shouldNotify (h : Move b p q) (hp : PodOk p) (x : PeerRef) :
    (q.peer x).shouldNotify = (b.peer p x).shouldNotify :=
  congrArg (·.2.2.2.1) (h.peer hp x)

theorem Move.haveLocalOffer (h : Move b p q) (hp : PodOk p) (x : PeerRef) :
    (q.peer x).haveLocalOffer = (b.peer p x).haveLocalOffer :=
  congrArg (·.2.2.2.2) (h.peer hp x)

theorem setIceFlags_desc (x y : PeerRef) (st : IceState) (p : Pod) :
    ((p.setIceFlags y st).peer x).localDesc = (p.peer x).localDesc := by
  rw [Pod.setIceFlags, Pod.setPeer_peer]
  split
  · cases st <;> rfl
  · rfl

/-- A description that is set stays. -/
theorem Move.desc (h : Move b p q) (hp : PodOk p) (hx : x < p.peerHeap.next)
    (hd : (p.peer x).localDesc ≠ none) : (q.peer x).localDesc ≠ none := by
  cases h with
  | still h => exact h.desc x hd
  | sends | tells => rw [Pod.emit_peer]; exact hd
  | unpush env i l => rw [Pod.notifyReleasePublish, Pod.emit_peer]; exact hd
  | leaves env r u => rw [Pod.notifyLeaveRoom, Pod.emit_peer]; exact hd
  | withdraws i l y =>
      rw [Pod.stopNotify_peer]
      split
      · exact hd
      · exact hd
  | destroys i y =>
      rw [Pod.destroy_peer]
      split
      · exact hd
      · exact hd
  | erases role i l => cases role <;> exact hd
  | clears role i => cases role <;> exact hd
  | adds i t hseat hpar ht hfree =>
      obtain ⟨r, u, hs⟩ := hseat
      rw [(Pod.insertEntry_inserts (hp.sessions r u i hs).2.2 hpar ht.1
        hfree).peer, if_neg (Nat.ne_of_lt hx)]
      exact hd
  | offers y | accepts y =>
      rw [Pod.setPeer_peer]
      split
      · exact hd
      · exact hd
  | flags y st => rw [setIceFlags_desc]; exact hd
  | announces y =>
      rw [Pod.reportIce, onIceReady_peer, setIceFlags_desc]
      exact hd
  | seats r u t => rw [Pod.peer, insertSession_peerHeap]; exact hd
  | opens rid => rw [Pod.peer, insertRoom_peerHeap]; exact hd
  | dies | spawns | beats | unseats | vacates | closes | takes => exact hd

/-- Only an announcement makes a publisher ready. -/
theorem Move.ready_back {s : SessRef} {k : String} (h : Move b p q)
    (hp : PodOk p) (ha : ∀ y, b ≠ .announces y)
    (hx : q.entry .publisher s k = some x) (hr : (q.peer x).isReady = true) :
    p.entry .publisher s k = some x ∧ (p.peer x).isReady = true := by
  rw [h.entry hp] at hx
  rw [h.isReady hp] at hr
  cases h with
  | announces y => exact absurd rfl (ha y)
  | flags y st hst =>
      refine ⟨hx, ?_⟩
      simp only [Act.peer] at hr
      split at hr
      · next hxy =>
          subst hxy
          cases st with
          | connected =>
              have hsub := hst rfl
              rw [(hp.placed _ _ _ _ hx).2.2.1] at hsub
              cases hsub
          | disconnected | failed | closed => cases hr
      · exact hr
  | adds i y _ _ hfresh =>
      simp only [Act.entry] at hx
      simp only [Act.peer] at hr
      split at hx
      · cases hx
        rw [if_pos rfl, hfresh.2.1] at hr
        cases hr
      · rw [if_neg (Nat.ne_of_lt (hp.placed _ _ _ _ hx).1)] at hr
        exact ⟨hx, hr⟩
  | erases | clears =>
      simp only [Act.entry] at hx
      split at hx
      · cases hx
      · exact ⟨hx, hr⟩
  | withdraws i l y | destroys i y | offers y | accepts y =>
      simp only [Act.peer] at hr
      refine ⟨hx, ?_⟩
      split at hr
      · exact hr
      · exact hr
  | still | dies | sends | spawns | tells | unpush | leaves | beats | seats
  | unseats | vacates | opens | closes | takes => exact ⟨hx, hr⟩

/-! ## Seats and rooms -/

def Act.lookup (p : Pod) (r : RoomRef) (u : String) : Act → Option SessRef
  | .seats r' u' _ =>
      if r = r' ∧ u = u' then some p.sessHeap.next
      else (p.room r).sessions.lookup u
  | .unseats r' u' =>
      if r = r' ∧ u = u' then none else (p.room r).sessions.lookup u
  | .vacates r' => if r = r' then none else (p.room r).sessions.lookup u
  | .opens _ =>
      if r = p.roomHeap.next then none else (p.room r).sessions.lookup u
  | _ => (p.room r).sessions.lookup u

theorem eraseSession_lookup (r r' : RoomRef) (u u' : String) (p : Pod) :
    ((p.eraseSession r' u').room r).sessions.lookup u =
      if r = r' ∧ u = u' then none else (p.room r).sessions.lookup u := by
  rw [Pod.eraseSession, Pod.setRoom_room]
  by_cases hr : r = r'
  · simp [hr, GoMap.lookup_erase_eq]
  · simp [hr]

theorem clearSessions_lookup (r r' : RoomRef) (u : String) (p : Pod) :
    ((p.clearSessions r').room r).sessions.lookup u =
      if r = r' then none else (p.room r).sessions.lookup u := by
  rw [Pod.clearSessions, Pod.setRoom_room]
  by_cases hr : r = r'
  · simp [hr]
  · simp [hr]

theorem Move.lookup (h : Move b p q) (hp : PodOk p) (r : RoomRef)
    (u : String) : (q.room r).sessions.lookup u = b.lookup p r u := by
  cases hb : b.inner with
  | true =>
      rw [(h.shrinks hb).room]
      cases h with
      | adds | seats | unseats | vacates | opens | closes | takes => cases hb
      | still | dies | sends | spawns | tells | unpush | leaves | withdraws
      | destroys | erases | clears | offers | accepts | flags | announces
      | beats => rfl
  | false =>
      cases h with
      | adds i t hseat hpar ht hfree =>
          obtain ⟨r', u', hs⟩ := hseat
          rw [(Pod.insertEntry_inserts (hp.sessions r' u' i hs).2.2 hpar ht.1
            hfree).room]
          rfl
      | seats r' u' t => exact Pod.insertSession_lookup r' u' t r u
      | unseats r' u' => exact eraseSession_lookup r r' u u' p
      | vacates r' => exact clearSessions_lookup r r' u p
      | opens rid =>
          rw [insertRoom_room, Act.lookup]
          split
          · rfl
          · rfl
      | closes | takes => rfl
      | still | dies | sends | spawns | tells | unpush | leaves | withdraws
      | destroys | erases | clears | offers | accepts | flags | announces
      | beats => cases hb

def Act.rooms (p : Pod) (rid : String) : Act → Option RoomRef
  | .opens rid' =>
      if rid = rid' then some p.roomHeap.next else p.rooms.lookup rid
  | .closes rid' => if rid = rid' then none else p.rooms.lookup rid
  | _ => p.rooms.lookup rid

theorem Move.rooms (h : Move b p q) (hp : PodOk p) (rid : String) :
    q.rooms.lookup rid = b.rooms p rid := by
  cases hb : b.inner with
  | true =>
      rw [(h.shrinks hb).rooms]
      cases h with
      | adds | seats | unseats | vacates | opens | closes | takes => cases hb
      | still | dies | sends | spawns | tells | unpush | leaves | withdraws
      | destroys | erases | clears | offers | accepts | flags | announces
      | beats => rfl
  | false =>
      cases h with
      | adds i t hseat hpar ht hfree =>
          obtain ⟨r', u', hs⟩ := hseat
          rw [(Pod.insertEntry_inserts (hp.sessions r' u' i hs).2.2 hpar ht.1
            hfree).rooms]
          rfl
      | seats r' u' t => rw [Pod.insertSession_rooms]; rfl
      | opens rid' =>
          rw [insertRoom_rooms]
          exact GoMap.lookup_insert_eq _ _ _ _
      | closes rid' => exact GoMap.lookup_erase_eq _ _ _
      | unseats | vacates | takes => rfl
      | still | dies | sends | spawns | tells | unpush | leaves | withdraws
      | destroys | erases | clears | offers | accepts | flags | announces
      | beats => cases hb

/-- A session that was not there before has just entered a room. -/
theorem Move.sess_new (h : Move b p q) (hp : PodOk p) {s : SessRef}
    (hs : s < q.sessHeap.next) (hnew : ¬s < p.sessHeap.next) :
    ∃ r u t, b = .seats r u t ∧ q.sess s = t := by
  cases hb : b.inner with
  | true =>
      rw [(h.shrinks hb).sessNext] at hs
      exact absurd hs hnew
  | false =>
      cases h with
      | seats r u t =>
          rw [Pod.insertSession_sessNext] at hs
          refine ⟨r, u, t, rfl, ?_⟩
          rw [Pod.insertSession_sess, if_pos (Nat.le_antisymm
            (Nat.le_of_lt_succ hs) (Nat.le_of_not_lt hnew))]
      | adds i t hseat hpar ht hfree =>
          obtain ⟨r, u, hlook⟩ := hseat
          rw [(Pod.insertEntry_inserts (hp.sessions r u i hlook).2.2 hpar ht.1
            hfree).sessNext] at hs
          exact absurd hs hnew
      | opens rid =>
          rw [insertRoom_sessHeap] at hs
          exact absurd hs hnew
      | unseats | vacates | closes | takes => exact absurd hs hnew
      | still | dies | sends | spawns | tells | unpush | leaves | withdraws
      | destroys | erases | clears | offers | accepts | flags | announces
      | beats => cases hb

/-! ## Pending calls and heartbeats -/

def Act.pending (p : Pod) : Act → List Goroutine
  | .spawns g => p.pending ++ [g]
  | .announces x => p.pending ++
      [.onPublisherReady (p.sess (p.peer x).parent).parent (p.peer x).userid
        (p.sess (p.peer x).parent).username (p.peer x).peerid]
  | .takes i => p.pending.eraseIdx i
  | _ => p.pending

theorem stopNotify_pending (s : SessRef) (x : PeerRef) (k : String)
    (p : Pod) : (p.stopNotify s x k).pending = p.pending := by
  unfold Pod.stopNotify
  split
  · exact (Pod.notifyStopPush_spoke _ _ _ _ _).pending
  · rfl

theorem stopNotify_sess (i : SessRef) (x : PeerRef) (k : String) (p : Pod)
    (s : SessRef) : (p.stopNotify i x k).sess s = p.sess s := by
  unfold Pod.stopNotify
  split
  · exact (Pod.notifyStopPush_spoke _ _ _ _ _).sess s
  · rfl

theorem onIceReady_sess (role : Role) (i : SessRef) (sid pid : String)
    (p : Pod) (s : SessRef) : (p.onIceReady role i sid pid).sess s =
      p.sess s := by
  unfold Pod.onIceReady
  cases role with
  | publisher =>
      dsimp only
      rw [Pod.runlock, Pod.emit_sess]
      split
      · split
        · rw [Pod.emit_sess]; exact Pod.emit_sess
        · exact Pod.emit_sess
      · exact Pod.emit_sess
  | subscriber =>
      dsimp only
      split
      · rfl
      · rfl

theorem setSess_field {β : Type} (i s : SessRef) (f : Session → Session)
    (get : Session → β) (p : Pod) (hf : ∀ t, get (f t) = get t) :
    get ((p.setSess i f).sess s) = get (p.sess s) :=
  p.sessHeap.modify_cell_field i s f get hf

theorem insertEntry_alivetime (i : SessRef) (t : Peer) (p : Pod)
    (s : SessRef) :
    ((p.insertEntry i t).sess s).alivetime = (p.sess s).alivetime := by
  unfold Pod.insertEntry
  split
  · rw [Pod.insertPublisher, Pod.unlock, Pod.emit_sess, Pod.storePublisher]
    refine (setSess_field i s _ (·.alivetime) _ ?_).trans ?_
    · exact fun _ => rfl
    · rw [Pod.lock, Pod.emit_sess]; rfl
  · rw [Pod.insertSubscriber, Pod.unlock, Pod.emit_sess, Pod.storeSubscriber]
    refine (setSess_field i s _ (·.alivetime) _ ?_).trans ?_
    · exact fun _ => rfl
    · rw [Pod.lock, Pod.emit_sess]; rfl

theorem onIceReady_pending {sid pid : String}
    (hx : (p.sess s).publishers.lookup pid = some x) :
    (p.onIceReady .publisher s sid pid).pending = p.pending ++
      [.onPublisherReady (p.sess s).parent sid (p.sess s).username pid] := by
  have hsess : (p.rlock (.pubs s)).sess s = p.sess s := Pod.emit_sess
  have hpend : (p.rlock (.pubs s)).pending = p.pending := Pod.emit_pending
  unfold Pod.onIceReady
  dsimp only
  rw [hsess, hx, Pod.runlock, Pod.emit_pending]
  dsimp only
  split
  · rw [Pod.emit_pending, Pod.go, hpend]
  · rw [Pod.go, hpend]

/-- What a publisher reports when its connection is up. -/
theorem reportIce_connected (hrole : (p.peer x).role = .publisher) :
    (p.setIceFlags x .connected).reportIce x .connected =
      (p.setIceFlags x .connected).onIceReady .publisher (p.peer x).parent
        (p.peer x).userid (p.peer x).peerid := by
  have hq := p.setIceFlags_quiet x .connected
  obtain ⟨hu, -, hpid, hr, -, hpar, -⟩ := Peer.ident_eq (hq.peerIdent x)
  unfold Pod.reportIce
  dsimp only
  rw [hr, hrole, hu, hpid, hpar]

theorem announce_pending (hrole : (p.peer x).role = .publisher)
    (hx : p.entry .publisher (p.peer x).parent (p.peer x).peerid = some x) :
    ((p.setIceFlags x .connected).reportIce x .connected).pending =
      (Act.announces x).pending p := by
  rw [reportIce_connected hrole]
  exact onIceReady_pending (p := p.setIceFlags x .connected) hx

theorem Move.pending (h : Move b p q) (hp : PodOk p) :
    q.pending = b.pending p := by
  cases h with
  | still h => exact h.pending
  | sends | tells => exact Pod.emit_pending
  | unpush env i l => rw [Pod.notifyReleasePublish, Pod.emit_pending]; rfl
  | leaves env r u => rw [Pod.notifyLeaveRoom, Pod.emit_pending]; rfl
  | withdraws i l y => exact stopNotify_pending i y l p
  | destroys i y => exact p.destroy_pending y
  | erases role i l => cases role <;> rfl
  | clears role i => cases role <;> rfl
  | adds i t hseat hpar ht hfree =>
      obtain ⟨r, u, hs⟩ := hseat
      exact (Pod.insertEntry_inserts (hp.sessions r u i hs).2.2 hpar ht.1
        hfree).waiting
  | announces y hy =>
      exact announce_pending (hp.placed _ _ _ _ hy).2.2.1 hy
  | seats r u t =>
      simp [Pod.insertSession, Pod.unlock, Pod.lock, Pod.storeSession,
        Pod.setRoom, Pod.allocSess, Act.pending]
  | opens rid =>
      simp [Pod.insertRoom, Pod.unlock, Pod.lock, Pod.storeRoom,
        Pod.allocRoom, Act.pending]
  | dies | spawns | offers | accepts | flags | beats | unseats | vacates
  | closes | takes => rfl

def Act.alivetime (p : Pod) (s : SessRef) : Act → Int
  | .beats i now => if s = i then now else (p.sess s).alivetime
  | .seats _ _ t =>
      if s = p.sessHeap.next then t.alivetime else (p.sess s).alivetime
  | _ => (p.sess s).alivetime

theorem Move.alivetime (h : Move b p q) (s : SessRef) :
    (q.sess s).alivetime = b.alivetime p s := by
  cases h with
  | still h => exact h.alivetime s
  | sends | tells => rw [Pod.emit_sess]; rfl
  | unpush env i l => rw [Pod.notifyReleasePublish, Pod.emit_sess]; rfl
  | leaves env r u => rw [Pod.notifyLeaveRoom, Pod.emit_sess]; rfl
  | withdraws i l y => rw [stopNotify_sess]; rfl
  | destroys i y => rw [Pod.destroy_sess]; rfl
  | erases role i l =>
      cases role with
      | publisher => exact setSess_field i s _ (·.alivetime) p fun _ => rfl
      | subscriber => exact setSess_field i s _ (·.alivetime) p fun _ => rfl
  | clears role i =>
      cases role with
      | publisher => exact setSess_field i s _ (·.alivetime) p fun _ => rfl
      | subscriber => exact setSess_field i s _ (·.alivetime) p fun _ => rfl
  | adds i t => exact insertEntry_alivetime i t p s
  | announces y => rw [Pod.reportIce, onIceReady_sess]; rfl
  | beats i now =>
      rw [Pod.setSess_sess, Act.alivetime]
      split
      · rfl
      · rfl
  | seats r u t =>
      rw [Pod.insertSession_sess, Act.alivetime]
      split
      · rfl
      · rfl
  | opens rid => rw [Pod.sess, insertRoom_sessHeap]; rfl
  | dies | spawns | offers | accepts | flags | unseats | vacates | closes
  | takes => rfl

/-! ## Steps -/

theorem Input.msg?_eq_some {a : Input} {m : JsonParser}
    (h : a.msg? = some m) : a = .message m := by
  cases a with
  | message m' => cases h; rfl
  | _ => cases h

section Step

variable {a : Env × Input} {s : SessRef} {r : RoomRef} {rid u : String}

theorem step_fatal (hs : Pod.step a p = some q) : p.fatal = false := by
  unfold Pod.step at hs
  split at hs
  · cases hs
  · next h => simpa using h

/-- A message is handled by the room manager. -/
theorem step_message {m : JsonParser} (hs : Pod.step a p = some q)
    (hm : a.2 = .message m) : q = p.mgrHandleMessage a.1 m := by
  have hf := step_fatal hs
  unfold Pod.step at hs
  rw [if_neg (by simp [hf]), hm] at hs
  cases hs
  rfl

/-- The commands that a room hands to the session of a user. -/
def Cmd.routed : Cmd → Bool
  | .heartbeat | .push | .offer | .stopPush | .sub | .stopSub | .answer
  | .fakeSubscribe | .fakeOffer | .fakeAnswer | .fakeCandidate => true
  | _ => false

/-- Such a message reaches the session that its route leads to. -/
theorem step_routed {m : JsonParser} {c : Cmd} {s : SessRef}
    (hs : Pod.step a p = some q) (hm : a.2 = .message m)
    (hc : command m = some c) (hroute : c.routed = true)
    (hreg : p.regist = true)
    (hseat : p.seat (getValue m .roomId) (route m) = some s) :
    q = p.sessionHandleMessage a.1 s m := by
  obtain ⟨r, hr, hlook⟩ := seat_eq_some.mp hseat
  obtain rfl := step_message hs hm
  cases c with
  | heartbeat | push | offer | stopPush | fakeOffer | fakeAnswer
  | fakeCandidate =>
      rw [show route m = getValue m .sessID by simp only [route, hc]] at hlook
      simp only [Pod.mgrHandleMessage, hc, hreg, if_true, Pod.mgrForward,
        Pod.forwards, hr, Pod.roomHandleMessage, Pod.toSession, hlook]
  | sub | stopSub | answer | fakeSubscribe =>
      rw [show route m = getValue m .srcSessID by simp only [route, hc]] at hlook
      simp only [Pod.mgrHandleMessage, hc, hreg, if_true, Pod.mgrForward,
        Pod.forwards, hr, Pod.roomHandleMessage, Pod.toSession, hlook]
  | _ => cases hroute

/-- Nothing happens if there is no such session. -/
theorem step_unrouted {m : JsonParser} {c : Cmd} (hs : Pod.step a p = some q)
    (hm : a.2 = .message m) (hc : command m = some c)
    (hroute : c.routed = true) (hno : p.regist = true →
      p.seat (getValue m .roomId) (route m) = none) : Still p q := by
  obtain rfl := step_message hs hm
  have hroom : p.regist = true → Still p (p.mgrForward a.1 m) := by
    intro hreg
    unfold Pod.mgrForward
    split
    · split
      · next r hr =>
          have hlook : (p.room r).sessions.lookup (route m) = none := by
            have h := hno hreg
            rw [Pod.seat, hr] at h
            exact h
          cases c with
          | heartbeat | push | offer | stopPush | fakeOffer | fakeAnswer
          | fakeCandidate =>
              rw [show route m = getValue m .sessID by
                simp only [route, hc]] at hlook
              simp only [Pod.roomHandleMessage, hc, Pod.toSession, hlook]
              first
                | exact p.emit_still rfl
                | exact .refl p
          | sub | stopSub | answer | fakeSubscribe =>
              rw [show route m = getValue m .srcSessID by
                simp only [route, hc]] at hlook
              simp only [Pod.roomHandleMessage, hc, Pod.toSession, hlook]
              first
                | exact p.emit_still rfl
                | exact .refl p
          | _ => cases hroute
      · exact p.notFoundRoom_still m
    · exact .refl p
  unfold Pod.mgrHandleMessage
  split
  · next h => rw [hc] at h; cases h; cases hroute
  · next h => rw [hc] at h; cases h; cases hroute
  · next h => rw [hc] at h; cases h; cases hroute
  · split
    · next hreg => exact hroom hreg
    · exact p.emit_still rfl

/-- A message other than a login that reaches a room is handled there. -/
theorem step_forwarded {m : JsonParser} (hs : Pod.step a p = some q)
    (hm : a.2 = .message m) (hreach : Reaches p m r)
    (hne : command m ≠ some .login) : q = p.roomHandleMessage a.1 r m := by
  obtain ⟨hr, hfwd⟩ := hreach.known hne
  obtain rfl := step_message hs hm
  unfold Pod.mgrHandleMessage
  split
  · next hc => simp only [Pod.forwards, hc] at hfwd; cases hfwd
  · next hc => simp only [Pod.forwards, hc] at hfwd; cases hfwd
  · next hc => exact absurd hc hne
  · simp only [hreach.regist, if_true, Pod.mgrForward, hfwd, hr]

/-- An announcement or a withdrawal of another pod is handed to the room. -/
theorem step_announced {m : JsonParser} (hs : Pod.step a p = some q)
    (hm : a.2 = .message m)
    (hc : command m = some .fakePublish ∨ command m = some .fakeUnpublish)
    (hreg : p.regist = true) (hne : getValue m .podId ≠ p.conf.uuid) :
    q = match p.rooms.lookup (getValue m .roomId) with
      | some r => p.roomHandleMessage a.1 r m
      | none => p := by
  have hmgr : p.mgrHandleMessage a.1 m = p.mgrForward a.1 m := by
    rcases hc with hc | hc
    · simp only [Pod.mgrHandleMessage, hc, hreg, if_true]
    · simp only [Pod.mgrHandleMessage, hc, hreg, if_true]
  have hfwd : p.forwards m = true := by
    rcases hc with hc | hc
    · simp only [Pod.forwards, hc, hne, ne_eq, not_false_eq_true, decide_true]
    · simp only [Pod.forwards, hc, hne, ne_eq, not_false_eq_true, decide_true]
  have hnone : p.notFoundRoom m = p := by
    rcases hc with hc | hc
    · simp only [Pod.notFoundRoom, hc]
    · simp only [Pod.notFoundRoom, hc]
  obtain rfl := step_message hs hm
  rw [hmgr, Pod.mgrForward, if_pos hfwd]
  cases p.rooms.lookup (getValue m .roomId) with
  | none => exact hnone
  | some r => rfl

/-- A spawned call runs when its turn comes. -/
theorem step_go {i : Nat} {g : Goroutine} (hs : Pod.step a p = some q)
    (hi : a.2 = .go i) (hg : p.pending[i]? = some g) :
    q = Pod.runGoroutine a.1 g
      { p with pending := p.pending.eraseIdx i } := by
  have hf := step_fatal hs
  unfold Pod.step at hs
  rw [if_neg (by simp [hf]), hi] at hs
  dsimp only at hs
  rw [hg] at hs
  cases hs
  rfl

/-- Whoever sits in a room keeps the seat, unless the input can take it. -/
theorem step_seat (hp : InOrder p) (hs : Pod.step a p = some q)
    (hr : p.rooms.lookup rid = some r)
    (hseat : (p.room r).sessions.lookup u = some s)
    (hun : ¬Foot p a.1 a.2 (.unseats r u)) (hvac : ¬Foot p a.1 a.2 (.vacates r))
    (hcl : ¬Foot p a.1 a.2 (.closes rid)) :
    q.rooms.lookup rid = some r ∧ (q.room r).sessions.lookup u = some s := by
  refine (step_induction (P := fun t => t.rooms.lookup rid = some r ∧
    (t.room r).sessions.lookup u = some s) hp hs ⟨hr, hseat⟩
    fun {b t t'} hb hsound _ _ hm ht => ?_).1
  obtain ⟨htr, hts⟩ := ht
  rw [hm.rooms hsound.toPodOk, hm.lookup hsound.toPodOk]
  cases hm with
  | seats r' u' x _ _ hfree =>
      refine ⟨htr, (if_neg ?_).trans hts⟩
      rintro ⟨rfl, rfl⟩
      rw [hts] at hfree
      cases hfree
  | unseats r' u' =>
      refine ⟨htr, (if_neg ?_).trans hts⟩
      rintro ⟨rfl, rfl⟩
      exact hun hb
  | vacates r' =>
      refine ⟨htr, (if_neg ?_).trans hts⟩
      rintro rfl
      exact hvac hb
  | closes rid' =>
      refine ⟨(if_neg ?_).trans htr, hts⟩
      rintro rfl
      exact hcl hb
  | opens rid' hfree =>
      have hlt := (hsound.rooms rid r htr).2
      refine ⟨(if_neg ?_).trans htr, (if_neg (Nat.ne_of_lt hlt)).trans hts⟩
      rintro rfl
      rw [htr] at hfree
      cases hfree
  | still | dies | sends | spawns | tells | unpush | leaves | withdraws
  | destroys | erases | clears | adds | offers | accepts | flags | announces
  | beats | takes => exact ⟨htr, hts⟩

/-- A peer that is no longer an entry does not become one again. -/
theorem step_old_entry {role : Role} {k : String} (hp : InOrder p)
    (hs : Pod.step a p = some q) (hlt : x < p.peerHeap.next)
    (hx : q.entry role s k = some x) : p.entry role s k = some x := by
  refine (step_induction (P := fun t => t.entry role s k = some x →
    p.entry role s k = some x) hp hs id
    fun {b t t'} _ hsound hafter _ hm ht hx => ht ?_).1 hx
  rw [hm.entry hsound.toPodOk] at hx
  cases hm with
  | adds i y =>
      simp only [Act.entry] at hx
      split at hx
      · cases hx
        exact absurd hlt (Nat.not_lt_of_le hafter.peerNext)
      · exact hx
  | erases | clears =>
      simp only [Act.entry] at hx
      split at hx
      · cases hx
      · exact hx
  | still | dies | sends | spawns | tells | unpush | leaves | withdraws
  | destroys | offers | accepts | flags | announces | beats | takes | seats
  | unseats | vacates | opens | closes => exact hx

/-- A session that the input does not reach keeps its peers. -/
theorem step_entry_kept {role : Role} {k : String} (hp : InOrder p)
    (hs : Pod.step a p = some q) (hhit : ¬Hits p a.2 s) :
    q.entry role s k = p.entry role s k := by
  refine (step_induction (P := fun t => t.entry role s k = p.entry role s k)
    hp hs rfl fun {b t t'} hb hsound _ _ hm ht => ?_).1
  rw [hm.entry hsound.toPodOk, ← ht]
  cases hm with
  | erases role' i l =>
      simp only [Act.entry]
      rw [if_neg]
      rintro ⟨-, rfl, -⟩
      exact hhit hb
  | clears role' i =>
      simp only [Act.entry]
      rw [if_neg]
      rintro ⟨-, rfl⟩
      exact hhit hb
  | adds i y =>
      obtain ⟨m, r, hm, hreach, hroute, -⟩ := hb
      simp only [Act.entry]
      rw [if_neg]
      rintro ⟨-, rfl, -⟩
      exact hhit (.inl ⟨m, r, hm, hreach, hroute⟩)
  | still | dies | sends | spawns | tells | unpush | leaves | withdraws
  | destroys | offers | accepts | flags | announces | beats | takes | seats
  | unseats | vacates | opens | closes => rfl

/-- A session does not change its room. -/
theorem step_seat_room {rid' v w : String} (hp : InOrder p)
    (hs : Pod.step a p = some q) (hold : p.seat rid w = some s)
    (hnew : q.seat rid' v = some s) : rid = rid' := by
  obtain ⟨-, hrid, hr, hlt⟩ := hp.toSound.of_seat hold
  obtain ⟨-, hrid', -, -⟩ := (step_inOrder hp hs).toSound.of_seat hnew
  have hafter := step_after hp hs
  have hpar : (q.sess s).parent = (p.sess s).parent :=
    congrArg (·.2.2.2.2.2) (hafter.sess s hlt)
  rw [← hrid, ← hrid', hpar]
  exact (hafter.roomid _ (hp.rooms rid _ hr).2).symm

theorem subscriber_of_adds {m : JsonParser} {t : Peer} (h : Adds p s m t)
    (hrole : t.role = .subscriber) :
    (command m = some .sub ∨ command m = some .fakeSubscribe) ∧
      t.userid = subscriberId m ∧ t.key = subscriberKey m := by
  unfold Adds at h
  split at h
  · subst h; cases hrole
  · subst h; cases hrole
  · next hc =>
      obtain ⟨-, sdp, rfl⟩ := h
      exact ⟨.inl hc, by simp only [subscriberId, hc]; rfl,
        by simp only [subscriberKey, subscriberId, hc]; rfl⟩
  · next hc =>
      obtain ⟨-, sdp, rfl⟩ := h
      exact ⟨.inr hc, by simp only [subscriberId, hc]; rfl,
        by simp only [subscriberKey, subscriberId, hc]; rfl⟩
  · cases h

/-- The input is a message that subscribes under the name `uid`, and the new
peer `y` is for the session that the message is handed to. -/
def SubscribedBy (p : Pod) (a : Input) (s : SessRef) (k uid : String)
    (y : PeerRef) : Prop :=
  ∃ m, a = .message m ∧
    (command m = some .sub ∨ command m = some .fakeSubscribe) ∧
    p.peerHeap.next ≤ y ∧ p.seat (getValue m .roomId) (route m) = some s ∧
    k = subscriberKey m ∧ uid = subscriberId m

/-- A subscriber that was not there was stored by such a message. -/
theorem step_subscriber {k : String} {y : PeerRef} (hp : InOrder p)
    (hs : Pod.step a p = some q) (hq : q.entry .subscriber s k = some y) :
    p.entry .subscriber s k = some y ∨
      SubscribedBy p a.2 s k (q.peer y).userid y := by
  revert k y
  refine (step_induction (P := fun t => ∀ {k y}, t.entry .subscriber s k =
    some y → p.entry .subscriber s k = some y ∨
      SubscribedBy p a.2 s k (t.peer y).userid y) hp hs .inl
    fun {b t t'} hb hsound hafter _ hm ht k y hy => ?_).1
  have hold : t.entry .subscriber s k = some y →
      p.entry .subscriber s k = some y ∨
        SubscribedBy p a.2 s k (t'.peer y).userid y := by
    intro h
    rw [(Peer.ident_eq ((hm.after hsound.toPodOk).peer y
      (hsound.placed _ _ _ _ h).1)).1]
    exact ht h
  rw [hm.entry hsound.toPodOk] at hy
  cases hm with
  | adds i z hseat hpar hz hfree =>
      simp only [Act.entry] at hy
      split at hy
      · next hat =>
          obtain ⟨hrole, rfl, rfl⟩ := hat
          cases hy
          obtain ⟨m, r, hmsg, hreach, hroute, hadd⟩ := hb
          obtain ⟨hcmd, hid, hkey⟩ := subscriber_of_adds hadd hrole.symm
          obtain ⟨r', u', hs'⟩ := hseat
          have hpeer := (Pod.insertEntry_inserts
            (hsound.sessions r' u' s hs').2.2 hpar hz.1 hfree).peer
            t.peerHeap.next
          rw [if_pos rfl] at hpeer
          have hroom := (hreach.known (by
            rcases hcmd with hc | hc <;> rw [hc] <;> exact nofun)).1
          rw [hpeer]
          exact .inr ⟨m, hmsg, hcmd, hafter.peerNext,
            seat_eq_some.mpr ⟨r, hroom, hroute⟩, hkey, hid⟩
      · exact hold hy
  | erases role i l =>
      simp only [Act.entry] at hy
      split at hy
      · cases hy
      · exact hold hy
  | clears role i =>
      simp only [Act.entry] at hy
      split at hy
      · cases hy
      · exact hold hy
  | still | dies | sends | spawns | tells | unpush | leaves | withdraws
  | destroys | offers | accepts | flags | announces | beats | takes | seats
  | unseats | vacates | opens | closes => exact hold hy

/-- A peer that was there keeps its offer open, unless the message is an
answer that is handed to it. -/
theorem step_offer {y : PeerRef} (hp : InOrder p) (hs : Pod.step a p = some q)
    (hlt : y < p.peerHeap.next) :
    (q.peer y).haveLocalOffer = (p.peer y).haveLocalOffer ∨
      ∃ m r s, a.2 = .message m ∧ Reaches p m r ∧
        (p.room r).sessions.lookup (route m) = some s ∧ Accepts p s m y := by
  refine (step_induction (P := fun t => (t.peer y).haveLocalOffer =
    (p.peer y).haveLocalOffer ∨ ∃ m r s, a.2 = .message m ∧ Reaches p m r ∧
      (p.room r).sessions.lookup (route m) = some s ∧ Accepts p s m y) hp hs
    (.inl rfl) fun {b t t'} hb hsound hafter _ hm ht => ?_).1
  rcases ht with ht | ht
  case inr => exact .inr ht
  rw [hm.haveLocalOffer hsound.toPodOk, ← ht]
  cases hm with
  | adds i z =>
      have hne : y ≠ t.peerHeap.next :=
        Nat.ne_of_lt (Nat.lt_of_lt_of_le hlt hafter.peerNext)
      simp only [Act.peer, if_neg hne]
      exact .inl trivial
  | offers x =>
      have hne : y ≠ x := by
        rw [hb.1]
        exact Nat.ne_of_lt hlt
      simp only [Act.peer, if_neg hne]
      exact .inl trivial
  | accepts x =>
      by_cases hx : y = x
      · subst hx
        exact .inr hb
      · simp only [Act.peer, if_neg hx]
        exact .inl trivial
  | withdraws i l x | destroys i x | flags x st | announces x =>
      simp only [Act.peer]
      left
      repeat' split
      all_goals rfl
  | still | dies | sends | spawns | tells | unpush | leaves | erases | clears
  | beats | takes | seats | unseats | vacates | opens | closes => exact .inl rfl

theorem runGoroutine_pending (env : Env) (g : Goroutine) (hp : PodOk p) :
    p.pending <+: (p.runGoroutine env g).pending := by
  cases hg : g.staysSeated with
  | true => exact (p.runGoroutine_sameStore env hg).pending
  | false =>
      cases g with
      | releaseRoom rid =>
          change p.pending <+: (p.releaseRoom rid).pending
          unfold Pod.releaseRoom
          dsimp only
          rw [Pod.unlock, Pod.emit_pending]
          split
          · next r _ =>
              have h := (destroyRoom_clears r (p.lock .rooms)).pending
              rw [Pod.lock, Pod.emit_pending] at h
              exact h
          · exact ⟨[], by rw [List.append_nil, Pod.lock, Pod.emit_pending]⟩
      | kickoutFromRoom r u =>
          exact (Pod.kickoutFromRoom_edits
            fun s hs => (hp.sessions r u s hs).1).pending
      | checkKeepAlive | handleSubscriberLeaved | onPublisherReady
      | onPublisherPeerFailed | onPublisherPeerClosed | onSubscriberPeerFailed
      | onSubscriberPeerClosed | releaseSubscriberPeer | fakePublisherReConnect
      | requestKeyframe => cases hg

/-- A spawned call waits until its turn comes. -/
theorem step_pending {g : Goroutine} (hp : InOrder p)
    (hs : Pod.step a p = some q) (hg : g ∈ p.pending)
    (hne : a.2.call? p ≠ some g) : g ∈ q.pending := by
  by_cases hgo : ∃ i, a.2 = .go i
  · obtain ⟨i, hi⟩ := hgo
    have hf := step_fatal hs
    rw [hi] at hne
    unfold Pod.step at hs
    rw [if_neg (by simp [hf]), hi] at hs
    dsimp only at hs
    split at hs
    · next g' hg' =>
        cases hs
        have hp' : PodOk { p with pending := p.pending.eraseIdx i } :=
          (Micro.take (G := fun _ => False) (I := fun _ _ => False) i).podOk
            hp.toPodOk
        refine (runGoroutine_pending a.1 g' hp').subset
          (mem_eraseIdx_of_ne hg' hg ?_)
        rintro rfl
        exact hne hg'
    · cases hs
  · refine (step_induction (P := fun t => g ∈ t.pending) hp hs hg
      fun {b t t'} hb hsound _ _ hm ht => ?_).1
    rw [hm.pending hsound.toPodOk]
    cases hm with
    | spawns g' => exact List.mem_append_left _ ht
    | announces x => exact List.mem_append_left _ ht
    | takes i => exact absurd ⟨i, hb⟩ hgo
    | still | dies | sends | tells | unpush | leaves | withdraws | destroys
    | erases | clears | adds | offers | accepts | flags | beats | seats
    | unseats | vacates | opens | closes => exact ht

/-- A message runs no spawned call. -/
theorem message_pending (hp : InOrder p) (hs : Pod.step a p = some q)
    (hm : a.2 = .message m) (g : Goroutine) (hg : g ∈ p.pending) :
    g ∈ q.pending :=
  step_pending hp hs hg (by simp [hm, Input.call?])

/-- What the fields that a session is created with say, and a login and a
`fakepublish` see to, holds of every session. -/
theorem step_sessions {R : Session → Prop}
    (hR : ∀ {t t' : Session}, t'.ident = t.ident → R t → R t')
    (hnew : ∀ env r m, R (newSession env r m)) (hp : InOrder p)
    (hs : Pod.step a p = some q) (h : ∀ s, s < p.sessHeap.next → R (p.sess s)) :
    ∀ s, s < q.sessHeap.next → R (q.sess s) := by
  refine (step_induction (P := fun t => ∀ s, s < t.sessHeap.next →
    R (t.sess s)) hp hs h
    fun {b t t'} hb hsound _ _ hmove ht s hlt => ?_).1
  by_cases hold : s < t.sessHeap.next
  · exact hR ((hmove.after hsound.toPodOk).sess s hold) (ht s hold)
  · obtain ⟨r, v, y, rfl, hy⟩ := hmove.sess_new hsound.toPodOk hlt hold
    obtain ⟨m, -, -, -, -, rfl⟩ := hb
    rw [hy]
    exact hnew _ _ _

theorem reachable_sessions {R : Session → Prop} {conf : Config}
    (hR : ∀ {t t' : Session}, t'.ident = t.ident → R t → R t')
    (hnew : ∀ env r m, R (newSession env r m))
    (hr : Pod.Reachable conf p) : ∀ s, s < p.sessHeap.next → R (p.sess s) := by
  obtain ⟨as, hrun⟩ := hr
  exact (run_invariant (P := fun t => InOrder t ∧
    ∀ s, s < t.sessHeap.next → R (t.sess s))
    (fun _ _ _ h _ hs =>
      ⟨step_inOrder h.1 hs, step_sessions hR hnew h.1 hs h.2⟩)
    (guarded_true as _) ⟨createRoomMgr_inOrder conf, nofun⟩ hrun).2

theorem newSession_origin {env : Env} {m : JsonParser}
    (h : (newSession env r m).origin = true) : command m = some .login := by
  by_contra hne
  unfold newSession at h
  rw [if_neg hne] at h
  cases h

/-- Users who logged in here have recorded neither a pod nor a cluster. -/
theorem unlabelled_of_origin {conf : Config} (hr : Pod.Reachable conf p)
    (hlt : s < p.sessHeap.next) (ho : (p.sess s).origin = true) :
    (p.sess s).podid = "" ∧ (p.sess s).clusterid = "" := by
  refine reachable_sessions (R := fun t => t.origin = true → t.podid = "" ∧
    t.clusterid = "") (fun {t t'} hid ht ho => ?_) (fun env r m ho => ?_) hr s
    hlt ho
  · rw [show t'.podid = t.podid from congrArg (·.2.2.2.1) hid,
      show t'.clusterid = t.clusterid from congrArg (·.2.2.1) hid]
    exact ht ((congrArg (·.2.2.2.2.1) hid).symm.trans ho)
  · unfold newSession
    rw [if_pos (newSession_origin ho)]
    exact ⟨rfl, rfl⟩

end Step

end MediaServer.Ref
