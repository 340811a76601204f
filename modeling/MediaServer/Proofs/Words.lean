import MediaServer.Proofs.Effects
import MediaServer.Ref.Notes

/-!
# What each move tells

`Move.notes` is the only place where a log is read: a move appends the notes
that its name says, and no others. Withdrawing a stream tells every origin
member of the room, and the other pods if the stream was published here;
announcing one tells the other pods only, the members hear of it later from a
goroutine.
-/

namespace MediaServer.Ref

open MediaServer.Lib

variable {p q : Pod} {s : SessRef} {x : PeerRef} {r : RoomRef} {k : String}
variable {b : Act} {e : Event}

theorem Event.note_of_plain (h : e.plain = true) : e.note = none := by
  cases e with
  | toClient topic m => simp only [Event.note]; exact if_pos h
  | toLB m => simp only [Event.note]; exact if_pos h
  | sync | deliverAudio | deliverVideo | deliverApp | toPod | toCrossClusterPod
  | destroy => rfl
  | broadcastCrossCluster => cases h

theorem Event.note_of_said {uuid : String} (h : e.said uuid) :
    e.note = none := by
  cases e with
  | broadcastCrossCluster m => simp only [Event.note, h.2]
  | toPod | toCrossClusterPod => rfl
  | sync | deliverAudio | deliverVideo | deliverApp | toClient | toLB
  | destroy => cases h

namespace Pod

theorem emit_notes (hf : p.fatal = false) (e : Event) :
    (p.emit e).notes = p.notes ++ e.note.toList := by
  rw [notes, emit_log, hf, List.filterMap_append]
  cases h : e.note <;> simp [h, notes]

end Pod

theorem Still.notes (h : Still p q) : q.notes = p.notes := by
  obtain ⟨tr, hlog, hplain⟩ := h.log
  rw [Pod.notes, hlog, List.filterMap_append, List.filterMap_eq_nil_iff.mpr
    fun e he => Event.note_of_plain (hplain e he), List.append_nil, Pod.notes]

/-- The streams and users that a move tells of. -/
def Act.notes (p : Pod) : Act → List Note
  | .tells topic r sid _ pid => [.pub topic (p.room r).roomid sid pid]
  | .unpush s k => [.unpush (p.room (p.sess s).parent).roomid
      (p.sess s).userid k]
  | .leaves r u => [.leaveRoom (p.room r).roomid u]
  | .withdraws s k _ =>
      ((p.room (p.sess s).parent).sessions.entries.filter
        fun e => (p.sess e.2).origin).map (fun e =>
          .unpub (p.sess e.2).userid (p.room (p.sess s).parent).roomid
            (p.sess s).userid k) ++
      if (p.sess s).origin then
        [.fakeUnpublish (p.room (p.sess s).parent).roomid (p.sess s).userid k]
      else []
  | .announces x =>
      if (p.sess (p.peer x).parent).origin then
        [.fakePublish (p.room (p.sess (p.peer x).parent).parent).roomid
          (p.peer x).userid (p.peer x).peerid]
      else []
  | _ => []

/-- The moves that make a note of this kind. -/
def Note.By : Note → Act → Prop
  | .pub .., .tells .. | .unpub .., .withdraws .. | .unpush .., .unpush ..
  | .leaveRoom .., .leaves .. | .fakePublish .., .announces _
  | .fakeUnpublish .., .withdraws .. => True
  | _, _ => False

theorem by_of_mem_notes {n : Note} (h : n ∈ b.notes p) : n.By b := by
  cases b with
  | tells | unpush | leaves => rw [List.mem_singleton.mp h]; trivial
  | withdraws s k x =>
      rcases List.mem_append.mp h with h | h
      · obtain ⟨e, -, rfl⟩ := List.mem_map.mp h
        trivial
      · split at h
        · rw [List.mem_singleton.mp h]; trivial
        · cases h
  | announces x =>
      rw [Act.notes] at h
      split at h
      · rw [List.mem_singleton.mp h]; trivial
      · cases h
  | still | dies | sends | spawns | destroys | erases | clears | adds | offers
  | accepts | flags | beats | seats | unseats | vacates | opens | closes
  | takes => cases h

section Fields

variable (topic rid sid name pid : String) (m : JsonParser)

theorem unpub_note : (Event.toClient topic
    [(.cmd, .str Cmd.unpub.text), (.roomId, .str rid), (.sessID, .str sid),
      (.peerID, .str pid)]).note = some (.unpub topic rid sid pid) := by
  simp only [Event.note, command_cons]
  rfl

theorem pub_note (p : Pod) (r : RoomRef) : (Event.toClient topic
    (p.pubMsg r sid name pid)).note =
      some (.pub topic (p.room r).roomid sid pid) := by
  simp only [Event.note, Pod.pubMsg, command_cons]
  rfl

theorem fakePublish_note (p : Pod) (s : SessRef) :
    (Event.broadcastCrossCluster (p.fakePublishMsg s sid pid)).note =
      some (.fakePublish (p.room (p.sess s).parent).roomid sid pid) := by
  simp only [Event.note, Pod.fakePublishMsg, command_cons]
  rfl

end Fields

/-- A loop that sends one message to each origin member, the note of which
does not depend on what was sent before. -/
theorem tellMembers_notes {m : Pod → JsonParser} {f : String → Note}
    (l : List ((_ : String) × SessRef)) (p : Pod) (hf : p.fatal = false)
    (hm : ∀ q v, Spoke p q →
      (Event.toClient v (m q)).note = some (f v)) :
    (l.foldl (fun p e =>
      if (p.sess e.2).origin then
        p.emit (.toClient (p.sess e.2).userid (m p))
      else p) p).notes =
    p.notes ++ (l.filter fun e => (p.sess e.2).origin).map fun e =>
      f (p.sess e.2).userid := by
  induction l generalizing p with
  | nil => simp
  | cons e l ih =>
      rw [List.foldl_cons]
      by_cases ho : (p.sess e.2).origin = true
      · rw [if_pos ho, ih _ (by rw [Pod.emit_fatal]; exact hf)
            fun q v hq => hm q v ((p.emit_spoke _).trans hq),
          Pod.emit_notes hf, hm p _ (.refl p),
          List.filter_cons_of_pos (by exact ho)]
        simp
      · rw [if_neg ho, ih _ hf hm, List.filter_cons_of_neg (by exact ho)]

theorem onPublisherReady_notes (r : RoomRef) (sid name pid : String)
    (hf : p.fatal = false) :
    (p.onPublisherReady r sid name pid).notes = p.notes ++
      ((p.room r).sessions.entries.filter
        fun e => (p.sess e.2).origin).map fun e =>
          .pub (p.sess e.2).userid (p.room r).roomid sid pid :=
  tellMembers_notes (f := fun v => .pub v (p.room r).roomid sid pid) _ p hf
    fun q v hq => by rw [pub_note, hq.room]

theorem notifyStopPush_notes (r : RoomRef) (origin : Bool) (sid pid : String)
    (hf : p.fatal = false) :
    (p.notifyStopPush r origin sid pid).notes = p.notes ++
      (((p.room r).sessions.entries.filter
        fun e => (p.sess e.2).origin).map (fun e =>
          .unpub (p.sess e.2).userid (p.room r).roomid sid pid) ++
      if origin then [.fakeUnpublish (p.room r).roomid sid pid] else []) := by
  have hloop := tellMembers_notes
    (m := fun p => [(.cmd, .str Cmd.unpub.text),
      (.roomId, .str (p.room r).roomid), (.sessID, .str sid),
      (.peerID, .str pid)])
    (f := fun v => .unpub v (p.room r).roomid sid pid)
    (p.room r).sessions.entries p hf
    fun q v hq => by rw [unpub_note, hq.room]
  have hspoke := p.notifyStopPush_spoke r false sid pid
  unfold Pod.notifyStopPush at hspoke ⊢
  dsimp only at hspoke ⊢
  rw [if_neg Bool.false_ne_true] at hspoke
  cases origin with
  | true =>
      rw [if_pos rfl, if_pos rfl, Pod.emit_notes (hspoke.fatal.trans hf), hloop,
        hspoke.room, List.append_assoc]
      simp only [Event.note, command_cons]
      rfl
  | false =>
      rw [if_neg Bool.false_ne_true, if_neg Bool.false_ne_true, hloop,
        List.append_nil]

theorem stopNotify_notes (hf : p.fatal = false)
    (hn : (p.peer x).shouldNotify = true) :
    (p.stopNotify s x k).notes =
      p.notes ++ (Act.withdraws s k x).notes p := by
  rw [Pod.stopNotify, if_pos hn]
  exact notifyStopPush_notes (p := p.setPeer x fun q =>
    { q with shouldNotify := false }) _ _ _ _ hf

theorem onIceReady_notes {sid pid : String} (hf : p.fatal = false) :
    (p.onIceReady .publisher s sid pid).notes = p.notes ++
      if (p.sess s).publishers.lookup pid ≠ none ∧ (p.sess s).origin = true then
        [.fakePublish (p.room (p.sess s).parent).roomid sid pid]
      else [] := by
  have ht : Still p (p.rlock (.pubs s)) := p.rlock_still _
  have hsess : (p.rlock (.pubs s)).sess s = p.sess s := Pod.emit_sess
  have hroom : ∀ r, (p.rlock (.pubs s)).room r = p.room r := ht.room
  unfold Pod.onIceReady
  dsimp only
  rw [(Pod.runlock_still _ _).notes, hsess]
  cases hx : (p.sess s).publishers.lookup pid with
  | none =>
      dsimp only
      rw [if_neg (fun h => h.1 rfl), List.append_nil]
      exact ht.notes
  | some x =>
      dsimp only
      have ho : (((p.rlock (.pubs s)).go (.onPublisherReady (p.sess s).parent
        sid (p.sess s).username pid)).sess s).origin = (p.sess s).origin :=
        congrArg (·.origin) hsess
      rw [ho]
      split
      · next ho =>
          rw [if_pos ⟨nofun, ho⟩, Pod.emit_notes (p := (p.rlock
            (.pubs s)).go _) (ht.fatal.trans hf), fakePublish_note]
          change (p.rlock (.pubs s)).notes ++ [Note.fakePublish
            ((p.rlock (.pubs s)).room ((p.rlock (.pubs s)).sess
              s).parent).roomid sid pid] = _
          rw [ht.notes, hsess, hroom]
      · next ho =>
          rw [if_neg (fun h => ho h.2), List.append_nil]
          exact ht.notes

theorem announce_notes (hf : p.fatal = false)
    (hrole : (p.peer x).role = .publisher)
    (hx : p.entry .publisher (p.peer x).parent (p.peer x).peerid = some x) :
    ((p.setIceFlags x .connected).reportIce x .connected).notes =
      p.notes ++ (Act.announces x).notes p := by
  rw [reportIce_connected hrole,
    onIceReady_notes (p := p.setIceFlags x .connected) hf]
  have hlook : ((p.setIceFlags x .connected).sess
    (p.peer x).parent).publishers.lookup (p.peer x).peerid ≠ none := by
    change p.entry .publisher _ _ ≠ none
    rw [hx]
    exact nofun
  simp only [hlook, ne_eq, not_false_eq_true, true_and]
  rfl

theorem notifyReleasePublish_notes {env : Env} (hf : p.fatal = false) :
    (p.notifyReleasePublish env s k).notes =
      p.notes ++ (Act.unpush s k).notes p := by
  unfold Pod.notifyReleasePublish
  dsimp only
  rw [Pod.emit_notes (p := p.getSn) hf]
  simp only [Event.note, command_cons]
  rfl

theorem notifyLeaveRoom_notes {env : Env} {u : String}
    (hf : p.fatal = false) :
    (p.notifyLeaveRoom env r u).notes = p.notes ++ (Act.leaves r u).notes p := by
  unfold Pod.notifyLeaveRoom
  dsimp only
  rw [Pod.emit_notes (p := p.getSn) hf]
  simp only [Event.note, command_cons]
  rfl

theorem destroy_notes (p : Pod) (x : PeerRef) :
    (p.destroy x).notes = p.notes := by
  have hemit : (p.emit (.destroy x)).notes = p.notes := by
    rw [Pod.notes, Pod.emit_log, List.filterMap_append, Pod.notes]
    split <;> simp [Event.note]
  unfold Pod.destroy
  dsimp only
  split
  · exact hemit
  · exact hemit

theorem insertEntry_notes (s : SessRef) (t : Peer) (p : Pod) :
    (p.insertEntry s t).notes = p.notes := by
  unfold Pod.insertEntry
  split
  · rw [Pod.insertPublisher, (Pod.unlock_still _ _).notes]
    exact (Pod.lock_still _ _).notes
  · rw [Pod.insertSubscriber, (Pod.unlock_still _ _).notes]
    exact (Pod.lock_still _ _).notes

theorem insertSession_notes (r : RoomRef) (u : String) (t : Session)
    (p : Pod) : (p.insertSession r u t).notes = p.notes := by
  rw [Pod.insertSession, (Pod.unlock_still _ _).notes]
  exact (Pod.lock_still _ _).notes

theorem insertRoom_notes (rid : String) (p : Pod) :
    (p.insertRoom rid).notes = p.notes := by
  rw [Pod.insertRoom, (Pod.unlock_still _ _).notes]
  exact (Pod.lock_still _ _).notes

/-- A move adds the notes of its name. -/
theorem Move.notes (h : Move b p q) (hp : PodOk p) (hf : p.fatal = false) :
    q.notes = p.notes ++ b.notes p := by
  cases h with
  | still h => rw [h.notes]; exact (List.append_nil _).symm
  | sends he =>
      rw [Pod.emit_notes hf, Event.note_of_said he]
      rfl
  | tells topic r sid name pid =>
      rw [Pod.emit_notes hf, pub_note]
      rfl
  | unpush env s k => exact notifyReleasePublish_notes hf
  | leaves env r u => exact notifyLeaveRoom_notes hf
  | withdraws s k x _ hn => exact stopNotify_notes hf hn
  | announces x hx =>
      exact announce_notes hf (hp.placed _ _ _ _ hx).2.2.1 hx
  | destroys s x => rw [destroy_notes]; exact (List.append_nil _).symm
  | adds s t =>
      rw [insertEntry_notes]; exact (List.append_nil _).symm
  | seats r u t => rw [insertSession_notes]; exact (List.append_nil _).symm
  | opens rid => rw [insertRoom_notes]; exact (List.append_nil _).symm
  | erases role s k =>
      rw [show (p.eraseEntry role s k).notes = p.notes by cases role <;> rfl]
      exact (List.append_nil _).symm
  | clears role s =>
      rw [show (p.clearEntries role s).notes = p.notes by cases role <;> rfl]
      exact (List.append_nil _).symm
  | dies | spawns | offers | accepts | flags | beats | unseats | vacates
  | closes | takes => exact (List.append_nil _).symm

end MediaServer.Ref
