import MediaServer.Proofs.Frame
import MediaServer.Ref.Candidate

/-!
# The text of a candidate

The sender nests the candidate as an object, and the receiver prints whatever
the field holds. So what arrives is the print of a map, with the candidate's
text as one entry of four: never the text that was sent, whatever it was.
-/

namespace MediaServer.Ref

open MediaServer.Lib

/-- A handler reads the message of a candidate, and finds the print in it. -/
theorem createJSONParser_onICECandidate (p : Pod) (x : PeerRef)
    (c : ICECandidateInit) :
    ∃ j, createJSONParser (p.onICECandidate x c) = some j ∧
      getValue j .candidate = c.marshal.sprint := by
  unfold Pod.onICECandidate
  split
  · exact ⟨_, rfl, rfl⟩
  · exact ⟨_, rfl, rfl⟩

/-- The text that `HandleRemoteCandidate` takes out of the message for a
candidate, and caches, is not the candidate's, whichever candidate it was,
whether it goes to a pod or a client, and whoever receives it. -/
theorem candidate_text_lost (p : Pod) (x : PeerRef) (c : ICECandidateInit) :
    ∃ j text, createJSONParser (p.onICECandidate x c) = some j ∧
      (∀ env (q : Pod) y, (q.peer y).setedRemoteDesc = false →
        ((q.handleRemoteCandidate env y j).peer y).candidateCaches =
          (q.peer y).candidateCaches ++ [text]) ∧
      text ≠ c.candidate := by
  obtain ⟨j, hj, htext⟩ := createJSONParser_onICECandidate p x c
  refine ⟨j, getValue j .candidate, hj, fun env q y hq => ?_, ?_⟩
  · simp only [Pod.handleRemoteCandidate, hq, Bool.not_false, if_true,
      Pod.setPeer_peer]
  · have hlt : c.candidate.length < c.marshal.sprint.length :=
      Json.length_member_lt (k := "candidate") (j := .str c.candidate)
        (by simp [lastWins])
    intro heq
    rw [htext] at heq
    exact absurd (congrArg String.length heq).symm (Nat.ne_of_lt hlt)

/-- A host candidate as pion's `ToJSON` gives it. -/
theorem hostCandidate_text_lost :
    let c : ICECandidateInit :=
      { candidate := "candidate:1 1 udp 2130706431 10.0.0.1 50000 typ host"
        sdpMid := some "", sdpMLineIndex := some 0, usernameFragment := none }
    let p := Pod.createRoomMgr (Config.standalone "podB")
    ∃ j, createJSONParser (p.fCandiMsg 0 c).marshal = some j ∧
      getValue j .candidate = "map[candidate:" ++ c.candidate ++
        " sdpMLineIndex:0 sdpMid: usernameFragment:<nil>]" ∧
      getValue j .candidate ≠ c.candidate := by
  refine ⟨_, rfl, ?_, ?_⟩
  · decide
  · decide

end MediaServer.Ref
