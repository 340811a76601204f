import MediaServer.Proofs.Frame
import MediaServer.Ref.Inbox

/-!
# Messages that are not what the handler expects

Bytes that are no JSON object read as a message without fields. Its command is
the empty text, which no branch of `roommgr.HandleMessage` takes: a registered
pod prints a line, and one that is not registered answers that it is not
available.

The two messages of the registration read a cluster id, as a text of whatever
it is, and a code, which `GetIntValue` asserts to be a number. An object whose
`code` is there and is anything else ends the process.
-/

namespace MediaServer.Ref

open MediaServer.Lib

/-! ## Fields of an object -/

@[simp] theorem Label.parse_text (l : Label) : parse l.text = some l := by
  cases l <;> decide

theorem Label.text_of_parse {s : String} {l : Label} (h : parse s = some l) :
    s = l.text := by
  have htext := List.find?_some h
  exact (of_decide_eq_true htext).symm

/-- A handler finds under a label what the object has under its text. -/
theorem lookup_filterMap_parse (fields : List (String × Json)) (l : Label) :
    (fields.filterMap fun f => (Label.parse f.1).map fun l =>
      (l, toValue f.2)).lookup l = (fields.lookup l.text).map toValue := by
  induction fields with
  | nil => rfl
  | cons f fields ih =>
      obtain ⟨k, j⟩ := f
      cases hk : Label.parse k with
      | none =>
          have hne : (l.text == k) = false := by
            rw [beq_eq_false_iff_ne]
            rintro rfl
            rw [Label.parse_text] at hk
            cases hk
          rw [List.filterMap_cons, hk, List.lookup_cons, hne]
          exact ih
      | some l' =>
          obtain rfl := Label.text_of_parse hk
          rw [List.filterMap_cons, hk]
          by_cases hl : l = l'
          · subst hl
            simp
          · have hne : (l.text == l'.text) = false := by
              rw [beq_eq_false_iff_ne]
              intro htext
              have hparse := congrArg Label.parse htext
              rw [Label.parse_text, Label.parse_text] at hparse
              exact hl (Option.some.inj hparse)
            rw [List.lookup_cons, hne]
            simp only [Option.map_some, List.lookup_cons,
              beq_eq_false_iff_ne.mpr hl]
            exact ih

variable {unmarshal : List UInt8 → Option Json} {env : Env}
variable {msg : List UInt8} {fields : List (String × Json)} {p q : Pod}

theorem lookup_parsedOrNil (h : unmarshal msg = some (.obj fields))
    (l : Label) : (parsedOrNil unmarshal msg).lookup l =
      (member fields l.text).map toValue := by
  rw [parsedOrNil, h]
  exact lookup_filterMap_parse (lastWins fields) l

theorem command_parsedOrNil {c : Cmd} (h : unmarshal msg = some (.obj fields))
    (hc : member fields "cmd" = some (.str c.text)) :
    command (parsedOrNil unmarshal msg) = some c := by
  have hlook := lookup_parsedOrNil h .cmd
  rw [show Label.cmd.text = "cmd" from rfl, hc] at hlook
  rw [command, getValue, hlook]
  exact Cmd.parse_text c

/-- `GetIntValue` panics exactly on a field that is no number. -/
theorem getIntValue_eq_none_iff (h : unmarshal msg = some (.obj fields)) :
    getIntValue (parsedOrNil unmarshal msg) .code = none ↔
      ∃ v ∈ member fields "code", v.isNum = false := by
  have hlook := lookup_parsedOrNil h .code
  rw [show Label.code.text = "code" from rfl] at hlook
  rw [getIntValue, hlook]
  cases member fields "code" with
  | none => simp
  | some v =>
      cases v with
      | num v text => simp [toValue, Json.isNum]
      | null | bool | str | arr | obj => simp [toValue, Json.isNum]

/-- Anything but an object reads as a message without fields. -/
theorem parsedOrNil_eq_nil (h : ∀ fields, unmarshal msg ≠ some (.obj fields)) :
    parsedOrNil unmarshal msg = [] := by
  rw [parsedOrNil]
  cases hj : unmarshal msg with
  | none => rfl
  | some j =>
      cases j with
      | obj fields => exact absurd hj (h fields)
      | null | bool | num | str | arr => rfl

/-! ## What the handler does -/

/-- The rooms, and all that is in them, are the same. -/
structure SameRooms (p q : Pod) : Prop where
  rooms : q.rooms = p.rooms
  roomHeap : q.roomHeap = p.roomHeap
  sessHeap : q.sessHeap = p.sessHeap
  peerHeap : q.peerHeap = p.peerHeap

/-- The call has left everything alone, and has returned: it does not wait
for a goroutine to take its value from `stopRegist`. -/
structure Ignored (p q : Pod) : Prop extends SameRooms p q where
  regist : q.regist = p.regist
  conf : q.conf = p.conf
  stops : q.stops = p.stops
  fatal : q.fatal = p.fatal

theorem Ignored.refl (p : Pod) : Ignored p p :=
  ⟨⟨rfl, rfl, rfl, rfl⟩, rfl, rfl, rfl, rfl⟩

theorem Ignored.emit (p : Pod) (e : Event) : Ignored p (p.emit e) := by
  unfold Pod.emit
  split
  · exact .refl p
  · exact ⟨⟨rfl, rfl, rfl, rfl⟩, rfl, rfl, rfl, rfl⟩

theorem mgrHandleMessage_nil (env : Env) (p : Pod) :
    Ignored p (p.mgrHandleMessage env []) := by
  have hnone : command [] = none := by decide
  unfold Pod.mgrHandleMessage
  rw [hnone]
  dsimp only
  split
  · rw [Pod.mgrForward, if_neg]
    · exact .refl p
    · simp [Pod.forwards, hnone]
  · exact .emit p _

theorem handlePodRegistNow_sameRooms (p : Pod) :
    SameRooms p p.handlePodRegistNow ∧
      p.handlePodRegistNow.fatal = p.fatal := by
  unfold Pod.handlePodRegistNow
  split
  · exact ⟨⟨rfl, rfl, rfl, rfl⟩, rfl⟩
  · exact ⟨⟨rfl, rfl, rfl, rfl⟩, rfl⟩

theorem handlePodRegist_sameRooms (m : JsonParser) (p : Pod) :
    SameRooms p (p.handlePodRegist m) := by
  unfold Pod.handlePodRegist
  split
  · exact ⟨rfl, rfl, rfl, rfl⟩
  · split
    · exact ⟨rfl, rfl, rfl, rfl⟩
    · exact ⟨rfl, rfl, rfl, rfl⟩

/-- A reply to the registration ends the process exactly if its code cannot be
read. -/
theorem handlePodRegist_fatal (m : JsonParser) (hp : p.fatal = false) :
    (p.handlePodRegist m).fatal = false ↔ getIntValue m .code ≠ none := by
  unfold Pod.handlePodRegist
  split
  · next hcode => simp [Pod.throw, hcode]
  · next hcode =>
      refine ⟨fun _ => hcode, fun _ => ?_⟩
      split
      · exact hp
      · exact hp

/-- Bytes that are no JSON object are ignored. An object with one of the two
commands of the registration leaves the rooms alone and does not panic,
exactly if the `code` of a `pod_regist`, where it has one, is a number. -/
theorem malformed_harmless_iff (unmarshal : List UInt8 → Option Json)
    (env : Env) (msg : List UInt8) (p : Pod) (hp : p.fatal = false) :
    ((∀ fields, unmarshal msg ≠ some (.obj fields)) →
        Ignored p (p.mgrHandleBytes unmarshal env msg)) ∧
      ∀ fields (c : Cmd), unmarshal msg = some (.obj fields) →
        member fields "cmd" = some (.str c.text) →
        c = .podRegist ∨ c = .podRegistNow →
        ((p.mgrHandleBytes unmarshal env msg).fatal = false ∧
            SameRooms p (p.mgrHandleBytes unmarshal env msg) ↔
          (c = .podRegist → ∀ v ∈ member fields "code", v.isNum = true)) := by
  constructor
  · intro h
    rw [Pod.mgrHandleBytes, parsedOrNil_eq_nil h]
    exact mgrHandleMessage_nil env p
  · intro fields c h hcmd hc
    rw [Pod.mgrHandleBytes, Pod.mgrHandleMessage, command_parsedOrNil h hcmd]
    rcases hc with rfl | rfl
    · have hnum : (∀ v ∈ member fields "code", v.isNum = true) ↔
          getIntValue (parsedOrNil unmarshal msg) .code ≠ none := by
        rw [ne_eq, getIntValue_eq_none_iff h]
        simp
      rw [and_iff_left (handlePodRegist_sameRooms _ p),
        handlePodRegist_fatal _ hp, ← hnum]
      exact ⟨fun h _ => h, fun h => h rfl⟩
    · obtain ⟨hrooms, hfatal⟩ := handlePodRegistNow_sameRooms p
      exact ⟨fun _ => nofun, fun _ => ⟨hfatal.trans hp, hrooms⟩⟩

/-- The bytes of an ASCII text. -/
def bytesOf (text : String) : List UInt8 :=
  text.toList.map fun c => c.toNat.toUInt8

/-- What `json.Unmarshal` makes of two replies. -/
def unmarshalReplies (msg : List UInt8) : Option Json :=
  if msg = bytesOf "\x7b\"cmd\":\"pod_regist\",\"code\":0\x7d" then
    some (.obj [("cmd", .str "pod_regist"), ("code", .int 0)])
  else if msg = bytesOf "\x7b\"cmd\":\"pod_regist\",\"code\":\"0\"\x7d" then
    some (.obj [("cmd", .str "pod_regist"), ("code", .str "0")])
  else none

/-- A pod with a user in a room. -/
def occupied : Pod :=
  (Pod.createRoomMgr (Config.standalone "podA")).setSendMessageHandler
    |>.mgrHandleMessage Env.calm (Cmd.login.msg
      [(.roomId, "R"), (.sessID, "u")])

/-- The code as a number. -/
theorem malformed_harmless_number :
    let q := occupied.mgrHandleBytes unmarshalReplies Env.calm
      (bytesOf "\x7b\"cmd\":\"pod_regist\",\"code\":0\x7d")
    occupied.rooms.lookup "R" ≠ none ∧ occupied.fatal = false ∧
      q.fatal = false ∧ SameRooms occupied q := by
  refine ⟨by decide, by decide, ((malformed_harmless_iff unmarshalReplies
    Env.calm _ occupied (by decide)).2 [("cmd", .str "pod_regist"),
    ("code", .int 0)] .podRegist ?_ rfl (.inl rfl)).mpr ?_⟩
  · rw [unmarshalReplies, if_pos rfl]
  · intro _ v hv
    cases hv
    rfl

/-- The same code as a text ends the process, registered or not. -/
theorem text_code_panics :
    let p := (Pod.createRoomMgr (Config.standalone "podA")).setSendMessageHandler
    let msg := bytesOf "\x7b\"cmd\":\"pod_regist\",\"code\":\"0\"\x7d"
    (p.mgrHandleBytes unmarshalReplies Env.calm msg).fatal = true ∧
      ({ p with regist := true }.mgrHandleBytes unmarshalReplies Env.calm
        msg).fatal = true := by
  decide

end MediaServer.Ref
