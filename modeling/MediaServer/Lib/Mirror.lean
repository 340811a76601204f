import Mathlib.Data.Set.Insert

/-!
# Mirroring over two channels

A source announces what it has, and a sink keeps a copy of it. The source
sends words to the sink over one first-in-first-out channel, and the sink
sends requests back over another. An announcement makes the sink start an
empty copy and ask for the item; the source answers the request with an offer,
which fills the copy; a withdrawal ends it. The sink can be closed, and then
hears nothing; when it opens again it says so and the source, if it has
something, announces it anew. A sink that is about to close may refuse an
announcement.

The source is assumed to announce one item at a time: the next announcement of
another item comes after a withdrawal. Then, when both channels are empty and
the sink is open and not about to close, the copy is what the source has
(`Ok.settled`). The invariant looks at the copy as it will be when all words
on the way have been heard: that copy never holds more than what was
announced last (`sound`), and if it lacks an item that the source has, the
message that will bring it is on its way (`complete`).
-/

namespace MediaServer.Lib

variable {κ : Type}

inductive Word (κ : Type) where
  | announce (k : κ)
  | withdraw
  | offer (k : κ)

inductive Request (κ : Type) where
  | opened
  | ask (k : κ)

/-- `told` is what the source has announced and not withdrawn, `live` what it
has. The sink is closed (`none`), open without a copy, or open with one. -/
structure Mirror (κ : Type) where
  told : Set κ
  live : Set κ
  words : List (Word κ)
  requests : List (Request κ)
  sink : Option (Option (Set κ))
  closing : Prop

namespace Mirror

/-- What a word does to the copy of an open sink. -/
def hear (v : Option (Set κ)) : Word κ → Option (Set κ)
  | .announce _ => some ∅
  | .withdraw => none
  | .offer k => v.map (insert k)

/-- The copy after the words on the way. -/
def settle (v : Option (Set κ)) (ws : List (Word κ)) : Option (Set κ) :=
  ws.foldl hear v

structure Ok (m : Mirror κ) : Prop where
  sound : ∀ ks, settle m.sink.join m.words = some ks →
    m.told.Nonempty ∧ ks ⊆ m.told
  complete : ∀ k ∈ m.live, m.sink = none ∨ m.closing ∨
    .opened ∈ m.requests ∨ ∃ ks, settle m.sink.join m.words = some ks ∧
      (k ∈ ks ∨ .ask k ∈ m.requests ∨ .announce k ∈ m.words)

variable {m : Mirror κ} {v : Option (Set κ)} {ws : List (Word κ)}

/-! ## Settling -/

theorem settle_append (v : Option (Set κ)) (ws ws' : List (Word κ)) :
    settle v (ws ++ ws') = settle (settle v ws) ws' := List.foldl_append

/-- A sink without a copy ends up with no more than one that has a copy. -/
theorem settle_none {ks : Set κ} (h : settle none ws = some ks) :
    ∃ ks', settle v ws = some ks' ∧ ks ⊆ ks' := by
  induction ws generalizing v with
  | nil => cases h
  | cons w ws ih =>
      cases w with
      | announce k => exact ⟨ks, h, subset_rfl⟩
      | withdraw => exact ⟨ks, h, subset_rfl⟩
      | offer k => exact ih h

/-- The same word several times, if it does not ask what the copy was. -/
theorem settle_of_forall {w₀ : Word κ} {c : Option (Set κ)} (hne : ws ≠ [])
    (h : ∀ w ∈ ws, w = w₀) (hear_eq : ∀ v, hear v w₀ = c)
    (v : Option (Set κ)) : settle v ws = c := by
  induction ws generalizing v with
  | nil => exact absurd rfl hne
  | cons w ws ih =>
      rw [h w List.mem_cons_self]
      by_cases hws : ws = []
      · rw [hws]
        exact hear_eq v
      · exact ih hws (fun w hw => h w (List.mem_cons_of_mem _ hw)) _

theorem settle_announce {k : κ} (hne : ws ≠ [])
    (h : ∀ w ∈ ws, w = .announce k) (v : Option (Set κ)) :
    settle v ws = some ∅ :=
  settle_of_forall hne h (fun _ => rfl) v

theorem settle_withdraw (hne : ws ≠ []) (h : ∀ w ∈ ws, w = .withdraw)
    (v : Option (Set κ)) : settle v ws = none :=
  settle_of_forall hne h (fun _ => rfl) v

/-- Offers of one item add that item to the copy, if there is one. -/
theorem settle_offer {k : κ} (h : ∀ w ∈ ws, w = .offer k)
    (v : Option (Set κ)) :
    settle v ws = v.map fun ks => if ws = [] then ks else insert k ks := by
  induction ws generalizing v with
  | nil => cases v <;> rfl
  | cons w ws ih =>
      have ih := ih (fun w hw => h w (List.mem_cons_of_mem _ hw))
        (v.map (insert k))
      rw [h w List.mem_cons_self]
      refine ih.trans ?_
      cases v with
      | none => rfl
      | some ks =>
          simp only [Option.map_some, reduceCtorEq, if_false, Option.some.injEq]
          split
          · rfl
          · exact Set.insert_idem k ks

/-! ## The source -/

/-- What the source may say in one step, and what it has told and has live
afterwards. -/
inductive Says (told live : Set κ) :
    List (Word κ) → Set κ → Set κ → Prop where
  | still {live' : Set κ} (h : live' ⊆ live) : Says told live [] told live'
  | withdraw {ws : List (Word κ)} (hne : ws ≠ [])
      (h : ∀ w ∈ ws, w = .withdraw) : Says told live ws ∅ ∅
  | announce {ws : List (Word κ)} {k : κ} {live' : Set κ} (hne : ws ≠ [])
      (h : ∀ w ∈ ws, w = .announce k) (htold : told ⊆ {k})
      (hlive : live' ⊆ {k}) : Says told live ws {k} live'
  | offer {ws : List (Word κ)} {k : κ} (h : ∀ w ∈ ws, w = .offer k)
      (htold : told ⊆ {k}) : Says told live ws told live

/-- The words answer the request. -/
def Answers (live : Set κ) (ws : List (Word κ)) : Request κ → Prop
  | .opened => ∀ k ∈ live, .announce k ∈ ws
  | .ask k => k ∈ live → .offer k ∈ ws

theorem Ok.said {told' live' : Set κ} {requests' : List (Request κ)}
    (h : Ok m) (hs : Says m.told m.live ws told' live')
    (hreq : ∀ rq ∈ m.requests, rq ∈ requests' ∨ Answers live' ws rq) :
    Ok { m with
      told := told', live := live', words := m.words ++ ws
      requests := requests' } := by
  cases hs with
  | still hlive =>
      refine ⟨?_, fun k hk => ?_⟩
      · simp only [List.append_nil]; exact h.sound
      · simp only [List.append_nil]
        rcases h.complete k (hlive hk) with h | h | h | ⟨ks, hks, h⟩
        · exact .inl h
        · exact .inr (.inl h)
        · rcases hreq _ h with h | h
          · exact .inr (.inr (.inl h))
          · cases h k hk
        · refine .inr (.inr (.inr ⟨ks, hks, ?_⟩))
          rcases h with h | h | h
          · exact .inl h
          · rcases hreq _ h with h | h
            · exact .inr (.inl h)
            · cases h hk
          · exact .inr (.inr h)
  | withdraw hne hws =>
      refine ⟨fun ks hks => ?_, fun k hk => by cases hk⟩
      simp only [settle_append, settle_withdraw hne hws] at hks
      cases hks
  | @announce _ k _ hne hws htold hlive =>
      refine ⟨fun ks hks => ?_, fun k' hk' => ?_⟩
      · simp only [settle_append, settle_announce hne hws] at hks
        cases hks
        exact ⟨Set.singleton_nonempty k, Set.empty_subset _⟩
      · obtain rfl := hlive hk'
        obtain ⟨w, hw⟩ := List.exists_mem_of_ne_nil ws hne
        refine .inr (.inr (.inr ⟨∅, ?_, .inr (.inr ?_)⟩))
        · simp only [settle_append, settle_announce hne hws]
        · exact List.mem_append_right _ (hws w hw ▸ hw)
  | @offer _ k hws htold =>
      have hmono : ∀ ks, settle m.sink.join m.words = some ks →
          ∃ ks', settle m.sink.join (m.words ++ ws) = some ks' ∧ ks ⊆ ks' ∧
            (ws ≠ [] → k ∈ ks') ∧ ks' ⊆ insert k ks := by
        intro ks hks
        rw [settle_append, settle_offer hws, hks, Option.map_some]
        refine ⟨_, rfl, ?_⟩
        split
        · next hnil =>
            exact ⟨subset_rfl, fun hne => absurd hnil hne,
              Set.subset_insert k ks⟩
        · exact ⟨Set.subset_insert k ks, fun _ => Set.mem_insert k ks,
            subset_rfl⟩
      refine ⟨fun ks' hks' => ?_, fun k' hk' => ?_⟩
      · cases hks : settle m.sink.join m.words with
        | none =>
            simp only [settle_append, settle_offer hws, hks] at hks'
            cases hks'
        | some ks =>
            obtain ⟨hne, hsub⟩ := h.sound ks hks
            obtain ⟨ks₁, hks₁, -, -, hle⟩ := hmono ks hks
            rw [hks₁] at hks'
            cases hks'
            refine ⟨hne, hle.trans (Set.insert_subset ?_ hsub)⟩
            obtain ⟨a, ha⟩ := hne
            exact htold ha ▸ ha
      · rcases h.complete k' hk' with h | h | h | ⟨ks, hks, h⟩
        · exact .inl h
        · exact .inr (.inl h)
        · rcases hreq _ h with h | h
          · exact .inr (.inr (.inl h))
          · cases hws _ (h k' hk')
        · obtain ⟨ks', hks', hsub, hin, -⟩ := hmono ks hks
          refine .inr (.inr (.inr ⟨ks', hks', ?_⟩))
          rcases h with h | h | h
          · exact .inl (hsub h)
          · rcases hreq _ h with h | h
            · exact .inr (.inl h)
            · have hmem := h hk'
              cases hws _ hmem
              exact .inl (hin (List.ne_nil_of_mem hmem))
          · exact .inr (.inr (List.mem_append_left _ h))

/-! ## The sink -/

/-- What the sink may do by itself, with the requests it sends. -/
inductive Turns (closing : Prop) : Option (Option (Set κ)) →
    List (Request κ) → Option (Option (Set κ)) → Prop → Prop where
  | still {sink : Option (Option (Set κ))} {rs : List (Request κ)}
      {closing' : Prop} (h : closing → closing') :
      Turns closing sink rs sink closing'
  | close {sink : Option (Option (Set κ))} {rs : List (Request κ)}
      {closing' : Prop} : Turns closing sink rs none closing'
  | opens {rs : List (Request κ)} {closing' : Prop}
      (h : closing → closing') (hrs : .opened ∈ rs) :
      Turns closing none rs (some none) closing'

/-- What the sink may do when it hears a word. -/
inductive Hears (closing : Prop) : Word κ → Option (Option (Set κ)) →
    List (Request κ) → Option (Option (Set κ)) → Prop → Prop where
  | deaf {w : Word κ} {rs : List (Request κ)} {closing' : Prop} :
      Hears closing w none rs none closing'
  | refuse {k : κ} {v : Option (Set κ)} {rs : List (Request κ)}
      {closing' : Prop} (hc : closing') :
      Hears closing (.announce k) (some v) rs (some none) closing'
  | takes {w : Word κ} {v : Option (Set κ)} {rs : List (Request κ)}
      {closing' : Prop} (h : closing → closing')
      (hask : ∀ k, w = .announce k → .ask k ∈ rs) :
      Hears closing w (some v) rs (some (hear v w)) closing'

theorem Ok.turns {rs : List (Request κ)} {sink' : Option (Option (Set κ))}
    {closing' : Prop} (h : Ok m)
    (hs : Turns m.closing m.sink rs sink' closing') :
    Ok { m with
      sink := sink', closing := closing', requests := m.requests ++ rs } := by
  generalize hsink : m.sink = sink at hs
  cases hs with
  | still hc =>
      rw [← hsink]
      refine ⟨h.sound, fun k hk => ?_⟩
      rcases h.complete k hk with h | h | h | ⟨ks, hks, h⟩
      · exact .inl h
      · exact .inr (.inl (hc h))
      · exact .inr (.inr (.inl (List.mem_append_left _ h)))
      · refine .inr (.inr (.inr ⟨ks, hks, ?_⟩))
        exact h.imp_right (Or.imp_left (List.mem_append_left _))
  | close =>
      refine ⟨fun ks hks => ?_, fun k _ => .inl rfl⟩
      obtain ⟨ks', hks', hle⟩ := settle_none (v := m.sink.join) hks
      exact ⟨(h.sound ks' hks').1, hle.trans (h.sound ks' hks').2⟩
  | opens hc hrs =>
      have hsound := h.sound
      rw [hsink] at hsound
      exact ⟨hsound, fun k _ =>
        .inr (.inr (.inl (List.mem_append_right _ hrs)))⟩

theorem Ok.hears {w : Word κ} {rs : List (Request κ)}
    {sink' : Option (Option (Set κ))} {closing' : Prop} (h : Ok m)
    (hw : m.words = w :: ws) (hs : Hears m.closing w m.sink rs sink' closing') :
    Ok { m with
      words := ws, sink := sink', closing := closing'
      requests := m.requests ++ rs } := by
  have hsound := h.sound
  have hcomplete := h.complete
  rw [hw] at hsound hcomplete
  generalize m.sink = sink at hs hsound hcomplete
  -- without a copy the sink ends up with less
  have hless : ∀ ks, settle none ws = some ks →
      m.told.Nonempty ∧ ks ⊆ m.told := by
    intro ks hks
    obtain ⟨ks', hks', hle⟩ := settle_none (v := hear sink.join w) hks
    exact ⟨(hsound ks' hks').1, hle.trans (hsound ks' hks').2⟩
  cases hs with
  | deaf => exact ⟨hless, fun k _ => .inl rfl⟩
  | refuse hc => exact ⟨hless, fun k _ => .inr (.inl hc)⟩
  | takes hc hask =>
      refine ⟨hsound, fun k hk => ?_⟩
      rcases hcomplete k hk with h | h | h | ⟨ks, hks, h⟩
      · cases h
      · exact .inr (.inl (hc h))
      · exact .inr (.inr (.inl (List.mem_append_left _ h)))
      · refine .inr (.inr (.inr ⟨ks, hks, ?_⟩))
        rcases h with h | h | h
        · exact .inl h
        · exact .inr (.inl (List.mem_append_left _ h))
        · rcases List.mem_cons.mp h with h | h
          · exact .inr (.inl (List.mem_append_right _ (hask k h.symm)))
          · exact .inr (.inr h)

/-- At rest the copy is what the source has. -/
theorem Ok.settled (h : Ok m) (hw : m.words = []) (hr : m.requests = [])
    (hc : ¬m.closing) (hs : m.sink = some v) (ht : m.told ⊆ m.live) :
    {k | ∃ ks, v = some ks ∧ k ∈ ks} = m.live := by
  have hsound := h.sound
  have hcomplete := h.complete
  rw [hw, hs] at hsound hcomplete
  ext k
  constructor
  · rintro ⟨ks, rfl, hk⟩
    exact ht ((hsound ks rfl).2 hk)
  · intro hk
    rcases hcomplete k hk with h | h | h | ⟨ks, hks, h⟩
    · cases h
    · exact absurd h hc
    · rw [hr] at h; cases h
    · rcases h with h | h | h
      · exact ⟨ks, hks, h⟩
      · rw [hr] at h; cases h
      · cases h

end Mirror

end MediaServer.Lib
