import MediaServer.Ref.Ssrc

/-!
# Reading the sources of an offer

The loops of `setSsrcFromSDP` end the process at the first attribute that they
cannot read, and otherwise the three lists are what the sections of each kind
announce, in the order of the offer and whatever was there before
(`setSsrcFromSDP_eq_ok`). Which offers are safe and what the lists are good
for follows from that.
-/

namespace MediaServer.Ref

open MediaServer.Lib

variable {a : Attribute} {as : List Attribute} {v : MediaDescription}
variable {offer : SessionDescription} {p p' : Ssrcs} {l l' : List Int}

/-! ## One attribute -/

namespace Attribute

/-- If the attribute is of a source it has two fields, and what stands before
`cname` passes the test. -/
def passes (test : String → Bool) (a : Attribute) : Bool :=
  a.key ≠ "ssrc" || match fieldsFunc ssrcSeparator a.value with
    | first :: second :: _ => second ≠ "cname" || test first
    | _ => false

/-- What stands before `cname`, read as a number. -/
def source {α : Type} (read : String → Option α) (a : Attribute) : Option α :=
  if a.key = "ssrc" then
    match fieldsFunc ssrcSeparator a.value with
    | first :: second :: _ => if second = "cname" then read first else none
    | _ => none
  else none

/-- A test that holds of what can be read, and of what is read. -/
theorem passes_any {α : Type} {read : String → Option α} {ok : α → Bool} :
    a.passes (fun s => (read s).any ok) = true ↔
      a.passes (fun s => (read s).isSome) = true ∧
        ∀ n, a.source read = some n → ok n = true := by
  unfold passes source
  generalize fieldsFunc ssrcSeparator a.value = fields
  by_cases hkey : a.key = "ssrc"
  · rcases fields with _ | ⟨first, _ | ⟨second, rest⟩⟩
    · simp [hkey]
    · simp [hkey]
    · by_cases hc : second = "cname"
      · cases hn : read first with
        | none => simp [hkey, hc, hn]
        | some n => simp [hkey, hc, hn]
      · simp [hkey, hc]
  · simp [hkey]

/-- Two ways to read a number that agree where a test holds. -/
theorem source_eq {α β : Type} {test : String → Bool} {f : β → α}
    {read : String → Option α} {read' : String → Option β}
    (h : ∀ s, test s = true → read s = (read' s).map f)
    (ha : a.passes test = true) : a.source read = (a.source read').map f := by
  unfold passes at ha
  unfold source
  split
  · next hkey =>
      split
      · next first second rest hfields =>
          split
          · next hc => exact h first (by simpa [hkey, hfields, hc] using ha)
          · rfl
      · rfl
  · rfl

theorem passes_mono {test test' : String → Bool}
    (h : ∀ s, test s = true → test' s = true) (ha : a.passes test = true) :
    a.passes test' = true := by
  unfold passes at ha ⊢
  revert ha
  split
  · simp only [Bool.or_eq_true, decide_eq_true_eq]
    exact Or.imp_right (Or.imp_right (h _))
  · exact id

end Attribute

/-- The attribute can be read. -/
def Attribute.readable (a : Attribute) : Bool :=
  a.passes fun s => (atoi s).isSome

theorem ssrcOf_eq_ok {o : Option Int} :
    ssrcOf a = .ok o ↔ a.readable = true ∧ o = a.source atoi := by
  unfold ssrcOf Attribute.readable Attribute.passes Attribute.source
  generalize fieldsFunc ssrcSeparator a.value = fields
  rw [eq_comm (a := o)]
  by_cases hkey : a.key = "ssrc"
  · rcases fields with _ | ⟨first, _ | ⟨second, rest⟩⟩
    · simp [hkey]
    · simp [hkey]
    · by_cases hc : second = "cname"
      · cases hn : atoi first with
        | none => simp [hkey, hc, hn]
        | some n => simp [hkey, hc, hn]
      · simp [hkey, hc]
  · simp [hkey]

/-! ## The loops -/

theorem pushSsrcs_nil : pushSsrcs [] l = .ok l := rfl

theorem pushSsrcs_cons : pushSsrcs (a :: as) l =
    match ssrcOf a with
    | .ok o => pushSsrcs as (l ++ o.toList)
    | .error e => .error e := by
  rw [pushSsrcs, List.foldlM_cons]
  cases ssrcOf a with
  | ok o => rfl
  | error e => rfl

theorem pushSsrcs_eq_ok : pushSsrcs as l = .ok l' ↔
    (∀ a ∈ as, a.readable = true) ∧
      l' = l ++ as.filterMap (Attribute.source atoi) := by
  induction as generalizing l with
  | nil =>
      rw [pushSsrcs_nil, eq_comm (a := l')]
      simp
  | cons a as ih =>
      rw [pushSsrcs_cons, List.forall_mem_cons]
      cases ho : ssrcOf a with
      | error e =>
          refine ⟨nofun, fun h => ?_⟩
          rw [ssrcOf_eq_ok.mpr ⟨h.1.1, rfl⟩] at ho
          cases ho
      | ok o =>
          obtain ⟨hr, rfl⟩ := ssrcOf_eq_ok.mp ho
          have happ : l ++ (a.source atoi).toList ++
              as.filterMap (Attribute.source atoi) =
              l ++ (a :: as).filterMap (Attribute.source atoi) := by
            cases h : a.source atoi with
            | none => simp [h]
            | some n => simp [h]
          simp only [ih, happ, hr, true_and]

/-- The kinds of sections that are looked at. -/
def readKinds : List String := ["audio", "video", "Application"]

/-- The attributes of all sections of a kind. -/
def attributesOf (kind : String) (offer : SessionDescription) :
    List Attribute :=
  offer.flatMap fun v => if v.media = kind then v.attributes else []

theorem mem_attributesOf {kind : String} : a ∈ attributesOf kind offer ↔
    ∃ v ∈ offer, v.media = kind ∧ a ∈ v.attributes := by
  rw [attributesOf, List.mem_flatMap]
  refine exists_congr fun v => and_congr_right fun _ => ?_
  split
  · next hk => simp only [hk, true_and]
  · next hk => simp only [hk, false_and, List.not_mem_nil]

theorem attributesOf_cons (kind : String) : attributesOf kind (v :: offer) =
    (if v.media = kind then v.attributes else []) ++
      attributesOf kind offer := rfl

/-- The sources that the sections of a kind announce. -/
def announced (kind : String) (offer : SessionDescription) : List Int :=
  (attributesOf kind offer).filterMap (Attribute.source atoi)

theorem announced_cons (kind : String) : announced kind (v :: offer) =
    (if v.media = kind then v.attributes.filterMap (Attribute.source atoi)
      else []) ++ announced kind offer := by
  rw [announced, attributesOf_cons, List.filterMap_append]
  split
  · rfl
  · rfl

theorem announced_singleton (kind : String) : announced kind [v] =
    if v.media = kind then v.attributes.filterMap (Attribute.source atoi)
    else [] :=
  (announced_cons kind).trans (List.append_nil _)

namespace Ssrcs

/-- The lists with the sources of more sections at their ends. -/
def plus (p : Ssrcs) (offer : SessionDescription) : Ssrcs where
  audiossrc := p.audiossrc ++ announced "audio" offer
  videossrc := p.videossrc ++ announced "video" offer
  appssrc := p.appssrc ++ announced "Application" offer

theorem plus_nil (p : Ssrcs) : p.plus [] = p := by
  simp only [plus, announced, attributesOf, List.flatMap_nil,
    List.filterMap_nil, List.append_nil]

theorem plus_cons (p : Ssrcs) (v : MediaDescription)
    (offer : SessionDescription) :
    (p.plus [v]).plus offer = p.plus (v :: offer) := by
  have happ : ∀ kind, announced kind [v] ++ announced kind offer =
      announced kind (v :: offer) := by
    intro kind
    rw [announced_singleton, announced_cons]
  simp only [plus, List.append_assoc, happ]

theorem addSection_eq_ok : p.addSection v = .ok p' ↔
    (v.media ∈ readKinds → ∀ a ∈ v.attributes, a.readable = true) ∧
      p' = p.plus [v] := by
  have hmap : ∀ (l : List Int) (f : List Int → Ssrcs),
      (pushSsrcs v.attributes l).map f = .ok p' ↔
        (∀ a ∈ v.attributes, a.readable = true) ∧
          p' = f (l ++ v.attributes.filterMap (Attribute.source atoi)) := by
    intro l f
    cases h : pushSsrcs v.attributes l with
    | error e =>
        refine ⟨nofun, fun hr => ?_⟩
        rw [pushSsrcs_eq_ok.mpr ⟨hr.1, rfl⟩] at h
        cases h
    | ok l' =>
        obtain ⟨hr, rfl⟩ := pushSsrcs_eq_ok.mp h
        rw [Except.map, Except.ok.injEq, eq_comm]
        exact ⟨fun hp => ⟨hr, hp⟩, fun hp => hp.2⟩
  unfold addSection
  split
  · next hk => rw [hmap]; simp [readKinds, hk, plus, announced_singleton]
  · split
    · next hk => rw [hmap]; simp [readKinds, hk, plus, announced_singleton]
    · split
      · next hk => rw [hmap]; simp [readKinds, hk, plus, announced_singleton]
      · next ha hv happ =>
          have hplus : p.plus [v] = p := by
            simp [plus, announced_singleton, ha, hv, happ]
          rw [hplus, Except.ok.injEq, eq_comm]
          simp [readKinds, ha, hv, happ]

theorem foldlM_addSection_eq_ok : offer.foldlM addSection p = .ok p' ↔
    (∀ v ∈ offer, v.media ∈ readKinds →
      ∀ a ∈ v.attributes, a.readable = true) ∧ p' = p.plus offer := by
  induction offer generalizing p with
  | nil =>
      rw [plus_nil, List.foldlM_nil, eq_comm (a := p')]
      simp [pure, Except.pure]
  | cons v offer ih =>
      rw [List.foldlM_cons, List.forall_mem_cons]
      cases h : p.addSection v with
      | error e =>
          refine ⟨nofun, fun hr => ?_⟩
          rw [addSection_eq_ok.mpr ⟨hr.1.1, rfl⟩] at h
          cases h
      | ok p₁ =>
          obtain ⟨hr, rfl⟩ := addSection_eq_ok.mp h
          refine ih.trans ?_
          rw [plus_cons]
          exact ⟨fun h => ⟨⟨hr, h.1⟩, h.2⟩, fun h => ⟨h.1.2, h.2⟩⟩

/-- What `setSsrcFromSDP` returns, and when. -/
theorem setSsrcFromSDP_eq_ok : setSsrcFromSDP offer p = .ok p' ↔
    (∀ v ∈ offer, v.media ∈ readKinds →
      ∀ a ∈ v.attributes, a.readable = true) ∧
      p' = ⟨announced "audio" offer, announced "video" offer,
        announced "Application" offer⟩ :=
  foldlM_addSection_eq_ok

end Ssrcs

/-! ## Which offers are safe -/

/-- The conversion of an `int` to `uint32` loses nothing. -/
def isUint32 (n : Int) : Bool := 0 ≤ n ∧ n < 2 ^ 32

/-- An attribute that does no harm: `Atoi` takes what stands before `cname`
and finds a `uint32`. -/
def Attribute.fits (a : Attribute) : Bool :=
  a.passes fun s => (atoi s).any isUint32

theorem fits_iff : a.fits = true ↔ a.readable = true ∧
    ∀ n, a.source atoi = some n → isUint32 n = true :=
  Attribute.passes_any

theorem mem_announced {kind : String} {n : Int} :
    n ∈ announced kind offer ↔ ∃ v ∈ offer, v.media = kind ∧
      ∃ a ∈ v.attributes, a.source atoi = some n := by
  simp only [announced, List.mem_filterMap, mem_attributesOf]
  constructor
  · rintro ⟨a, ⟨v, hv, hk, ha⟩, hn⟩
    exact ⟨v, hv, hk, a, ha, hn⟩
  · rintro ⟨v, hv, hk, a, ha, hn⟩
    exact ⟨a, ⟨v, hv, hk, ha⟩, hn⟩

namespace Ssrcs

/-- An offer is safe, and all that it leaves in the lists fits a `uint32`, if
and only if no attribute of the sections that are read does harm. -/
theorem setSsrcFromSDP_safe_iff (offer : SessionDescription) (p : Ssrcs) :
    (∃ p', setSsrcFromSDP offer p = .ok p' ∧
      ∀ n ∈ p'.audiossrc ++ p'.videossrc ++ p'.appssrc, isUint32 n = true) ↔
    ∀ v ∈ offer, v.media ∈ readKinds → ∀ a ∈ v.attributes,
      a.fits = true := by
  constructor
  · rintro ⟨p', hp', hall⟩ v hv hk a ha
    obtain ⟨hread, rfl⟩ := setSsrcFromSDP_eq_ok.mp hp'
    refine fits_iff.mpr ⟨hread v hv hk a ha, fun n hn => hall n ?_⟩
    have hin : n ∈ announced v.media offer :=
      mem_announced.mpr ⟨v, hv, rfl, a, ha, hn⟩
    simp only [readKinds, List.mem_cons, List.not_mem_nil, or_false] at hk
    simp only [List.mem_append]
    rcases hk with hk | hk | hk
    · exact .inl (.inl (hk ▸ hin))
    · exact .inl (.inr (hk ▸ hin))
    · exact .inr (hk ▸ hin)
  · intro h
    have hfit : ∀ kind ∈ readKinds, ∀ n ∈ announced kind offer,
        isUint32 n = true := by
      intro kind hk n hn
      obtain ⟨v, hv, rfl, a, ha, hn⟩ := mem_announced.mp hn
      exact (fits_iff.mp (h v hv hk a ha)).2 n hn
    refine ⟨_, setSsrcFromSDP_eq_ok.mpr
      ⟨fun v hv hk a ha => (fits_iff.mp (h v hv hk a ha)).1, rfl⟩,
      fun n hn => ?_⟩
    simp only [List.mem_append] at hn
    rcases hn with (hn | hn) | hn
    · exact hfit "audio" (by decide) n hn
    · exact hfit "video" (by decide) n hn
    · exact hfit "Application" (by decide) n hn

/-- A source without a second field, one that is no number, and one that is
negative. -/
theorem harmful_ssrcs :
    setSsrcFromSDP [⟨"video", [⟨"ssrc", "12345"⟩]⟩] ⟨[], [], []⟩ =
      .error .indexOutOfRange ∧
    setSsrcFromSDP [⟨"audio", [⟨"ssrc", "abc cname:x"⟩]⟩] ⟨[], [], []⟩ =
      .error .panic ∧
    setSsrcFromSDP [⟨"video", [⟨"ssrc", "-1 cname:x"⟩]⟩] ⟨[], [], []⟩ =
      .ok ⟨[], [-1], []⟩ := by
  decide

end Ssrcs

/-! ## What the lists are good for -/

/-- An attribute as the standard has it: if it is of a source there are two
fields, and before `cname` stands a decimal `uint32`. -/
def Attribute.wellFormed (a : Attribute) : Bool :=
  a.passes fun s => (decimal s.toList).any (· < 2 ^ 32)

/-- The source that the attribute gives a `cname` for. -/
def Attribute.cnameSource (a : Attribute) : Option Nat :=
  a.source fun s => decimal s.toList

/-- The first source in the document that a section of the kind gives a
`cname` for. -/
def firstSource (kind : String) (offer : SessionDescription) : Option Nat :=
  (attributesOf kind offer).findSome? Attribute.cnameSource

theorem atoi_of_any {s : String} (h : (decimal s.toList).any (· < 2 ^ 32)) :
    atoi s = (decimal s.toList).map Int.ofNat := by
  cases hn : decimal s.toList with
  | none => rw [hn] at h; cases h
  | some n =>
      rw [hn] at h
      have hlt : n < 2 ^ 32 := of_decide_eq_true h
      exact atoi_of_decimal hn (by omega)

theorem readable_of_wellFormed (h : a.wellFormed = true) :
    a.readable = true := by
  refine Attribute.passes_mono (fun s hs => ?_) h
  rw [atoi_of_any hs, Option.isSome_map]
  exact Option.isSome_of_any hs

theorem source_of_wellFormed (h : a.wellFormed = true) :
    a.source atoi = a.cnameSource.map Int.ofNat :=
  Attribute.source_eq (fun _ hs => atoi_of_any hs) h

theorem announced_of_wellFormed {kind : String}
    (h : ∀ v ∈ offer, ∀ a ∈ v.attributes, a.wellFormed = true) :
    announced kind offer = ((attributesOf kind offer).filterMap
      Attribute.cnameSource).map Int.ofNat := by
  rw [announced, List.map_filterMap]
  refine List.filterMap_congr fun a ha => ?_
  obtain ⟨v, hv, -, ha⟩ := mem_attributesOf.mp ha
  exact source_of_wellFormed (h v hv a ha)

theorem mem_announced_of_wellFormed {kind : String} {n : Nat}
    (h : ∀ v ∈ offer, ∀ a ∈ v.attributes, a.wellFormed = true) :
    (n : Int) ∈ announced kind offer ↔ ∃ v ∈ offer, v.media = kind ∧
      ∃ a ∈ v.attributes, a.cnameSource = some n := by
  rw [mem_announced]
  refine exists_congr fun v => and_congr_right fun hv =>
    and_congr_right fun _ => exists_congr fun a => and_congr_right fun ha => ?_
  rw [source_of_wellFormed (h v hv a ha)]
  cases a.cnameSource with
  | none => simp
  | some m => simp

namespace Ssrcs

/-- After an offer that is well formed, the lists tell the sources of audio and
video apart, whatever offer came before. -/
theorem setSsrcFromSDP_classifies (offer : SessionDescription) (p : Ssrcs)
    (h : ∀ v ∈ offer, ∀ a ∈ v.attributes, a.wellFormed = true) :
    ∃ p', setSsrcFromSDP offer p = .ok p' ∧
      (∀ s : UInt32, p'.isAudioSsrc s.toNat = true ↔ ∃ v ∈ offer,
        v.media = "audio" ∧ ∃ a ∈ v.attributes,
          a.cnameSource = some s.toNat) ∧
      (∀ s : UInt32, p'.isVideoSsrc s.toNat = true ↔ ∃ v ∈ offer,
        v.media = "video" ∧ ∃ a ∈ v.attributes,
          a.cnameSource = some s.toNat) ∧
      p'.getVideoSsrc = ((firstSource "video" offer).getD 0 : Nat) := by
  refine ⟨_, setSsrcFromSDP_eq_ok.mpr
    ⟨fun v hv _ a ha => readable_of_wellFormed (h v hv a ha), rfl⟩,
    fun s => ?_, fun s => ?_, ?_⟩
  · rw [← mem_announced_of_wellFormed h, isAudioSsrc, List.any_eq_true]
    simp
  · rw [← mem_announced_of_wellFormed h, isVideoSsrc, List.any_eq_true]
    simp
  · have hhead : (announced "video" offer).head? =
        (firstSource "video" offer).map Int.ofNat := by
      rw [announced_of_wellFormed h, List.head?_map, List.head?_filterMap]
      rfl
    rw [getVideoSsrc, hhead]
    cases firstSource "video" offer with
    | none => rfl
    | some n => rfl

/-- An offer with a source of audio and two of video. -/
def camera : SessionDescription :=
  [⟨"audio", [⟨"mid", "0"⟩, ⟨"ssrc", "11 cname:c"⟩, ⟨"ssrc", "11 msid:m"⟩]⟩,
    ⟨"video", [⟨"ssrc", "22 msid:m"⟩, ⟨"ssrc", "22 cname:c"⟩,
      ⟨"ssrc", "33 cname:c"⟩]⟩]

/-- Its classification after an offer with another source of video. -/
theorem camera_classified :
    setSsrcFromSDP camera ⟨[], [99], []⟩ = .ok ⟨[11], [22, 33], []⟩ ∧
    ∃ p', setSsrcFromSDP camera ⟨[], [99], []⟩ = .ok p' ∧
      (∀ s : UInt32, p'.isAudioSsrc s.toNat = true ↔ ∃ v ∈ camera,
        v.media = "audio" ∧ ∃ a ∈ v.attributes,
          a.cnameSource = some s.toNat) ∧
      (∀ s : UInt32, p'.isVideoSsrc s.toNat = true ↔ ∃ v ∈ camera,
        v.media = "video" ∧ ∃ a ∈ v.attributes,
          a.cnameSource = some s.toNat) ∧
      p'.getVideoSsrc = ((firstSource "video" camera).getD 0 : Nat) :=
  ⟨by decide, setSsrcFromSDP_classifies camera _ (by decide)⟩

end Ssrcs

end MediaServer.Ref
