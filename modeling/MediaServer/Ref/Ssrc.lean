import MediaServer.Lib.Text

/-!
# The sources of a remote offer (`peer.go`)

A publisher keeps which synchronization sources of the last offer carry audio
and which video. `setSsrcFromSDP` collects them from the `ssrc` attributes of
the media sections, the incoming tracks are told apart by `isAudioSsrc` and
`isVideoSsrc`, and a request for a keyframe names `getVideoSsrc`.

The offer is here as pion's `Unmarshal` returns it. An attribute's value is
cut at colons and blanks and indexed without a look at the number of fields,
and a number that `Atoi` does not take is a panic: both end the process.
-/

namespace MediaServer.Ref

open MediaServer.Lib

/-- `sdp.Attribute`. -/
structure Attribute where
  key : String
  value : String
  deriving DecidableEq, Repr

/-- `sdp.MediaDescription`: the kind in its `m=` line, and its attributes. -/
structure MediaDescription where
  media : String
  attributes : List Attribute
  deriving DecidableEq, Repr

/-- `sdp.SessionDescription`, as far as it is read here. -/
abbrev SessionDescription := List MediaDescription

/-- The three lists of a publisher. -/
structure Ssrcs where
  audiossrc : List Int
  videossrc : List Int
  appssrc : List Int
  deriving DecidableEq, Repr

/-- How `setSsrcFromSDP` ends the process. -/
inductive SsrcCrash where
  | indexOutOfRange
  | panic
  deriving DecidableEq, Repr

instance {α : Type} [DecidableEq α] : DecidableEq (Except SsrcCrash α)
  | .ok a, .ok b => decidable_of_iff (a = b) (by simp)
  | .error a, .error b => decidable_of_iff (a = b) (by simp)
  | .ok _, .error _ => .isFalse nofun
  | .error _, .ok _ => .isFalse nofun

def ssrcSeparator (s : Char) : Bool := s = ':' || s = ' '

/-- The body of the inner loop, the same for every kind of section: the
source that the attribute adds to the list, if it does. -/
def ssrcOf (a : Attribute) : Except SsrcCrash (Option Int) :=
  if a.key = "ssrc" then
    match fieldsFunc ssrcSeparator a.value with
    | first :: second :: _ =>
        if second = "cname" then
          match atoi first with
          | some ssrc => .ok (some ssrc)
          | none => .error .panic
        else .ok none
    | _ => .error .indexOutOfRange
  else .ok none

/-- One inner loop. -/
def pushSsrcs (attributes : List Attribute) (l : List Int) :
    Except SsrcCrash (List Int) :=
  attributes.foldlM (fun l a => (ssrcOf a).map fun ssrc => l ++ ssrc.toList) l

namespace Ssrcs

/-- One turn of the outer loop. The third kind is compared with a capital
letter. -/
def addSection (p : Ssrcs) (value : MediaDescription) :
    Except SsrcCrash Ssrcs :=
  if value.media = "audio" then
    (pushSsrcs value.attributes p.audiossrc).map fun l =>
      { p with audiossrc := l }
  else if value.media = "video" then
    (pushSsrcs value.attributes p.videossrc).map fun l =>
      { p with videossrc := l }
  else if value.media = "Application" then
    (pushSsrcs value.attributes p.appssrc).map fun l =>
      { p with appssrc := l }
  else .ok p

def setSsrcFromSDP (offersdp : SessionDescription) (p : Ssrcs) :
    Except SsrcCrash Ssrcs :=
  offersdp.foldlM addSection
    { p with audiossrc := [], videossrc := [], appssrc := [] }

def isAudioSsrc (p : Ssrcs) (s : Int) : Bool := p.audiossrc.any (· = s)

def isVideoSsrc (p : Ssrcs) (s : Int) : Bool := p.videossrc.any (· = s)

def getVideoSsrc (p : Ssrcs) : Int := p.videossrc.head?.getD 0

end Ssrcs

end MediaServer.Ref
