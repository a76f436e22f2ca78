import AiFirewall.XdpProgram

namespace AiFirewall

/-!
# Fragmented connection openers

A connection opener for a closed port, cut into IPv4 fragments.  Fragments
pass by design, and a first fragment whose frame ends before the TCP header
does is one of them.  So the default deny rests on what the frame of the
first fragment shows: this module says exactly when some fragment is dropped.
-/

/-- One fragment of an IPv4 TCP datagram in an Ethernet frame of its own. -/
structure FragmentFrame where
  ethernet : List U8
  header : List U8
  payload : List U8
  /-- What Ethernet adds to reach its minimum length. -/
  padding : List U8
  ethernetLength : ethernet.length = ethLen
  etherType : Frame.etherType ethernet = etherTypeIpv4
  headerLength : ipv4Len ≤ header.length
  version : Frame.byte header 0 >>> 4 = 4
  ihl : (Frame.byte header 0 &&& 0x0f).toNat * 4 = header.length
  totalLength :
    (Frame.be16 header 2).toNat = header.length + payload.length
  proto : Frame.byte header 9 = protoTcp

namespace FragmentFrame

def frame (fragment : FragmentFrame) : Frame :=
  fragment.ethernet ++
    (fragment.header ++ (fragment.payload ++ fragment.padding))

/-- Where the fragment's data stands in the datagram. -/
def position (fragment : FragmentFrame) : Nat :=
  8 * (Frame.be16 fragment.header 6 &&& 0x1fff).toNat

def moreFragments (fragment : FragmentFrame) : Bool :=
  Frame.be16 fragment.header 6 &&& 0x2000 ≠ 0

def source (fragment : FragmentFrame) : U32 :=
  Frame.be32 fragment.header 12

/-- Where the frame's layer-4 header would start. -/
def l4 (fragment : FragmentFrame) : Nat :=
  ethLen + fragment.header.length

/-- The TCP flags found where the flag byte of a TCP header would be. -/
def shownFlags (fragment : FragmentFrame) : U8 :=
  tcpFlagsOf (fragment.frame.byte (fragment.l4 + 13))

/--
The frame is long enough for a TCP header, and the flags it shows there are
those of an opener or of a scan.  Padding counts as part of the frame.
-/
def ShowsHostileHeader (fragment : FragmentFrame) : Prop :=
  fragment.l4 + tcpLen ≤ fragment.frame.length ∧
    (odd fragment.shownFlags = true ∨ opener fragment.shownFlags = true)

theorem length_frame (fragment : FragmentFrame) :
    fragment.frame.length =
      ethLen + fragment.header.length +
        (fragment.payload.length + fragment.padding.length) := by
  simp only [frame, List.length_append, fragment.ethernetLength]
  omega

theorem byte_header
    (fragment : FragmentFrame)
    {offset : Nat}
    (inHeader : offset < fragment.header.length) :
    fragment.frame.byte (ethLen + offset) =
      Frame.byte fragment.header offset := by
  rw [frame, ← fragment.ethernetLength, Frame.byte_append_right,
    Frame.byte_append_left _ inHeader]

theorem byte_payload
    (fragment : FragmentFrame)
    {offset : Nat}
    (inPayload : offset < fragment.payload.length) :
    fragment.frame.byte (fragment.l4 + offset) =
      Frame.byte fragment.payload offset := by
  rw [frame, l4, ← fragment.ethernetLength, Nat.add_assoc,
    Frame.byte_append_right, Frame.byte_append_right,
    Frame.byte_append_left _ inPayload]

theorem be16_header
    (fragment : FragmentFrame)
    {offset : Nat}
    (inHeader : offset + 1 < fragment.header.length) :
    fragment.frame.be16 (ethLen + offset) =
      Frame.be16 fragment.header offset := by
  rw [Frame.be16, Frame.be16, Nat.add_assoc, fragment.byte_header inHeader,
    fragment.byte_header (by omega)]

/-- The frame's own readers find the fragment's header fields. -/
theorem frame_etherType (fragment : FragmentFrame) :
    fragment.frame.etherType = etherTypeIpv4 := by
  rw [← fragment.etherType, Frame.etherType, Frame.etherType, frame]
  exact Frame.be16_append_left _
    (by rw [fragment.ethernetLength]; decide)

theorem frame_ihl (fragment : FragmentFrame) :
    fragment.frame.ihl = fragment.header.length := by
  have long := fragment.headerLength
  have first : 0 < fragment.header.length := by
    simp only [ipv4Len] at long
    omega
  rw [← fragment.ihl, Frame.ihl, ← fragment.byte_header first]
  rfl

theorem frame_fragOffset (fragment : FragmentFrame) :
    fragment.frame.fragOffset = Frame.be16 fragment.header 6 &&& 0x1fff := by
  have long := fragment.headerLength
  simp only [ipv4Len] at long
  rw [Frame.fragOffset, fragment.be16_header (by omega)]

theorem frame_proto (fragment : FragmentFrame) :
    fragment.frame.ipv4Proto = protoTcp := by
  have long := fragment.headerLength
  simp only [ipv4Len] at long
  rw [Frame.ipv4Proto, fragment.byte_header (by omega), fragment.proto]

theorem frame_source (fragment : FragmentFrame) :
    fragment.frame.ipv4Src = fragment.source := by
  have long := fragment.headerLength
  simp only [ipv4Len] at long
  rw [Frame.ipv4Src, source, Frame.be32, Frame.be32, Nat.add_assoc,
    fragment.be16_header (by omega), fragment.be16_header (by omega)]

/-- The fragment at the start of the datagram has fragment offset zero. -/
theorem fragOffset_eq_zero_iff (fragment : FragmentFrame) :
    fragment.frame.fragOffset = 0 ↔ fragment.position = 0 := by
  rw [fragment.frame_fragOffset, position, BitVec.toNat_eq]
  simp

end FragmentFrame

/-- A fragment that reaches the program, with the kernel state it meets. -/
structure Arrival where
  fragment : FragmentFrame
  helpers : Helpers
  maps : KernelMaps

namespace Arrival

/-- What the program answers to the fragment. -/
def action (arrival : Arrival) : XdpAction :=
  (tryAiFirewall arrival.helpers arrival.maps arrival.fragment.frame).1

/-- The fragment's source is banned, or a feed lists it. -/
def Listed (arrival : Arrival) : Prop :=
  live arrival.helpers.now
      (arrival.maps.blocklist.get? arrival.fragment.source) = true ∨
    arrival.maps.feeds.matchesAddress
      (triePrefix 32 (BitPrefix.bytes32 arrival.fragment.source)) = true

/-- The TCP port is open to the fragment's source, or a rule opens it. -/
def OpenFor (arrival : Arrival) (port : U16) : Prop :=
  portOpen arrival.maps.tcpAllow port = true ∨
    allowedFrom arrival.maps.allowFromTcp
      ⟨familyV4, arrival.fragment.source, 0⟩ port = true

/-- What the program does with a fragment of a TCP datagram. -/
theorem action_drop_iff (arrival : Arrival) :
    arrival.action = .drop ↔
      arrival.Listed ∨
        arrival.fragment.position = 0 ∧
          ∃ flow,
            parseL4 protoTcp arrival.fragment.frame arrival.fragment.l4 =
                some flow ∧
              (policy arrival.helpers arrival.maps
                ⟨familyV4, arrival.fragment.source, 0⟩ flow
                arrival.fragment.frame.toEveryone
                (expectedReply arrival.helpers arrival.maps
                  arrival.fragment.source flow)).1 = .drop := by
  have headerFits := arrival.fragment.headerLength
  have frameLength := arrival.fragment.length_frame
  have notShort :
      ¬arrival.fragment.frame.length < ethLen + ipv4Len := by
    omega
  have notTiny : ¬arrival.fragment.frame.length < ethLen := by
    omega
  have notBare : ¬arrival.fragment.header.length < ipv4Len := by
    omega
  have isTcp : ¬protoTcp = ipProtoIcmp := by
    decide
  rw [← arrival.fragment.fragOffset_eq_zero_iff, action, tryAiFirewall,
    if_neg notTiny, if_pos arrival.fragment.frame_etherType, tryIpv4,
    if_neg notShort]
  simp only [arrival.fragment.frame_source, arrival.fragment.frame_ihl,
    arrival.fragment.frame_proto, if_neg notBare, if_neg isTcp]
  by_cases banned :
      live arrival.helpers.now
        (arrival.maps.blocklist.get? arrival.fragment.source) = true
  · rw [if_pos banned]
    exact iff_of_true rfl (.inl (.inl banned))
  by_cases inFeed :
      arrival.maps.feeds.matchesAddress
        (triePrefix 32 (BitPrefix.bytes32 arrival.fragment.source)) = true
  · rw [if_neg banned, if_pos inFeed]
    exact iff_of_true rfl (.inl (.inr inFeed))
  have notListed : ¬arrival.Listed := not_or.mpr ⟨banned, inFeed⟩
  rw [if_neg banned, if_neg inFeed, or_iff_right notListed]
  by_cases first : arrival.fragment.frame.fragOffset = 0
  · rw [if_neg (not_not.mpr first), and_iff_right first,
      FragmentFrame.l4]
    cases parseL4 protoTcp arrival.fragment.frame
        (ethLen + arrival.fragment.header.length) with
    | none => simp
    | some flow => simp
  · rw [if_pos first]
    refine iff_of_false (fun dropped => ?_) fun shown => first shown.1
    cases dropped

/-- Only the first fragment of a datagram can be dropped for its contents. -/
theorem action_drop_iff_listed
    {arrival : Arrival}
    (later : arrival.fragment.position ≠ 0) :
    arrival.action = .drop ↔ arrival.Listed := by
  rw [arrival.action_drop_iff]
  simp [later]

/-- A first fragment aimed at a closed port is dropped for what it shows. -/
theorem action_drop_iff_shows
    {arrival : Arrival}
    {port : U16}
    (first : arrival.fragment.position = 0)
    (portShown :
      arrival.fragment.frame.be16 (arrival.fragment.l4 + 2) = port)
    (enforced : arrival.maps.config cfgEnforce = 1)
    (closed : ¬arrival.OpenFor port) :
    arrival.action = .drop ↔
      arrival.Listed ∨ arrival.fragment.ShowsHostileHeader := by
  rw [arrival.action_drop_iff]
  refine or_congr_right ?_
  subst portShown
  have noPort := (not_or.mp closed).1
  have noRule := (not_or.mp closed).2
  have enforcing : arrival.maps.config cfgEnforce ≠ 0 := by
    rw [enforced]
    decide
  unfold parseL4 FragmentFrame.ShowsHostileHeader
  rw [if_pos rfl]
  by_cases shown :
      arrival.fragment.frame.length < arrival.fragment.l4 + tcpLen
  · simp [shown, Nat.not_le.mpr shown]
  · simp only [if_neg shown, Option.some.injEq, exists_eq_left', first,
      true_and, policy_drop_iff, enforcing, ne_eq, not_false_eq_true,
      and_true, Nat.le_of_not_lt shown]
    rw [judge_allowed_of_closed rfl (by simpa using noPort)
      (by simpa using noRule)]
    rw [FragmentFrame.shownFlags]
    cases odd (tcpFlagsOf (arrival.fragment.frame.byte
      (arrival.fragment.l4 + 13))) <;> simp

end Arrival

/--
The fragments of a segment from `position` on.  Every fragment but the last
is cut at a multiple of eight bytes and says that more follow.
-/
inductive Split (source : U32) : Nat → List U8 → List Arrival → Prop where
  | last
      {position : Nat}
      {arrival : Arrival} :
      arrival.fragment.source = source →
      arrival.fragment.position = position →
      arrival.fragment.moreFragments = false →
      Split source position arrival.fragment.payload [arrival]
  | cut
      {position : Nat}
      {arrival : Arrival}
      {rest : List U8}
      {others : List Arrival} :
      arrival.fragment.source = source →
      arrival.fragment.position = position →
      arrival.fragment.moreFragments = true →
      arrival.fragment.payload ≠ [] →
      8 ∣ arrival.fragment.payload.length →
      Split source (position + arrival.fragment.payload.length)
        rest others →
      Split source position (arrival.fragment.payload ++ rest)
        (arrival :: others)

namespace Split

/-- No fragment stands before the position the split starts at. -/
theorem position_le
    {source : U32}
    {position : Nat}
    {segment : List U8}
    {arrivals : List Arrival}
    (split : Split source position segment arrivals)
    {arrival : Arrival}
    (member : arrival ∈ arrivals) :
    position ≤ arrival.fragment.position := by
  induction split with
  | last _ stands _ =>
      rw [List.mem_singleton.mp member, stands]
  | cut _ stands _ _ _ _ inductionHypothesis =>
      rcases List.mem_cons.mp member with isHead | inRest
      · rw [isHead, stands]
      · exact le_trans (Nat.le_add_right _ _)
          (inductionHypothesis inRest)

/-- The first fragment stands where the split starts. -/
theorem position_first
    {source : U32}
    {position : Nat}
    {segment : List U8}
    {first : Arrival}
    {others : List Arrival}
    (split : Split source position segment (first :: others)) :
    first.fragment.position = position := by
  cases split with
  | last _ stands _ => exact stands
  | cut _ stands _ _ _ _ => exact stands

/-- Every other fragment stands behind it. -/
theorem position_others
    {source : U32}
    {position : Nat}
    {segment : List U8}
    {first : Arrival}
    {others : List Arrival}
    (split : Split source position segment (first :: others))
    {arrival : Arrival}
    (member : arrival ∈ others) :
    arrival.fragment.position ≠ 0 := by
  cases split with
  | last => cases member
  | cut _ _ _ nonempty _ restSplit =>
      have behind := restSplit.position_le member
      have some := List.length_pos_of_ne_nil nonempty
      omega

/--
The first fragment carries the start of the segment: all of a segment that
was not cut, and eight bytes or more of one that was.
-/
theorem payload_first
    {source : U32}
    {position : Nat}
    {segment : List U8}
    {first : Arrival}
    {others : List Arrival}
    (split : Split source position segment (first :: others)) :
    first.fragment.payload <+: segment ∧
      min 8 segment.length ≤ first.fragment.payload.length := by
  cases split with
  | last => exact ⟨List.prefix_refl _, Nat.min_le_right _ _⟩
  | cut _ _ _ nonempty multiple _ =>
      have some := List.length_pos_of_ne_nil nonempty
      have eight := Nat.le_of_dvd some multiple
      exact ⟨List.prefix_append _ _, le_trans (Nat.min_le_left _ _) eight⟩

end Split

/-- A fragment shows the bytes of the segment it carries the start of. -/
theorem FragmentFrame.byte_segment
    {fragment : FragmentFrame}
    {segment : List U8}
    (start : fragment.payload <+: segment)
    {offset : Nat}
    (inPayload : offset < fragment.payload.length) :
    fragment.frame.byte (fragment.l4 + offset) =
      Frame.byte segment offset := by
  obtain ⟨rest, rfl⟩ := start
  rw [fragment.byte_payload inPayload, Frame.byte_append_left _ inPayload]

/--
An opener for a closed port is stopped when its source is listed, or when the
frame of its first fragment shows hostile flags; otherwise all of it passes.
A first fragment with the whole TCP header always is stopped.
-/
theorem fragmented_opener_dropped_iff
    {source : U32}
    {segment : List U8}
    {first : Arrival}
    {others : List Arrival}
    (split : Split source 0 segment (first :: others))
    (wholeHeader : tcpLen ≤ segment.length)
    (isOpener : opener (tcpFlagsOf (Frame.byte segment 13)) = true)
    (enforced : first.maps.config cfgEnforce = 1)
    (closed : ¬first.OpenFor (Frame.be16 segment 2)) :
    ((∃ arrival ∈ first :: others, arrival.action = .drop) ↔
      (∃ arrival ∈ first :: others, arrival.Listed) ∨
        first.fragment.ShowsHostileHeader) ∧
    (tcpLen ≤ first.fragment.payload.length →
      ∃ arrival ∈ first :: others, arrival.action = .drop) := by
  obtain ⟨start, enough⟩ := split.payload_first
  simp only [tcpLen] at wholeHeader
  have portShown :
      first.fragment.frame.be16 (first.fragment.l4 + 2) =
        Frame.be16 segment 2 := by
    rw [Frame.be16, Frame.be16, Nat.add_assoc,
      FragmentFrame.byte_segment start (by omega),
      FragmentFrame.byte_segment start (by omega)]
  have firstVerdict :=
    Arrival.action_drop_iff_shows split.position_first portShown
      enforced closed
  have otherVerdict :
      ∀ arrival ∈ others, arrival.action = .drop ↔ arrival.Listed :=
    fun arrival member =>
      Arrival.action_drop_iff_listed (split.position_others member)
  constructor
  · simp only [List.exists_mem_cons_iff, firstVerdict]
    constructor
    · rintro ((listed | shows) | ⟨arrival, member, dropped⟩)
      · exact .inl (.inl listed)
      · exact .inr shows
      · exact .inl (.inr
          ⟨arrival, member, (otherVerdict arrival member).mp dropped⟩)
    · rintro ((listed | ⟨arrival, member, listed⟩) | shows)
      · exact .inl (.inl listed)
      · exact .inr
          ⟨arrival, member, (otherVerdict arrival member).mpr listed⟩
      · exact .inl (.inr shows)
  · intro carriesHeader
    simp only [tcpLen] at carriesHeader
    have flagsShown :
        first.fragment.shownFlags =
          tcpFlagsOf (Frame.byte segment 13) := by
      rw [FragmentFrame.shownFlags,
        FragmentFrame.byte_segment start (by omega)]
    have shows : first.fragment.ShowsHostileHeader := by
      refine ⟨?_, .inr (by rw [flagsShown]; exact isOpener)⟩
      rw [first.fragment.length_frame, FragmentFrame.l4, tcpLen]
      omega
    exact ⟨first, List.mem_cons_self, firstVerdict.mpr (.inr shows)⟩

/-! An opener for port 22, cut behind its first eight and 24 bytes. -/

def openerSegment : List U8 :=
  [0x9c, 0x40, 0, 22, 0, 0, 0, 1, 0, 0, 0, 0, 0x50, 0x02, 0xfa, 0xf0,
    0, 0, 0, 0] ++ List.replicate 12 0

/-- An IPv4 header of `words` words, padded with no-operation options. -/
def ipv4Header (words : Nat) (fragField : U16) (total : U8) : List U8 :=
  [0x40 + BitVec.ofNat 8 words, 0, 0, total, 0, 1,
    fragField.extractLsb' 8 8, fragField.extractLsb' 0 8,
    64, 6, 0, 0, 10, 0, 0, 5, 10, 0, 0, 1] ++
    List.replicate (4 * words - 20) 1

def ethernetHeader : List U8 :=
  [2, 0, 0, 0, 0, 1, 2, 0, 0, 0, 0, 2, 0x08, 0x00]

def enforcing : KernelMaps :=
  { KernelMaps.fresh with
    config := Function.update KernelMaps.fresh.config cfgEnforce 1 }

def calm : Helpers := ⟨1, true, true⟩

/-- Eight bytes behind a header with options: no TCP flags to be seen. -/
def tinyFirst : Arrival where
  fragment :=
    { ethernet := ethernetHeader
      header := ipv4Header 10 0x2000 48
      payload := openerSegment.take 8
      padding := []
      ethernetLength := rfl
      etherType := rfl
      headerLength := by decide
      version := by decide
      ihl := by decide
      totalLength := by decide
      proto := rfl }
  helpers := calm
  maps := enforcing

def tinySecond : Arrival where
  fragment :=
    { ethernet := ethernetHeader
      header := ipv4Header 5 0x0001 44
      payload := openerSegment.drop 8
      padding := List.replicate 2 0
      ethernetLength := rfl
      etherType := rfl
      headerLength := by decide
      version := by decide
      ihl := by decide
      totalLength := by decide
      proto := rfl }
  helpers := calm
  maps := enforcing

def wholeFirst : Arrival where
  fragment :=
    { ethernet := ethernetHeader
      header := ipv4Header 5 0x2000 44
      payload := openerSegment.take 24
      padding := List.replicate 2 0
      ethernetLength := rfl
      etherType := rfl
      headerLength := by decide
      version := by decide
      ihl := by decide
      totalLength := by decide
      proto := rfl }
  helpers := calm
  maps := enforcing

def wholeSecond : Arrival where
  fragment :=
    { ethernet := ethernetHeader
      header := ipv4Header 5 0x0003 28
      payload := openerSegment.drop 24
      padding := List.replicate 18 0
      ethernetLength := rfl
      etherType := rfl
      headerLength := by decide
      version := by decide
      ihl := by decide
      totalLength := by decide
      proto := rfl }
  helpers := calm
  maps := enforcing

/-- Cut inside the TCP header, the opener reaches the stack in full. -/
theorem tiny_fragments_pass :
    Split 0x0a000005 0 openerSegment [tinyFirst, tinySecond] ∧
      opener (tcpFlagsOf (Frame.byte openerSegment 13)) = true ∧
      (∀ arrival ∈ [tinyFirst, tinySecond],
        60 ≤ arrival.fragment.frame.length ∧
          arrival.maps.config cfgEnforce = 1 ∧
          arrival.maps.tcpAllow (Frame.be16 openerSegment 2) = 0 ∧
          allowedFrom arrival.maps.allowFromTcp
            ⟨familyV4, 0x0a000005, 0⟩ (Frame.be16 openerSegment 2) =
              false) ∧
      ¬∃ arrival ∈ [tinyFirst, tinySecond], arrival.action = .drop := by
  refine ⟨?_, by decide, by decide, by decide⟩
  change Split _ _
    (tinyFirst.fragment.payload ++ tinySecond.fragment.payload) _
  exact .cut (by decide) (by decide) (by decide) (by decide) (by decide)
    (.last (by decide) (by decide) (by decide))

/-- Cut behind the TCP header, the same opener is stopped. -/
theorem whole_header_fragment_dropped :
    ∃ arrival ∈ [wholeFirst, wholeSecond], arrival.action = .drop := by
  have split :
      Split 0x0a000005 0
        (wholeFirst.fragment.payload ++ wholeSecond.fragment.payload)
        [wholeFirst, wholeSecond] :=
    .cut (by decide) (by decide) (by decide) (by decide) (by decide)
      (.last (by decide) (by decide) (by decide))
  have closed : ¬wholeFirst.OpenFor 22 := by
    unfold Arrival.OpenFor
    decide
  exact
    (fragmented_opener_dropped_iff split (by decide) (by decide)
      (by decide) closed).2 (by decide)

end AiFirewall
