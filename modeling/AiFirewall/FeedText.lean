import AiFirewall.Feeds
import AiFirewall.HostNetworks
import AiFirewall.TextPieces

namespace AiFirewall

/-!
# What a feed blocks

A feed is read line by line, and each line word by word.  Said of the whole
text: the words are its maximal runs of digits, dots and slashes outside of
comments, and the networks are those of the words that may be blocked.
-/

open RustText TextPieces

namespace Feeds

/-- A character that starts a comment. -/
def startsComment (char : Char) : Bool :=
  char == '#' || char == ';'

/-- A character that stands in no word. -/
def endsToken (char : Char) : Bool :=
  !isTokenChar char

/--
A maximal run of token characters of a text, with no comment sign before it
on its line: `above` are the lines before, `start` is its line up to it.
-/
def IsToken (text token : List Char) : Prop :=
  ∃ above start after,
    text = above ++ start ++ token ++ after ∧
      (∀ char ∈ above.getLast?, char = '\n') ∧
      (∀ char ∈ start, char ≠ '\n' ∧ startsComment char = false) ∧
      (∀ char ∈ start.getLast?, endsToken char = true) ∧
      (∀ char ∈ token, endsToken char = false) ∧
      ∀ char ∈ after.head?, endsToken char = true

/-- The part of a line before its comment. -/
def uncommented (line : List Char) : List Char :=
  line.takeWhile fun char => !startsComment char

theorem tokens_eq (line : List Char) :
    tokens line =
      (uncommented line).splitOnP endsToken := by
  have sameSigns :
      (fun char : Char => char != '#' && char != ';') =
        fun char => !startsComment char := by
    funext char
    rw [startsComment, Bool.not_or]
    rfl
  rw [tokens, uncommented, sameSigns]
  rfl

theorem mem_tokens_iff {line token : List Char} :
    token ∈ tokens line ↔
      IsPiece endsToken (uncommented line) token := by
  rw [tokens_eq, mem_splitOnP_iff]

section

variable {char : Char}

theorem not_startsComment
    (inToken : endsToken char = false) :
    startsComment char = false := by
  rw [startsComment, Bool.or_eq_false_iff, beq_eq_false_iff_ne,
    beq_eq_false_iff_ne]
  refine ⟨?_, ?_⟩
  · rintro rfl
    revert inToken
    decide
  · rintro rfl
    revert inToken
    decide

theorem ne_newline
    (inToken : endsToken char = false) :
    char ≠ '\n' := by
  rintro rfl
  revert inToken
  decide

theorem endsToken_of_startsComment
    (starts : startsComment char = true) :
    endsToken char = true := by
  by_contra inToken
  rw [Bool.not_eq_true] at inToken
  rw [not_startsComment inToken] at starts
  cases starts

end

/-- The carriage return at the end of a line is part of no word. -/
theorem mem_tokens_stripReturn
    {line token : List Char}
    (notEmpty : token ≠ []) :
    token ∈ tokens (stripReturn line) ↔ token ∈ tokens line := by
  rw [stripReturn]
  split
  · rename_i isReturn
    obtain ⟨front, isLine⟩ : ∃ front, line = front ++ ['\r'] := by
      obtain ⟨front, isLine⟩ := List.getLast?_eq_some_iff.mp isReturn
      exact ⟨front, isLine⟩
    rw [isLine, List.dropLast_concat, tokens_eq, tokens_eq, uncommented,
      uncommented, List.takeWhile_append]
    split
    · have noSeparator : endsToken '\r' = true := by
        decide
      have kept :
          ['\r'].takeWhile (fun char => !startsComment char) = '\r' :: [] := by
        decide
      rename_i whole
      have isFront :
          front.takeWhile (fun char => !startsComment char) = front :=
        List.IsPrefix.eq_of_length (List.takeWhile_prefix _) whole
      rw [kept, isFront, List.splitOnP_append_cons _ _ noSeparator,
        List.splitOnP_nil, List.mem_append, List.mem_singleton]
      exact (or_iff_left notEmpty).symm
    · rfl
  · rfl

/-- The words of the lines are those of the pieces between newlines. -/
theorem exists_line_iff
    {text token : List Char}
    (notEmpty : token ≠ []) :
    (∃ line ∈ lines text, token ∈ tokens line) ↔
      ∃ line ∈ text.splitOn '\n', token ∈ tokens line := by
  have pieces := List.dropLast_append_getLast (List.splitOn_ne_nil '\n' text)
  have ofEmpty : token ∉ tokens [] := by
    rw [tokens_eq]
    change token ∉ [[]]
    rw [List.mem_singleton]
    exact notEmpty
  rw [← pieces, lines]
  generalize (text.splitOn '\n').dropLast = front
  rw [List.getLast?_eq_some_getLast (List.splitOn_ne_nil '\n' text)]
  generalize (text.splitOn '\n').getLast _ = last
  constructor
  · rintro ⟨line, member, isToken⟩
    rcases List.mem_append.mp member with isStripped | isLast
    · obtain ⟨piece, inFront, rfl⟩ := List.mem_map.mp isStripped
      exact ⟨piece, List.mem_append_left _ inFront,
        (mem_tokens_stripReturn notEmpty).mp isToken⟩
    · rw [Option.mem_toList, Option.filter_eq_some_iff] at isLast
      obtain ⟨isLine, _⟩ := isLast
      cases isLine
      exact ⟨last, List.mem_append_right front (List.mem_singleton_self last),
        isToken⟩
  · rintro ⟨line, member, isToken⟩
    rcases List.mem_append.mp member with inFront | isLast
    · exact ⟨stripReturn line,
        List.mem_append_left _ (List.mem_map_of_mem inFront),
        (mem_tokens_stripReturn notEmpty).mpr isToken⟩
    · have isLine := List.mem_singleton.mp isLast
      subst isLine
      have someLine : line ≠ [] := by
        rintro rfl
        exact ofEmpty isToken
      refine ⟨line, List.mem_append_right _ ?_, isToken⟩
      rw [Option.mem_toList, Option.filter_eq_some_iff]
      exact ⟨rfl, decide_eq_true someLine⟩

/-- A word of a line is a run of the text. -/
theorem isToken_of_line
    {text line token : List Char}
    (isLine : IsPiece (· == '\n') text line)
    (isToken : token ∈ tokens line) :
    IsToken text token := by
  obtain ⟨above, below, rfl, endsAbove, inLine, startsBelow⟩ := isLine
  obtain ⟨start, rest, isContent, endsStart, inToken, startsRest⟩ :=
    mem_tokens_iff.mp isToken
  have whole : uncommented line ++ line.dropWhile (!startsComment ·) = line :=
    List.takeWhile_append_dropWhile
  have comment (char : Char)
      (isHead : char ∈ (line.dropWhile (!startsComment ·)).head?) :
      endsToken char = true := by
    refine endsToken_of_startsComment ?_
    simpa using not_of_mem_head?_dropWhile isHead
  generalize line.dropWhile (!startsComment ·) = commented at whole comment
  have inContent (char : Char) (member : char ∈ start) :
      char ∈ uncommented line := by
    rw [isContent, List.append_assoc]
    exact List.mem_append_left _ member
  refine ⟨above, start, rest ++ commented ++ below, ?_, ?_, ?_, endsStart,
    inToken, ?_⟩
  · rw [← whole, isContent]
    simp only [List.append_assoc]
  · intro char isLast
    exact eq_of_beq (endsAbove char isLast)
  · intro char member
    have isContentChar := inContent char member
    have ofLine : char ∈ line :=
      (List.takeWhile_prefix _).subset isContentChar
    refine ⟨fun isNewline => ?_, ?_⟩
    · have noNewline := inLine char ofLine
      rw [isNewline] at noNewline
      cases noNewline
    · simpa using List.mem_takeWhile_imp isContentChar
  · intro char isHead
    cases rest with
    | cons first later =>
        exact startsRest char isHead
    | nil =>
        cases commented with
        | cons first later =>
            exact comment char isHead
        | nil =>
            have isNewline := eq_of_beq (startsBelow char isHead)
            rw [isNewline]
            decide

/-- A run of the text is a word of the line it stands on. -/
theorem line_of_isToken
    {text token : List Char}
    (isToken : IsToken text token) :
    ∃ line, IsPiece (· == '\n') text line ∧ token ∈ tokens line := by
  obtain ⟨above, start, after, rfl, endsAbove, inStart, endsStart, inToken,
    startsAfter⟩ := isToken
  have whole :
      after.takeWhile (!· == '\n') ++ after.dropWhile (!· == '\n') = after :=
    List.takeWhile_append_dropWhile
  have inRest (char : Char) (member : char ∈ after.takeWhile (!· == '\n')) :
      (char == '\n') = false := by
    simpa using List.mem_takeWhile_imp member
  have startsBelow (char : Char)
      (isHead : char ∈ (after.dropWhile (!· == '\n')).head?) :
      (char == '\n') = true := by
    simpa using not_of_mem_head?_dropWhile isHead
  refine ⟨start ++ token ++ after.takeWhile (!· == '\n'),
    ⟨above, after.dropWhile (!· == '\n'), ?_, ?_, ?_, startsBelow⟩,
    mem_tokens_iff.mpr ⟨start,
      uncommented (after.takeWhile (!· == '\n')), ?_, endsStart, inToken,
      ?_⟩⟩
  · nth_rewrite 1 [← whole]
    simp only [List.append_assoc]
  · intro char isLast
    rw [endsAbove char isLast]
    rfl
  · intro char member
    rw [beq_eq_false_iff_ne]
    rcases List.mem_append.mp member with inFront | isRest
    · rcases List.mem_append.mp inFront with isStart | inWord
      · exact (inStart char isStart).1
      · exact ne_newline (inToken char inWord)
    · exact beq_eq_false_iff_ne.mp (inRest char isRest)
  · have plain (char : Char) (member : char ∈ start ++ token) :
        (!startsComment char) = true := by
      rcases List.mem_append.mp member with isStart | inWord
      · rw [(inStart char isStart).2]
        rfl
      · rw [not_startsComment (inToken char inWord)]
        rfl
    exact List.takeWhile_append_of_pos plain
  · intro char isHead
    exact startsAfter char
      (mem_head?_of_takeWhile (mem_head?_of_takeWhile isHead))

/-- The words of a text are its runs. -/
theorem exists_token_iff
    {text token : List Char}
    (notEmpty : token ≠ []) :
    (∃ line ∈ lines text, token ∈ tokens line) ↔ IsToken text token := by
  rw [exists_line_iff notEmpty, List.splitOn_eq_splitOnP]
  constructor
  · rintro ⟨line, member, isToken⟩
    exact isToken_of_line (mem_splitOnP_iff.mp member) isToken
  · intro isToken
    obtain ⟨line, isLine, inLine⟩ := line_of_isToken isToken
    exact ⟨line, mem_splitOnP_iff.mpr isLine, inLine⟩

/-- The networks that are read from a text. -/
theorem mem_parse_iff
    {text : String}
    {protectedNets : List Cidr}
    {net : Cidr} :
    net ∈ parse text protectedNets ↔
      ∃ token, IsToken text.toList token ∧
        network? protectedNets token = some net := by
  have notEmpty {token : List Char}
      (found : network? protectedNets token = some net) :
      token ≠ [] := by
    rintro rfl
    cases found
  rw [parse, mem_sorted, List.mem_flatMap]
  constructor
  · rintro ⟨line, isLine, inLine⟩
    obtain ⟨token, isToken, found⟩ := List.mem_filterMap.mp inLine
    exact ⟨token,
      (exists_token_iff (notEmpty found)).mp ⟨line, isLine, isToken⟩, found⟩
  · rintro ⟨token, isToken, found⟩
    obtain ⟨line, isLine, inLine⟩ :=
      (exists_token_iff (notEmpty found)).mpr isToken
    exact ⟨line, isLine, List.mem_filterMap.mpr ⟨token, inLine, found⟩⟩

/-! ## What may be blocked -/

/-- Two networks with an address in common. -/
def Shares (first second : Cidr) : Prop :=
  ∃ ip, first.contains ip = true ∧ second.contains ip = true

/-- A word that gives a network, and what that network keeps clear of. -/
theorem network?_eq_some_iff
    {protectedNets : List Cidr}
    {token : List Char}
    {net : Cidr} :
    network? protectedNets token = some net ↔
      token.count '.' = 3 ∧
        Cidr.parse (String.ofList token) = .ok net ∧
        8 ≤ BitPrefix.leadingOnes net.mask ∧
        ∀ spared ∈ reserved ++ protectedNets,
          overlaps spared net = false := by
  unfold network?
  by_cases threeDots : token.count '.' = 3
  · rw [if_neg (not_not.mpr threeDots)]
    cases parsed : Cidr.parse (String.ofList token) with
    | error failure =>
        exact iff_of_false nofun fun found => nomatch found.2.1
    | ok cidr =>
        have clear :
            (reserved ++ protectedNets).any (overlaps · cidr) = false ↔
              ∀ spared ∈ reserved ++ protectedNets,
                overlaps spared cidr = false := by
          rw [List.any_eq_false]
          exact forall₂_congr fun spared _ => Bool.eq_false_iff.symm
        dsimp only
        constructor
        · intro found
          split at found
          · cases found
          · rename_i kept
            cases found
            rw [not_or, Nat.not_lt, Bool.not_eq_true, clear] at kept
            exact ⟨threeDots, rfl, kept.1, kept.2⟩
        · rintro ⟨_, same, long, spares⟩
          cases same
          refine if_neg (not_or.mpr ⟨Nat.not_lt.mpr long, ?_⟩)
          rw [Bool.not_eq_true, clear]
          exact spares
  · rw [if_pos threeDots]
    exact iff_of_false nofun fun found => threeDots found.1

theorem contains_net
    {net : Cidr}
    (formed : net.WellFormed) :
    net.contains net.net = true := by
  obtain ⟨_, _, _, masked⟩ := formed
  exact decide_eq_true masked

/-- The two-point test finds every common address. -/
theorem overlaps_iff
    {first second : Cidr}
    (firstFormed : first.WellFormed)
    (secondFormed : second.WellFormed) :
    overlaps first second = true ↔ Shares first second := by
  rw [overlaps, Bool.or_eq_true]
  constructor
  · rintro (inFirst | inSecond)
    · exact ⟨second.net, inFirst, contains_net secondFormed⟩
    · exact ⟨first.net, contains_net firstFormed, inSecond⟩
  · rintro ⟨ip, inFirst, inSecond⟩
    exact Cidr.contains_of_shared firstFormed secondFormed inFirst inSecond

theorem wellFormed_reserved
    {net : Cidr}
    (member : net ∈ reserved) :
    net.WellFormed := by
  obtain ⟨text, _, isNet⟩ := List.mem_filterMap.mp member
  cases parsed : Cidr.parse text with
  | error failure =>
      rw [parsed] at isNet
      cases isNet
  | ok cidr =>
      rw [parsed] at isNet
      cases isNet
      exact Cidr.wellFormed_of_parse parsed

/-! ## The order of the networks -/

/-- A list without neighbours that are equal, in an order, has no repetition. -/
theorem pairwise_dedup
    {Element : Type}
    [DecidableEq Element]
    {before : Element → Element → Prop}
    (antisymmetric :
      ∀ first second, before first second → before second first →
        first = second)
    {list : List Element}
    (sorted : list.Pairwise before) :
    (dedup list).Pairwise
      (fun first second => before first second ∧ first ≠ second) := by
  induction list using dedup.induct with
  | case1 =>
      exact List.Pairwise.nil
  | case2 element =>
      exact List.pairwise_singleton _ element
  | case3 second rest inductionHypothesis =>
      rw [dedup, if_pos rfl]
      exact inductionHypothesis (List.pairwise_cons.mp sorted).2
  | case4 first second rest distinct inductionHypothesis =>
      obtain ⟨least, restSorted⟩ := List.pairwise_cons.mp sorted
      obtain ⟨secondLeast, _⟩ := List.pairwise_cons.mp restSorted
      rw [dedup, if_neg distinct]
      refine List.pairwise_cons.mpr
        ⟨fun later member => ?_, inductionHypothesis restSorted⟩
      rw [mem_dedup] at member
      refine ⟨least later member, ?_⟩
      rintro rfl
      rcases List.mem_cons.mp member with isSecond | inRest
      · exact distinct isSecond
      · exact distinct (antisymmetric first second
          (least second List.mem_cons_self) (secondLeast first inRest))

/-- Strictly smaller in the order of network and mask. -/
def NetLT (first second : Cidr) : Prop :=
  first.net < second.net ∨
    first.net = second.net ∧ first.mask < second.mask

section

variable {first second third : Cidr}

theorem netLE_iff :
    NetLE first second ↔
      first.net.toNat < second.net.toNat ∨
        first.net.toNat = second.net.toNat ∧
          first.mask.toNat ≤ second.mask.toNat := by
  rw [NetLE, BitVec.lt_def, BitVec.le_def, ← BitVec.toNat_inj]

theorem NetLE.trans
    (front : NetLE first second)
    (back : NetLE second third) :
    NetLE first third := by
  rw [netLE_iff] at front back ⊢
  omega

theorem NetLE.total (first second : Cidr) :
    NetLE first second ∨ NetLE second first := by
  rw [netLE_iff, netLE_iff]
  omega

theorem NetLE.antisymm
    (front : NetLE first second)
    (back : NetLE second first) :
    first = second := by
  rw [netLE_iff] at front back
  have sameNet : first.net = second.net :=
    BitVec.eq_of_toNat_eq (by omega)
  have sameMask : first.mask = second.mask :=
    BitVec.eq_of_toNat_eq (by omega)
  cases first
  cases second
  exact congrArg₂ Cidr.mk sameNet sameMask

theorem netLT_of_netLE
    (inOrder : NetLE first second)
    (distinct : first ≠ second) :
    NetLT first second := by
  rcases inOrder with less | ⟨sameNet, masks⟩
  · exact .inl less
  · refine .inr ⟨sameNet, ?_⟩
    rw [BitVec.lt_def]
    refine Nat.lt_of_le_of_ne masks fun same => distinct ?_
    exact NetLE.antisymm (.inr ⟨sameNet, masks⟩)
      (.inr ⟨sameNet.symm, same.ge⟩)

end

theorem pairwise_sorted (nets : List Cidr) :
    (sorted nets).Pairwise NetLT := by
  have inOrder : (nets.insertionSort NetLE).Pairwise NetLE := by
    have : Std.Total NetLE := ⟨NetLE.total⟩
    have : IsTrans Cidr NetLE := ⟨fun _ _ _ => NetLE.trans⟩
    exact List.pairwise_insertionSort NetLE nets
  exact (pairwise_dedup (fun _ _ => NetLE.antisymm) inOrder).imp
    fun both => netLT_of_netLE both.1 both.2

/--
A feed blocks the networks of its words, except the large ones and those that
share an address with reserved or protected space, each once and in order.
-/
theorem parse_blocks_exactly
    (text : String)
    {protectedNets : List Cidr}
    (formed : ∀ net ∈ protectedNets, net.WellFormed) :
    (parse text protectedNets).Pairwise NetLT ∧
      (parse text protectedNets).Nodup ∧
      (∀ net,
        net ∈ parse text protectedNets ↔
          ∃ token, IsToken text.toList token ∧
            token.count '.' = 3 ∧
            Cidr.parse (String.ofList token) = .ok net ∧
            8 ≤ BitPrefix.leadingOnes net.mask ∧
            ∀ spared ∈ reserved ++ protectedNets, ¬Shares spared net) ∧
      ∀ net ∈ parse text protectedNets,
        ∀ spared ∈ reserved ++ protectedNets, ∀ ip,
          spared.contains ip = true → net.contains ip = false := by
  have sparedFormed :
      ∀ spared ∈ reserved ++ protectedNets, spared.WellFormed := by
    intro spared member
    rcases List.mem_append.mp member with isReserved | isProtected
    · exact wellFormed_reserved isReserved
    · exact formed spared isProtected
  have membership (net : Cidr) :
      net ∈ parse text protectedNets ↔
        ∃ token, IsToken text.toList token ∧
          token.count '.' = 3 ∧
          Cidr.parse (String.ofList token) = .ok net ∧
          8 ≤ BitPrefix.leadingOnes net.mask ∧
          ∀ spared ∈ reserved ++ protectedNets, ¬Shares spared net := by
    rw [mem_parse_iff]
    refine exists_congr fun token => and_congr_right fun _ => ?_
    rw [network?_eq_some_iff]
    refine and_congr_right fun _ => and_congr_right fun parsed =>
      and_congr_right fun _ => forall₂_congr fun spared member => ?_
    rw [← overlaps_iff (sparedFormed spared member)
      (Cidr.wellFormed_of_parse parsed), Bool.not_eq_true]
  have strict := pairwise_sorted
    ((lines text.toList).flatMap fun line =>
      (tokens line).filterMap (network? protectedNets))
  refine ⟨strict, ?_, membership, ?_⟩
  · refine strict.imp fun less same => ?_
    subst same
    rcases less with less | ⟨_, less⟩
    · exact absurd less (BitVec.lt_irrefl _)
    · exact absurd less (BitVec.lt_irrefl _)
  · intro net member spared isSpared ip inSpared
    obtain ⟨_, _, _, _, _, clear⟩ := (membership net).mp member
    by_contra inNet
    rw [Bool.not_eq_false] at inNet
    exact clear spared isSpared ⟨ip, inSpared, inNet⟩

/-- A netset with a comment, local networks and a default route. -/
def netset : String :=
  "# firehol\n10.0.0.0/8\n1.2.3.0/24\n192.168.0.0/16\n5.6.7.8\n" ++
    "0.0.0.0/0\n203.0.113.0/24 ; doc\n"

/-- Besides the local networks, the one around a protected address stays out. -/
theorem netset_keeps_protected_safe :
    parse netset [.single 0x01020309] =
        [⟨0x05060708, 0xffffffff⟩, ⟨0xcb007100, 0xffffff00⟩] ∧
      ∀ net ∈ parse netset [.single 0x01020309],
        net.contains 0x01020309 = false := by
  have formed :
      ∀ net ∈ [Cidr.single 0x01020309], net.WellFormed := by
    intro net member
    rw [List.mem_singleton.mp member]
    exact Cidr.wellFormed_single _
  have clear := (parse_blocks_exactly netset formed).2.2.2
  refine ⟨by decide +kernel, fun net member => ?_⟩
  exact clear net member (.single 0x01020309)
    (List.mem_append_right _ (List.mem_singleton_self _)) _ (by decide)

end Feeds

end AiFirewall
