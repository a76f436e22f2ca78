import AiFirewall.Assistant
import AiFirewall.TrimmedText

namespace AiFirewall

/-!
# The streamed answer

`ai-firewall ask` prints the answer of a model as it comes, line by line, and
holds back the lines that propose actions; the assistant takes them out of
the whole reply.  The two tests of a line are written separately.  Both
texts are compared up to white space at their ends and at the ends of their
lines.
-/

open RustText

namespace AskStream

open Assistant

/-- The text begins with `ACTION:`, in any case. -/
def startsAction (text : List Char) : Bool :=
  "ACTION:".toList.isPrefixOf (text.map Char.toUpper)

/-- The test of a complete line, its line break included. -/
def hiddenLine (line : List Char) : Bool :=
  startsAction ((trimStart line).dropWhile decoration)

/-- The test of what is left at the end. -/
def hiddenRest (shown : List Char) : Bool :=
  startsAction (trimStart shown)

/--
The loop over the complete lines of `shown`: what it prints, call by call,
and what it leaves.  A line takes at least its line break, so `shown.length`
rounds are enough.
-/
def drain :
    Nat → List Char → List (List Char) × List Char
  | 0, shown => ([], shown)
  | rounds + 1, shown =>
      match splitOnce '\n' shown with
      | none => ([], shown)
      | some (line, rest) =>
          let printed :=
            if hiddenLine (line ++ ['\n']) then [] else [line ++ ['\n']]
          let (more, left) := drain rounds rest
          (printed ++ more, left)

/-- What the pieces of an answer make `ask` print, and what is left. -/
def feed (shown : List Char) :
    List (List Char) → List (List Char) × List Char
  | [] => ([], shown)
  | piece :: rest =>
      let (printed, left) := drain (shown ++ piece).length (shown ++ piece)
      let (more, final) := feed left rest
      (printed ++ more, final)

/-- Everything `ask` prints of an answer, call by call. -/
def printedCalls (pieces : List (List Char)) : List (List Char) :=
  let (printed, shown) := feed [] pieces
  printed ++ if hiddenRest shown then [] else [shown ++ ['\n']]

/-- The text `ask` prints. -/
def printed (pieces : List (List Char)) : List Char :=
  (printedCalls pieces).flatten

example : String.ofList (printed ["Fine.\nACT".toList, "ION: test all\n".toList,
    "Bye".toList]) = "Fine.\nBye\n" := by
  decide +kernel

/-- A line that `strip_actions` takes out. -/
def removed (line : List Char) : Bool :=
  startsAction (undecorated line)

theorem stripActions_eq (reply : List Char) :
    stripActions reply =
      trim (['\n'].intercalate ((lines reply).filter fun line => !removed line)) :=
  rfl

/-- Nothing, or a line break first. -/
def AtBreak (text : List Char) : Prop :=
  text = [] ∨ text.head? = some '\n'

instance (text : List Char) : Decidable (AtBreak text) :=
  inferInstanceAs (Decidable (_ ∨ _))

/-- White space before a line break or before the end is left out. -/
def tidy : List Char → List Char
  | [] => []
  | char :: rest =>
      if isWhitespace char = true ∧ char ≠ '\n' ∧ AtBreak (tidy rest) then
        tidy rest
      else
        char :: tidy rest

/-- A text, up to blank space at both ends and at the ends of its lines. -/
def normal (text : List Char) : List Char :=
  trim (tidy text)

/-- The complete lines of a text, and what follows the last of them. -/
structure Cut (text : List Char) (full : List (List Char)) (last : List Char) : Prop where
  text_eq : text = full.flatMap (· ++ ['\n']) ++ last
  full_plain : ∀ line ∈ full, '\n' ∉ line
  last_plain : '\n' ∉ last

/-- Every text is cut in one way. -/
theorem exists_cut (text : List Char) :
    ∃ full last, Cut text full last := by
  induction size : text.length using Nat.strong_induction_on
      generalizing text with
  | h length inductionHypothesis =>
      cases split : splitOnce '\n' text with
      | none =>
          exact ⟨[], text, rfl, List.forall_mem_nil _,
            splitOnce_eq_none.mp split⟩
      | some parts =>
          obtain ⟨line, rest⟩ := parts
          obtain ⟨isText, plain⟩ := splitOnce_eq_some.mp split
          have shorter : rest.length < length := by
            rw [← size, isText, List.length_append, List.length_cons]
            omega
          obtain ⟨full, last, cut⟩ := inductionHypothesis _ shorter rest rfl
          refine ⟨line :: full, last, ?_, ?_, cut.last_plain⟩
          · rw [isText, List.flatMap_cons, cut.text_eq]
            simp
          · exact List.forall_mem_cons.mpr ⟨plain, cut.full_plain⟩

/-- The calls that print complete lines. -/
def lineCalls (full : List (List Char)) : List (List Char) :=
  (full.filter fun line => !hiddenLine (line ++ ['\n'])).map (· ++ ['\n'])

/-- The loop takes off every complete line. -/
theorem drain_of_cut
    {full : List (List Char)}
    {last : List Char}
    {rounds : Nat}
    (plain : ∀ line ∈ full, '\n' ∉ line)
    (lastPlain : '\n' ∉ last)
    (enough : full.length ≤ rounds) :
    drain rounds (full.flatMap (· ++ ['\n']) ++ last) =
      (lineCalls full, last) := by
  induction full generalizing rounds with
  | nil =>
      have whole : splitOnce '\n' last = none := splitOnce_eq_none.mpr lastPlain
      cases rounds with
      | zero => rfl
      | succ rounds =>
          rw [List.flatMap_nil, List.nil_append, drain, whole]
          rfl
  | cons line others inductionHypothesis =>
      obtain ⟨linePlain, othersPlain⟩ := List.forall_mem_cons.mp plain
      cases rounds with
      | zero => simp at enough
      | succ rounds =>
          have taken :
              splitOnce '\n'
                  ((line :: others).flatMap (· ++ ['\n']) ++ last) =
                some (line, others.flatMap (· ++ ['\n']) ++ last) :=
            splitOnce_eq_some.mpr ⟨by simp, linePlain⟩
          have fewer : others.length ≤ rounds := by
            simpa using enough
          rw [drain, taken]
          simp only [inductionHypothesis othersPlain fewer]
          cases hidden : hiddenLine (line ++ ['\n']) <;>
            simp [lineCalls, hidden]

/-- There are no more complete lines than characters. -/
theorem Cut.length_le
    {text last : List Char}
    {full : List (List Char)}
    (cut : Cut text full last) :
    full.length ≤ text.length := by
  rw [cut.text_eq]
  have each (lists : List (List Char)) :
      lists.length ≤ (lists.flatMap (· ++ ['\n'])).length := by
    induction lists with
    | nil => simp
    | cons line rest inductionHypothesis =>
        rw [List.flatMap_cons, List.length_append, List.length_append,
          List.length_cons]
        simp only [List.length_singleton]
        omega
  rw [List.length_append]
  exact (each full).trans (Nat.le_add_right _ _)

/-- The pieces between the line breaks. -/
theorem Cut.splitOn_eq
    {text last : List Char}
    {full : List (List Char)}
    (cut : Cut text full last) :
    text.splitOn '\n' = full ++ [last] := by
  obtain ⟨rfl, plain, lastPlain⟩ := cut
  induction full with
  | nil =>
      exact List.splitOn_eq_singleton lastPlain
  | cons line others inductionHypothesis =>
      obtain ⟨linePlain, othersPlain⟩ := List.forall_mem_cons.mp plain
      rw [flatMap_ended_cons, List.append_assoc, List.cons_append,
        List.splitOn_append_cons_self,
        List.splitOn_eq_singleton linePlain, inductionHypothesis othersPlain]
      rfl

theorem Cut.unique
    {text last otherLast : List Char}
    {full otherFull : List (List Char)}
    (cut : Cut text full last)
    (other : Cut text otherFull otherLast) :
    full = otherFull ∧ last = otherLast := by
  have same : full ++ [last] = otherFull ++ [otherLast] := by
    rw [← cut.splitOn_eq, other.splitOn_eq]
  obtain ⟨sameFull, sameLast⟩ := List.append_inj' same rfl
  exact ⟨sameFull, (List.cons.inj sameLast).1⟩

/-- What follows a cut text is cut on its own, after the last line. -/
theorem Cut.append
    {text last more newLast : List Char}
    {full newFull : List (List Char)}
    (cut : Cut text full last)
    (next : Cut (last ++ more) newFull newLast) :
    Cut (text ++ more) (full ++ newFull) newLast where
  text_eq := by
    rw [cut.text_eq, List.append_assoc, next.text_eq, List.flatMap_append,
      List.append_assoc]
  full_plain :=
    List.forall_mem_append.mpr ⟨cut.full_plain, next.full_plain⟩
  last_plain := next.last_plain

/-- However an answer is cut, its complete lines go through the loop once. -/
theorem feed_of_cut
    {shown last : List Char}
    {pieces full : List (List Char)}
    (plain : '\n' ∉ shown)
    (cut : Cut (shown ++ pieces.flatten) full last) :
    feed shown pieces = (lineCalls full, last) := by
  induction pieces generalizing shown full last with
  | nil =>
      have alone : Cut (shown ++ [].flatten) [] shown :=
        ⟨by simp, List.forall_mem_nil _, plain⟩
      obtain ⟨rfl, rfl⟩ := cut.unique alone
      rfl
  | cons piece rest inductionHypothesis =>
      obtain ⟨now, left, nowCut⟩ := exists_cut (shown ++ piece)
      obtain ⟨later, final, laterCut⟩ := exists_cut (left ++ rest.flatten)
      have whole : Cut (shown ++ (piece :: rest).flatten) (now ++ later) final := by
        rw [List.flatten_cons, ← List.append_assoc]
        exact nowCut.append laterCut
      obtain ⟨rfl, rfl⟩ := cut.unique whole
      have drained :
          drain (shown ++ piece).length (shown ++ piece) =
            (lineCalls now, left) := by
        have enough := nowCut.length_le
        conv_lhs => rw [nowCut.text_eq]
        rw [nowCut.text_eq] at enough
        exact drain_of_cut nowCut.full_plain nowCut.last_plain enough
      rw [feed, drained]
      simp only [inductionHypothesis nowCut.last_plain laterCut]
      rw [lineCalls, lineCalls, lineCalls, List.filter_append, List.map_append]

/-- The lines of a reply that `ask` shows. -/
def shownLines (full : List (List Char)) (last : List Char) : List (List Char) :=
  (full.filter fun line => !hiddenLine (line ++ ['\n'])) ++
    if hiddenRest last then [] else [last]

/-- What is printed depends on the lines of the reply alone. -/
theorem printedCalls_of_cut
    {pieces full : List (List Char)}
    {last : List Char}
    (cut : Cut pieces.flatten full last) :
    printedCalls pieces = (shownLines full last).map (· ++ ['\n']) := by
  rw [printedCalls, feed_of_cut List.not_mem_nil cut, shownLines,
    List.map_append]
  dsimp only [lineCalls]
  split <;> rfl

/-- The lines of a reply, up to the carriage returns before their breaks. -/
theorem Cut.lines_eq
    {text last : List Char}
    {full : List (List Char)}
    (cut : Cut text full last) :
    lines text =
      full.map stripReturn ++ if last = [] then [] else [last] := by
  rw [lines, cut.splitOn_eq, List.dropLast_concat, List.getLast?_concat]
  by_cases empty : last = []
  · simp [empty]
  · simp [empty]

/-- Before a line break or the end, a text is tidied on its own. -/
theorem tidy_append
    {after : List Char}
    (atBreak : AtBreak (tidy after))
    (text : List Char) :
    tidy (text ++ after) = tidy text ++ tidy after := by
  induction text with
  | nil =>
      rfl
  | cons char rest inductionHypothesis =>
      have same :
          AtBreak (tidy rest ++ tidy after) ↔ AtBreak (tidy rest) := by
        cases tidy rest with
        | nil => exact iff_of_true atBreak (.inl rfl)
        | cons first more => simp [AtBreak]
      rw [List.cons_append, tidy, tidy, inductionHypothesis]
      by_cases dropped :
          isWhitespace char = true ∧ char ≠ '\n' ∧ AtBreak (tidy rest)
      · rw [if_pos ⟨dropped.1, dropped.2.1, same.mpr dropped.2.2⟩,
          if_pos dropped]
      · rw [if_neg fun also =>
            dropped ⟨also.1, also.2.1, same.mp also.2.2⟩,
          if_neg dropped, List.cons_append]

theorem tidy_break (rest : List Char) :
    tidy ('\n' :: rest) = '\n' :: tidy rest := by
  simp [tidy]

theorem tidy_line (line rest : List Char) :
    tidy (line ++ '\n' :: rest) = tidy line ++ '\n' :: tidy rest := by
  rw [tidy_append, tidy_break]
  rw [tidy_break]
  exact .inr rfl

/-- Tidying leaves a part of the white space. -/
theorem mem_of_mem_tidy
    {char : Char}
    {text : List Char}
    (member : char ∈ tidy text) :
    char ∈ text := by
  induction text with
  | nil =>
      exact member
  | cons first rest inductionHypothesis =>
      rw [tidy] at member
      split at member
      · exact List.mem_cons_of_mem _ (inductionHypothesis member)
      · rcases List.mem_cons.mp member with isFirst | later
        · rw [isFirst]
          exact List.mem_cons_self
        · exact List.mem_cons_of_mem _ (inductionHypothesis later)

/-- A blank text is tidied to line breaks. -/
theorem atBreak_tidy_blank
    {blank : List Char}
    (all : ∀ char ∈ blank, isWhitespace char = true) :
    AtBreak (tidy blank) := by
  induction blank with
  | nil =>
      exact .inl rfl
  | cons char rest inductionHypothesis =>
      obtain ⟨isBlank, others⟩ := List.forall_mem_cons.mp all
      have restAtBreak := inductionHypothesis others
      by_cases isBreak : char = '\n'
      · rw [isBreak, tidy_break]
        exact .inr rfl
      · rw [tidy, if_pos ⟨isBlank, isBreak, restAtBreak⟩]
        exact restAtBreak

/-- White space in front is tidied to white space in front. -/
theorem tidy_blank_append
    {blank : List Char}
    (all : ∀ char ∈ blank, isWhitespace char = true)
    (text : List Char) :
    ∃ left, tidy (blank ++ text) = left ++ tidy text ∧
      ∀ char ∈ left, isWhitespace char = true := by
  induction blank with
  | nil =>
      exact ⟨[], rfl, List.forall_mem_nil _⟩
  | cons char rest inductionHypothesis =>
      obtain ⟨isBlank, others⟩ := List.forall_mem_cons.mp all
      obtain ⟨left, shape, leftBlank⟩ := inductionHypothesis others
      rw [List.cons_append, tidy, shape]
      split
      · exact ⟨left, rfl, leftBlank⟩
      · exact ⟨char :: left, rfl, List.forall_mem_cons.mpr ⟨isBlank, leftBlank⟩⟩

theorem normal_blank_append
    {blank : List Char}
    (all : ∀ char ∈ blank, isWhitespace char = true)
    (text : List Char) :
    normal (blank ++ text) = normal text := by
  obtain ⟨left, shape, leftBlank⟩ := tidy_blank_append all text
  rw [normal, shape, trim_eq, List.dropWhile_append_of_pos leftBlank]
  rfl

theorem normal_append_blank
    {blank : List Char}
    (all : ∀ char ∈ blank, isWhitespace char = true)
    (text : List Char) :
    normal (text ++ blank) = normal text := by
  rw [normal, tidy_append (atBreak_tidy_blank all), trim_append_of_all]
  · rfl
  · exact fun char member => all char (mem_of_mem_tidy member)

@[simp] theorem normal_trim (text : List Char) :
    normal (trim text) = normal text := by
  obtain ⟨before, after, shape, beforeBlank, afterBlank⟩ := exists_trim text
  conv_rhs => rw [shape, normal_append_blank afterBlank,
    normal_blank_append beforeBlank]

/-- Lines one after the other, each tidied. -/
def tidied (texts : List (List Char)) : List Char :=
  texts.flatMap fun line => tidy line ++ ['\n']

theorem tidy_flatMap (texts : List (List Char)) :
    tidy (texts.flatMap (· ++ ['\n'])) = tidied texts := by
  induction texts with
  | nil =>
      rfl
  | cons line rest inductionHypothesis =>
      rw [flatMap_ended_cons, tidy_line, inductionHypothesis, tidied, tidied,
        List.flatMap_cons, List.append_assoc, List.singleton_append]

theorem blank_break : ∀ char ∈ ['\n'], isWhitespace char = true :=
  List.forall_mem_singleton.mpr rfl

/-- Joining lines and ending each of them differ by blank space. -/
theorem normal_intercalate (texts : List (List Char)) :
    normal (['\n'].intercalate texts) = trim (tidied texts) := by
  have ended :
      texts = [] ∨
        ['\n'].intercalate texts ++ ['\n'] = texts.flatMap (· ++ ['\n']) := by
    induction texts with
    | nil =>
        exact .inl rfl
    | cons line rest inductionHypothesis =>
        refine .inr ?_
        rcases inductionHypothesis with rfl | shape
        · simp
        · cases rest with
          | nil => simp
          | cons second others =>
              rw [List.flatMap_cons, ← shape, List.intercalate_cons_cons]
              simp
  rcases ended with rfl | shape
  · rfl
  · rw [← normal_append_blank blank_break, shape, normal, tidy_flatMap]

/-- A line break at the very end does not count. -/
theorem trim_tidied_empty (texts : List (List Char)) :
    trim (tidied (texts ++ [[]])) = trim (tidied texts) := by
  rw [tidied, List.flatMap_append]
  exact trim_append_of_all blank_break _

theorem tidy_stripReturn (line : List Char) :
    tidy (stripReturn line) = tidy line := by
  rw [stripReturn]
  split
  · rename_i isReturn
    obtain ⟨front, shape⟩ := List.getLast?_eq_some_iff.mp isReturn
    have gone : tidy ['\r'] = [] := by
      decide
    rw [shape, List.dropLast_concat, tidy_append (.inl gone), gone,
      List.append_nil]
  · rfl

theorem tidied_map_stripReturn (texts : List (List Char)) :
    tidied (texts.map stripReturn) = tidied texts := by
  rw [tidied, tidied, List.flatMap_map]
  simp only [tidy_stripReturn]

/-- White space and the marks around a line. -/
def skipped (char : Char) : Bool :=
  isWhitespace char || decoration char

theorem toUpper_of_skipped
    {char : Char}
    (isSkipped : skipped char = true) :
    char.toUpper = char := by
  have notLower : ¬ (97 ≤ char.toNat ∧ char.toNat ≤ 122) := by
    rcases Bool.or_eq_true_iff.mp isSkipped with blank | mark
    · simp only [isWhitespace, Bool.or_eq_true, Bool.and_eq_true,
        decide_eq_true_eq, beq_iff_eq] at blank
      omega
    · simp only [decoration, Bool.or_eq_true, decide_eq_true_eq] at mark
      rcases mark with (rfl | rfl) | rfl <;> decide
  rw [Char.toUpper, dif_neg]
  exact fun lower => notLower lower

/-- No character of `ACTION:` is skipped, in any case. -/
theorem toUpper_notMem_of_skipped
    {char : Char}
    (isSkipped : skipped char = true) :
    char.toUpper ∉ "ACTION:".toList := by
  have none : "ACTION:".toList.any skipped = false := by
    decide +kernel
  rw [toUpper_of_skipped isSkipped]
  intro member
  exact List.any_eq_false.mp none char member isSkipped

theorem startsAction_iff
    {text : List Char} :
    startsAction text = true ↔
      ∃ word rest, text = word ++ rest ∧
        word.map Char.toUpper = "ACTION:".toList := by
  rw [startsAction, List.isPrefixOf_iff_prefix]
  constructor
  · rintro ⟨tail, shape⟩
    obtain ⟨word, rest, isText, isWord, _⟩ := List.map_eq_append_iff.mp shape.symm
    exact ⟨word, rest, isText, isWord⟩
  · rintro ⟨word, rest, rfl, isWord⟩
    rw [List.map_append, isWord]
    exact List.prefix_append _ _

/-- The word itself has nothing to skip. -/
theorem not_skipped_of_word
    {word : List Char}
    (isWord : word.map Char.toUpper = "ACTION:".toList) :
    ∀ char ∈ word, skipped char = false := by
  intro char member
  by_contra isSkipped
  refine toUpper_notMem_of_skipped (Bool.not_eq_false _ ▸ isSkipped) ?_
  rw [← isWord]
  exact List.mem_map_of_mem member

theorem rdropWhile_append_of_kept
    {dropped : Char → Bool}
    {front : List Char}
    (kept : ∀ char ∈ front, dropped char = false)
    (back : List Char) :
    (front ++ back).rdropWhile dropped = front ++ back.rdropWhile dropped := by
  induction front with
  | nil =>
      rfl
  | cons char rest inductionHypothesis =>
      obtain ⟨isKept, others⟩ := List.forall_mem_cons.mp kept
      rw [List.cons_append, rdropWhile_cons, if_neg, inductionHypothesis others,
        List.cons_append]
      rintro ⟨_, isDropped⟩
      rw [isKept] at isDropped
      cases isDropped

/-- Trimming the end leaves the word where it is. -/
theorem startsAction_rdropWhile
    {dropped : Char → Bool}
    (within : ∀ char, dropped char = true → skipped char = true)
    (text : List Char) :
    startsAction (text.rdropWhile dropped) = startsAction text := by
  rw [Bool.eq_iff_iff, startsAction_iff, startsAction_iff]
  constructor
  · rintro ⟨word, rest, shape, isWord⟩
    obtain ⟨tail, isText⟩ := List.rdropWhile_prefix dropped (l := text)
    refine ⟨word, rest ++ tail, ?_, isWord⟩
    rw [← isText, shape, List.append_assoc]
  · rintro ⟨word, rest, rfl, isWord⟩
    refine ⟨word, rest.rdropWhile dropped, ?_, isWord⟩
    refine rdropWhile_append_of_kept (fun char member => ?_) rest
    by_contra isDropped
    have kept := not_skipped_of_word isWord char member
    rw [within char (Bool.not_eq_false _ ▸ isDropped)] at kept
    cases kept

/-- A line without what stands before its first word. -/
def core (line : List Char) : List Char :=
  trimStart ((trimStart line).dropWhile decoration)

theorem within_blank :
    ∀ char, isWhitespace char = true → skipped char = true := by
  intro char blank
  rw [skipped, blank, Bool.true_or]

theorem within_mark :
    ∀ char, decoration char = true → skipped char = true := by
  intro char mark
  rw [skipped, mark, Bool.or_true]

/-- `strip_actions` takes out a line by its beginning alone. -/
theorem removed_eq (line : List Char) :
    removed line = startsAction (core line) := by
  have ends :
      undecorated line =
        (((core line).rdropWhile isWhitespace).rdropWhile
          decoration).rdropWhile isWhitespace := by
    rw [undecorated, trim_eq, core, trimStart, trimStart, trimMatches,
      ← List.rdropWhile, trim_eq, dropWhile_rdropWhile, dropWhile_rdropWhile,
      dropWhile_rdropWhile]
  rw [removed, ends, startsAction_rdropWhile within_blank,
    startsAction_rdropWhile within_mark, startsAction_rdropWhile within_blank]

/-- A line break at the end does not make a beginning. -/
theorem startsAction_break (text : List Char) :
    startsAction (text ++ ['\n']) = startsAction text := by
  rw [Bool.eq_iff_iff, startsAction, startsAction, List.isPrefixOf_iff_prefix,
    List.isPrefixOf_iff_prefix, List.map_append, List.map_singleton,
    List.prefix_concat_iff]
  constructor
  · rintro (whole | inside)
    · have ends := congrArg List.getLast? whole
      rw [List.getLast?_concat] at ends
      exact absurd ends (by decide)
    · exact inside
  · exact .inr

/-- The line break takes no part in the test of a complete line. -/
theorem hiddenLine_break (line : List Char) :
    hiddenLine (line ++ ['\n']) =
      startsAction ((trimStart line).dropWhile decoration) := by
  by_cases blank : trimStart line = []
  · have all : trimStart (line ++ ['\n']) = [] := by
      rw [trimStart_append_of_blank blank]
      decide
    rw [hiddenLine, all, blank]
  · have kept (text : List Char) :
        (text ++ ['\n']).dropWhile decoration =
          text.dropWhile decoration ++ ['\n'] := by
      rw [List.dropWhile_append]
      split
      · rename_i gone
        rw [List.isEmpty_iff.mp gone]
        decide
      · rfl
    rw [hiddenLine, trimStart_append blank, kept, startsAction_break]

/-- The word is not taken for something skipped. -/
theorem dropWhile_of_starts
    {dropped : Char → Bool}
    {text : List Char}
    (within : ∀ char, dropped char = true → skipped char = true)
    (starts : startsAction text = true) :
    text.dropWhile dropped = text := by
  obtain ⟨word, rest, rfl, isWord⟩ := startsAction_iff.mp starts
  cases word with
  | nil =>
      cases isWord
  | cons first others =>
      rw [List.cons_append, List.dropWhile_cons_of_neg]
      intro isDropped
      have kept := not_skipped_of_word isWord first List.mem_cons_self
      rw [within first isDropped] at kept
      cases kept

/-- Something skipped does not begin the word. -/
theorem not_starts_of_skipped
    {text : List Char}
    {char : Char}
    (isSkipped : skipped char = true) :
    startsAction (char :: text) = false := by
  by_contra starts
  have kept := dropWhile_of_starts (fun _ isSkipped => isSkipped)
    (Bool.not_eq_false _ ▸ starts)
  rw [List.dropWhile_cons_of_pos isSkipped] at kept
  have shorter := List.length_dropWhile_le skipped text
  rw [kept, List.length_cons] at shorter
  omega

theorem not_blank_of_mark
    {char : Char}
    (mark : decoration char = true) :
    isWhitespace char = false := by
  simp only [decoration, Bool.or_eq_true, decide_eq_true_eq] at mark
  rcases mark with (rfl | rfl) | rfl <;> rfl

theorem not_mark_of_blank
    {char : Char}
    (blank : isWhitespace char = true) :
    decoration char = false := by
  by_contra mark
  rw [not_blank_of_mark (Bool.not_eq_false _ ▸ mark)] at blank
  cases blank

/-- An action line with `marks` before the word and `gap` after the marks. -/
structure ActionLine (line marks gap : List Char) : Prop where
  marks_all : ∀ char ∈ marks, decoration char = true
  gap_all : ∀ char ∈ gap, isWhitespace char = true
  shape :
    ∃ blank rest, line = blank ++ (marks ++ (gap ++ rest)) ∧
      (∀ char ∈ blank, isWhitespace char = true) ∧
      startsAction rest = true

/-- Marks before the word, and white space between them and the word. -/
def Spaced (line : List Char) : Prop :=
  ∃ marks gap, ActionLine line marks gap ∧ marks ≠ [] ∧ gap ≠ []

/-- Marks before the word. -/
def Marked (line : List Char) : Prop :=
  ∃ marks gap, ActionLine line marks gap ∧ marks ≠ []

/-- A line that is taken out has the word after white space and marks. -/
theorem actionLine_of_removed
    {line : List Char}
    (isRemoved : removed line = true) :
    ActionLine line
      ((trimStart line).takeWhile decoration)
      (((trimStart line).dropWhile decoration).takeWhile isWhitespace) where
  marks_all _ member := List.mem_takeWhile_imp member
  gap_all _ member := List.mem_takeWhile_imp member
  shape := by
    refine ⟨line.takeWhile isWhitespace, core line, ?_,
      fun _ member => List.mem_takeWhile_imp member, ?_⟩
    · simp only [core, trimStart, List.takeWhile_append_dropWhile]
    · rwa [← removed_eq]

theorem trimStart_of_mark
    {marks text : List Char}
    (all : ∀ char ∈ marks, decoration char = true)
    (someMarks : marks ≠ []) :
    trimStart (marks ++ text) = marks ++ text := by
  cases marks with
  | nil =>
      exact absurd rfl someMarks
  | cons first others =>
      rw [List.cons_append, trimStart, List.dropWhile_cons_of_neg]
      rw [not_blank_of_mark (all first List.mem_cons_self)]
      exact Bool.false_ne_true

/-- What is read of an action line with marks. -/
theorem ActionLine.read
    {line marks gap : List Char}
    (action : ActionLine line marks gap)
    (someMarks : marks ≠ []) :
    ∃ rest, startsAction rest = true ∧
      trimStart line = marks ++ (gap ++ rest) ∧
      (trimStart line).dropWhile decoration = gap ++ rest ∧
      core line = rest := by
  obtain ⟨blank, rest, rfl, blankAll, starts⟩ := action.shape
  have front :
      trimStart (blank ++ (marks ++ (gap ++ rest))) =
        marks ++ (gap ++ rest) := by
    rw [trimStart_append_of_blank (List.dropWhile_eq_nil_iff.mpr blankAll)]
    exact trimStart_of_mark action.marks_all someMarks
  have unmarked :
      (marks ++ (gap ++ rest)).dropWhile decoration = gap ++ rest := by
    rw [List.dropWhile_append_of_pos action.marks_all]
    cases gap with
    | nil => exact dropWhile_of_starts within_mark starts
    | cons first others =>
        rw [List.cons_append, List.dropWhile_cons_of_neg]
        rw [not_mark_of_blank (action.gap_all first List.mem_cons_self)]
        exact Bool.false_ne_true
  refine ⟨rest, starts, front, ?_, ?_⟩
  · rw [front, unmarked]
  · rw [core, front, unmarked, trimStart,
      List.dropWhile_append_of_pos action.gap_all]
    exact dropWhile_of_starts within_blank starts

theorem dropWhile_of_none
    {dropped : Char → Bool}
    {text : List Char}
    (none : text.takeWhile dropped = []) :
    text.dropWhile dropped = text := by
  have whole := List.takeWhile_append_dropWhile (p := dropped) (l := text)
  rwa [none, List.nil_append] at whole

/-- The lines taken out of the reply and printed all the same. -/
theorem spaced_iff
    {line : List Char} :
    Spaced line ↔
      removed line = true ∧ hiddenLine (line ++ ['\n']) = false := by
  rw [hiddenLine_break]
  constructor
  · rintro ⟨marks, gap, action, someMarks, someGap⟩
    obtain ⟨rest, starts, _, unmarked, isCore⟩ := action.read someMarks
    refine ⟨?_, ?_⟩
    · rw [removed_eq, isCore, starts]
    · rw [unmarked]
      cases gap with
      | nil => exact absurd rfl someGap
      | cons first others =>
          exact not_starts_of_skipped
            (within_blank first (action.gap_all first List.mem_cons_self))
  · rintro ⟨isRemoved, shown⟩
    have action := actionLine_of_removed isRemoved
    refine ⟨_, _, action, fun noMarks => ?_, fun noGap => ?_⟩
    · -- Without marks the second trimming finds nothing more.
      have same := dropWhile_of_none noMarks
      rw [removed_eq, core, same, trimStart, trimStart,
        List.dropWhile_idempotent] at isRemoved
      rw [same, trimStart, isRemoved] at shown
      cases shown
    · rw [removed_eq, core, trimStart, dropWhile_of_none noGap,
        shown] at isRemoved
      cases isRemoved

/-- The same for what follows the last line break. -/
theorem marked_iff
    {last : List Char} :
    Marked last ↔ removed last = true ∧ hiddenRest last = false := by
  rw [hiddenRest]
  constructor
  · rintro ⟨marks, gap, action, someMarks⟩
    obtain ⟨rest, starts, front, _, isCore⟩ := action.read someMarks
    refine ⟨?_, ?_⟩
    · rw [removed_eq, isCore, starts]
    · rw [front]
      cases marks with
      | nil => exact absurd rfl someMarks
      | cons first others =>
          exact not_starts_of_skipped
            (within_mark first (action.marks_all first List.mem_cons_self))
  · rintro ⟨isRemoved, shown⟩
    refine ⟨_, _, actionLine_of_removed isRemoved, fun noMarks => ?_⟩
    have same := dropWhile_of_none noMarks
    rw [removed_eq, core, same, trimStart, trimStart,
      List.dropWhile_idempotent] at isRemoved
    rw [trimStart, isRemoved] at shown
    cases shown

/-- The solid characters of a text. -/
def solid (text : List Char) : Nat :=
  text.countP fun char => !isWhitespace char

theorem solid_of_blank
    {blank : List Char}
    (all : ∀ char ∈ blank, isWhitespace char = true) :
    solid blank = 0 := by
  rw [solid, List.countP_eq_zero]
  intro char member
  rw [all char member]
  exact Bool.false_ne_true

theorem solid_append (first second : List Char) :
    solid (first ++ second) = solid first + solid second :=
  List.countP_append

theorem solid_trim (text : List Char) :
    solid (trim text) = solid text := by
  obtain ⟨before, after, shape, beforeBlank, afterBlank⟩ := exists_trim text
  conv_rhs => rw [shape, solid_append, solid_append,
    solid_of_blank beforeBlank, solid_of_blank afterBlank]
  omega

theorem solid_tidy (text : List Char) :
    solid (tidy text) = solid text := by
  induction text with
  | nil =>
      rfl
  | cons char rest inductionHypothesis =>
      have more : solid (char :: rest) = solid [char] + solid rest :=
        solid_append [char] rest
      rw [tidy, more]
      split
      · rename_i dropped
        rw [inductionHypothesis, solid_of_blank
          (List.forall_mem_singleton.mpr dropped.1), Nat.zero_add]
      · rw [← inductionHypothesis]
        exact solid_append [char] (tidy rest)

theorem solid_tidied (texts : List (List Char)) :
    solid (tidied texts) = (texts.map solid).sum := by
  induction texts with
  | nil =>
      rfl
  | cons line rest inductionHypothesis =>
      rw [tidied, List.flatMap_cons, ← tidied, solid_append, solid_append,
        solid_tidy, inductionHypothesis, solid_of_blank blank_break,
        List.map_cons, List.sum_cons, Nat.add_zero]

/-- An action line is not blank. -/
theorem solid_of_removed
    {line : List Char}
    (isRemoved : removed line = true) :
    0 < solid line := by
  obtain ⟨blank, rest, shape, _, starts⟩ :=
    (actionLine_of_removed isRemoved).shape
  obtain ⟨word, after, rfl, isWord⟩ := startsAction_iff.mp starts
  rw [solid, List.countP_pos_iff]
  cases word with
  | nil =>
      cases isWord
  | cons first others =>
      refine ⟨first, ?_, ?_⟩
      · rw [shape]
        simp
      · have kept := not_skipped_of_word isWord first List.mem_cons_self
        rw [skipped, Bool.or_eq_false_iff] at kept
        rw [kept.1]
        rfl

/-- The lines of a reply that `strip_actions` keeps. -/
def keptLines (full : List (List Char)) (last : List Char) : List (List Char) :=
  (full.filter fun line => !removed line) ++
    if removed last then [] else [last]

theorem normal_printed
    {pieces full : List (List Char)}
    {last : List Char}
    (cut : Cut pieces.flatten full last) :
    normal (printed pieces) = trim (tidied (shownLines full last)) := by
  rw [printed, printedCalls_of_cut cut, ← List.flatMap_def, normal,
    tidy_flatMap]

theorem trim_stripReturn (line : List Char) :
    trim (stripReturn line) = trim line := by
  rw [stripReturn]
  split
  · rename_i isReturn
    obtain ⟨front, shape⟩ := List.getLast?_eq_some_iff.mp isReturn
    rw [shape, List.dropLast_concat, trim_append_of_all]
    exact List.forall_mem_singleton.mpr rfl
  · rfl

theorem removed_stripReturn (line : List Char) :
    removed (stripReturn line) = removed line := by
  rw [removed, undecorated, trim_stripReturn, ← undecorated, ← removed]

theorem normal_stripActions
    {reply last : List Char}
    {full : List (List Char)}
    (cut : Cut reply full last) :
    normal (stripActions reply) = trim (tidied (keptLines full last)) := by
  have filtered :
      (full.map stripReturn).filter (fun line => !removed line) =
        (full.filter fun line => !removed line).map stripReturn := by
    have same :
        (fun line => !removed line) ∘ stripReturn =
          fun line => !removed line := by
      funext line
      rw [Function.comp_apply, removed_stripReturn]
    rw [List.filter_map, same]
  have untouched (texts : List (List Char)) :
      tidied (texts.map stripReturn ++ [last]) = tidied (texts ++ [last]) := by
    rw [tidied, List.flatMap_append, ← tidied, tidied_map_stripReturn, tidied,
      tidied, List.flatMap_append]
  rw [stripActions_eq, normal_trim, normal_intercalate, cut.lines_eq,
    List.filter_append, filtered, keptLines]
  by_cases empty : last = []
  · have shown : removed last = false := by
      rw [empty]
      decide
    rw [if_pos empty, List.filter_nil, List.append_nil, tidied_map_stripReturn,
      shown, if_neg Bool.false_ne_true, empty, trim_tidied_empty]
  · rw [if_neg empty]
    cases isRemoved : removed last with
    | true =>
        rw [List.filter_cons_of_neg (by simp [isRemoved]), List.filter_nil,
          List.append_nil, if_pos rfl, List.append_nil, tidied_map_stripReturn]
    | false =>
        rw [List.filter_cons_of_pos (by simp [isRemoved]), List.filter_nil,
          if_neg Bool.false_ne_true, untouched]

/-- A line `ask` hides is one that `strip_actions` takes out. -/
theorem shown_of_kept
    {line : List Char}
    (kept : removed line = false) :
    hiddenLine (line ++ ['\n']) = false ∧ hiddenRest line = false := by
  rw [removed_eq] at kept
  constructor
  · by_contra hidden
    rw [Bool.not_eq_false, hiddenLine_break] at hidden
    rw [core, trimStart, dropWhile_of_starts within_blank hidden,
      hidden] at kept
    cases kept
  · by_contra hidden
    rw [Bool.not_eq_false, hiddenRest] at hidden
    rw [core, dropWhile_of_starts within_mark hidden, trimStart,
      dropWhile_of_starts within_blank hidden, hidden] at kept
    cases kept

/-- Lines shown but not kept add something to the text. -/
theorem sum_kept_le
    (full : List (List Char)) :
    ((full.filter fun line => !removed line).map solid).sum ≤
        ((full.filter fun line =>
          !hiddenLine (line ++ ['\n'])).map solid).sum ∧
      (((full.filter fun line => !removed line).map solid).sum =
          ((full.filter fun line =>
            !hiddenLine (line ++ ['\n'])).map solid).sum →
        ∀ line ∈ full, ¬ Spaced line) := by
  induction full with
  | nil =>
      exact ⟨le_rfl, fun _ => List.forall_mem_nil _⟩
  | cons line rest inductionHypothesis =>
      obtain ⟨less, equal⟩ := inductionHypothesis
      rw [List.forall_mem_cons, spaced_iff]
      cases isRemoved : removed line with
      | false =>
          have isShown := (shown_of_kept isRemoved).1
          simp only [List.filter_cons, isRemoved, isShown, Bool.not_false,
            if_true, List.map_cons, List.sum_cons]
          refine ⟨by omega, fun same => ⟨by simp, equal (by omega)⟩⟩
      | true =>
          have weight := solid_of_removed isRemoved
          cases isHidden : hiddenLine (line ++ ['\n']) with
          | true =>
              simp only [List.filter_cons, isRemoved, isHidden, Bool.not_true,
                Bool.false_eq_true, if_false]
              exact ⟨less, fun same => ⟨by simp, equal same⟩⟩
          | false =>
              simp only [List.filter_cons, isRemoved, isHidden, Bool.not_true,
                Bool.not_false, Bool.false_eq_true, if_false, if_true,
                List.map_cons, List.sum_cons]
              refine ⟨by omega, fun same => ?_⟩
              omega

/-- No line that is taken out of the reply is shown. -/
def NoneRaw (full : List (List Char)) (last : List Char) : Prop :=
  (∀ line ∈ full, ¬ Spaced line) ∧ ¬ Marked last

theorem removed_of_shown
    {full : List (List Char)}
    {line last : List Char}
    (noneRaw : NoneRaw full last)
    (shown : line ∈ shownLines full last) :
    removed line = false := by
  by_contra isRemoved
  rw [Bool.not_eq_false] at isRemoved
  rcases List.mem_append.mp shown with inFull | isLast
  · obtain ⟨member, visible⟩ := List.mem_filter.mp inFull
    exact noneRaw.1 line member
      (spaced_iff.mpr ⟨isRemoved, (Bool.not_eq_true' _).mp visible⟩)
  · cases hidden : hiddenRest last with
    | true =>
        simp [hidden] at isLast
    | false =>
        rw [hidden, if_neg Bool.false_ne_true, List.mem_singleton] at isLast
        subst isLast
        exact noneRaw.2 (marked_iff.mpr ⟨isRemoved, hidden⟩)

/-- Both texts keep the same lines when none is shown raw. -/
theorem shownLines_eq
    {full : List (List Char)}
    {last : List Char}
    (noneRaw : NoneRaw full last) :
    shownLines full last = keptLines full last := by
  have lines :
      (full.filter fun line => !hiddenLine (line ++ ['\n'])) =
        full.filter fun line => !removed line := by
    refine List.filter_congr fun line member => ?_
    cases isRemoved : removed line with
    | false =>
        rw [(shown_of_kept isRemoved).1]
    | true =>
        cases hidden : hiddenLine (line ++ ['\n']) with
        | true => rfl
        | false =>
            exact absurd (spaced_iff.mpr ⟨isRemoved, hidden⟩)
              (noneRaw.1 line member)
  have rest : hiddenRest last = removed last := by
    cases isRemoved : removed last with
    | false =>
        exact (shown_of_kept isRemoved).2
    | true =>
        by_contra hidden
        exact noneRaw.2
          (marked_iff.mpr ⟨isRemoved, Bool.eq_false_iff.mpr hidden⟩)
  rw [shownLines, keptLines, lines, rest]

/-- A line shown raw adds solid text, so the two texts differ. -/
theorem same_text_iff
    (full : List (List Char))
    (last : List Char) :
    trim (tidied (shownLines full last)) = trim (tidied (keptLines full last)) ↔
      NoneRaw full last := by
  constructor
  · intro same
    have sums := congrArg solid same
    obtain ⟨less, equal⟩ := sum_kept_le full
    rw [solid_trim, solid_trim, solid_tidied, solid_tidied, shownLines,
      keptLines, List.map_append, List.map_append, List.sum_append,
      List.sum_append] at sums
    cases isRemoved : removed last with
    | false =>
        rw [isRemoved, (shown_of_kept isRemoved).2] at sums
        refine ⟨equal (by omega), fun marked => ?_⟩
        rw [(marked_iff.mp marked).1] at isRemoved
        cases isRemoved
    | true =>
        have weight := solid_of_removed isRemoved
        cases hidden : hiddenRest last with
        | true =>
            rw [isRemoved, hidden] at sums
            refine ⟨equal (by omega), fun marked => ?_⟩
            rw [(marked_iff.mp marked).2] at hidden
            cases hidden
        | false =>
            simp only [isRemoved, hidden, if_true, Bool.false_eq_true, if_false,
              List.map_nil, List.map_cons, List.sum_nil, List.sum_cons] at sums
            omega
  · intro noneRaw
    rw [shownLines_eq noneRaw]

/-- A suggestion is read from a line that is taken out. -/
theorem removed_of_proposal
    {ipv6 : Ipv6Text}
    {line : List Char}
    {action : Action}
    (read : proposal ipv6 line = some action) :
    removed line = true := by
  have starts
      {word rest : List Char}
      (isWord : word.map Char.toUpper = "ACTION:".toList)
      (found : (undecorated line).dropPrefix? word = some rest) :
      removed line = true := by
    obtain ⟨own, shape, isOwn⟩ := List.dropPrefix?_eq_some_iff.mp found
    rw [eq_of_beq isOwn] at shape
    exact startsAction_iff.mpr ⟨word, rest, shape, isWord⟩
  obtain ⟨rest, found, _⟩ := Option.bind_eq_some_iff.mp read
  rcases Option.or_eq_some_iff.mp found with upper | ⟨_, lower⟩
  · exact starts (by decide) upper
  · exact starts (by decide) lower

theorem removed_break (line : List Char) :
    removed (line ++ ['\n']) = removed line := by
  rw [removed, undecorated, trim_append_of_all blank_break, ← undecorated,
    ← removed]

/-- The complete lines of a reply. -/
def completeLines (reply : List Char) : List (List Char) :=
  (reply.splitOn '\n').dropLast

/-- What follows the last line break of a reply. -/
def lastLine (reply : List Char) : List Char :=
  (reply.splitOn '\n').getLast?.getD []

/--
What streaming is for: the text printed is the reply without its action
lines, up to blank space, and no action line is printed raw.
-/
def HidesActions (pieces : List (List Char)) : Prop :=
  normal (printed pieces) = normal (stripActions pieces.flatten) ∧
    ∀ call ∈ printedCalls pieces,
      removed call = false ∧ ∀ ipv6, proposal ipv6 call = none

/--
However a reply is cut into pieces, its streamed text hides exactly the
action lines if and only if no complete line has white space between its
marks and `ACTION:`, and what follows the last line break has no marks
before it.
-/
theorem hidesActions_iff (pieces : List (List Char)) :
    HidesActions pieces ↔
      (∀ line ∈ completeLines pieces.flatten, ¬ Spaced line) ∧
        ¬ Marked (lastLine pieces.flatten) := by
  obtain ⟨full, last, cut⟩ := exists_cut pieces.flatten
  have isFull : completeLines pieces.flatten = full := by
    rw [completeLines, cut.splitOn_eq, List.dropLast_concat]
  have isLast : lastLine pieces.flatten = last := by
    rw [lastLine, cut.splitOn_eq, List.getLast?_concat]
    rfl
  rw [isFull, isLast, HidesActions, normal_printed cut,
    normal_stripActions cut, same_text_iff]
  refine ⟨And.left, fun noneRaw => ⟨noneRaw, fun call isCall => ?_⟩⟩
  rw [printedCalls_of_cut cut] at isCall
  obtain ⟨line, shown, rfl⟩ := List.mem_map.mp isCall
  have kept : removed (line ++ ['\n']) = false := by
    rw [removed_break, removed_of_shown noneRaw shown]
  refine ⟨kept, fun ipv6 => ?_⟩
  cases read : proposal ipv6 (line ++ ['\n']) with
  | none => rfl
  | some action =>
      rw [removed_of_proposal read] at kept
      cases kept

/-- A list item is printed raw, though it is taken out of the reply. -/
theorem list_item_printed_raw :
    ¬ HidesActions ["- ACTION: open tcp 22\n".toList] := by
  intro hides
  have raw :
      "- ACTION: open tcp 22\n".toList ∈
        printedCalls ["- ACTION: open tcp 22\n".toList] := by
    decide +kernel
  have isRemoved : removed "- ACTION: open tcp 22\n".toList = true := by
    decide +kernel
  rw [(hides.2 _ raw).1] at isRemoved
  cases isRemoved

end AskStream

end AiFirewall
