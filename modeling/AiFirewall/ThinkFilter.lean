import AiFirewall.TrimmedText

namespace AiFirewall

/-!
# Hidden reasoning

A thinking model may begin its answer with a block between `<think>` and
`</think>`.  `ThinkFilter` takes it out of a stream: text is held back until
it is clear whether there is a block, then until the block is closed, and is
passed on from there.  The first piece after which text is shown decides
what is trimmed.
-/

open RustText

/-- `ThinkState`. -/
inductive ThinkState where
  | start
  | thinking
  | answer
  deriving Repr, DecidableEq

/-- `ThinkFilter`. -/
structure ThinkFilter where
  held : List Char
  state : ThinkState
  deriving Repr, DecidableEq

namespace ThinkFilter

def openTag : List Char := "<think>".toList

def closeTag : List Char := "</think>".toList

/-- `ThinkFilter::default`. -/
def default : ThinkFilter where
  held := []
  state := .start

/-- The end of `push`: past the start, a block is waited for to close. -/
def close (held : List Char) : List Char × ThinkFilter :=
  match splitOnceAt closeTag held with
  | some (_, after) => (trimStart after, ⟨[], .answer⟩)
  | none => ([], ⟨held, .thinking⟩)

/-- `push`: the part of `piece` to show now. -/
def push (filter : ThinkFilter) (piece : List Char) : List Char × ThinkFilter :=
  if filter.state = .answer then
    (piece, filter)
  else
    let held := filter.held ++ piece
    if filter.state = .start then
      let text := trimStart held
      if text = [] ∨ (text.length < 7 ∧ text <+: openTag) then
        ([], ⟨held, .start⟩)
      else if ¬ openTag <+: text then
        (trimStart held, ⟨[], .answer⟩)
      else
        close held
    else
      close held

/-- `finish`: what is still held back is better shown than lost. -/
def finish (filter : ThinkFilter) : List Char :=
  if filter.state = .answer then [] else trim filter.held

/-- What is shown of the pieces that follow, to the end. -/
def shown (filter : ThinkFilter) : List (List Char) → List Char
  | [] => filter.finish
  | piece :: rest =>
      (filter.push piece).1 ++ (filter.push piece).2.shown rest

/-- What is shown of a whole answer. -/
def streamed (pieces : List (List Char)) : List Char :=
  default.shown pieces

example : streamed ["<thi".toList, "nk>hmm".toList, "</think>\n\nAll ".toList,
    "good.".toList] = "All good.".toList := by
  decide +kernel

/-- Nothing of this text is shown yet. -/
def Waiting (text : List Char) : Prop :=
  ((trimStart text).length < 7 ∧ trimStart text <+: openTag) ∨
    (openTag <+: trimStart text ∧ ¬ closeTag <:+: text)

/-- What is shown of a text that is not waiting. -/
def visible (text : List Char) : List Char :=
  if openTag <+: trimStart text then
    ((splitOnceAt closeTag text).map fun parts => trimStart parts.2).getD []
  else
    trimStart text

/-- The filter that holds a text back. -/
def holding (text : List Char) : ThinkFilter where
  held := text
  state := if openTag <+: trimStart text then .thinking else .start

theorem close_waiting
    {text : List Char}
    (isOpen : openTag <+: trimStart text)
    (unclosed : ¬ closeTag <:+: text) :
    close text = ([], holding text) := by
  rw [close, splitOnceAt_eq_none.mpr unclosed, holding, if_pos isOpen]

theorem close_visible
    {text : List Char}
    (isOpen : openTag <+: trimStart text)
    (closed : closeTag <:+: text) :
    close text = (visible text, ⟨[], .answer⟩) := by
  obtain ⟨before, after, found⟩ := exists_splitOnceAt closed
  rw [close, visible, if_pos isOpen, found]
  rfl

/-- What `push` does with everything held, at the start. -/
def settle (text : List Char) : List Char × ThinkFilter :=
  if trimStart text = [] ∨
      ((trimStart text).length < 7 ∧ trimStart text <+: openTag) then
    ([], ⟨text, .start⟩)
  else if ¬ openTag <+: trimStart text then
    (trimStart text, ⟨[], .answer⟩)
  else
    close text

theorem not_short_of_open
    {text : List Char}
    (isOpen : openTag <+: trimStart text) :
    ¬ (trimStart text).length < 7 := by
  have long := isOpen.length_le
  have seven : openTag.length = 7 := rfl
  omega

theorem settle_of_open
    {text : List Char}
    (isOpen : openTag <+: trimStart text) :
    settle text = close text := by
  have long := not_short_of_open isOpen
  have notEmpty : trimStart text ≠ [] := by
    intro empty
    rw [empty] at long
    exact long (by decide)
  rw [settle, if_neg, if_neg (not_not.mpr isOpen)]
  rintro (empty | short)
  · exact notEmpty empty
  · exact long short.1

/-- A block stays open in a longer text. -/
theorem open_append
    {text : List Char}
    (isOpen : openTag <+: trimStart text)
    (more : List Char) :
    openTag <+: trimStart (text ++ more) := by
  have notEmpty : trimStart text ≠ [] := by
    intro empty
    rw [empty] at isOpen
    revert isOpen
    decide
  rw [trimStart_append notEmpty]
  exact isOpen.trans (List.prefix_append _ _)

/-- The filter acts on all it holds as if it came in one piece. -/
theorem push_holding (text piece : List Char) :
    (holding text).push piece = settle (text ++ piece) := by
  by_cases isOpen : openTag <+: trimStart text
  · rw [settle_of_open (open_append isOpen piece), holding, if_pos isOpen, push]
    rfl
  · rw [holding, if_neg isOpen, push]
    rfl

theorem settle_waiting
    {text : List Char}
    (waiting : Waiting text) :
    settle text = ([], holding text) := by
  rcases waiting with short | ⟨isOpen, unclosed⟩
  · have notOpen : ¬ openTag <+: trimStart text := fun isOpen =>
      not_short_of_open isOpen short.1
    rw [settle, if_pos (.inr short), holding, if_neg notOpen]
  · rw [settle_of_open isOpen, close_waiting isOpen unclosed]

theorem settle_visible
    {text : List Char}
    (ready : ¬ Waiting text) :
    settle text = (visible text, ⟨[], .answer⟩) := by
  rw [Waiting, not_or] at ready
  by_cases isOpen : openTag <+: trimStart text
  · have closed : closeTag <:+: text := by
      by_contra unclosed
      exact ready.2 ⟨isOpen, unclosed⟩
    rw [settle_of_open isOpen, close_visible isOpen closed]
  · rw [settle, if_neg, if_pos isOpen, visible, if_neg isOpen]
    rintro (empty | short)
    · refine ready.1 ?_
      rw [empty]
      decide
    · exact ready.1 short

/-- Once an answer is shown, everything is. -/
theorem shown_answer
    (held : List Char)
    (pieces : List (List Char)) :
    shown ⟨held, .answer⟩ pieces = pieces.flatten := by
  induction pieces with
  | nil =>
      rfl
  | cons piece rest inductionHypothesis =>
      have pushed :
          push ⟨held, .answer⟩ piece = (piece, ⟨held, .answer⟩) :=
        if_pos rfl
      rw [shown, pushed, inductionHypothesis, List.flatten_cons]

/-- What is still held at the end is trimmed at both ends. -/
theorem finish_holding (text : List Char) :
    (holding text).finish = trim text := by
  rw [holding, finish, if_neg]
  split_ifs <;> simp

/-- A text that shows something goes on showing it. -/
theorem Waiting.of_append
    {text more : List Char}
    (waiting : Waiting (text ++ more)) :
    Waiting text := by
  by_cases blank : trimStart text = []
  · refine .inl ?_
    rw [blank]
    decide
  rw [Waiting, trimStart_append blank] at waiting
  rcases waiting with ⟨short, isStart⟩ | ⟨isOpen, unclosed⟩
  · rw [List.length_append] at short
    exact .inl ⟨by omega, (List.prefix_append _ _).trans isStart⟩
  · rcases List.prefix_or_prefix_of_prefix isOpen
      (List.prefix_append (trimStart text) more) with inside | isStart
    · refine .inr ⟨inside, fun closed => unclosed ?_⟩
      exact closed.trans (List.prefix_append text more).isInfix
    · by_cases short : (trimStart text).length < 7
      · exact .inl ⟨short, isStart⟩
      · have whole : trimStart text = openTag := by
          refine isStart.eq_of_length_le ?_
          have seven : openTag.length = 7 := rfl
          omega
        refine .inr ⟨by rw [whole], fun closed => unclosed ?_⟩
        exact closed.trans (List.prefix_append text more).isInfix

/-- As long as the whole text waits, nothing is shown before its end. -/
theorem shown_waiting
    {text : List Char}
    {pieces : List (List Char)}
    (waiting : Waiting (text ++ pieces.flatten)) :
    (holding text).shown pieces = trim (text ++ pieces.flatten) := by
  induction pieces generalizing text with
  | nil =>
      rw [shown, finish_holding, List.flatten_nil, List.append_nil]
  | cons piece rest inductionHypothesis =>
      rw [List.flatten_cons, ← List.append_assoc] at waiting ⊢
      rw [shown, push_holding, settle_waiting waiting.of_append]
      exact inductionHypothesis waiting

/-- The piece that ends the waiting shows what is visible, then all is shown. -/
theorem shown_turn
    {text piece : List Char}
    {first rest : List (List Char)}
    (waiting : Waiting (text ++ first.flatten))
    (ready : ¬ Waiting (text ++ first.flatten ++ piece)) :
    (holding text).shown (first ++ piece :: rest) =
      visible (text ++ first.flatten ++ piece) ++ rest.flatten := by
  induction first generalizing text with
  | nil =>
      rw [List.flatten_nil, List.append_nil] at ready ⊢
      rw [List.nil_append, shown, push_holding, settle_visible ready]
      exact congrArg _ (shown_answer [] rest)
  | cons next others inductionHypothesis =>
      rw [List.flatten_cons, ← List.append_assoc] at waiting ready ⊢
      rw [List.cons_append, shown, push_holding, settle_waiting waiting.of_append]
      exact inductionHypothesis waiting ready

theorem waiting_nil : Waiting [] :=
  .inl ⟨by decide, by decide⟩

theorem holding_nil : holding [] = default := by
  decide

/-- The first piece after which the text waits no more. -/
theorem exists_turn
    {text : List Char}
    {pieces : List (List Char)}
    (waiting : Waiting text)
    (ready : ¬ Waiting (text ++ pieces.flatten)) :
    ∃ first piece rest,
      pieces = first ++ piece :: rest ∧
      Waiting (text ++ first.flatten) ∧
      ¬ Waiting (text ++ first.flatten ++ piece) := by
  induction pieces generalizing text with
  | nil =>
      rw [List.flatten_nil, List.append_nil] at ready
      exact absurd waiting ready
  | cons piece others inductionHypothesis =>
      by_cases goesOn : Waiting (text ++ piece)
      · rw [List.flatten_cons, ← List.append_assoc] at ready
        obtain ⟨first, turn, rest, shape, before, after⟩ :=
          inductionHypothesis goesOn ready
        refine ⟨piece :: first, turn, rest, ?_, ?_, ?_⟩
        · rw [shape, List.cons_append]
        · rwa [List.flatten_cons, ← List.append_assoc]
        · rwa [List.flatten_cons, ← List.append_assoc]
      · refine ⟨[], piece, others, rfl, ?_, ?_⟩
        · rwa [List.flatten_nil, List.append_nil]
        · rwa [List.flatten_nil, List.append_nil]

/-- A text that begins with white space. -/
def BeginsBlank (text : List Char) : Prop :=
  ∃ char more, text = char :: more ∧ isWhitespace char = true

theorem beginsBlank_iff
    {text : List Char} :
    BeginsBlank text ↔ trimStart text ≠ text := by
  cases text with
  | nil =>
      simp [BeginsBlank, trimStart]
  | cons char more =>
      cases blank : isWhitespace char with
      | true =>
          refine iff_of_true ⟨char, more, rfl, blank⟩ fun same => ?_
          have shorter := List.length_dropWhile_le isWhitespace more
          rw [trimStart, List.dropWhile_cons_of_pos blank] at same
          rw [same, List.length_cons] at shorter
          omega
      | false =>
          refine iff_of_false ?_ ?_
          · rintro ⟨first, rest, shape, isBlank⟩
            rw [← (List.cons.inj shape).1, blank] at isBlank
            cases isBlank
          · rw [not_not, trimStart, List.dropWhile_cons_of_neg]
            rw [blank]
            exact Bool.false_ne_true

/--
A cut in the white space around the hidden block: a block is closed in
`text` with only white space after it, and `rest` begins with more.
-/
def BlankCut (text rest : List Char) : Prop :=
  openTag <+: trimStart text ∧
    (∃ before blank, splitOnceAt closeTag text = some (before, blank) ∧
      ∀ char ∈ blank, isWhitespace char = true) ∧
    BeginsBlank rest

/-- Where the waiting ends, only a cut in white space shows. -/
theorem visible_append
    {text : List Char}
    (ready : ¬ Waiting text)
    (rest : List Char) :
    visible text ++ rest = visible (text ++ rest) ↔ ¬ BlankCut text rest := by
  rw [Waiting, not_or] at ready
  by_cases isOpen : openTag <+: trimStart text
  · have closed : closeTag <:+: text := by
      by_contra unclosed
      exact ready.2 ⟨isOpen, unclosed⟩
    obtain ⟨before, after, found⟩ := exists_splitOnceAt closed
    rw [visible, if_pos isOpen, visible, if_pos (open_append isOpen rest),
      found, splitOnceAt_append found]
    simp only [Option.map_some, Option.getD_some]
    by_cases blank : trimStart after = []
    · have cut : BlankCut text rest ↔ BeginsBlank rest := by
        refine ⟨fun isCut => isCut.2.2, fun begins => ⟨isOpen, ?_, begins⟩⟩
        exact ⟨before, after, found, List.dropWhile_eq_nil_iff.mp blank⟩
      rw [cut, beginsBlank_iff, not_not, blank, List.nil_append,
        trimStart_append_of_blank blank]
      exact eq_comm
    · refine iff_of_true (trimStart_append blank rest).symm ?_
      rintro ⟨_, ⟨other, own, isSplit, allBlank⟩, _⟩
      rw [found] at isSplit
      obtain ⟨_, rfl⟩ := Prod.mk.inj (Option.some.inj isSplit)
      exact blank (List.dropWhile_eq_nil_iff.mpr allBlank)
  · have notEmpty : trimStart text ≠ [] := by
      intro empty
      refine ready.1 ?_
      rw [empty]
      exact ⟨by decide, by decide⟩
    have stays : ¬ openTag <+: trimStart (text ++ rest) := by
      intro opens
      rw [trimStart_append notEmpty] at opens
      rcases List.prefix_or_prefix_of_prefix opens
        (List.prefix_append (trimStart text) rest) with inside | isStart
      · exact isOpen inside
      · refine ready.1 ⟨?_, isStart⟩
        by_contra long
        have seven : openTag.length = 7 := rfl
        refine isOpen ?_
        rw [isStart.eq_of_length_le (by omega)]
    rw [visible, if_neg isOpen, visible, if_neg stays, trimStart_append notEmpty]
    exact iff_of_true rfl fun isCut => isOpen isCut.1

/-- Before the block is closed, the text waits. -/
theorem waiting_of_unclosed
    {text piece : List Char}
    (isOpen : openTag <+: trimStart (text ++ piece))
    (unclosed : ¬ closeTag <:+: text) :
    Waiting text := by
  by_cases blank : trimStart text = []
  · refine .inl ?_
    rw [blank]
    decide
  rw [trimStart_append blank] at isOpen
  rcases List.prefix_or_prefix_of_prefix isOpen
    (List.prefix_append (trimStart text) piece) with inside | isStart
  · exact .inr ⟨inside, unclosed⟩
  · by_cases short : (trimStart text).length < 7
    · exact .inl ⟨short, isStart⟩
    · refine .inr ⟨?_, unclosed⟩
      have seven : openTag.length = 7 := rfl
      rw [isStart.eq_of_length_le (by omega)]

/-- A text that waits holds no closed block. -/
theorem Waiting.unclosed
    {text : List Char}
    (waiting : Waiting text) :
    ¬ closeTag <:+: text := by
  rcases waiting with ⟨_, isStart⟩ | ⟨_, unclosed⟩
  · intro closed
    have slash : '/' ∈ text :=
      closed.subset (by decide)
    rw [← List.takeWhile_append_dropWhile (p := isWhitespace) (l := text),
      List.mem_append] at slash
    rcases slash with inBlank | inStart
    · have isBlank := List.mem_takeWhile_imp inBlank
      revert isBlank
      decide
    · have inTag := isStart.subset inStart
      revert inTag
      decide
  · exact unclosed

/-- The answer is cut just after a block, in the white space that follows it. -/
def CutInBlank (pieces : List (List Char)) : Prop :=
  ∃ first piece rest,
    pieces = first ++ piece :: rest ∧
    ¬ closeTag <:+: first.flatten ∧
    BlankCut (first.flatten ++ piece) rest.flatten

theorem streamed_waiting
    {pieces : List (List Char)}
    (waiting : Waiting pieces.flatten) :
    streamed pieces = trim pieces.flatten := by
  rw [streamed, ← holding_nil]
  exact shown_waiting waiting

theorem streamed_turn
    {first rest : List (List Char)}
    {piece : List Char}
    (waiting : Waiting first.flatten)
    (ready : ¬ Waiting (first.flatten ++ piece)) :
    streamed (first ++ piece :: rest) =
      visible (first.flatten ++ piece) ++ rest.flatten := by
  rw [streamed, ← holding_nil]
  exact shown_turn waiting ready

/-- One piece that waits no more shows what is visible of it. -/
theorem streamed_one
    {text : List Char}
    (ready : ¬ Waiting text) :
    streamed [text] = visible text := by
  have turned : streamed ([] ++ text :: []) = visible ([] ++ text) ++ [] :=
    streamed_turn waiting_nil ready
  rwa [List.append_nil] at turned

/-- At the turn, the pieces show what the whole text does unless cut there. -/
theorem streamed_eq_at_turn
    {first rest : List (List Char)}
    {piece : List Char}
    (waiting : Waiting first.flatten)
    (ready : ¬ Waiting (first.flatten ++ piece)) :
    streamed (first ++ piece :: rest) =
        streamed [(first ++ piece :: rest).flatten] ↔
      ¬ BlankCut (first.flatten ++ piece) rest.flatten := by
  have whole :
      (first ++ piece :: rest).flatten =
        first.flatten ++ piece ++ rest.flatten := by
    simp
  have allReady : ¬ Waiting (first.flatten ++ piece ++ rest.flatten) :=
    fun waits => ready waits.of_append
  rw [streamed_turn waiting ready, whole, streamed_one allReady]
  exact visible_append ready rest.flatten

/--
The pieces of an answer show what the whole answer shows in one piece,
exactly when they are not cut in the white space after a hidden block.
-/
theorem streamed_eq_iff (pieces : List (List Char)) :
    streamed pieces = streamed [pieces.flatten] ↔ ¬ CutInBlank pieces := by
  constructor
  · rintro same ⟨first, piece, rest, rfl, unclosed, cut⟩
    have waiting : Waiting first.flatten :=
      waiting_of_unclosed cut.1 unclosed
    have ready : ¬ Waiting (first.flatten ++ piece) := by
      intro waits
      obtain ⟨before, blank, found, _⟩ := cut.2.1
      exact waits.unclosed ⟨before, blank, (splitOnceAt_eq_some.mp found).1.symm⟩
    exact (streamed_eq_at_turn waiting ready).mp same cut
  · intro uncut
    by_cases waiting : Waiting pieces.flatten
    · have alone : Waiting [pieces.flatten].flatten := by
        rwa [List.flatten_singleton]
      rw [streamed_waiting waiting, streamed_waiting alone,
        List.flatten_singleton]
    · obtain ⟨first, piece, rest, rfl, before, ready⟩ :=
        exists_turn waiting_nil waiting
      refine (streamed_eq_at_turn before ready).mpr fun cut => ?_
      exact uncut ⟨first, piece, rest, rfl, before.unclosed, cut⟩

/-- The blank lines after the block are shown when they come on their own. -/
theorem cut_after_block_shows_blank :
    ¬ (streamed ["<think>x</think>".toList, "\n\nAll".toList] =
      streamed [["<think>x</think>".toList, "\n\nAll".toList].flatten]) := by
  decide +kernel

end ThinkFilter

end AiFirewall
