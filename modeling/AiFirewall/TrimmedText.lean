import AiFirewall.AddressText

namespace AiFirewall

/-!
# Trimmed text

Trimming takes white space off both ends of a text.  Around a character that
is no white space the two ends are trimmed on their own, and a piece that was
trimmed already is trimmed no further; the readers of numbers rely on both.
Splitting takes a text apart at the first occurrence of another.
-/

namespace RustText

theorem trim_eq (text : List Char) :
    trim text =
      (text.dropWhile isWhitespace).rdropWhile isWhitespace :=
  rfl

/-- What is dropped at the end of a longer text. -/
theorem rdropWhile_cons
    (dropped : Char → Bool)
    (first : Char)
    (rest : List Char) :
    (first :: rest).rdropWhile dropped =
      if rest.rdropWhile dropped = [] ∧ dropped first = true then
        []
      else
        first :: rest.rdropWhile dropped := by
  simp only [List.rdropWhile, List.reverse_cons, List.dropWhile_append,
    List.isEmpty_iff, List.reverse_eq_nil_iff]
  cases gone : rest.reverse.dropWhile dropped with
  | nil =>
      cases isDropped : dropped first <;> simp [isDropped]
  | cons last front =>
      simp

/-- It does not matter which end is trimmed first. -/
theorem dropWhile_rdropWhile
    (atFront atBack : Char → Bool)
    (text : List Char) :
    (text.rdropWhile atBack).dropWhile atFront =
      (text.dropWhile atFront).rdropWhile atBack := by
  induction text with
  | nil =>
      rfl
  | cons first rest inductionHypothesis =>
      rw [rdropWhile_cons]
      cases isDropped : atFront first with
      | false =>
          rw [List.dropWhile_cons_of_neg (by simp [isDropped]), rdropWhile_cons]
          split
          · rfl
          · exact List.dropWhile_cons_of_neg (by simp [isDropped])
      | true =>
          rw [List.dropWhile_cons_of_pos isDropped, ← inductionHypothesis]
          split
          · rename_i gone
            rw [gone.1]
          · exact List.dropWhile_cons_of_pos isDropped

@[simp] theorem trim_dropWhile (text : List Char) :
    trim (text.dropWhile isWhitespace) = trim text := by
  rw [trim_eq, List.dropWhile_idempotent, ← trim_eq]

@[simp] theorem trim_rdropWhile (text : List Char) :
    trim (text.rdropWhile isWhitespace) = trim text := by
  rw [trim_eq, dropWhile_rdropWhile, List.rdropWhile_idempotent, trim_eq]

@[simp] theorem trim_trim (text : List Char) :
    trim (trim text) = trim text := by
  conv_lhs => rw [trim_eq text, trim_rdropWhile, trim_dropWhile]

/-- The two sides of a solid character are trimmed at their outer ends. -/
theorem trim_around
    {char : Char}
    (solid : isWhitespace char = false)
    (before after : List Char) :
    trim (before ++ char :: after) =
      before.dropWhile isWhitespace ++
        char :: after.rdropWhile isWhitespace := by
  have start :
      (before ++ char :: after).dropWhile isWhitespace =
        before.dropWhile isWhitespace ++ char :: after := by
    rw [List.dropWhile_append]
    cases before.dropWhile isWhitespace with
    | nil => simp [solid]
    | cons first rest => simp
  rw [trim_eq, start]
  generalize before.dropWhile isWhitespace = front
  induction front with
  | nil =>
      simp [rdropWhile_cons, solid]
  | cons first rest inductionHypothesis =>
      rw [List.cons_append, rdropWhile_cons, inductionHypothesis]
      simp

/-- A text is its trimmed part between white space. -/
theorem exists_trim (text : List Char) :
    ∃ before after,
      text = before ++ trim text ++ after ∧
        (∀ char ∈ before, isWhitespace char = true) ∧
        ∀ char ∈ after, isWhitespace char = true := by
  refine ⟨text.takeWhile isWhitespace,
    (text.dropWhile isWhitespace).rtakeWhile isWhitespace, ?_, ?_, ?_⟩
  · rw [trim_eq, List.append_assoc, List.rdropWhile_append_rtakeWhile,
      List.takeWhile_append_dropWhile]
  · intro char member
    exact List.mem_takeWhile_imp member
  · intro char member
    exact List.mem_rtakeWhile_imp member

/-- White space after a text is trimmed. -/
theorem trim_append_of_all
    {after : List Char}
    (all : ∀ char ∈ after, isWhitespace char = true)
    (text : List Char) :
    trim (text ++ after) = trim text := by
  have whole : (text ++ after).rdropWhile isWhitespace =
      text.rdropWhile isWhitespace := by
    rw [List.rdropWhile, List.reverse_append, List.dropWhile_append_of_pos,
      List.rdropWhile]
    exact fun char member => all char (List.mem_reverse.mp member)
  rw [← trim_rdropWhile, whole, trim_rdropWhile]

/-- `str::trim_start`. -/
def trimStart (text : List Char) : List Char :=
  text.dropWhile isWhitespace

theorem trimStart_append
    {front : List Char}
    (solid : trimStart front ≠ [])
    (back : List Char) :
    trimStart (front ++ back) = trimStart front ++ back := by
  rw [trimStart, List.dropWhile_append, if_neg]
  · rfl
  · rw [List.isEmpty_iff]
    exact solid

theorem trimStart_append_of_blank
    {front : List Char}
    (blank : trimStart front = [])
    (back : List Char) :
    trimStart (front ++ back) = trimStart back := by
  rw [trimStart, List.dropWhile_append_of_pos]
  · rfl
  · exact List.dropWhile_eq_nil_iff.mp blank

/-- A text is split at the first separator. -/
theorem splitOnce_eq_some
    {separator : Char}
    {text before after : List Char} :
    splitOnce separator text = some (before, after) ↔
      text = before ++ separator :: after ∧ separator ∉ before := by
  induction text generalizing before with
  | nil =>
      simp [splitOnce]
  | cons char rest inductionHypothesis =>
      unfold splitOnce
      by_cases isSeparator : char = separator
      · subst isSeparator
        cases before with
        | nil => simp [eq_comm]
        | cons first more =>
            simp only [List.cons_append, List.cons.injEq, List.mem_cons,
              not_or]
            constructor
            · rintro isNil
              cases isNil
            · rintro ⟨⟨isFirst, _⟩, notFirst, _⟩
              exact absurd isFirst notFirst
      · rw [if_neg isSeparator, Option.map_eq_some_iff]
        cases before with
        | nil =>
            simp [isSeparator]
        | cons first more =>
            simp only [Prod.exists, Prod.mk.injEq, List.cons.injEq,
              List.cons_append, List.mem_cons, not_or]
            constructor
            · rintro ⟨front, back, split, ⟨isFirst, isMore⟩, isAfter⟩
              subst isFirst isMore isAfter
              obtain ⟨isRest, absent⟩ := inductionHypothesis.mp split
              exact ⟨⟨rfl, isRest⟩, Ne.symm isSeparator, absent⟩
            · rintro ⟨⟨isFirst, isRest⟩, _, absent⟩
              subst isFirst
              exact ⟨more, after, inductionHypothesis.mpr ⟨isRest, absent⟩,
                ⟨rfl, rfl⟩, rfl⟩

theorem splitOnce_eq_none
    {separator : Char}
    {text : List Char} :
    splitOnce separator text = none ↔ separator ∉ text := by
  refine ⟨fun none present => ?_, splitOnce_of_notMem⟩
  obtain ⟨before, after, isText, absent⟩ :=
    List.eq_append_cons_of_mem present
  rw [splitOnce_eq_some.mpr ⟨isText, absent⟩] at none
  cases none

/-- `str::split_once` at the first occurrence of a text. -/
def splitOnceAt
    (pattern text : List Char) :
    Option (List Char × List Char) :=
  text.dropInfix? pattern

theorem splitOnceAt_eq_some
    {pattern text before after : List Char} :
    splitOnceAt pattern text = some (before, after) ↔
      text = before ++ pattern ++ after ∧
        ∀ front back, text = front ++ pattern ++ back →
          before.length ≤ front.length := by
  rw [splitOnceAt, List.dropInfix?_eq_some_iff]
  constructor
  · rintro ⟨⟨own, isText, isPattern⟩, first⟩
    rw [eq_of_beq isPattern] at isText
    exact ⟨isText, fun front back other =>
      first front pattern back other (beq_self_eq_true pattern)⟩
  · rintro ⟨isText, first⟩
    refine ⟨⟨pattern, isText, beq_self_eq_true pattern⟩, ?_⟩
    intro front own back other isPattern
    rw [eq_of_beq isPattern] at other
    exact first front back other

/-- A text that occurs is split at. -/
theorem exists_splitOnceAt
    {pattern text : List Char}
    (occurs : pattern <:+: text) :
    ∃ before after, splitOnceAt pattern text = some (before, after) := by
  classical
  have somewhere :
      ∃ length before after,
        text = before ++ pattern ++ after ∧ before.length = length := by
    obtain ⟨before, after, isText⟩ := occurs
    exact ⟨before.length, before, after, isText.symm, rfl⟩
  obtain ⟨before, after, isText, isLength⟩ := Nat.find_spec somewhere
  refine ⟨before, after, splitOnceAt_eq_some.mpr ⟨isText, ?_⟩⟩
  intro front back other
  rw [isLength]
  exact Nat.find_min' somewhere ⟨front, back, other, rfl⟩

theorem splitOnceAt_eq_none
    {pattern text : List Char} :
    splitOnceAt pattern text = none ↔ ¬ pattern <:+: text := by
  constructor
  · intro missing occurs
    obtain ⟨before, after, found⟩ := exists_splitOnceAt occurs
    rw [missing] at found
    cases found
  · intro missing
    rw [Option.eq_none_iff_forall_ne_some]
    rintro ⟨before, after⟩ found
    exact missing ⟨before, after, (splitOnceAt_eq_some.mp found).1.symm⟩

/-- What follows a text does not move the first occurrence in it. -/
theorem splitOnceAt_append
    {pattern text before after : List Char}
    (found : splitOnceAt pattern text = some (before, after))
    (back : List Char) :
    splitOnceAt pattern (text ++ back) = some (before, after ++ back) := by
  obtain ⟨isText, first⟩ := splitOnceAt_eq_some.mp found
  refine splitOnceAt_eq_some.mpr ⟨?_, fun front rest other => ?_⟩
  · rw [isText]
    simp
  · by_contra earlier
    have fits : (front ++ pattern).length ≤ text.length := by
      rw [isText]
      simp
      omega
    have inside : front ++ pattern <+: text := by
      refine List.prefix_of_prefix_length_le ?_ (List.prefix_append text back) fits
      exact ⟨rest, other.symm⟩
    obtain ⟨tail, isWhole⟩ := inside
    exact earlier (first front tail isWhole.symm)

/-- Only digits can follow the leading part of a number. -/
theorem isDigit_of_parseDigits
    {width total value : Nat}
    {text : List Char}
    (parsed : parseDigits width total text = .ok value) :
    ∀ char ∈ text, char.isDigit = true := by
  induction text generalizing total with
  | nil =>
      simp
  | cons char rest inductionHypothesis =>
      unfold parseDigits at parsed
      cases read : digit? char with
      | none =>
          rw [read] at parsed
          cases parsed
      | some digit =>
          rw [read] at parsed
          dsimp only at parsed
          split at parsed
          · rw [List.forall_mem_cons]
            refine ⟨?_, inductionHypothesis parsed⟩
            unfold digit? at read
            split at read
            · rename_i range
              simpa [Char.isDigit, Char.le_def] using range
            · cases read
          · cases parsed

/-- A number is written with digits and perhaps a plus sign. -/
theorem digit_or_plus_of_parseUnsigned
    {width : Nat}
    {text : List Char}
    {value : BitVec width}
    (parsed : parseUnsigned width text = .ok value) :
    text ≠ [] ∧ ∀ char ∈ text, char.isDigit = true ∨ char = '+' := by
  unfold parseUnsigned at parsed
  dsimp only at parsed
  split at parsed
  · cases parsed
  · cases parsed
  · cases parsed
  · rename_i rest _
    refine ⟨List.cons_ne_nil _ _, ?_⟩
    cases digits : parseDigits width 0 rest with
    | error reason =>
        rw [digits] at parsed
        cases parsed
    | ok number =>
        rw [List.forall_mem_cons]
        exact ⟨.inr rfl, fun char member =>
          .inl (isDigit_of_parseDigits digits char member)⟩
  · rename_i notEmpty _ _ _
    refine ⟨notEmpty, ?_⟩
    cases digits : parseDigits width 0 text with
    | error reason =>
        rw [digits] at parsed
        cases parsed
    | ok number =>
        exact fun char member =>
          .inl (isDigit_of_parseDigits digits char member)

end RustText

end AiFirewall
