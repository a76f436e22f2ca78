import Mathlib

namespace AiFirewall

/-!
# The pieces of a text

What a split gives, said of the whole list: a piece is a stretch without
separators that reaches from one separator, or an end of the list, to the
next.  The part before the first element of some kind is such a stretch too.
-/

namespace TextPieces

section

variable
  {Element : Type*}
  {separates : Element → Bool}
  {list piece : List Element}

/-- A stretch without separators, between separators or ends of the list. -/
def IsPiece
    (separates : Element → Bool)
    (list piece : List Element) : Prop :=
  ∃ before after,
    list = before ++ piece ++ after ∧
      (∀ element ∈ before.getLast?, separates element = true) ∧
      (∀ element ∈ piece, separates element = false) ∧
      ∀ element ∈ after.head?, separates element = true

/-- What ends the part of a list that is taken while something holds. -/
theorem not_of_mem_head?_dropWhile
    {holds : Element → Bool}
    {element : Element}
    (isHead : element ∈ (list.dropWhile holds).head?) :
    holds element = false := by
  have stops := List.head?_dropWhile_not holds list
  rw [Option.mem_def.mp isHead] at stops
  exact stops

theorem mem_head?_of_takeWhile
    {holds : Element → Bool}
    {element : Element}
    (isHead : element ∈ (list.takeWhile holds).head?) :
    element ∈ list.head? := by
  cases list with
  | nil =>
      exact isHead
  | cons first later =>
      rw [List.takeWhile_cons] at isHead
      split at isHead
      · exact isHead
      · cases isHead

theorem mem_splitOnP_of_isPiece
    (isPiece : IsPiece separates list piece) :
    piece ∈ list.splitOnP separates := by
  obtain ⟨before, after, rfl, endsBefore, inside, startsAfter⟩ := isPiece
  have ownPiece :
      piece ∈ (piece ++ after).splitOnP separates := by
    cases after with
    | nil =>
        rw [List.append_nil, List.splitOnP_eq_singleton inside]
        exact List.mem_singleton_self piece
    | cons separator later =>
        rw [List.splitOnP_append_cons _ _ (startsAfter separator rfl),
          List.splitOnP_eq_singleton inside]
        exact List.mem_cons_self
  rcases List.eq_nil_or_concat before with isNil | ⟨front, last, isConcat⟩
  · rw [isNil, List.nil_append]
    exact ownPiece
  · rw [List.concat_eq_append] at isConcat
    have isSeparator : separates last = true := by
      refine endsBefore last ?_
      rw [isConcat, List.getLast?_concat]
      rfl
    rw [isConcat, List.append_assoc, List.append_assoc, List.singleton_append,
      List.splitOnP_append_cons _ _ isSeparator]
    exact List.mem_append_right _ ownPiece

theorem isPiece_of_mem_splitOnP
    (member : piece ∈ list.splitOnP separates) :
    IsPiece separates list piece := by
  -- On the length: what follows the first separator is split by itself.
  induction size : list.length using Nat.strong_induction_on
    generalizing list with
  | h length inductionHypothesis =>
      have whole := List.takeWhile_append_dropWhile
        (p := fun element => !separates element) (l := list)
      have inside :
          ∀ element ∈ list.takeWhile (fun element => !separates element),
            separates element = false := by
        intro element isTaken
        simpa using List.mem_takeWhile_imp isTaken
      have stops (element : Element)
          (isHead :
            element ∈
              (list.dropWhile (fun element => !separates element)).head?) :
          separates element = true := by
        simpa using not_of_mem_head?_dropWhile isHead
      generalize list.takeWhile (fun element => !separates element) = front
        at whole inside
      generalize list.dropWhile (fun element => !separates element) = back
        at whole stops
      subst whole
      cases back with
      | nil =>
          rw [List.append_nil, List.splitOnP_eq_singleton inside,
            List.mem_singleton] at member
          subst member
          exact ⟨[], [], by simp, nofun, inside, nofun⟩
      | cons separator later =>
          have isSeparator := stops separator rfl
          rw [List.splitOnP_append_cons _ _ isSeparator,
            List.splitOnP_eq_singleton inside, List.singleton_append]
            at member
          rcases List.mem_cons.mp member with isFirst | isLater
          · subst isFirst
            exact ⟨[], separator :: later, rfl, nofun, inside, stops⟩
          · have shorter : later.length < length := by
              rw [← size, List.length_append, List.length_cons]
              omega
            obtain ⟨before, after, isWhole, endsBefore, within, startsAfter⟩ :=
              inductionHypothesis later.length shorter isLater rfl
            refine ⟨front ++ separator :: before, after, ?_, ?_, within,
              startsAfter⟩
            · rw [isWhole]
              simp
            · intro element isLast
              rw [List.getLast?_append_cons, List.getLast?_cons] at isLast
              cases isLast
              cases ends : before.getLast? with
              | none => exact isSeparator
              | some last => exact endsBefore last ends

/-- The pieces of a split are the stretches between its separators. -/
theorem mem_splitOnP_iff :
    piece ∈ list.splitOnP separates ↔ IsPiece separates list piece :=
  ⟨isPiece_of_mem_splitOnP, mem_splitOnP_of_isPiece⟩

end

end TextPieces

end AiFirewall
