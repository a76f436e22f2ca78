import AiFirewall.RustText

namespace AiFirewall

/-!
# Logs with a line for each entry

A text file that grows by one entry after another.  A write can break off
within an entry or before the end of its line; what is written next comes to
stand on the same line.  Now and then the file is cut down to the newer half
of its lines.  What can be read back are the entries that have a line to
themselves.
-/

/-- What one write leaves on a line. -/
inductive LogPiece (Entry : Type*)
  | whole (entry : Entry)
  /-- The write broke off. -/
  | part (text : List Char)

namespace LogPiece

variable {Entry : Type*}

def entry? : LogPiece Entry → Option Entry
  | whole entry => some entry
  | part _ => none

/-- The only entry of a line. -/
def only? : List (LogPiece Entry) → Option Entry
  | [whole entry] => some entry
  | _ => none

def text (encode : Entry → List Char) : LogPiece Entry → List Char
  | whole entry => encode entry
  | part text => text

/-- A part is some of the text of an entry, but not all. -/
def Known
    (encode : Entry → List Char)
    (known : Entry → Prop) : LogPiece Entry → Prop
  | whole entry => known entry
  | part text =>
      text ≠ [] ∧ ∃ entry, known entry ∧ text <+: encode entry ∧
        text ≠ encode entry

theorem only?_sublist (row : List (LogPiece Entry)) :
    (only? row).toList.Sublist (row.filterMap entry?) := by
  unfold only?
  split
  · exact List.Sublist.refl _
  · exact List.nil_sublist _

end LogPiece

/-- What was written to a text file, line by line. -/
structure LineLog (Entry : Type*) where
  ended : List (List (LogPiece Entry))
  /-- On a last line without its end. -/
  pending : List (LogPiece Entry)
  filled : [] ∉ ended

namespace LineLog

section

variable {Entry : Type*}

def empty : LineLog Entry where
  ended := []
  pending := []
  filled := List.not_mem_nil

/-- The lines that a reader of the file finds. -/
def rows (log : LineLog Entry) : List (List (LogPiece Entry)) :=
  match log.pending with
  | [] => log.ended
  | piece :: more => log.ended ++ [piece :: more]

/-- The oldest piece comes first. -/
def pieces (log : LineLog Entry) : List (LogPiece Entry) :=
  log.rows.flatten

def entries (log : LineLog Entry) : List Entry :=
  log.pieces.filterMap LogPiece.entry?

/-- An entry with the end of its line. -/
def append (log : LineLog Entry) (entry : Entry) : LineLog Entry where
  ended := log.ended ++ [log.pending ++ [.whole entry]]
  pending := []
  filled := by
    rw [List.mem_append, List.mem_singleton]
    rintro (old | isNew)
    · exact log.filled old
    · exact List.append_ne_nil_of_right_ne_nil _ (List.cons_ne_nil _ _)
        isNew.symm

/-- A write that breaks off before the end of its line. -/
def start (log : LineLog Entry) (piece : LogPiece Entry) : LineLog Entry where
  ended := log.ended
  pending := log.pending ++ [piece]
  filled := log.filled

theorem filled_rows (log : LineLog Entry) : [] ∉ log.rows := by
  unfold rows
  split
  · exact log.filled
  · rw [List.mem_append, List.mem_singleton]
    rintro (old | isLast)
    · exact log.filled old
    · cases isLast

/-- The newer half of the lines, the last one ended. -/
def halved (log : LineLog Entry) : LineLog Entry where
  ended := log.rows.drop (log.rows.length / 2)
  pending := []
  filled member := log.filled_rows (List.mem_of_mem_drop member)

/-- The entries that have a line to themselves. -/
def alone (log : LineLog Entry) : List Entry :=
  log.rows.filterMap LogPiece.only?

def text (encode : Entry → List Char) (log : LineLog Entry) : List Char :=
  (log.ended.flatMap fun row => row.flatMap (LogPiece.text encode) ++ ['\n']) ++
    log.pending.flatMap (LogPiece.text encode)

variable {log : LineLog Entry}

theorem pieces_eq :
    log.pieces = log.ended.flatten ++ log.pending := by
  unfold pieces rows
  split
  · rename_i isEmpty
    rw [isEmpty, List.append_nil]
  · rename_i isPending
    rw [isPending, List.flatten_append, List.flatten_singleton]

@[simp] theorem pieces_append (entry : Entry) :
    (log.append entry).pieces = log.pieces ++ [.whole entry] := by
  rw [pieces_eq, pieces_eq, append, List.flatten_append,
    List.flatten_singleton, List.append_nil, List.append_assoc]

@[simp] theorem pieces_start (piece : LogPiece Entry) :
    (log.start piece).pieces = log.pieces ++ [piece] := by
  rw [pieces_eq, pieces_eq, start, List.append_assoc]

/-- Cutting down the file drops the oldest pieces. -/
theorem pieces_halved : log.halved.pieces <:+ log.pieces := by
  rw [pieces_eq, halved, List.append_nil, pieces]
  obtain ⟨dropped, same⟩ :=
    List.drop_suffix (log.rows.length / 2) log.rows
  exact ⟨dropped.flatten, by rw [← List.flatten_append, same]⟩

/-- Nothing is read back that was not written, nor in another order. -/
theorem alone_sublist : log.alone.Sublist log.entries := by
  unfold alone entries pieces
  generalize log.rows = rows
  induction rows with
  | nil =>
      exact List.Sublist.slnil
  | cons row rest inductionHypothesis =>
      have first := LogPiece.only?_sublist row
      rw [List.filterMap_cons, List.flatten_cons, List.filterMap_append]
      cases isOnly : LogPiece.only? row with
      | none =>
          exact inductionHypothesis.trans (List.sublist_append_right _ _)
      | some entry =>
          rw [isOnly] at first
          exact first.append inductionHypothesis

/-- Every line so far is ended and has one entry. -/
structure Tidy (log : LineLog Entry) : Prop where
  closed : log.pending = []
  single : ∀ row ∈ log.ended, ∃ entry, row = [.whole entry]

theorem tidy_empty : (empty : LineLog Entry).Tidy where
  closed := rfl
  single _ member := absurd member List.not_mem_nil

namespace Tidy

theorem rows_eq (tidy : log.Tidy) : log.rows = log.ended := by
  rw [rows, tidy.closed]

theorem append (tidy : log.Tidy) (entry : Entry) :
    (log.append entry).Tidy where
  closed := rfl
  single row member := by
    rcases List.mem_append.mp member with old | isNew
    · exact tidy.single row old
    · rw [tidy.closed] at isNew
      exact ⟨entry, List.mem_singleton.mp isNew⟩

theorem halved (tidy : log.Tidy) : log.halved.Tidy where
  closed := rfl
  single row member := by
    have kept := List.mem_of_mem_drop member
    rw [tidy.rows_eq] at kept
    exact tidy.single row kept

theorem ended_eq (tidy : log.Tidy) :
    log.ended = log.entries.map fun entry => [.whole entry] := by
  rw [entries, pieces, tidy.rows_eq]
  have single := tidy.single
  generalize log.ended = ended at single
  induction ended with
  | nil =>
      rfl
  | cons row rest inductionHypothesis =>
      obtain ⟨⟨entry, isRow⟩, others⟩ := List.forall_mem_cons.mp single
      rw [isRow, List.flatten_cons, List.filterMap_append, List.map_append,
        ← inductionHypothesis others]
      rfl

/-- Of a tidy file every entry is read back. -/
theorem alone_eq (tidy : log.Tidy) : log.alone = log.entries := by
  rw [alone, tidy.rows_eq, tidy.ended_eq, List.filterMap_map]
  exact List.filterMap_some

/-- Half of the entries, rounded up, stay. -/
theorem entries_halved (tidy : log.Tidy) :
    log.halved.entries =
      log.entries.drop (log.entries.length / 2) := by
  have isDropped :
      log.halved.ended =
        (log.entries.drop (log.entries.length / 2)).map
          fun entry => [.whole entry] := by
    show log.rows.drop (log.rows.length / 2) = _
    rw [tidy.rows_eq, tidy.ended_eq, List.length_map, List.map_drop]
  have back := tidy.halved.ended_eq
  rw [isDropped] at back
  exact (List.map_injective_iff.mpr (fun first second same => by
    simpa using same) back).symm

/-- Something stays of a file that has anything. -/
theorem entries_halved_ne (tidy : log.Tidy) (some : log.entries ≠ []) :
    log.halved.entries ≠ [] := by
  have positive := List.length_pos_iff.mpr some
  rw [tidy.entries_halved, Ne, List.drop_eq_nil_iff]
  omega

end Tidy

end

section

variable
  {Entry : Type*}
  {encode : Entry → List Char}
  {decode : List Char → Option Entry}
  {known : Entry → Prop}
  {log : LineLog Entry}

/-- How some entries are written on lines and read from them. -/
structure Codec
    (encode : Entry → List Char)
    (decode : List Char → Option Entry)
    (known : Entry → Prop) : Prop where
  newline : ∀ entry, known entry → '\n' ∉ encode entry
  carriage : ∀ entry, known entry → '\r' ∉ encode entry
  filled : ∀ entry, known entry → encode entry ≠ []
  back : ∀ entry, known entry → decode (encode entry) = some entry
  /-- A line with a part of an entry or with several pieces is none. -/
  broken :
    ∀ row : List (LogPiece Entry),
      row ≠ [] →
        (∀ piece ∈ row, piece.Known encode known) →
          LogPiece.only? row = none →
            decode (row.flatMap (LogPiece.text encode)) = none

theorem text_append (entry : Entry) :
    (log.append entry).text encode =
      log.text encode ++ (encode entry ++ ['\n']) := by
  simp [text, append, LogPiece.text]

theorem text_start (piece : LogPiece Entry) :
    (log.start piece).text encode =
      log.text encode ++ piece.text encode := by
  simp [text, start]

theorem text_halved :
    log.halved.text encode =
      (log.rows.drop (log.rows.length / 2)).flatMap fun row =>
        row.flatMap (LogPiece.text encode) ++ ['\n'] :=
  List.append_nil _

theorem text_of_no_rows (noRows : log.rows = []) :
    log.text encode = [] := by
  unfold rows at noRows
  split at noRows
  · rename_i isEmpty
    rw [text, noRows, isEmpty]
    rfl
  · exact absurd (List.append_eq_nil_iff.mp noRows).2 (List.cons_ne_nil _ _)

theorem Tidy.text_eq (tidy : log.Tidy) :
    log.text encode =
      log.entries.flatMap fun entry => encode entry ++ ['\n'] := by
  rw [text, tidy.closed, tidy.ended_eq, List.flatMap_nil, List.append_nil,
    List.flatMap_map]
  simp only [List.flatMap_cons, List.flatMap_nil, List.append_nil,
    LogPiece.text]

/-- Lines that are ended, and what follows the last newline. -/
theorem lines_ended_append
    {texts : List (List Char)}
    {last : List Char}
    (newline : ∀ line ∈ texts, '\n' ∉ line)
    (carriage : ∀ line ∈ texts, '\r' ∉ line) :
    lines ((texts.flatMap fun line => line ++ ['\n']) ++ last) =
      texts ++ lines last := by
  induction texts with
  | nil =>
      rfl
  | cons line rest inductionHypothesis =>
      obtain ⟨headNewline, restNewline⟩ := List.forall_mem_cons.mp newline
      obtain ⟨headCarriage, restCarriage⟩ :=
        List.forall_mem_cons.mp carriage
      rw [flatMap_ended_cons, List.append_assoc, List.cons_append,
        lines_cons headNewline headCarriage,
        inductionHypothesis restNewline restCarriage, List.cons_append]

theorem lines_unended
    {line : List Char}
    (newline : '\n' ∉ line)
    (filled : line ≠ []) :
    lines line = [line] := by
  rw [lines, List.splitOn_eq_singleton newline]
  simp [filled]

/-- No piece goes beyond its line. -/
theorem Codec.piece_newline
    (codec : Codec encode decode known)
    {piece : LogPiece Entry}
    (isKnown : piece.Known encode known) :
    '\n' ∉ piece.text encode ∧ '\r' ∉ piece.text encode := by
  cases piece with
  | whole entry =>
      exact ⟨codec.newline entry isKnown, codec.carriage entry isKnown⟩
  | part text =>
      obtain ⟨-, entry, entryKnown, isPrefix, -⟩ := isKnown
      exact ⟨fun member =>
          codec.newline entry entryKnown (isPrefix.subset member),
        fun member =>
          codec.carriage entry entryKnown (isPrefix.subset member)⟩

theorem Codec.piece_filled
    (codec : Codec encode decode known)
    {piece : LogPiece Entry}
    (isKnown : piece.Known encode known) :
    piece.text encode ≠ [] := by
  cases piece with
  | whole entry => exact codec.filled entry isKnown
  | part text => exact isKnown.1

theorem Codec.row_newline
    (codec : Codec encode decode known)
    {row : List (LogPiece Entry)}
    (areKnown : ∀ piece ∈ row, piece.Known encode known) :
    '\n' ∉ row.flatMap (LogPiece.text encode) ∧
      '\r' ∉ row.flatMap (LogPiece.text encode) := by
  rw [List.mem_flatMap, List.mem_flatMap]
  constructor
  · rintro ⟨piece, member, inside⟩
    exact (codec.piece_newline (areKnown piece member)).1 inside
  · rintro ⟨piece, member, inside⟩
    exact (codec.piece_newline (areKnown piece member)).2 inside

/-- A reader finds the rows of the log. -/
theorem Codec.lines_text
    (codec : Codec encode decode known)
    (areKnown : ∀ piece ∈ log.pieces, piece.Known encode known) :
    lines (log.text encode) =
      log.rows.map fun row => row.flatMap (LogPiece.text encode) := by
  have ofRow
      {row : List (LogPiece Entry)}
      (member : row ∈ log.rows) :
      ∀ piece ∈ row, piece.Known encode known :=
    fun piece inRow => areKnown piece (List.mem_flatten.mpr ⟨row, member, inRow⟩)
  have ofEnded
      {row : List (LogPiece Entry)}
      (member : row ∈ log.ended) :
      row ∈ log.rows := by
    unfold rows
    split
    · exact member
    · exact List.mem_append_left _ member
  have split :
      log.text encode =
        ((log.ended.map fun row => row.flatMap (LogPiece.text encode)).flatMap
          fun line => line ++ ['\n']) ++
            log.pending.flatMap (LogPiece.text encode) := by
    rw [text, List.flatMap_map]
  rw [split, lines_ended_append]
  · unfold rows
    split
    · rename_i isEmpty
      rw [isEmpty]
      exact List.append_nil _
    · rename_i piece more isPending
      have isRow : piece :: more ∈ log.rows := by
        rw [rows, isPending]
        exact List.mem_append_right _ (List.mem_singleton.mpr rfl)
      have first := ofRow isRow piece List.mem_cons_self
      rw [isPending, List.map_append, lines_unended]
      · rfl
      · exact (codec.row_newline (ofRow isRow)).1
      · rw [List.flatMap_cons]
        exact List.append_ne_nil_of_left_ne_nil (codec.piece_filled first) _
  · intro line member
    obtain ⟨row, inEnded, rfl⟩ := List.mem_map.mp member
    exact (codec.row_newline (ofRow (ofEnded inEnded))).1
  · intro line member
    obtain ⟨row, inEnded, rfl⟩ := List.mem_map.mp member
    exact (codec.row_newline (ofRow (ofEnded inEnded))).2

/-- And reads the entries that have a row to themselves. -/
theorem Codec.reads
    (codec : Codec encode decode known)
    (areKnown : ∀ piece ∈ log.pieces, piece.Known encode known) :
    (lines (log.text encode)).filterMap decode = log.alone := by
  rw [codec.lines_text areKnown, List.filterMap_map, alone]
  refine List.filterMap_congr fun row member => ?_
  have ofRow : ∀ piece ∈ row, piece.Known encode known :=
    fun piece inRow => areKnown piece (List.mem_flatten.mpr ⟨row, member, inRow⟩)
  have filled : row ≠ [] := by
    rintro rfl
    exact log.filled_rows member
  show decode (row.flatMap (LogPiece.text encode)) = LogPiece.only? row
  cases isOnly : LogPiece.only? row with
  | none => exact codec.broken row filled ofRow isOnly
  | some entry =>
      unfold LogPiece.only? at isOnly
      split at isOnly
      · cases isOnly
        rw [List.flatMap_cons, List.flatMap_nil, List.append_nil]
        exact codec.back entry (ofRow _ List.mem_cons_self)
      · cases isOnly

/-- What is left of the text when the older half of its lines is dropped. -/
theorem Codec.text_of_halved
    (codec : Codec encode decode known)
    (areKnown : ∀ piece ∈ log.pieces, piece.Known encode known)
    (hasRows : log.rows ≠ []) :
    let kept :=
      (lines (log.text encode)).drop
        ((lines (log.text encode)).length / 2)
    ['\n'].intercalate kept ++ ['\n'] = log.halved.text encode := by
  intro kept
  have isKept :
      kept =
        (log.rows.drop (log.rows.length / 2)).map
          fun row => row.flatMap (LogPiece.text encode) := by
    show List.drop _ (lines (log.text encode)) = _
    rw [codec.lines_text areKnown, List.length_map, ← List.map_drop]
  have hasKept : log.rows.drop (log.rows.length / 2) ≠ [] := by
    have positive := List.length_pos_iff.mpr hasRows
    rw [Ne, List.drop_eq_nil_iff]
    omega
  rw [isKept, text_halved]
  generalize log.rows.drop (log.rows.length / 2) = rows at hasKept
  induction rows with
  | nil =>
      exact absurd rfl hasKept
  | cons row rest inductionHypothesis =>
      cases rest with
      | nil => simp
      | cons next more =>
          have ofRest := inductionHypothesis (List.cons_ne_nil next more)
          rw [List.flatMap_cons, ← ofRest, List.map_cons, List.map_cons,
            List.intercalate_cons_cons]
          simp

end

end LineLog

end AiFirewall
