import AiFirewall.BanHistory
import AiFirewall.LineLog

namespace AiFirewall

/-!
# The history file

`history.jsonl` has a JSON object on each line, the newest last, and is cut
down to the newer half of its lines past 2 MB.  What the disk answers during
a call is given with the call; a crash is a disk that answers no more.  A
write can break off after any of its bytes, also between those of a
character.  How an entry is written in JSON and read from it are parameters.
-/

/-- `MAX_BYTES`. -/
def maxHistoryBytes : Nat := 2 * 1024 * 1024

/-- The length of a text in UTF-8. -/
def byteLength (text : List Char) : Nat :=
  (text.map fun char => char.utf8Size).sum

/-- The characters among the first bytes of a text, and whether the last byte
ends one. -/
def firstBytes : Nat → List Char → List Char × Bool
  | _, [] => ([], true)
  | 0, _ :: _ => ([], true)
  | bytes + 1, char :: rest =>
      if char.utf8Size ≤ bytes + 1 then
        let following := firstBytes (bytes + 1 - char.utf8Size) rest
        (char :: following.1, following.2)
      else
        ([], false)

/-- Which steps of one call to `history::record` succeed. -/
structure HistoryDisk where
  readable : Bool
  /-- The shortened text takes the place of the old one. -/
  replaced : Bool
  opens : Bool
  /-- The bytes that come into the file of the line and its newline. -/
  written : Nat

/-- One call: what is recorded, and what the disk answers. -/
structure HistoryCall where
  entry : HistoryEntry
  disk : HistoryDisk

/-- The file on the disk. -/
inductive HistoryFile
  | missing
  | text (content : List Char)
  /-- Bytes that are no UTF-8: a character of them was cut in two, and what
  is added does not start with the rest of it. -/
  | garbled
deriving DecidableEq

/-- What stands in the place of the text after `trim`. -/
def trimmedHistory (text : List Char) : List Char :=
  let found := lines text
  ['\n'].intercalate (found.drop (found.length / 2)) ++ ['\n']

namespace HistoryFile

/-- `read_to_string`. -/
def read? : HistoryFile → Option (List Char)
  | text content => some content
  | missing | garbled => none

/-- The text is cut down past `MAX_BYTES`; what cannot be read stays. -/
def trimmed (disk : HistoryDisk) : HistoryFile → HistoryFile
  | text content =>
      if maxHistoryBytes < byteLength content &&
          (disk.readable && disk.replaced) then
        text (trimmedHistory content)
      else
        text content
  | missing => missing
  | garbled => garbled

/-- Some of the bytes of a line come to the end of the file. -/
def extended
    (line : List Char)
    (bytes : Nat)
    (file : HistoryFile) : HistoryFile :=
  let added := firstBytes bytes line
  if file ≠ garbled && added.2 then
    text (file.read?.getD [] ++ added.1)
  else
    garbled

end HistoryFile

section

variable
  (encode : HistoryEntry → List Char)
  (decode : List Char → Option HistoryEntry)

/-- `record`. -/
def recordHistory (file : HistoryFile) (call : HistoryCall) : HistoryFile :=
  let trimmed := file.trimmed call.disk
  if call.disk.opens then
    trimmed.extended (encode call.entry ++ ['\n']) call.disk.written
  else
    trimmed

/-- `read`: the newest `count` entries, newest last. -/
def readHistory (count : Nat) (file : HistoryFile) : List HistoryEntry :=
  let all := (lines (file.read?.getD [])).filterMap decode
  all.drop (all.length - count)

namespace HistoryCall

/-- All of the entry comes into the file. -/
def isTaken (call : HistoryCall) : Bool :=
  call.disk.opens && byteLength (encode call.entry) ≤ call.disk.written

/-- The newline comes into the file as well. -/
def isEnded (call : HistoryCall) : Bool :=
  call.disk.opens && byteLength (encode call.entry) < call.disk.written

/-- The call does not break off between the first byte and the last one. -/
def isWhole (call : HistoryCall) : Bool :=
  !call.disk.opens || call.disk.written = 0 || call.isEnded encode

/-- Every step of the call succeeds. -/
def succeeds (call : HistoryCall) : Bool :=
  call.disk.readable && call.disk.replaced && call.isEnded encode

end HistoryCall

/-- The entries that some calls bring into the file. -/
def takenEntries (calls : List HistoryCall) : List HistoryEntry :=
  (calls.filter (HistoryCall.isTaken encode)).map HistoryCall.entry

end

section

variable
  {encode : HistoryEntry → List Char}
  {decode : List Char → Option HistoryEntry}
  {known : HistoryEntry → Prop}
  {log : LineLog HistoryEntry}
  {file : HistoryFile}

@[simp] theorem byteLength_nil : byteLength [] = 0 :=
  rfl

@[simp] theorem byteLength_cons (char : Char) (rest : List Char) :
    byteLength (char :: rest) = char.utf8Size + byteLength rest :=
  rfl

@[simp] theorem byteLength_append (first second : List Char) :
    byteLength (first ++ second) = byteLength first + byteLength second := by
  rw [byteLength, List.map_append, List.sum_append]
  rfl

theorem byteLength_pos {text : List Char} (filled : text ≠ []) :
    0 < byteLength text := by
  obtain ⟨char, rest, rfl⟩ := List.exists_cons_of_ne_nil filled
  have size := char.utf8Size_pos
  rw [byteLength_cons]
  omega

section

variable
  {bytes : Nat}
  {text : List Char}

@[simp] theorem firstBytes_zero : firstBytes 0 text = ([], true) := by
  cases text <;> rfl

theorem firstBytes_cons
    {char : Char}
    (fits : char.utf8Size ≤ bytes) :
    firstBytes bytes (char :: text) =
      (char :: (firstBytes (bytes - char.utf8Size) text).1,
        (firstBytes (bytes - char.utf8Size) text).2) := by
  have size := char.utf8Size_pos
  obtain ⟨less, rfl⟩ := Nat.exists_eq_add_of_le' (size.trans_le fits)
  exact if_pos fits

theorem firstBytes_cut
    {char : Char}
    (positive : 0 < bytes)
    (isCut : bytes < char.utf8Size) :
    firstBytes bytes (char :: text) = ([], false) := by
  obtain ⟨less, rfl⟩ := Nat.exists_eq_add_of_le' positive
  exact if_neg (Nat.not_le_of_lt isCut)

/-- As many bytes as a text has, and those after it. -/
theorem firstBytes_append (after : List Char) :
    firstBytes (byteLength text + bytes) (text ++ after) =
      (text ++ (firstBytes bytes after).1, (firstBytes bytes after).2) := by
  induction text with
  | nil =>
      rw [byteLength_nil, Nat.zero_add]
      rfl
  | cons char rest inductionHypothesis =>
      rw [byteLength_cons, Nat.add_assoc, List.cons_append,
        firstBytes_cons (Nat.le_add_right _ _), Nat.add_sub_cancel_left,
        inductionHypothesis]
      rfl

theorem firstBytes_all (enough : byteLength text ≤ bytes) :
    firstBytes bytes text = (text, true) := by
  obtain ⟨more, rfl⟩ := Nat.exists_eq_add_of_le enough
  have whole :
      firstBytes (byteLength text + more) (text ++ []) =
        (text ++ (firstBytes more []).1, (firstBytes more []).2) :=
    firstBytes_append []
  rw [List.append_nil] at whole
  rw [whole, firstBytes, List.append_nil]

/-- What follows does not matter before it is reached. -/
theorem firstBytes_append_of_lt
    {after : List Char}
    (few : bytes < byteLength text) :
    firstBytes bytes (text ++ after) = firstBytes bytes text := by
  induction text generalizing bytes with
  | nil =>
      exact absurd few (Nat.not_lt_zero _)
  | cons char rest inductionHypothesis =>
      rw [byteLength_cons] at few
      rw [List.cons_append]
      by_cases fits : char.utf8Size ≤ bytes
      · rw [firstBytes_cons fits, firstBytes_cons fits,
          inductionHypothesis (by omega)]
      · rcases Nat.eq_zero_or_pos bytes with rfl | positive
        · rw [firstBytes_zero, firstBytes_zero]
        · rw [firstBytes_cut positive (Nat.lt_of_not_le fits),
            firstBytes_cut positive (Nat.lt_of_not_le fits)]

theorem firstBytes_spec (bytes : Nat) (text : List Char) :
    (firstBytes bytes text).1 <+: text ∧
      byteLength (firstBytes bytes text).1 ≤ bytes := by
  induction text generalizing bytes with
  | nil =>
      exact ⟨List.nil_prefix, Nat.zero_le _⟩
  | cons char rest inductionHypothesis =>
      by_cases fits : char.utf8Size ≤ bytes
      · rw [firstBytes_cons fits]
        obtain ⟨isPrefix, bounded⟩ :=
          inductionHypothesis (bytes - char.utf8Size)
        refine ⟨List.cons_prefix_cons.mpr ⟨rfl, isPrefix⟩, ?_⟩
        rw [byteLength_cons]
        omega
      · rcases Nat.eq_zero_or_pos bytes with rfl | positive
        · rw [firstBytes_zero]
          exact ⟨List.nil_prefix, Nat.zero_le _⟩
        · rw [firstBytes_cut positive (Nat.lt_of_not_le fits)]
          exact ⟨List.nil_prefix, Nat.zero_le _⟩

/-- Where no character is cut, there is something of the text. -/
theorem firstBytes_ne
    (positive : 0 < bytes)
    (filled : text ≠ [])
    (isExact : (firstBytes bytes text).2 = true) :
    (firstBytes bytes text).1 ≠ [] := by
  obtain ⟨char, rest, rfl⟩ := List.exists_cons_of_ne_nil filled
  by_cases fits : char.utf8Size ≤ bytes
  · rw [firstBytes_cons fits]
    exact List.cons_ne_nil _ _
  · rw [firstBytes_cut positive (Nat.lt_of_not_le fits)] at isExact
    cases isExact

end

example : firstBytes 4 ['c', 'a', 'f', 'é'] = (['c', 'a', 'f'], false) := by
  decide

/-- The log that a call adds its entry to. -/
def HistoryCall.trimmed
    (encode : HistoryEntry → List Char)
    (log : LineLog HistoryEntry)
    (call : HistoryCall) : LineLog HistoryEntry :=
  if maxHistoryBytes < byteLength (log.text encode) &&
      (call.disk.readable && call.disk.replaced) then
    log.halved
  else
    log

/-- A log with the first bytes of an entry and its newline. -/
def extendedLog
    (encode : HistoryEntry → List Char)
    (entry : HistoryEntry)
    (bytes : Nat)
    (log : LineLog HistoryEntry) : LineLog HistoryEntry :=
  if byteLength (encode entry) < bytes then
    log.append entry
  else if byteLength (encode entry) = bytes then
    log.start (.whole entry)
  else if bytes = 0 then
    log
  else
    log.start (.part (firstBytes bytes (encode entry)).1)

/-- The log that a call leaves. -/
def HistoryCall.after
    (encode : HistoryEntry → List Char)
    (log : LineLog HistoryEntry)
    (call : HistoryCall) : LineLog HistoryEntry :=
  let trimmed := call.trimmed encode log
  if call.disk.opens then
    extendedLog encode call.entry call.disk.written trimmed
  else
    trimmed

/-- A file as the calls leave it: the text of a log, unless it is missing or
garbled. -/
inductive Holds
    (encode : HistoryEntry → List Char)
    (known : HistoryEntry → Prop)
    (log : LineLog HistoryEntry) : HistoryFile → Prop
  | missing (isEmpty : log = .empty) : Holds encode known log .missing
  | text (areKnown : ∀ piece ∈ log.pieces, piece.Known encode known) :
      Holds encode known log (.text (log.text encode))
  | garbled : Holds encode known log .garbled

theorem HistoryCall.trimmed_empty (call : HistoryCall) :
    call.trimmed encode .empty = .empty :=
  rfl

/-- Cutting down the file cuts down its log. -/
theorem Holds.trimmed
    (codec : LineLog.Codec encode decode known)
    (holds : Holds encode known log file)
    (call : HistoryCall) :
    Holds encode known (call.trimmed encode log)
      (file.trimmed call.disk) := by
  cases holds with
  | missing isEmpty =>
      rw [isEmpty]
      exact .missing call.trimmed_empty
  | garbled => exact .garbled
  | text areKnown =>
      unfold HistoryCall.trimmed
      dsimp only [HistoryFile.trimmed]
      by_cases full :
          (maxHistoryBytes < byteLength (log.text encode) &&
            (call.disk.readable && call.disk.replaced)) = true
      · have hasRows : log.rows ≠ [] := by
          intro noRows
          have isLong := of_decide_eq_true (Bool.and_eq_true_iff.mp full).1
          rw [LineLog.text_of_no_rows noRows] at isLong
          exact Nat.not_lt_zero _ isLong
        rw [if_pos full, if_pos full, trimmedHistory,
          codec.text_of_halved areKnown hasRows]
        exact .text fun piece member =>
          areKnown piece (LineLog.pieces_halved.subset member)
      · rw [if_neg full, if_neg full]
        exact .text areKnown

/-- What an entry adds to the text of the log. -/
theorem text_extendedLog (entry : HistoryEntry) (bytes : Nat) :
    (extendedLog encode entry bytes log).text encode =
      log.text encode ++ (firstBytes bytes (encode entry ++ ['\n'])).1 := by
  unfold extendedLog
  split
  · rename_i ended
    rw [LineLog.text_append, firstBytes_all]
    rw [byteLength_append]
    exact ended
  split
  · rename_i isAll
    rw [LineLog.text_start, ← isAll, ← Nat.add_zero (byteLength _),
      firstBytes_append, firstBytes_zero, List.append_nil]
    rfl
  split
  · rename_i isNone
    rw [isNone, firstBytes_zero, List.append_nil]
  · rename_i notEnded notAll _
    have few : bytes < byteLength (encode entry) := by omega
    rw [LineLog.text_start, firstBytes_append_of_lt few]
    rfl

theorem known_extendedLog
    {entry : HistoryEntry}
    {bytes : Nat}
    (codec : LineLog.Codec encode decode known)
    (isKnown : known entry)
    (isExact : (firstBytes bytes (encode entry ++ ['\n'])).2 = true)
    (areKnown : ∀ piece ∈ log.pieces, piece.Known encode known) :
    ∀ piece ∈ (extendedLog encode entry bytes log).pieces,
      piece.Known encode known := by
  have added
      {piece : LogPiece HistoryEntry}
      (pieceKnown : piece.Known encode known) :
      ∀ other ∈ log.pieces ++ [piece], other.Known encode known := by
    intro other member
    rcases List.mem_append.mp member with old | isNew
    · exact areKnown other old
    · rw [List.mem_singleton.mp isNew]
      exact pieceKnown
  unfold extendedLog
  split
  · rw [LineLog.pieces_append]
    exact added isKnown
  split
  · rw [LineLog.pieces_start]
    exact added isKnown
  split
  · exact areKnown
  · rename_i notEnded notAll notNone
    have few : bytes < byteLength (encode entry) := by omega
    rw [firstBytes_append_of_lt few] at isExact
    obtain ⟨isPrefix, bounded⟩ :=
      firstBytes_spec bytes (encode entry)
    rw [LineLog.pieces_start]
    refine added ⟨firstBytes_ne (Nat.pos_of_ne_zero notNone)
      (codec.filled entry isKnown) isExact, entry, isKnown, isPrefix, ?_⟩
    intro isWhole
    rw [isWhole] at bounded
    omega

/-- The file keeps to the log. -/
theorem Holds.extended
    {entry : HistoryEntry}
    (codec : LineLog.Codec encode decode known)
    (isKnown : known entry)
    (holds : Holds encode known log file)
    (bytes : Nat) :
    Holds encode known (extendedLog encode entry bytes log)
      (file.extended (encode entry ++ ['\n']) bytes) := by
  have adds
      (areKnown : ∀ piece ∈ log.pieces, piece.Known encode known) :
      Holds encode known (extendedLog encode entry bytes log)
        (HistoryFile.extended (encode entry ++ ['\n']) bytes
          (.text (log.text encode))) := by
    unfold HistoryFile.extended
    dsimp only [HistoryFile.read?, Option.getD_some]
    split
    · rename_i adds
      have isExact := (Bool.and_eq_true_iff.mp adds).2
      rw [← text_extendedLog]
      exact .text (known_extendedLog codec isKnown isExact areKnown)
    · exact .garbled
  cases holds with
  | garbled => exact .garbled
  | text areKnown => exact adds areKnown
  | missing isEmpty =>
      -- A missing file is extended as an empty one.
      rw [isEmpty] at adds ⊢
      exact adds fun piece member => absurd member List.not_mem_nil

theorem Holds.recorded
    {call : HistoryCall}
    (codec : LineLog.Codec encode decode known)
    (isKnown : known call.entry)
    (holds : Holds encode known log file) :
    Holds encode known (call.after encode log)
      (recordHistory encode file call) := by
  have trims := holds.trimmed codec call
  unfold recordHistory HistoryCall.after
  dsimp only
  split
  · exact trims.extended codec isKnown call.disk.written
  · exact trims

/-- The log after some calls, from no file on. -/
def logAfter
    (encode : HistoryEntry → List Char)
    (calls : List HistoryCall) : LineLog HistoryEntry :=
  calls.foldl (HistoryCall.after encode) .empty

theorem logAfter_concat (calls : List HistoryCall) (call : HistoryCall) :
    logAfter encode (calls ++ [call]) =
      call.after encode (logAfter encode calls) := by
  rw [logAfter, logAfter, List.foldl_append]
  rfl

theorem takenEntries_concat
    (calls : List HistoryCall)
    (call : HistoryCall) :
    takenEntries encode (calls ++ [call]) =
      takenEntries encode calls ++
        if call.isTaken encode then [call.entry] else [] := by
  rw [takenEntries, takenEntries, List.filter_append, List.map_append]
  cases isTaken : call.isTaken encode <;> simp [isTaken]

theorem entries_extendedLog (entry : HistoryEntry) (bytes : Nat) :
    (extendedLog encode entry bytes log).entries =
      log.entries ++
        if byteLength (encode entry) ≤ bytes then [entry] else [] := by
  unfold extendedLog
  split
  · rename_i ended
    rw [if_pos ended.le, LineLog.entries, LineLog.pieces_append,
      List.filterMap_append]
    rfl
  split
  · rename_i isAll
    rw [if_pos isAll.le, LineLog.entries, LineLog.pieces_start,
      List.filterMap_append]
    rfl
  · rename_i notEnded notAll
    have few : ¬byteLength (encode entry) ≤ bytes := by omega
    rw [if_neg few, List.append_nil]
    split
    · rfl
    · rw [LineLog.entries, LineLog.pieces_start, List.filterMap_append]
      exact List.append_nil _

/-- A call keeps the newest entries and adds its own. -/
theorem HistoryCall.entries_after
    (call : HistoryCall)
    (log : LineLog HistoryEntry) :
    (call.after encode log).entries =
      (call.trimmed encode log).entries ++
        if call.isTaken encode then [call.entry] else [] := by
  unfold after isTaken
  dsimp only
  cases call.disk.opens with
  | false => exact (List.append_nil _).symm
  | true =>
      rw [if_pos rfl, entries_extendedLog, Bool.true_and]
      simp only [decide_eq_true_eq]

/-- The file has only the newest of the entries that came into it. -/
theorem entries_logAfter (calls : List HistoryCall) :
    (logAfter encode calls).entries <:+ takenEntries encode calls := by
  induction calls using List.reverseRecOn with
  | nil =>
      exact List.suffix_rfl
  | append_singleton past call inductionHypothesis =>
      rw [logAfter_concat, takenEntries_concat, call.entries_after]
      have trims :
          (call.trimmed encode (logAfter encode past)).entries <:+
            takenEntries encode past := by
        unfold HistoryCall.trimmed
        split
        · exact (LineLog.pieces_halved.filterMap _).trans
            inductionHypothesis
        · exact inductionHypothesis
      obtain ⟨dropped, same⟩ := trims
      exact ⟨dropped, by rw [← List.append_assoc, same]⟩

/-- While no call breaks off within a line, the log stays tidy. -/
theorem HistoryCall.tidy_after
    {call : HistoryCall}
    (isWhole : call.isWhole encode = true)
    (filled : encode call.entry ≠ [])
    (tidy : log.Tidy) :
    (call.after encode log).Tidy := by
  have trimmedTidy : (call.trimmed encode log).Tidy := by
    unfold trimmed
    split
    · exact tidy.halved
    · exact tidy
  have size := byteLength_pos filled
  unfold after
  dsimp only
  split
  · rename_i opens
    rw [HistoryCall.isWhole, isEnded, opens] at isWhole
    unfold extendedLog
    split
    · exact trimmedTidy.append call.entry
    · rename_i notEnded
      have isNone : call.disk.written = 0 := by
        simpa [notEnded] using isWhole
      rw [isNone, if_neg size.ne', if_pos rfl]
      exact trimmedTidy
  · exact trimmedTidy

/-- And something is in it as soon as an entry came into it. -/
theorem tidy_logAfter
    {calls : List HistoryCall}
    (whole : ∀ call ∈ calls, call.isWhole encode = true)
    (filled : ∀ call ∈ calls, encode call.entry ≠ []) :
    (logAfter encode calls).Tidy ∧
      (takenEntries encode calls ≠ [] →
        (logAfter encode calls).entries ≠ []) := by
  induction calls using List.reverseRecOn with
  | nil =>
      exact ⟨LineLog.tidy_empty, id⟩
  | append_singleton past call inductionHypothesis =>
      have isLast : call ∈ past ++ [call] :=
        List.mem_append_right _ (List.mem_singleton.mpr rfl)
      obtain ⟨tidy, stays⟩ :=
        inductionHypothesis
          (fun earlier member =>
            whole earlier (List.mem_append_left _ member))
          fun earlier member =>
            filled earlier (List.mem_append_left _ member)
      rw [logAfter_concat]
      refine ⟨HistoryCall.tidy_after (whole call isLast)
        (filled call isLast) tidy, ?_⟩
      rw [takenEntries_concat, call.entries_after]
      intro something
      split
      · exact List.append_ne_nil_of_right_ne_nil _ (List.cons_ne_nil _ _)
      · rename_i notTaken
        rw [if_neg notTaken, List.append_nil] at something
        rw [List.append_nil]
        unfold HistoryCall.trimmed
        split
        · exact tidy.entries_halved_ne (stays something)
        · exact stays something

/-- Nor is a character cut in two. -/
theorem HistoryFile.recorded_ne
    {call : HistoryCall}
    (isWhole : call.isWhole encode = true)
    (readable : file ≠ .garbled) :
    recordHistory encode file call ≠ .garbled := by
  have trims : file.trimmed call.disk ≠ .garbled := by
    unfold HistoryFile.trimmed
    split
    · split <;> exact HistoryFile.noConfusion
    · exact HistoryFile.noConfusion
    · exact readable
  unfold recordHistory
  dsimp only
  split
  · rename_i opens
    have isExact :
        (firstBytes call.disk.written
          (encode call.entry ++ ['\n'])).2 = true := by
      rw [HistoryCall.isWhole, HistoryCall.isEnded, opens] at isWhole
      rcases Nat.eq_zero_or_pos call.disk.written with isNone | positive
      · rw [isNone, firstBytes_zero]
      · have ended :
            byteLength (encode call.entry) < call.disk.written := by
          simpa [positive.ne'] using isWhole
        rw [firstBytes_all]
        rw [byteLength_append]
        exact ended
    unfold HistoryFile.extended
    dsimp only
    rw [isExact, decide_eq_true trims, Bool.and_true, if_pos rfl]
    exact HistoryFile.noConfusion
  · exact trims

/-- What some entries take in the file, a line each. -/
def historyBytes
    (encode : HistoryEntry → List Char)
    (entries : List HistoryEntry) : Nat :=
  (entries.map fun entry => byteLength (encode entry) + 1).sum

@[simp] theorem historyBytes_append (first second : List HistoryEntry) :
    historyBytes encode (first ++ second) =
      historyBytes encode first + historyBytes encode second := by
  rw [historyBytes, List.map_append, List.sum_append]
  rfl

theorem byteLength_tidy (tidy : log.Tidy) :
    byteLength (log.text encode) = historyBytes encode log.entries := by
  rw [tidy.text_eq]
  generalize log.entries = entries
  induction entries with
  | nil =>
      rfl
  | cons entry rest inductionHypothesis =>
      rw [List.flatMap_cons, byteLength_append, byteLength_append,
        inductionHypothesis, historyBytes, historyBytes, List.map_cons,
        List.sum_cons]
      rfl

/-- Nothing is dropped of what fits. -/
theorem entries_of_fits
    {calls : List HistoryCall}
    (whole : ∀ call ∈ calls, call.isWhole encode = true)
    (filled : ∀ call ∈ calls, encode call.entry ≠ [])
    (fits :
      historyBytes encode (takenEntries encode calls) ≤ maxHistoryBytes) :
    (logAfter encode calls).entries = takenEntries encode calls := by
  induction calls using List.reverseRecOn with
  | nil =>
      rfl
  | append_singleton past call inductionHypothesis =>
      have wholeBefore :
          ∀ earlier ∈ past, earlier.isWhole encode = true :=
        fun earlier member => whole earlier (List.mem_append_left _ member)
      have filledBefore : ∀ earlier ∈ past, encode earlier.entry ≠ [] :=
        fun earlier member => filled earlier (List.mem_append_left _ member)
      rw [takenEntries_concat, historyBytes_append] at fits
      have before :=
        inductionHypothesis wholeBefore filledBefore
          (Nat.le_of_add_right_le fits)
      have notFull :
          ¬maxHistoryBytes <
            byteLength ((logAfter encode past).text encode) := by
        rw [byteLength_tidy (tidy_logAfter wholeBefore filledBefore).1,
          before]
        omega
      rw [logAfter_concat, call.entries_after, takenEntries_concat,
        HistoryCall.trimmed, decide_eq_false notFull, Bool.false_and,
        if_neg Bool.false_ne_true, before]

section

variable {limit : Nat}

theorem historyBytes_le
    {entries : List HistoryEntry}
    (short :
      ∀ entry ∈ entries, byteLength (encode entry) ≤ limit) :
    historyBytes encode entries ≤ entries.length * (limit + 1) := by
  have bounded :=
    List.sum_le_card_nsmul
      (entries.map fun entry => byteLength (encode entry) + 1)
      (limit + 1) (by
        intro size member
        obtain ⟨entry, inEntries, rfl⟩ := List.mem_map.mp member
        exact Nat.succ_le_succ (short entry inEntries))
  rwa [List.length_map, smul_eq_mul] at bounded

/-- Half of a long file is more than an entry. -/
theorem historyBytes_half
    {entries : List HistoryEntry}
    (small : (limit + 1) * (limit + 2) ≤ maxHistoryBytes)
    (filled : ∀ entry ∈ entries, encode entry ≠ [])
    (short :
      ∀ entry ∈ entries, byteLength (encode entry) ≤ limit)
    (isLong : maxHistoryBytes < historyBytes encode entries) :
    historyBytes encode (entries.drop (entries.length / 2)) + (limit + 1) ≤
      historyBytes encode entries := by
  have many : limit + 2 < entries.length := by
    by_contra few
    have bounded := historyBytes_le short
    have product :
        entries.length * (limit + 1) ≤ (limit + 2) * (limit + 1) :=
      Nat.mul_le_mul_right _ (Nat.le_of_not_lt few)
    rw [Nat.mul_comm (limit + 2)] at product
    omega
  have halves :
      historyBytes encode entries =
        historyBytes encode (entries.take (entries.length / 2)) +
          historyBytes encode (entries.drop (entries.length / 2)) := by
    rw [← historyBytes_append, List.take_append_drop]
  have older :
      entries.length / 2 * 2 ≤
        historyBytes encode (entries.take (entries.length / 2)) := by
    have bounded :=
      List.card_nsmul_le_sum
        ((entries.take (entries.length / 2)).map fun entry =>
          byteLength (encode entry) + 1)
        2 (by
          intro size member
          obtain ⟨entry, inTaken, rfl⟩ := List.mem_map.mp member
          have something :=
            byteLength_pos (filled entry (List.mem_of_mem_take inTaken))
          omega)
    rw [List.length_map, List.length_take, smul_eq_mul,
      Nat.min_eq_left (Nat.div_le_self _ _)] at bounded
    exact bounded
  omega

/-- The file outgrows its limit by no more than one entry. -/
theorem HistoryCall.fits_after
    {call : HistoryCall}
    (small : (limit + 1) * (limit + 2) ≤ maxHistoryBytes)
    (succeeds : call.succeeds encode = true)
    (tidy : log.Tidy)
    (filled : ∀ entry ∈ log.entries, encode entry ≠ [])
    (short :
      ∀ entry ∈ log.entries, byteLength (encode entry) ≤ limit)
    (shortCall : byteLength (encode call.entry) ≤ limit)
    (fits :
      historyBytes encode log.entries ≤ maxHistoryBytes + (limit + 1)) :
    historyBytes encode (call.after encode log).entries ≤
      maxHistoryBytes + (limit + 1) := by
  have trimmedFits :
      historyBytes encode (call.trimmed encode log).entries ≤
        maxHistoryBytes := by
    unfold trimmed
    rw [byteLength_tidy tidy]
    split
    · rename_i full
      rw [tidy.entries_halved]
      have isLong := of_decide_eq_true (Bool.and_eq_true_iff.mp full).1
      have half := historyBytes_half small filled short isLong
      omega
    · rename_i notFull
      unfold HistoryCall.succeeds at succeeds
      simp only [Bool.and_eq_true] at succeeds
      simpa [succeeds.1.1, succeeds.1.2] using notFull
  have own :
      historyBytes encode
          (if call.isTaken encode then [call.entry] else []) ≤
        limit + 1 := by
    split
    · exact Nat.succ_le_succ shortCall
    · exact Nat.zero_le _
  rw [call.entries_after, historyBytes_append]
  omega

end

theorem mem_takenEntries
    {calls : List HistoryCall}
    {entry : HistoryEntry}
    (member : entry ∈ takenEntries encode calls) :
    ∃ call ∈ calls, call.entry = entry := by
  obtain ⟨call, inTaken, isEntry⟩ := List.mem_map.mp member
  exact ⟨call, List.mem_of_mem_filter inTaken, isEntry⟩

/-- The file is the text of the log, or garbled, whatever the disk has
answered. -/
theorem holds_logAfter
    (codec : LineLog.Codec encode decode known)
    {calls : List HistoryCall}
    (areKnown : ∀ call ∈ calls, known call.entry) :
    Holds encode known (logAfter encode calls)
      (calls.foldl (recordHistory encode) .missing) := by
  induction calls using List.reverseRecOn with
  | nil =>
      exact .missing rfl
  | append_singleton past call inductionHypothesis =>
      rw [logAfter_concat, List.foldl_append]
      exact (inductionHypothesis fun earlier member =>
          areKnown earlier (List.mem_append_left _ member)).recorded codec
        (areKnown call
          (List.mem_append_right _ (List.mem_singleton.mpr rfl)))

theorem readable_after
    {calls : List HistoryCall}
    (whole : ∀ call ∈ calls, call.isWhole encode = true) :
    calls.foldl (recordHistory encode) .missing ≠ .garbled := by
  induction calls using List.reverseRecOn with
  | nil =>
      exact HistoryFile.noConfusion
  | append_singleton past call inductionHypothesis =>
      rw [List.foldl_append]
      exact HistoryFile.recorded_ne
        (whole call
          (List.mem_append_right _ (List.mem_singleton.mpr rfl)))
        (inductionHypothesis fun earlier member =>
          whole earlier (List.mem_append_left _ member))

/-- What is read of a file that is not garbled is what its log has. -/
theorem Holds.text_eq
    (holds : Holds encode known log file)
    (readable : file ≠ .garbled) :
    file.read?.getD [] = log.text encode ∧
      ∀ piece ∈ log.pieces, piece.Known encode known := by
  cases holds with
  | missing isEmpty =>
      rw [isEmpty]
      exact ⟨rfl, fun piece member => absurd member List.not_mem_nil⟩
  | text areKnown => exact ⟨rfl, areKnown⟩
  | garbled => exact absurd rfl readable

theorem Holds.reads
    (codec : LineLog.Codec encode decode known)
    (holds : Holds encode known log file)
    (readable : file ≠ .garbled)
    (count : Nat) :
    readHistory decode count file =
      log.alone.drop (log.alone.length - count) := by
  obtain ⟨isText, areKnown⟩ := holds.text_eq readable
  rw [readHistory, isText, codec.reads areKnown]

theorem HistoryCall.isWhole_of_succeeds
    {call : HistoryCall}
    (succeeds : call.succeeds encode = true) :
    call.isWhole encode = true := by
  rw [HistoryCall.succeeds, Bool.and_eq_true] at succeeds
  rw [isWhole, succeeds.2, Bool.or_true]

theorem fits_logAfter
    {calls : List HistoryCall}
    {limit : Nat}
    (small : (limit + 1) * (limit + 2) ≤ maxHistoryBytes)
    (filled : ∀ call ∈ calls, encode call.entry ≠ [])
    (short : ∀ call ∈ calls, byteLength (encode call.entry) ≤ limit)
    (succeed : ∀ call ∈ calls, call.succeeds encode = true) :
    historyBytes encode (logAfter encode calls).entries ≤
      maxHistoryBytes + (limit + 1) := by
  induction calls using List.reverseRecOn with
  | nil =>
      exact Nat.zero_le _
  | append_singleton past call inductionHypothesis =>
      have inPast :
          ∀ {earlier : HistoryCall}, earlier ∈ past →
            earlier ∈ past ++ [call] :=
        fun member => List.mem_append_left _ member
      have isLast : call ∈ past ++ [call] :=
        List.mem_append_right _ (List.mem_singleton.mpr rfl)
      have ofEntry
          {entry : HistoryEntry}
          (member : entry ∈ (logAfter encode past).entries) :
          encode entry ≠ [] ∧ byteLength (encode entry) ≤ limit := by
        obtain ⟨earlier, inCalls, rfl⟩ :=
          mem_takenEntries ((entries_logAfter past).subset member)
        exact ⟨filled earlier (inPast inCalls),
          short earlier (inPast inCalls)⟩
      have tidy : (logAfter encode past).Tidy :=
        (tidy_logAfter
          (fun earlier member => HistoryCall.isWhole_of_succeeds
            (succeed earlier (inPast member)))
          fun earlier member => filled earlier (inPast member)).1
      rw [logAfter_concat]
      exact HistoryCall.fits_after small (succeed call isLast) tidy
        (fun _ member => (ofEntry member).1)
        (fun _ member => (ofEntry member).2) (short call isLast)
        (inductionHypothesis (fun earlier member =>
            filled earlier (inPast member))
          (fun earlier member => short earlier (inPast member))
          fun earlier member => succeed earlier (inPast member))

/--
What is read back are entries that came into the file, in their order,
whatever fails and after whichever byte writes break off.  If no call breaks
off within its line, it is the newest of the entries that came into the file,
all of them while they fit into 2 MB.  If every step succeeds and no line has
more than `limit` bytes, the file outgrows 2 MB by no more than such a line;
here the limit is 1446 bytes at most, so that half of a full file is more
than one line.
-/
theorem history_file_reads_back
    (codec : LineLog.Codec encode decode known)
    (calls : List HistoryCall)
    (areKnown : ∀ call ∈ calls, known call.entry) :
    let file := calls.foldl (recordHistory encode) .missing
    let taken := takenEntries encode calls
    (∀ count, (readHistory decode count file).Sublist taken) ∧
      ((∀ call ∈ calls, call.isWhole encode = true) →
        ∃ kept,
          kept <:+ taken ∧
            (taken ≠ [] → kept ≠ []) ∧
            (historyBytes encode taken ≤ maxHistoryBytes →
              kept = taken) ∧
            ∀ count,
              readHistory decode count file =
                kept.drop (kept.length - count)) ∧
      ∀ limit,
        (limit + 1) * (limit + 2) ≤ maxHistoryBytes →
        (∀ call ∈ calls,
          call.succeeds encode = true ∧
            byteLength (encode call.entry) ≤ limit) →
        file ≠ .garbled ∧
          byteLength (file.read?.getD []) ≤
            maxHistoryBytes + (limit + 1) := by
  intro file taken
  have holds := holds_logAfter codec areKnown
  have filled : ∀ call ∈ calls, encode call.entry ≠ [] :=
    fun call member => codec.filled _ (areKnown call member)
  refine ⟨fun count => ?_, fun whole => ?_, fun limit small whole => ?_⟩
  · by_cases isGarbled : file = .garbled
    · rw [isGarbled, readHistory]
      exact (List.drop_sublist _ _).trans (List.nil_sublist _)
    · rw [holds.reads codec isGarbled count]
      exact (List.drop_sublist _ _).trans
        (LineLog.alone_sublist.trans (entries_logAfter calls).sublist)
  · obtain ⟨tidy, isFilled⟩ := tidy_logAfter whole filled
    refine ⟨(logAfter encode calls).entries, entries_logAfter calls,
      isFilled, entries_of_fits whole filled, fun count => ?_⟩
    rw [holds.reads codec (readable_after whole) count, tidy.alone_eq]
  · have isWhole : ∀ call ∈ calls, call.isWhole encode = true :=
      fun call member => HistoryCall.isWhole_of_succeeds (whole call member).1
    have readable := readable_after isWhole
    refine ⟨readable, ?_⟩
    rw [(holds.text_eq readable).1,
      byteLength_tidy (tidy_logAfter isWhole filled).1]
    exact fits_logAfter small filled
      (fun call member => (whole call member).2)
      fun call member => (whole call member).1

end

def sshBan : HistoryEntry :=
  ⟨1000000, .ban, some (.v4 0x0a000005),
    "port scan on tcp 22, 2m, strike 1"⟩

def sshExpiry : HistoryEntry :=
  ⟨1000125, .expire, some (.v4 0x0a000005), "port scan (tcp 22)"⟩

/-- An entry about their source in JSON. -/
def sshLine (entry : HistoryEntry) : List Char :=
  ("\x7b\"at_unix\":" ++ Nat.repr entry.atUnix.toNat ++
    ",\"kind\":\"" ++ entry.kind.text ++
    "\",\"ip\":\"10.0.0.5\",\"detail\":\"" ++ entry.detail ++
    "\"\x7d").toList

def sshEntry (line : List Char) : Option HistoryEntry :=
  [sshBan, sshExpiry].find? fun entry => line = sshLine entry

theorem sshLine_opening
    {entry : HistoryEntry}
    (member : entry ∈ [sshBan, sshExpiry]) :
    (sshLine entry).head? = some '\x7b' ∧
      (sshLine entry).count '\x7b' = 1 := by
  revert entry
  decide

/-- Each piece has an opening brace, and a line of one entry a single one. -/
theorem sshLine_codec :
    LineLog.Codec sshLine sshEntry (· ∈ [sshBan, sshExpiry]) := by
  refine ⟨by decide, by decide, by decide, by decide, ?_⟩
  intro row filled areKnown notOnly
  have opens
      {piece : LogPiece HistoryEntry}
      (isKnown : piece.Known sshLine (· ∈ [sshBan, sshExpiry])) :
      0 < (piece.text sshLine).count '\x7b' := by
    rw [List.count_pos_iff]
    cases piece with
    | whole entry =>
        exact List.mem_of_mem_head? (sshLine_opening isKnown).1
    | part text =>
        obtain ⟨filled, entry, member, ⟨after, isEntry⟩, -⟩ := isKnown
        obtain ⟨char, rest, rfl⟩ := List.exists_cons_of_ne_nil filled
        have first := (sshLine_opening member).1
        rw [← isEntry] at first
        exact List.mem_of_head? first
  rw [sshEntry, List.find?_eq_none]
  intro entry member isLine
  have isLine := of_decide_eq_true isLine
  cases row with
  | nil => exact filled rfl
  | cons piece more =>
      obtain ⟨pieceKnown, moreKnown⟩ := List.forall_mem_cons.mp areKnown
      cases more with
      | nil =>
          rw [List.flatMap_cons, List.flatMap_nil, List.append_nil] at isLine
          cases piece with
          | whole entry => cases notOnly
          | part text =>
              obtain ⟨-, other, otherMember, isPrefix, notAll⟩ := pieceKnown
              have isText : text = sshLine entry := isLine
              have alike :
                  ∀ first ∈ [sshBan, sshExpiry],
                    ∀ second ∈ [sshBan, sshExpiry],
                      sshLine first <+: sshLine second →
                        sshLine first = sshLine second := by
                decide
              rw [isText] at isPrefix notAll
              exact notAll
                (alike entry member other otherMember isPrefix)
      | cons next rest =>
          have count := congrArg (List.count '\x7b') isLine
          rw [List.flatMap_cons, List.flatMap_cons, List.count_append,
            List.count_append, (sshLine_opening member).2] at count
          have first := opens pieceKnown
          have second := opens (moreKnown next List.mem_cons_self)
          omega

/-- One write breaks off within its entry, a later one before its newline. -/
def brokenCalls : List HistoryCall :=
  [⟨sshBan, ⟨true, true, true, 200⟩⟩,
    ⟨sshExpiry, ⟨true, true, true, 40⟩⟩,
    ⟨sshBan, ⟨true, true, true, 200⟩⟩,
    ⟨sshExpiry, ⟨true, true, true, 200⟩⟩,
    ⟨sshBan, ⟨true, true, true, byteLength (sshLine sshBan)⟩⟩,
    ⟨sshExpiry, ⟨true, true, true, 200⟩⟩,
    ⟨sshBan, ⟨true, true, true, 200⟩⟩]

/-- What follows a broken write on its line is lost with it. -/
theorem brokenCalls_read :
    let file := brokenCalls.foldl (recordHistory sshLine) .missing
    readHistory sshEntry 10 file = [sshBan, sshExpiry, sshBan] ∧
      takenEntries sshLine brokenCalls =
        [sshBan, sshBan, sshExpiry, sshBan, sshExpiry, sshBan] ∧
      (readHistory sshEntry 10 file).Sublist
        (takenEntries sshLine brokenCalls) := by
  intro file
  exact ⟨by decide +kernel, by decide +kernel,
    (history_file_reads_back sshLine_codec brokenCalls (by decide)).1 10⟩

end AiFirewall
