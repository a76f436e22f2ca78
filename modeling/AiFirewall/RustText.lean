import Mathlib

namespace AiFirewall

/-!
# Rust's text functions

The functions of Rust's standard library that the configuration code reads
text with, on lists of characters: `trim`, `split_once`, `parse` for unsigned
numbers and for IPv4 addresses.  Errors follow `anyhow`: an error is the list
of its messages, the outermost context first.
-/

/-- An `anyhow` error: its messages, outermost context first. -/
abbrev Error := List String

namespace Error

/-- `with_context`: put a message in front of an error. -/
def withContext
    {Value : Type}
    (message : String)
    (result : Except Error Value) :
    Except Error Value :=
  result.mapError fun error => message :: error

/-- `bail!`: fail with one message. -/
def bail {Value : Type} (message : String) : Except Error Value :=
  .error [message]

/-- `if … { bail! }`: go on only under a condition. -/
def ensure
    (condition : Prop)
    [Decidable condition]
    (message : String) :
    Except Error Unit :=
  if condition then .ok () else bail message

@[simp] theorem ensure_ok
    {condition : Prop}
    [Decidable condition]
    {message : String}
    {result : Unit} :
    ensure condition message = .ok result ↔ condition := by
  unfold ensure
  split <;> simp_all [bail]

@[simp] theorem withContext_ok
    {Value : Type}
    {message : String}
    {result : Except Error Value}
    {value : Value} :
    withContext message result = .ok value ↔ result = .ok value := by
  cases result <;> simp [withContext, Except.mapError]

/-- A sequence of fallible steps succeeds exactly when each of them does. -/
theorem bind_ok
    {Failure First Second : Type}
    {first : Except Failure First}
    {next : First → Except Failure Second}
    {result : Second} :
    (first >>= next) = .ok result ↔
      ∃ value, first = .ok value ∧ next value = .ok result := by
  cases first <;> simp [bind, Except.bind]

/-- A check of every element succeeds exactly when each check does. -/
theorem forM_ok
    {Failure Item : Type}
    {check : Item → Except Failure Unit}
    {items : List Item}
    {result : Unit} :
    (forM items check) = .ok result ↔
      ∀ item ∈ items, check item = .ok () := by
  induction items with
  | nil =>
      simp [pure, Except.pure]
  | cons item rest inductionHypothesis =>
      rw [List.forM_cons, bind_ok, List.forall_mem_cons,
        ← inductionHypothesis]
      constructor
      · rintro ⟨_, headPassed, restPassed⟩
        exact ⟨headPassed, restPassed⟩
      · rintro ⟨headPassed, restPassed⟩
        exact ⟨(), headPassed, restPassed⟩

/-- A collected list holds exactly the results of its items. -/
theorem mem_of_mapM_ok
    {Failure Item Value : Type}
    {convert : Item → Except Failure Value}
    {items : List Item}
    {values : List Value}
    (collected : items.mapM convert = .ok values)
    (value : Value) :
    value ∈ values ↔ ∃ item ∈ items, convert item = .ok value := by
  induction items generalizing values with
  | nil =>
      simp [pure, Except.pure] at collected
      subst collected
      simp
  | cons item rest inductionHypothesis =>
      rw [List.mapM_cons, bind_ok] at collected
      obtain ⟨head, headResult, remaining⟩ := collected
      rw [bind_ok] at remaining
      obtain ⟨tail, tailResult, shape⟩ := remaining
      simp only [pure, Except.pure, Except.ok.injEq] at shape
      subst shape
      simp [inductionHypothesis tailResult, headResult, eq_comm]

/-- A list is collected exactly when every item converts. -/
theorem mapM_ok_iff
    {Failure Item Value : Type}
    {convert : Item → Except Failure Value}
    {items : List Item} :
    (∃ values, items.mapM convert = .ok values) ↔
      ∀ item ∈ items, ∃ value, convert item = .ok value := by
  induction items with
  | nil =>
      simp [pure, Except.pure]
  | cons item rest inductionHypothesis =>
      simp only [List.mapM_cons, bind_ok, List.forall_mem_cons,
        ← inductionHypothesis]
      constructor
      · rintro ⟨_, head, headResult, tail, tailResult, _⟩
        exact ⟨⟨head, headResult⟩, tail, tailResult⟩
      · rintro ⟨⟨head, headResult⟩, tail, tailResult⟩
        exact ⟨head :: tail, head, headResult, tail, tailResult, rfl⟩

end Error

namespace RustText

/-- Unicode's `White_Space`, as `char::is_whitespace` reads it. -/
def isWhitespace (char : Char) : Bool :=
  let code := char.toNat
  (9 ≤ code && code ≤ 13) || code == 32 || code == 0x85 || code == 0xA0 ||
    code == 0x1680 || (0x2000 ≤ code && code ≤ 0x200A) ||
    code == 0x2028 || code == 0x2029 || code == 0x202F ||
    code == 0x205F || code == 0x3000

/-- `str::trim`. -/
def trim (text : List Char) : List Char :=
  ((text.dropWhile isWhitespace).reverse.dropWhile isWhitespace).reverse

/-- `str::split_once` at the first separator. -/
def splitOnce (separator : Char) :
    List Char → Option (List Char × List Char)
  | [] => none
  | char :: rest =>
      if char = separator then
        some ([], rest)
      else
        (splitOnce separator rest).map fun (first, second) =>
          (char :: first, second)

/-- The value of a decimal digit. -/
def digit? (char : Char) : Option Nat :=
  if '0' ≤ char ∧ char ≤ '9' then
    some (char.toNat - '0'.toNat)
  else
    none

/-- Why a number did not parse. -/
inductive ParseIntError where
  | empty
  | invalidDigit
  | posOverflow
  deriving Repr, DecidableEq

/-- The text of a `ParseIntError`. -/
def ParseIntError.message : ParseIntError → String
  | .empty => "cannot parse integer from empty string"
  | .invalidDigit => "invalid digit found in string"
  | .posOverflow => "number too large to fit in target type"

/-- The digits of a number below `2 ^ width`, after a leading part `total`. -/
def parseDigits
    (width : Nat) :
    Nat → List Char → Except ParseIntError Nat
  | total, [] => .ok total
  | total, char :: rest =>
      match digit? char with
      | none => .error .invalidDigit
      | some digit =>
          if total * 10 + digit < 2 ^ width then
            parseDigits width (total * 10 + digit) rest
          else
            .error .posOverflow

/-- `parse` for an unsigned number: an optional plus sign, then digits. -/
def parseUnsigned
    (width : Nat)
    (text : List Char) :
    Except ParseIntError (BitVec width) :=
  let digits : Except ParseIntError Nat :=
    match text with
    | [] => .error .empty
    | ['+'] => .error .invalidDigit
    | ['-'] => .error .invalidDigit
    | '+' :: rest => parseDigits width 0 rest
    | _ => parseDigits width 0 text
  digits.map (BitVec.ofNat width)

/-- `parse` with its failure as an `anyhow` error. -/
def parseNumber
    (width : Nat)
    (text : List Char) :
    Except Error (BitVec width) :=
  (parseUnsigned width text).mapError fun reason => [reason.message]

/-- One part of a dotted address: up to three digits, no leading zero. -/
def parseOctet (text : List Char) : Option (BitVec 8) :=
  if text = [] ∨ 3 < text.length ∨ (1 < text.length ∧ text.head? = some '0') then
    none
  else
    match parseDigits 8 0 text with
    | .ok value => some (BitVec.ofNat 8 value)
    | .error _ => none

/-- `parse::<Ipv4Addr>`, as the address in host order. -/
def parseIpv4 (text : List Char) : Option (BitVec 32) :=
  match (text.splitOn '.').map parseOctet with
  | [some first, some second, some third, some fourth] =>
      some (first ++ second ++ third ++ fourth)
  | _ => none

/-- One character of a text shown with `{:?}`. -/
def debugChar (char : Char) : String :=
  if char = '"' then "\\\""
  else if char = '\\' then "\\\\"
  else if char = '\n' then "\\n"
  else if char = '\r' then "\\r"
  else if char = '\t' then "\\t"
  else char.toString

/-- A text shown with `{:?}`; unprintable characters are left as they are. -/
def debugText (text : String) : String :=
  "\"" ++ String.join (text.toList.map debugChar) ++ "\""

/-- `str::split_whitespace`: the pieces between white space. -/
def splitWhitespace (text : List Char) : List (List Char) :=
  (text.splitOnP isWhitespace).filter (· ≠ [])

/-- `str::trim_matches`. -/
def trimMatches (matched : Char → Bool) (text : List Char) : List Char :=
  ((text.dropWhile matched).reverse.dropWhile matched).reverse

example : parseIpv4 "192.168.1.0".toList = some 0xc0a80100#32 := by
  decide

example : parseUnsigned 16 "+22".toList = .ok 22#16 := by
  decide

end RustText

/-- A line without the carriage return before its end. -/
def stripReturn (line : List Char) : List Char :=
  if line.getLast? = some '\r' then
    line.dropLast
  else
    line

/-- `str::lines`; what follows the last newline is a line unless empty. -/
def lines (text : List Char) : List (List Char) :=
  let pieces := text.splitOn '\n'
  pieces.dropLast.map stripReturn ++
    (pieces.getLast?.filter (· ≠ [])).toList

/-- A terminated line is the first of the lines. -/
theorem lines_terminated
    {line rest : List Char}
    (noNewline : '\n' ∉ line)
    (noReturn : line.getLast? ≠ some '\r') :
    lines (line ++ '\n' :: rest) = line :: lines rest := by
  have unstripped : stripReturn line = line :=
    if_neg noReturn
  have pieces :
      (line ++ '\n' :: rest).splitOn '\n' = line :: rest.splitOn '\n' := by
    rw [List.splitOn_append_cons_self, List.splitOn_eq_singleton noNewline]
    rfl
  have more : rest.splitOn '\n' ≠ [] :=
    List.splitOn_ne_nil '\n' rest
  rw [lines, lines, pieces, List.dropLast_cons_of_ne_nil more, List.map_cons, unstripped,
    List.cons_append, List.getLast?_cons_of_ne_nil more]

theorem lines_cons
    {line rest : List Char}
    (noNewline : '\n' ∉ line)
    (noReturn : '\r' ∉ line) :
    lines (line ++ '\n' :: rest) = line :: lines rest :=
  lines_terminated noNewline fun isLast =>
    noReturn (List.mem_of_getLast? isLast)

/-- Lines that are ended one by one. -/
theorem flatMap_ended_cons
    (line : List Char)
    (rest : List (List Char)) :
    (line :: rest).flatMap (· ++ ['\n']) =
      line ++ '\n' :: rest.flatMap (· ++ ['\n']) := by
  rw [List.flatMap_cons, List.append_assoc, List.singleton_append]

/-- They are the lines of the text. -/
theorem lines_flatMap
    {texts : List (List Char)}
    (single : ∀ line ∈ texts, '\n' ∉ line ∧ line.getLast? ≠ some '\r') :
    lines (texts.flatMap (· ++ ['\n'])) = texts := by
  induction texts with
  | nil =>
      rfl
  | cons line rest inductionHypothesis =>
      obtain ⟨first, others⟩ := List.forall_mem_cons.mp single
      rw [flatMap_ended_cons, lines_terminated first.1 first.2,
        inductionHypothesis others]

end AiFirewall
