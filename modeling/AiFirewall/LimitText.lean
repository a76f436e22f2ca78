import AiFirewall.Config
import AiFirewall.TrimmedText

namespace AiFirewall

/-!
# What a limit says

A limit is a count, a slash and a window in seconds or minutes.  `rate` reads
it as it is written, as long as the minutes fit: they are multiplied by 60
before anything bounds them, and a product that does not fit wraps.
-/

open RustText

/-- What can stand after the number of a window. -/
inductive WindowUnit where
  | none
  | seconds
  | minutes
  deriving Repr, DecidableEq

namespace WindowUnit

def text : WindowUnit → List Char
  | .none => []
  | .seconds => ['s']
  | .minutes => ['m']

def secs : WindowUnit → Nat
  | .none => 1
  | .seconds => 1
  | .minutes => 60

/-- What the number is multiplied by. -/
def factor : WindowUnit → U32
  | .none => 1
  | .seconds => 1
  | .minutes => 60

theorem toNat_factor (unit : WindowUnit) :
    unit.factor.toNat = unit.secs := by
  cases unit <;> rfl

end WindowUnit

/-- A count, a slash, and a number with its unit, white space around each. -/
def LimitSays
    (limit : List Char)
    (count : U16)
    (number : U32)
    (unit : WindowUnit) : Prop :=
  ∃ countText numberText space,
    limit = countText ++ '/' :: (numberText ++ unit.text ++ space) ∧
      (∀ char ∈ space, isWhitespace char = true) ∧
      parseUnsigned 16 (trim countText) = .ok count ∧
      parseUnsigned 32 (trim numberText) = .ok number

/-- The number of a window without its unit, and its factor. -/
def windowParts (window : List Char) : List Char × U32 :=
  match window.getLast? with
  | some 's' => (window.dropLast, 1)
  | some 'm' => (window.dropLast, 60)
  | _ => (window, 1)

/-- The count, and the two numbers that `rate` multiplies. -/
def limitParts (limit : String) : Except Error (U16 × U32 × U32) :=
  match splitOnce '/' limit.toList with
  | none =>
      Error.bail ("limit " ++ debugText limit ++ " must look like 6/30s")
  | some (count, window) => do
      let (number, factor) := windowParts (trim window)
      let badLimit := "bad limit " ++ debugText limit
      let count ← Error.withContext badLimit (parseNumber 16 (trim count))
      let number ← Error.withContext badLimit (parseNumber 32 (trim number))
      return (count, number, factor)

/-- The seconds of a window, once they are multiplied out. -/
def checkedLimit
    (limit : String)
    (parts : U16 × U32 × U32) : Except Error (Option (U16 × U16)) :=
  let (count, number, factor) := parts
  let secs : U32 := number * factor
  if count = 0 ∨ secs = 0 ∨ 3600 < secs then
    Error.bail ("limit " ++ debugText limit ++
      ": count and window must be above 0, window at most 1h")
  else
    .ok (some (count, secs.setWidth 16))

/-- `rate` reads the parts, then multiplies and checks them. -/
theorem Rule.rate_of_limit
    (rule : Rule)
    (limit : String) :
    { rule with limit := some limit }.rate =
      limitParts limit >>= checkedLimit limit := by
  unfold Rule.rate limitParts
  dsimp only
  cases splitOnce '/' limit.toList with
  | none => rfl
  | some pieces =>
      simp only [bind_assoc, pure_bind]
      rfl

theorem parseNumber_ok
    {width : Nat}
    {text : List Char}
    {value : BitVec width} :
    parseNumber width text = .ok value ↔
      parseUnsigned width text = .ok value := by
  unfold parseNumber
  cases parseUnsigned width text <;> simp [Except.mapError]

/-- A text that reads as a number has only digits, signs and white space. -/
theorem notMem_of_parseUnsigned
    {width : Nat}
    {text : List Char}
    {value : BitVec width}
    (parsed : parseUnsigned width (trim text) = .ok value)
    {char : Char}
    (solid : isWhitespace char = false)
    (noDigit : char.isDigit = false)
    (noPlus : char ≠ '+') :
    char ∉ text := by
  intro member
  obtain ⟨before, after, whole, beforeSpace, afterSpace⟩ :=
    exists_trim text
  rw [whole, List.mem_append, List.mem_append] at member
  rcases member with (inBefore | inside) | inAfter
  · rw [beforeSpace char inBefore] at solid
    cases solid
  · rcases (digit_or_plus_of_parseUnsigned parsed).2 char inside with
      isDigit | isPlus
    · rw [isDigit] at noDigit
      cases noDigit
    · exact noPlus isPlus
  · rw [afterSpace char inAfter] at solid
    cases solid

/-- The unit is the last character of a window, if that is one. -/
theorem windowParts_of_said
    {numberText space : List Char}
    {number : U32}
    (unit : WindowUnit)
    (allSpace : ∀ char ∈ space, isWhitespace char = true)
    (parsed : parseUnsigned 32 (trim numberText) = .ok number) :
    ∃ digits,
      windowParts (trim (numberText ++ unit.text ++ space)) =
          (digits, unit.factor) ∧
        trim digits = trim numberText := by
  rw [trim_append_of_all allSpace]
  cases unit with
  | none =>
      refine ⟨trim numberText, ?_, trim_trim _⟩
      have again : parseUnsigned 32 (trim (trim numberText)) = .ok number := by
        rw [trim_trim]
        exact parsed
      rw [WindowUnit.text, List.append_nil, windowParts]
      split
      · rename_i isLast
        exact absurd (List.mem_of_getLast? isLast)
          (notMem_of_parseUnsigned again (by decide) (by decide)
            (by decide))
      · rename_i isLast
        exact absurd (List.mem_of_getLast? isLast)
          (notMem_of_parseUnsigned again (by decide) (by decide)
            (by decide))
      · rfl
  | seconds =>
      refine ⟨numberText.dropWhile isWhitespace, ?_, trim_dropWhile _⟩
      rw [WindowUnit.text, trim_around (by decide) numberText []]
      simp [windowParts, WindowUnit.factor]
  | minutes =>
      refine ⟨numberText.dropWhile isWhitespace, ?_, trim_dropWhile _⟩
      rw [WindowUnit.text, trim_around (by decide) numberText []]
      simp [windowParts, WindowUnit.factor]

/-- What is read as the number and the factor of a window says so. -/
theorem said_of_windowParts
    {window digits : List Char}
    {factor : U32}
    (read : windowParts (trim window) = (digits, factor)) :
    ∃ (unit : WindowUnit) (numberText space : List Char),
      window = numberText ++ unit.text ++ space ∧
        (∀ char ∈ space, isWhitespace char = true) ∧
        trim digits = trim numberText ∧ factor = unit.factor := by
  obtain ⟨before, after, whole, beforeSpace, afterSpace⟩ :=
    exists_trim window
  have fronts (text : List Char) : trim (before ++ text) = trim text := by
    rw [← trim_dropWhile, List.dropWhile_append_of_pos beforeSpace,
      trim_dropWhile]
  unfold windowParts at read
  split at read
  · rename_i isLast
    cases read
    refine ⟨.seconds, before ++ (trim window).dropLast, after, ?_,
      afterSpace, (fronts _).symm, rfl⟩
    rw [WindowUnit.text, List.append_assoc before,
      List.dropLast_append_getLast? _ isLast]
    exact whole
  · rename_i isLast
    cases read
    refine ⟨.minutes, before ++ (trim window).dropLast, after, ?_,
      afterSpace, (fronts _).symm, rfl⟩
    rw [WindowUnit.text, List.append_assoc before,
      List.dropLast_append_getLast? _ isLast]
    exact whole
  · cases read
    refine ⟨.none, window, [], by simp [WindowUnit.text], by simp, ?_, rfl⟩
    exact trim_trim window

/-- The parts of a limit are what it says. -/
theorem limitParts_ok
    {limit : String}
    {count : U16}
    {number factor : U32} :
    limitParts limit = .ok (count, number, factor) ↔
      ∃ unit : WindowUnit,
        LimitSays limit.toList count number unit ∧
          factor = unit.factor := by
  constructor
  · intro parts
    unfold limitParts at parts
    split at parts
    · cases parts
    · rename_i countText window split
      obtain ⟨isText, _⟩ := splitOnce_eq_some.mp split
      cases read : windowParts (trim window) with
      | mk digits found =>
          rw [read] at parts
          dsimp only at parts
          obtain ⟨_, countRead, rest⟩ := Error.bind_ok.mp parts
          obtain ⟨_, numberRead, same⟩ := Error.bind_ok.mp rest
          cases same
          rw [Error.withContext_ok, parseNumber_ok] at countRead numberRead
          obtain ⟨unit, numberText, space, isWindow, allSpace, sameTrim,
            isFactor⟩ := said_of_windowParts read
          refine ⟨unit, ⟨countText, numberText, space, ?_, allSpace,
            countRead, ?_⟩, isFactor⟩
          · rw [isText, isWindow]
          · rw [← sameTrim]
            exact numberRead
  · rintro ⟨unit, ⟨countText, numberText, space, isText, allSpace,
      countRead, numberRead⟩, isFactor⟩
    have noSlash : '/' ∉ countText :=
      notMem_of_parseUnsigned countRead (by decide) (by decide) (by decide)
    obtain ⟨digits, read, sameTrim⟩ :=
      windowParts_of_said unit allSpace numberRead
    unfold limitParts
    rw [splitOnce_eq_some.mpr ⟨isText, noSlash⟩]
    dsimp only
    rw [read]
    refine Error.bind_ok.mpr ⟨count, ?_, Error.bind_ok.mpr ⟨number, ?_, ?_⟩⟩
    · rw [Error.withContext_ok, parseNumber_ok]
      exact countRead
    · rw [Error.withContext_ok, parseNumber_ok, sameTrim]
      exact numberRead
    · rw [isFactor]
      rfl

/-- A limit means what it says, and nothing overflows on the way. -/
structure Rule.LimitExact (rule : Rule) (limit : String) : Prop where
  reads :
    ∀ count window,
      rule.rate = .ok (some (count, window)) ↔
        ∃ number unit,
          LimitSays limit.toList count number unit ∧ 1 ≤ count.toNat ∧
            1 ≤ number.toNat * unit.secs ∧
            number.toNat * unit.secs ≤ 3600 ∧
            window.toNat = number.toNat * unit.secs
  fails :
    (¬∃ count window, rule.rate = .ok (some (count, window))) →
      ∃ failure, rule.rate = .error failure
  fits :
    ∀ count number factor,
      limitParts limit = .ok (count, number, factor) →
        number.toNat * factor.toNat < 2 ^ 32

/-- What passes the check is above zero and at most an hour. -/
theorem checkedLimit_ok
    {limit : String}
    {count found window : U16}
    {number factor : U32} :
    checkedLimit limit (found, number, factor) =
        .ok (some (count, window)) ↔
      found = count ∧ 1 ≤ count.toNat ∧ 1 ≤ (number * factor).toNat ∧
        (number * factor).toNat ≤ 3600 ∧
        window.toNat = (number * factor).toNat := by
  have zero {width : Nat} (word : BitVec width) :
      word = 0 ↔ word.toNat = 0 := by
    rw [← BitVec.toNat_inj]
    simp
  unfold checkedLimit
  dsimp only
  split
  · rename_i rejected
    rw [zero found, zero (number * factor), BitVec.lt_def] at rejected
    constructor
    · rintro isOk
      cases isOk
    · rintro ⟨isCount, counted, lasting, short, _⟩
      subst isCount
      change _ ∨ _ ∨ 3600 < _ at rejected
      omega
  · rename_i accepted
    rw [zero found, zero (number * factor), BitVec.lt_def] at accepted
    change ¬(_ ∨ _ ∨ 3600 < _) at accepted
    have small : (number * factor).toNat % 2 ^ 16 =
        (number * factor).toNat :=
      Nat.mod_eq_of_lt (by omega)
    rw [Except.ok.injEq, Option.some.injEq, Prod.mk.injEq,
      ← BitVec.toNat_inj (x := BitVec.setWidth 16 _), BitVec.toNat_setWidth,
      small]
    constructor
    · rintro ⟨isCount, isWindow⟩
      subst isCount
      exact ⟨rfl, by omega, by omega, by omega, isWindow.symm⟩
    · rintro ⟨isCount, _, _, _, isWindow⟩
      exact ⟨isCount, isWindow.symm⟩

/-- The check gives a rate or fails. -/
theorem checkedLimit_cases
    (limit : String)
    (parts : U16 × U32 × U32) :
    (∃ failure, checkedLimit limit parts = .error failure) ∨
      ∃ count window,
        checkedLimit limit parts = .ok (some (count, window)) := by
  unfold checkedLimit
  dsimp only
  split
  · exact .inl ⟨_, rfl⟩
  · exact .inr ⟨_, _, rfl⟩

/--
A limit means the number of seconds it says, unless it is given in minutes
whose seconds do not fit into 32 bits.
-/
theorem Rule.limitExact_iff
    (rule : Rule)
    (limit : String) :
    { rule with limit := some limit }.LimitExact limit ↔
      ¬∃ count number,
        LimitSays limit.toList count number .minutes ∧
          2 ^ 32 ≤ number.toNat * 60 := by
  constructor
  · rintro exact ⟨count, number, said, tooLong⟩
    have fits := exact.fits count number _
      (limitParts_ok.mpr ⟨.minutes, said, rfl⟩)
    exact absurd fits (Nat.not_lt.mpr tooLong)
  · intro short
    have fits {count : U16} {number : U32} {unit : WindowUnit}
        (said : LimitSays limit.toList count number unit) :
        number.toNat * unit.secs < 2 ^ 32 := by
      have bound := number.isLt
      cases unit with
      | none => simpa [WindowUnit.secs] using bound
      | seconds => simpa [WindowUnit.secs] using bound
      | minutes =>
          exact Nat.lt_of_not_le fun tooLong =>
            short ⟨count, number, said, tooLong⟩
    have product {count : U16} {number : U32} {unit : WindowUnit}
        (said : LimitSays limit.toList count number unit) :
        (number * unit.factor).toNat = number.toNat * unit.secs := by
      rw [BitVec.toNat_mul, unit.toNat_factor,
        Nat.mod_eq_of_lt (fits said)]
    refine ⟨fun count window => ?_, fun none => ?_, ?_⟩
    · rw [rate_of_limit, Error.bind_ok]
      constructor
      · rintro ⟨⟨found, number, factor⟩, parts, checked⟩
        obtain ⟨unit, said, isFactor⟩ := limitParts_ok.mp parts
        subst isFactor
        obtain ⟨isCount, facts⟩ := checkedLimit_ok.mp checked
        subst isCount
        rw [product said] at facts
        exact ⟨number, unit, said, facts⟩
      · rintro ⟨number, unit, said, facts⟩
        rw [← product said] at facts
        exact ⟨(count, number, unit.factor),
          limitParts_ok.mpr ⟨unit, said, rfl⟩,
          checkedLimit_ok.mpr ⟨rfl, facts⟩⟩
    · rw [rate_of_limit] at none ⊢
      cases parts : limitParts limit with
      | error failure => exact ⟨failure, rfl⟩
      | ok found =>
          rw [parts] at none
          rcases checkedLimit_cases limit found with failed | passed
          · exact failed
          · exact absurd passed none
    · intro count number factor parts
      obtain ⟨unit, said, isFactor⟩ := limitParts_ok.mp parts
      rw [isFactor, unit.toNat_factor]
      exact fits said

/-- A limit per 71,582,789 minutes is read as one per 44 seconds. -/
theorem Rule.minutes_wrap_to_seconds :
    let rule := Rule.mk "tcp" (.one 22) none (some "1/71582789m")
    rule.rate = .ok (some (1, 44)) ∧ ¬rule.LimitExact "1/71582789m" := by
  have wrapped :
      (Rule.mk "tcp" (.one 22) none (some "1/71582789m")).rate =
        .ok (some (1, 44)) := by
    decide +kernel
  have parts : limitParts "1/71582789m" = .ok (1, 71582789, 60) := by
    decide +kernel
  refine ⟨wrapped, fun exact => ?_⟩
  have fits := exact.fits 1 71582789 60 parts
  revert fits
  decide

end AiFirewall
