import AiFirewall.Common
import AiFirewall.RustText

namespace AiFirewall

/-!
# The default route

`parse_default_route` reads the kernel's routing table: a header, then one
route a line.  A line is indexed by column, and an index past the last one
aborts the daemon; here it is an outcome of its own, so that what is
returned and whether anything is returned are both part of the result.
-/

open RustText

namespace RustText

/-- The value of a hexadecimal digit. -/
def hexDigit? (char : Char) : Option Nat :=
  if '0' ≤ char ∧ char ≤ '9' then
    some (char.toNat - '0'.toNat)
  else if 'a' ≤ char ∧ char ≤ 'f' then
    some (char.toNat - 'a'.toNat + 10)
  else if 'A' ≤ char ∧ char ≤ 'F' then
    some (char.toNat - 'A'.toNat + 10)
  else
    none

/-- The hexadecimal digits of a number below `2 ^ width`. -/
def hexDigits
    (width : Nat) :
    Nat → List Char → Option Nat
  | total, [] => some total
  | total, char :: rest =>
      (hexDigit? char).bind fun digit =>
        if total * 16 + digit < 2 ^ width then
          hexDigits width (total * 16 + digit) rest
        else
          none

/-- `from_str_radix(_, 16)` for an unsigned number, without its error. -/
def parseHex (width : Nat) (text : List Char) : Option (BitVec width) :=
  let digits : Option Nat :=
    match text with
    | [] => none
    | ['+'] => none
    | ['-'] => none
    | '+' :: rest => hexDigits width 0 rest
    | _ => hexDigits width 0 text
  digits.map (BitVec.ofNat width)

end RustText

/-- `u32::from_be` on a little-endian machine. -/
def U32.fromBe (raw : U32) : U32 :=
  raw.extractLsb' 0 8 ++ raw.extractLsb' 8 8 ++ raw.extractLsb' 16 8 ++
    raw.extractLsb' 24 8

/-- An index past the columns of a line: it aborts the daemon. -/
structure IndexPanic where
  index : Nat
  length : Nat
  deriving Repr, DecidableEq

namespace DefaultRoute

/-- What is kept of a route. -/
structure Route where
  metric : U32
  iface : List Char
  gateway : U32
  deriving Repr, DecidableEq

/-- `f[index]`. -/
def column
    (columns : List (List Char))
    (index : Nat) :
    Except IndexPanic (List Char) :=
  match columns[index]? with
  | some text => .ok text
  | none => .error ⟨index, columns.length⟩

def zeros : List Char := "00000000".toList

/-- The route of a default line whose gateway and metric are read. -/
def readRoute (columns : List (List Char)) : Except IndexPanic (Option Route) := do
  let gateway ← column columns 2
  match parseHex 32 gateway with
  | none => .ok none
  | some raw => do
      let metric ← column columns 6
      match parseUnsigned 32 metric with
      | .error _ => .ok none
      | .ok metric => do
          let iface ← column columns 0
          .ok (some ⟨metric, iface, U32.fromBe raw⟩)

/-- The `filter_map` over the lines: the tests in the order of the source. -/
def routeOf (line : List Char) : Except IndexPanic (Option Route) :=
  let columns := splitWhitespace line
  if columns.length < 7 then
    .ok none
  else do
    let destination ← column columns 1
    if destination ≠ zeros then
      .ok none
    else do
      let mask ← column columns 7
      if mask ≠ zeros then
        .ok none
      else
        readRoute columns

/-- The lines after the header. -/
def routeLines (text : List Char) : List (List Char) :=
  (lines text).drop 1

/-- `parse_default_route`; `argmin` is the first of the least, as `min_by_key`. -/
def parseDefaultRoute
    (text : List Char) :
    Except IndexPanic (Option (List Char × U32)) := do
  let routes ← (routeLines text).mapM routeOf
  let best := (routes.filterMap id).argmin fun route => route.metric.toNat
  .ok (best.map fun route => (route.iface, route.gateway))

/--
A default route: both its destination and its mask are zero, and its gateway
and its metric parse.
-/
structure Candidate (line : List Char) (route : Route) : Prop where
  destination : (splitWhitespace line)[1]? = some zeros
  mask : (splitWhitespace line)[7]? = some zeros
  gateway :
    ∃ text raw, (splitWhitespace line)[2]? = some text ∧
      parseHex 32 text = some raw ∧ route.gateway = U32.fromBe raw
  metric :
    ∃ text, (splitWhitespace line)[6]? = some text ∧
      parseUnsigned 32 text = .ok route.metric
  iface : (splitWhitespace line)[0]? = some route.iface

/-- The result is the first candidate of least metric, or none is there. -/
def IsFirstLeast
    (routeLines : List (List Char)) :
    Option (List Char × U32) → Prop
  | none => ∀ line ∈ routeLines, ∀ route, ¬ Candidate line route
  | some (iface, gateway) =>
      ∃ before line after route,
        routeLines = before ++ line :: after ∧
        Candidate line route ∧
        iface = route.iface ∧
        gateway = route.gateway ∧
        (∀ earlier ∈ before, ∀ other, Candidate earlier other →
          route.metric.toNat < other.metric.toNat) ∧
        ∀ later ∈ after, ∀ other, Candidate later other →
          route.metric.toNat ≤ other.metric.toNat

/-- A default line that ends just before its mask. -/
def CutBeforeMask (line : List Char) : Prop :=
  (splitWhitespace line).length = 7 ∧ (splitWhitespace line)[1]? = some zeros

instance (line : List Char) : Decidable (CutBeforeMask line) :=
  inferInstanceAs (Decidable (_ ∧ _))

theorem column_of_get
    {columns : List (List Char)}
    {index : Nat}
    {text : List Char}
    (present : columns[index]? = some text) :
    column columns index = .ok text := by
  rw [column, present]

/-- The test of the length lets a line through that has no eighth column. -/
theorem routeOf_cut
    {line : List Char}
    (cut : CutBeforeMask line) :
    routeOf line = .error ⟨7, 7⟩ := by
  obtain ⟨seven, isDefault⟩ := cut
  have long : ¬ (splitWhitespace line).length < 7 := by
    omega
  have noMask : column (splitWhitespace line) 7 = .error ⟨7, 7⟩ := by
    rw [column, List.getElem?_eq_none (by omega), seven]
  rw [routeOf, if_neg long, column_of_get isDefault]
  simp only [bind, Except.bind, ne_eq, not_true_eq_false, if_false, noMask]

/-- A line of at least eight columns is read without a panic. -/
theorem readRoute_ok
    {columns : List (List Char)}
    (long : 8 ≤ columns.length) :
    ∃ read, readRoute columns = .ok read ∧
      ∀ route, read = some route ↔
        (∃ text raw, columns[2]? = some text ∧ parseHex 32 text = some raw ∧
          route.gateway = U32.fromBe raw) ∧
        (∃ text, columns[6]? = some text ∧
          parseUnsigned 32 text = .ok route.metric) ∧
        columns[0]? = some route.iface := by
  obtain ⟨gateway, isGateway⟩ : ∃ text, columns[2]? = some text :=
    ⟨_, List.getElem?_eq_getElem (by omega)⟩
  obtain ⟨metric, isMetric⟩ : ∃ text, columns[6]? = some text :=
    ⟨_, List.getElem?_eq_getElem (by omega)⟩
  obtain ⟨iface, isIface⟩ : ∃ text, columns[0]? = some text :=
    ⟨_, List.getElem?_eq_getElem (by omega)⟩
  rw [readRoute, column_of_get isGateway, column_of_get isMetric,
    column_of_get isIface, isGateway, isMetric, isIface]
  simp only [bind, Except.bind]
  cases parsedGateway : parseHex 32 gateway with
  | none =>
      exact ⟨none, rfl, by simp [parsedGateway]⟩
  | some raw =>
      cases parsedMetric : parseUnsigned 32 metric with
      | error =>
          exact ⟨none, rfl, by simp [parsedMetric]⟩
      | ok value =>
          refine ⟨_, rfl, fun route => ?_⟩
          obtain ⟨number, name, address⟩ := route
          simp only [Option.some.injEq, Route.mk.injEq, parsedGateway,
            parsedMetric, Except.ok.injEq, exists_eq_left', exists_and_left]
          tauto

/-- Every other line is read, and gives its route exactly if it has one. -/
theorem routeOf_ok
    {line : List Char}
    (whole : ¬ CutBeforeMask line) :
    ∃ read, routeOf line = .ok read ∧
      ∀ route, read = some route ↔ Candidate line route := by
  have noRoute
      (fails : ∀ route, ¬ Candidate line route)
      (readsNone : routeOf line = .ok none) :
      ∃ read, routeOf line = .ok read ∧
        ∀ route, read = some route ↔ Candidate line route :=
    ⟨none, readsNone, fun route =>
      iff_of_false (Option.some_ne_none route).symm (fails route)⟩
  by_cases short : (splitWhitespace line).length < 7
  · apply noRoute
    · intro route candidate
      have inside := (List.getElem?_eq_some_iff.mp candidate.mask).1
      omega
    · rw [routeOf, if_pos short]
  obtain ⟨destination, isDestination⟩ :
      ∃ text, (splitWhitespace line)[1]? = some text :=
    ⟨_, List.getElem?_eq_getElem (by omega)⟩
  by_cases toAll : destination = zeros
  · -- The destination is zero, so the line has an eighth column.
    subst toAll
    have long : 8 ≤ (splitWhitespace line).length := by
      by_contra cut
      exact whole ⟨by omega, isDestination⟩
    obtain ⟨mask, isMask⟩ : ∃ text, (splitWhitespace line)[7]? = some text :=
      ⟨_, List.getElem?_eq_getElem (by omega)⟩
    have reads :
        routeOf line =
          if mask ≠ zeros then
            .ok none
          else
            readRoute (splitWhitespace line) := by
      rw [routeOf, if_neg short, column_of_get isDestination,
        column_of_get isMask]
      simp only [bind, Except.bind, ne_eq, not_true_eq_false, if_false]
    by_cases toNone : mask = zeros
    · subst toNone
      obtain ⟨read, reading, gives⟩ := readRoute_ok long
      refine ⟨read, ?_, fun route => (gives route).trans ?_⟩
      · rw [reads, if_neg (not_not.mpr rfl), reading]
      · constructor
        · rintro ⟨gateway, metric, iface⟩
          exact ⟨isDestination, isMask, gateway, metric, iface⟩
        · intro candidate
          exact ⟨candidate.gateway, candidate.metric, candidate.iface⟩
    · apply noRoute
      · intro route candidate
        have isZero := candidate.mask
        rw [isMask] at isZero
        exact toNone (Option.some.inj isZero)
      · rw [reads, if_pos toNone]
  · apply noRoute
    · intro route candidate
      have isZero := candidate.destination
      rw [isDestination] at isZero
      exact toAll (Option.some.inj isZero)
    · rw [routeOf, if_neg short, column_of_get isDestination]
      simp only [bind, Except.bind, ne_eq, toAll, not_false_eq_true, if_true]

/-- What a line gives when it is read without a panic. -/
def found (line : List Char) : Option Route :=
  match routeOf line with
  | .ok read => read
  | .error _ => none

theorem routeOf_eq_found
    {line : List Char}
    (whole : ¬ CutBeforeMask line) :
    routeOf line = .ok (found line) := by
  obtain ⟨read, reads, _⟩ := routeOf_ok whole
  rw [found, reads]

theorem found_iff
    {line : List Char}
    (whole : ¬ CutBeforeMask line)
    (route : Route) :
    found line = some route ↔ Candidate line route := by
  obtain ⟨read, reads, gives⟩ := routeOf_ok whole
  rw [found, reads]
  exact gives route

/-- The lines are all read when none is cut. -/
theorem mapM_routeOf
    {texts : List (List Char)}
    (whole : ∀ line ∈ texts, ¬ CutBeforeMask line) :
    texts.mapM routeOf = .ok (texts.map found) := by
  induction texts with
  | nil =>
      rfl
  | cons line rest inductionHypothesis =>
      obtain ⟨first, others⟩ := List.forall_mem_cons.mp whole
      rw [List.mapM_cons, routeOf_eq_found first, inductionHypothesis others]
      rfl

/-- A line cut before its mask ends the reading. -/
theorem mapM_routeOf_cut
    {texts : List (List Char)}
    {line : List Char}
    (member : line ∈ texts)
    (cut : CutBeforeMask line) :
    ∀ routes, texts.mapM routeOf ≠ .ok routes := by
  intro routes reads
  obtain ⟨read, isRead⟩ := Error.mapM_ok_iff.mp ⟨routes, reads⟩ line member
  rw [routeOf_cut cut] at isRead
  cases isRead

/-- The first of the least, told by what is before it and after it. -/
theorem split_of_argmin
    {routes : List Route}
    {best : Route}
    (isBest : best ∈ routes.argmin fun route => route.metric.toNat) :
    ∃ before after,
      routes = before ++ best :: after ∧
      (∀ earlier ∈ before, best.metric.toNat < earlier.metric.toNat) ∧
      ∀ later ∈ after, best.metric.toNat ≤ later.metric.toNat := by
  obtain ⟨member, least, first⟩ := List.mem_argmin_iff.mp isBest
  obtain ⟨before, after, shape, notBefore⟩ :=
    List.eq_append_cons_of_mem member
  refine ⟨before, after, shape, fun earlier isEarlier => ?_,
    fun later isLater => ?_⟩
  · by_contra notLess
    have inRoutes : earlier ∈ routes := by
      rw [shape]
      exact List.mem_append_left _ isEarlier
    have position := first earlier inRoutes (Nat.le_of_not_lt notLess)
    rw [shape, List.idxOf_append_of_notMem notBefore,
      List.idxOf_append_of_mem isEarlier, List.idxOf_cons_self] at position
    have inside := List.idxOf_lt_length_of_mem isEarlier
    omega
  · apply least
    rw [shape]
    exact List.mem_append_right _ (List.mem_cons_of_mem _ isLater)

/-- Without a cut line, the result is the first default route of least metric. -/
theorem parseDefaultRoute_whole
    {text : List Char}
    (whole : ∀ line ∈ routeLines text, ¬ CutBeforeMask line) :
    ∃ result, parseDefaultRoute text = .ok result ∧
      IsFirstLeast (routeLines text) result := by
  have reads :
      parseDefaultRoute text =
        .ok ((((routeLines text).filterMap found).argmin
          fun route => route.metric.toNat).map
            fun route => (route.iface, route.gateway)) := by
    rw [parseDefaultRoute, mapM_routeOf whole]
    simp only [bind, Except.bind, List.filterMap_map, Function.id_comp]
  refine ⟨_, reads, ?_⟩
  cases best :
      ((routeLines text).filterMap found).argmin
        fun route => route.metric.toNat with
  | none =>
      intro line member route candidate
      have empty := List.argmin_eq_none.mp best
      have noRoute := List.filterMap_eq_nil_iff.mp empty line member
      rw [(found_iff (whole line member) route).mpr candidate] at noRoute
      cases noRoute
  | some route =>
      obtain ⟨before, after, shape, less, least⟩ := split_of_argmin best
      obtain ⟨textsBefore, rest, isSplit, foundBefore, foundRest⟩ :=
        List.filterMap_eq_append_iff.mp shape
      obtain ⟨skipped, line, textsAfter, restShape, skips, isFound, foundAfter⟩ :=
        List.filterMap_eq_cons_iff.mp foundRest
      have isWhole {other : List Char} (member : other ∈ routeLines text) :=
        found_iff (whole other member)
      subst restShape
      refine ⟨textsBefore ++ skipped, line, textsAfter, route, ?_, ?_, rfl, rfl,
        ?_, ?_⟩
      · rw [isSplit, List.append_assoc]
      · refine (isWhole ?_ route).mp isFound
        rw [isSplit]
        simp
      · intro earlier isEarlier other candidate
        have present : earlier ∈ routeLines text := by
          rw [isSplit, ← List.append_assoc]
          exact List.mem_append_left _ isEarlier
        have gives := (isWhole present other).mpr candidate
        rcases List.mem_append.mp isEarlier with old | isSkipped
        · apply less
          rw [← foundBefore]
          exact List.mem_filterMap.mpr ⟨earlier, old, gives⟩
        · rw [skips earlier isSkipped] at gives
          cases gives
      · intro later isLater other candidate
        have present : later ∈ routeLines text := by
          rw [isSplit]
          simp [isLater]
        have gives := (isWhole present other).mpr candidate
        apply least
        rw [← foundAfter]
        exact List.mem_filterMap.mpr ⟨later, isLater, gives⟩

/--
The routing table is read without a panic, to the first default route of
least metric, exactly when no line after the header is a default line that
ends before its mask.
-/
theorem default_route_read_iff (text : List Char) :
    (∃ result, parseDefaultRoute text = .ok result ∧
      IsFirstLeast (routeLines text) result) ↔
      ∀ line ∈ routeLines text, ¬ CutBeforeMask line := by
  constructor
  · rintro ⟨result, reads, _⟩ line member cut
    rw [parseDefaultRoute, Error.bind_ok] at reads
    obtain ⟨routes, isRead, _⟩ := reads
    exact mapM_routeOf_cut member cut routes isRead
  · exact parseDefaultRoute_whole

/-- A header, then a default line of seven columns. -/
def cutTable : List Char :=
  "Iface\nwlan0 00000000 0100430A 0003 0 0 600\n".toList

/-- The seventh column is the last, and the eighth is asked for. -/
theorem cut_table_panics :
    ¬ ∃ result, parseDefaultRoute cutTable = .ok result ∧
      IsFirstLeast (routeLines cutTable) result := by
  rintro ⟨result, reads, _⟩
  have panics : parseDefaultRoute cutTable = .error ⟨7, 7⟩ := by
    decide +kernel
  rw [panics] at reads
  cases reads

/-- Two default routes: the one of least metric is kept. -/
example :
    parseDefaultRoute
      "Iface\nw 00000000 0100430A 3 0 0 600 00000000\ne 00000000 0101A8C0 3 0 0 100 00000000\n".toList =
      .ok (some (['e'], 0xc0a80101)) := by
  decide +kernel

end DefaultRoute

end AiFirewall
