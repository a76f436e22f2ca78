import AiFirewall.AddressText
import AiFirewall.BanState

namespace AiFirewall

/-!
# The text of the state file

Every source in the state file is a text: it is written by `Display` and read
back by `FromStr`.  The JSON around it is written and read by a library, which
is a parameter; so are the two functions for an IPv6 address.  One source that
cannot be read spoils the whole file.
-/

open RustText

/-- A saved ban as JSON has it: its source is a text. -/
structure SavedBanText where
  ip : List Char
  expiresUnix : U64
  reason : String
  source : String
  strikes : U32
  deriving Repr, DecidableEq

structure SavedOffenderText where
  ip : List Char
  strikes : U32
  lastBanUnix : U64
  deriving Repr, DecidableEq

/-- The state file as JSON has it. -/
structure SavedText where
  bans : List SavedBanText
  offenders : List SavedOffenderText
  deriving Repr, DecidableEq

/-- `serde_json`: its `to_vec_pretty` and its `from_str`. -/
structure Json where
  toVecPretty : SavedText → List Char
  fromStr : List Char → Option SavedText

namespace SavedBan

/-- `Serialize` of a ban. -/
def toText (ipv6 : Ipv6Text) (ban : SavedBan) : SavedBanText where
  ip := ban.ip.display ipv6
  expiresUnix := ban.expiresUnix
  reason := ban.reason
  source := ban.source
  strikes := ban.strikes

/-- `Deserialize` of a ban. -/
def ofText (ipv6 : Ipv6Text) (text : SavedBanText) :
    Except Error SavedBan := do
  let ip ← Src.fromStr ipv6 text.ip
  return ⟨ip, text.expiresUnix, text.reason, text.source, text.strikes⟩

end SavedBan

namespace SavedOffender

def toText (ipv6 : Ipv6Text) (offender : SavedOffender) :
    SavedOffenderText where
  ip := offender.ip.display ipv6
  strikes := offender.strikes
  lastBanUnix := offender.lastBanUnix

def ofText (ipv6 : Ipv6Text) (text : SavedOffenderText) :
    Except Error SavedOffender := do
  let ip ← Src.fromStr ipv6 text.ip
  return ⟨ip, text.strikes, text.lastBanUnix⟩

end SavedOffender

namespace Saved

def toText (ipv6 : Ipv6Text) (saved : Saved) : SavedText where
  bans := saved.bans.map (SavedBan.toText ipv6)
  offenders := saved.offenders.map (SavedOffender.toText ipv6)

def ofText (ipv6 : Ipv6Text) (text : SavedText) : Except Error Saved := do
  let bans ← text.bans.mapM (SavedBan.ofText ipv6)
  let offenders ← text.offenders.mapM (SavedOffender.ofText ipv6)
  return ⟨bans, offenders⟩

/-- `Saved::store`: the text of the state file. -/
def store (json : Json) (ipv6 : Ipv6Text) (saved : Saved) : List Char :=
  json.toVecPretty (saved.toText ipv6)

/-- `Saved::load`: a file that is missing or cannot be read counts as empty. -/
def load
    (json : Json)
    (ipv6 : Ipv6Text)
    (file : Option (List Char)) : Saved :=
  ((file.bind json.fromStr).bind fun text =>
    (ofText ipv6 text).toOption).getD default

end Saved

/--
The standard library reads an IPv6 address back from its own text, and that
text is no IPv4 address: it has colons in it, and no white space.
-/
structure Ipv6Text.ReadsBack
    (ipv6 : Ipv6Text)
    (ip : BitVec 128) : Prop where
  parse : ipv6.parse (ipv6.print ip) = some ip
  colon : ':' ∈ ipv6.print ip
  solid : ∀ char ∈ ipv6.print ip, isWhitespace char = false

/-- What is asked of the standard library for the text of a source. -/
def Src.ReadsBack (ipv6 : Ipv6Text) : Src → Prop
  | .v4 _ => True
  | .v6 networkPrefix =>
      ipv6.ReadsBack (networkPrefix.setWidth 128 <<< 64)

/-- A number has digits only. -/
theorem digit_of_parseDigits
    {width total result : Nat}
    {text : List Char}
    (parsed : parseDigits width total text = .ok result)
    {char : Char}
    (member : char ∈ text) :
    digit? char ≠ none := by
  induction text generalizing total with
  | nil =>
      cases member
  | cons first rest inductionHypothesis =>
      rw [parseDigits] at parsed
      cases isDigit : digit? first with
      | none =>
          rw [isDigit] at parsed
          cases parsed
      | some digit =>
          rw [isDigit] at parsed
          dsimp only at parsed
          split at parsed
          · rcases List.mem_cons.mp member with isFirst | inRest
            · rw [isFirst, isDigit]
              exact Option.some_ne_none digit
            · exact inductionHypothesis parsed inRest
          · cases parsed

/-- No octet has a colon in it. -/
theorem parseOctet_of_colon
    {text : List Char}
    (colon : ':' ∈ text) :
    parseOctet text = none := by
  unfold parseOctet
  split
  · rfl
  · split
    · rename_i value parsed
      exact absurd (by decide) (digit_of_parseDigits parsed colon)
    · rfl

/-- What is joined comes from a piece or from what stands between them. -/
theorem mem_of_mem_intercalate
    {separator char : Char}
    {pieces : List (List Char)}
    (member : char ∈ [separator].intercalate pieces) :
    char = separator ∨ ∃ piece ∈ pieces, char ∈ piece := by
  induction pieces with
  | nil =>
      cases member
  | cons piece rest inductionHypothesis =>
      by_cases isLast : rest = []
      · subst isLast
        rw [List.intercalate_singleton] at member
        exact .inr ⟨piece, List.mem_singleton.mpr rfl, member⟩
      · rw [List.intercalate_cons_of_ne_nil isLast, List.mem_append,
          List.mem_append, List.mem_singleton] at member
        rcases member with (inPiece | isSeparator) | inRest
        · exact .inr ⟨piece, List.mem_cons_self, inPiece⟩
        · exact .inl isSeparator
        · rcases inductionHypothesis inRest with
            isSeparator | ⟨other, inOthers, inOther⟩
          · exact .inl isSeparator
          · exact .inr ⟨other, List.mem_cons_of_mem _ inOthers, inOther⟩

/-- A text with a colon is no IPv4 address. -/
theorem parseIpv4_of_colon
    {text : List Char}
    (colon : ':' ∈ text) :
    parseIpv4 text = none := by
  have joined : ['.'].intercalate (text.splitOn '.') = text :=
    List.intercalate_splitOn '.'
  rw [← joined] at colon
  obtain isDot | ⟨piece, member, inPiece⟩ := mem_of_mem_intercalate colon
  · exact absurd isDot (by decide)
  have unread : none ∈ (text.splitOn '.').map parseOctet :=
    List.mem_map.mpr ⟨piece, member, parseOctet_of_colon inPiece⟩
  unfold parseIpv4
  split
  · rename_i shape
    rw [shape] at unread
    simp at unread
  · rfl

/-- The upper half of the address that a /64 prints is its prefix. -/
theorem Src.v6Prefix_shifted (networkPrefix : U64) :
    v6Prefix (networkPrefix.setWidth 128 <<< 64) = networkPrefix := by
  apply BitVec.eq_of_getLsbD_eq
  intro index inBounds
  simp [v6Prefix, inBounds]
  grind

/-- What `Display` writes for a source is what `FromStr` reads. -/
theorem Src.fromStr_display
    {ipv6 : Ipv6Text}
    {source : Src}
    (readsBack : source.ReadsBack ipv6) :
    fromStr ipv6 (source.display ipv6) = .ok source := by
  cases source with
  | v4 ip =>
      have noSuffix : (ipv4Text ip).dropSuffix? "/64".toList = none := by
        rw [Option.eq_none_iff_forall_ne_some]
        intro rest dropped
        obtain ⟨suffix, shape, isSuffix⟩ :=
          List.dropSuffix?_eq_some_iff.mp dropped
        refine slash_notMem_ipv4Text ip ?_
        rw [shape, eq_of_beq isSuffix]
        simp
      simp only [fromStr, display, trim_of_solid (solid_ipv4Text ip),
        noSuffix, Option.getD_none, parseIpv4_ipv4Text, if_true]
  | v6 networkPrefix =>
      obtain ⟨parse, colon, solid⟩ := readsBack
      generalize isAddress :
        networkPrefix.setWidth 128 <<< 64 = address at parse colon solid
      have suffixSolid :
          ∀ char ∈ "/64".toList, isWhitespace char = false := by
        simp [isWhitespace]
      have solidText :
          ∀ char ∈ ipv6.print address ++ "/64".toList,
            isWhitespace char = false := by
        intro char member
        rcases List.mem_append.mp member with inAddress | inSuffix
        · exact solid char inAddress
        · exact suffixSolid char inSuffix
      have suffix :
          (ipv6.print address ++ "/64".toList).dropSuffix? "/64".toList =
            some (ipv6.print address) :=
        List.dropSuffix?_eq_some_iff.mpr ⟨_, rfl, by decide⟩
      have upper : v6Prefix address = networkPrefix := by
        rw [← isAddress, v6Prefix_shifted]
      simp only [fromStr, display, isAddress, trim_of_solid solidText,
        suffix, Option.getD_some, parseIpv4_of_colon colon, parse, upper]

/-- What the library is asked for: it reads back what it has written. -/
def Json.ReadsBack (json : Json) (text : SavedText) : Prop :=
  json.fromStr (json.toVecPretty text) = some text

namespace Saved

variable {json : Json} {ipv6 : Ipv6Text} {saved : Saved}

/-- A list is collected unchanged when every item is read back. -/
theorem mapM_map_ok
    {Failure Item Text : Type}
    {write : Item → Text}
    {read : Text → Except Failure Item}
    {items : List Item}
    (readBack : ∀ item ∈ items, read (write item) = .ok item) :
    (items.map write).mapM read = .ok items := by
  induction items with
  | nil =>
      rfl
  | cons item rest inductionHypothesis =>
      rw [List.map_cons, List.mapM_cons,
        readBack item List.mem_cons_self,
        inductionHypothesis fun other member =>
          readBack other (List.mem_cons_of_mem _ member)]
      rfl

theorem ofText_toText
    (bans : ∀ ban ∈ saved.bans, ban.ip.ReadsBack ipv6)
    (offenders :
      ∀ offender ∈ saved.offenders, offender.ip.ReadsBack ipv6) :
    ofText ipv6 (saved.toText ipv6) = .ok saved := by
  have bansRead :
      (saved.bans.map (SavedBan.toText ipv6)).mapM
        (SavedBan.ofText ipv6) = .ok saved.bans := by
    refine mapM_map_ok fun ban member => ?_
    rw [SavedBan.ofText, SavedBan.toText,
      Src.fromStr_display (bans ban member)]
    rfl
  have offendersRead :
      (saved.offenders.map (SavedOffender.toText ipv6)).mapM
        (SavedOffender.ofText ipv6) = .ok saved.offenders := by
    refine mapM_map_ok fun offender member => ?_
    rw [SavedOffender.ofText, SavedOffender.toText,
      Src.fromStr_display (offenders offender member)]
    rfl
  rw [ofText, toText, bansRead, offendersRead]
  rfl

/-- The state file is loaded as it was stored. -/
theorem load_store
    (bans : ∀ ban ∈ saved.bans, ban.ip.ReadsBack ipv6)
    (offenders :
      ∀ offender ∈ saved.offenders, offender.ip.ReadsBack ipv6)
    (readsBack : json.ReadsBack (saved.toText ipv6)) :
    load json ipv6 (some (store json ipv6 saved)) = saved := by
  unfold Json.ReadsBack at readsBack
  rw [load, store, Option.bind_some, readsBack, Option.bind_some,
    ofText_toText bans offenders]
  rfl

end Saved

end AiFirewall
