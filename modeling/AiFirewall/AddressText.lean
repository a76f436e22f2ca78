import AiFirewall.Addr
import AiFirewall.Config

namespace AiFirewall

/-!
# Addresses as text

How an IPv4 address is printed, and that it is read back from what was
printed.  A source prints as its address, or as its /64.
-/

open RustText

/-- A part of a dotted address. -/
def octetText (octet : BitVec 8) : List Char :=
  (Nat.repr octet.toNat).toList

/-- `Ipv4Addr::to_string`. -/
def ipv4Text (ip : U32) : List Char :=
  ['.'].intercalate ((BitPrefix.bytes32 ip).map octetText)

private theorem octet_facts :
    ∀ value < 256,
      parseOctet (Nat.repr value).toList = some (BitVec.ofNat 8 value) ∧
        (Nat.repr value).toList.all Char.isDigit = true := by
  decide +kernel

theorem parseOctet_octetText (octet : BitVec 8) :
    parseOctet (octetText octet) = some octet := by
  simpa [octetText] using (octet_facts octet.toNat octet.isLt).1

theorem isDigit_of_mem_octetText
    {octet : BitVec 8}
    {char : Char}
    (member : char ∈ octetText octet) :
    char.isDigit = true :=
  List.all_eq_true.mp (octet_facts octet.toNat octet.isLt).2 char member

theorem dot_notMem_octetText (octet : BitVec 8) :
    '.' ∉ octetText octet := by
  intro member
  exact absurd (isDigit_of_mem_octetText member) (by decide)

theorem ipv4Text_eq (ip : U32) :
    ipv4Text ip =
      octetText (ip.extractLsb' 24 8) ++ '.' ::
        (octetText (ip.extractLsb' 16 8) ++ '.' ::
          (octetText (ip.extractLsb' 8 8) ++ '.' ::
            octetText (ip.extractLsb' 0 8))) := by
  simp [ipv4Text, BitPrefix.bytes32, List.intercalate]

/-- A printed address is digits and dots. -/
theorem digit_or_dot_of_mem_ipv4Text
    {ip : U32}
    {char : Char}
    (member : char ∈ ipv4Text ip) :
    char.isDigit = true ∨ char = '.' := by
  simp only [ipv4Text_eq, List.mem_append, List.mem_cons] at member
  rcases member with first | isDot | second | isDot | third | isDot | fourth
  · exact Or.inl (isDigit_of_mem_octetText first)
  · exact Or.inr isDot
  · exact Or.inl (isDigit_of_mem_octetText second)
  · exact Or.inr isDot
  · exact Or.inl (isDigit_of_mem_octetText third)
  · exact Or.inr isDot
  · exact Or.inl (isDigit_of_mem_octetText fourth)

theorem count_dot_ipv4Text (ip : U32) :
    (ipv4Text ip).count '.' = 3 := by
  simp [ipv4Text_eq, List.count_eq_zero.mpr (dot_notMem_octetText _)]

/-- What is printed is read back. -/
theorem parseIpv4_ipv4Text (ip : U32) :
    parseIpv4 (ipv4Text ip) = some ip := by
  have pieces :
      (ipv4Text ip).splitOn '.' =
        (BitPrefix.bytes32 ip).map octetText := by
    rw [ipv4Text]
    refine List.splitOn_intercalate '.' ?_ (by simp [BitPrefix.bytes32])
    intro piece member
    obtain ⟨octet, _, isPiece⟩ := List.mem_map.mp member
    subst isPiece
    exact dot_notMem_octetText octet
  have whole :
      ip.extractLsb' 24 8 ++ ip.extractLsb' 16 8 ++ ip.extractLsb' 8 8 ++
        ip.extractLsb' 0 8 = ip := by
    ext index inBounds
    simp
    grind
  rw [parseIpv4, pieces]
  simp only [BitPrefix.bytes32, List.map_cons, List.map_nil,
    parseOctet_octetText]
  exact congrArg some whole

theorem splitOnce_of_notMem
    {separator : Char}
    {text : List Char}
    (absent : separator ∉ text) :
    splitOnce separator text = none := by
  induction text with
  | nil =>
      rfl
  | cons char rest inductionHypothesis =>
      rw [List.mem_cons, not_or] at absent
      simp [splitOnce, Ne.symm absent.1, inductionHypothesis absent.2]

theorem dropWhile_of_solid
    {text : List Char}
    (solid : ∀ char ∈ text, isWhitespace char = false) :
    text.dropWhile isWhitespace = text := by
  cases text with
  | nil =>
      rfl
  | cons char rest =>
      exact List.dropWhile_cons_of_neg
        (Bool.eq_false_iff.mp (solid char List.mem_cons_self))

theorem trim_of_solid
    {text : List Char}
    (solid : ∀ char ∈ text, isWhitespace char = false) :
    trim text = text := by
  have reversed : ∀ char ∈ text.reverse, isWhitespace char = false :=
    fun char member => solid char (List.mem_reverse.mp member)
  rw [trim, dropWhile_of_solid solid, dropWhile_of_solid reversed,
    List.reverse_reverse]

theorem isWhitespace_of_isDigit
    {char : Char}
    (digit : char.isDigit = true) :
    isWhitespace char = false := by
  have range : 48 ≤ char.toNat ∧ char.toNat ≤ 57 := by
    simpa [Char.isDigit, UInt32.le_iff_toNat_le] using digit
  simp only [isWhitespace, Bool.or_eq_false_iff, Bool.and_eq_false_iff,
    decide_eq_false_iff_not, beq_eq_false_iff_ne]
  omega

theorem slash_notMem_ipv4Text (ip : U32) : '/' ∉ ipv4Text ip := by
  intro member
  rcases digit_or_dot_of_mem_ipv4Text member with isDigit | isDot
  · exact absurd isDigit (by decide)
  · exact absurd isDot (by decide)

theorem solid_ipv4Text (ip : U32) :
    ∀ char ∈ ipv4Text ip, isWhitespace char = false := by
  intro char member
  rcases digit_or_dot_of_mem_ipv4Text member with isDigit | isDot
  · exact isWhitespace_of_isDigit isDigit
  · rw [isDot]
    decide

/-- A printed address is read as the network of that one address. -/
theorem Cidr.parse_ipv4Text (ip : U32) :
    Cidr.parse (String.ofList (ipv4Text ip)) = .ok (.single ip) := by
  have whole : BitPrefix.prefixMask 32 32 = BitVec.allOnes 32 := by
    decide
  have split :
      Cidr.splitBits (String.ofList (ipv4Text ip)) =
        .ok (ipv4Text ip, 32) := by
    simp only [Cidr.splitBits, String.toList_ofList,
      splitOnce_of_notMem (slash_notMem_ipv4Text ip)]
  have kept : ip &&& 4294967295#32 = ip :=
    BitVec.and_allOnes
  unfold Cidr.parse
  simp [split, bind, Except.bind, trim_of_solid (solid_ipv4Text ip),
    parseIpv4_ipv4Text,
    Cidr.single, whole, kept]

/-- `Ipv6Addr` of the standard library: its `Display` and its `FromStr`. -/
structure Ipv6Text where
  print : BitVec 128 → List Char
  parse : List Char → Option (BitVec 128)

namespace Src

/-- `v6_prefix`: the upper half of an IPv6 address. -/
def v6Prefix (ip : BitVec 128) : U64 :=
  (ip >>> 64).setWidth 64

/-- `Display`. -/
def display (ipv6 : Ipv6Text) : Src → List Char
  | .v4 ip => ipv4Text ip
  | .v6 networkPrefix =>
      ipv6.print (networkPrefix.setWidth 128 <<< 64) ++ "/64".toList

/-- `FromStr`: an IPv4 address, or an IPv6 address with or without its /64. -/
def fromStr
    (ipv6 : Ipv6Text)
    (text : List Char) :
    Except Error Src :=
  let text := trim text
  let addr := (text.dropSuffix? "/64".toList).getD text
  let refused := Error.bail
    (debugText (String.ofList text) ++
      " is not an IPv4 address or an IPv6 address / prefix")
  match parseIpv4 addr with
  | some ip => if addr = text then .ok (.v4 ip) else refused
  | none =>
      match ipv6.parse addr with
      | some ip => .ok (.v6 (v6Prefix ip))
      | none => refused

end Src

end AiFirewall
