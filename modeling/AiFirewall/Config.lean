import AiFirewall.Common
import AiFirewall.RustText
import AiFirewall.BitPrefix

namespace AiFirewall

/-!
# The configuration file

The settings of `config.toml`, what applies of them under a network profile,
and the check a configuration has to pass before the daemon uses it.  Reading
the TOML text itself is left to a parameter.
-/

open RustText

/-- A port or a range: `22` or `"1714-1764"`. -/
inductive PortSpec where
  | one (port : U16)
  | text (raw : String)
  deriving Repr, DecidableEq

namespace PortSpec

/-- The first and last port of a specification. -/
def ports : PortSpec → Except Error (U16 × U16)
  | .one port =>
      if port = 0 then
        Error.bail "port 0 is not a port"
      else
        .ok (port, port)
  | .text raw => do
      let whole := raw.toList
      let (first, last) := (splitOnce '-' whole).getD (whole, whole)
      let badPort := "bad port " ++ debugText raw
      let first ← Error.withContext badPort (parseNumber 16 (trim first))
      let last ← Error.withContext badPort (parseNumber 16 (trim last))
      if first = 0 ∨ last < first ∨ 4096 ≤ last.toNat - first.toNat then
        Error.bail ("bad port range " ++ debugText raw ++
          " (1-65535, at most 4096 ports)")
      else
        .ok (first, last)

/-- How a specification is shown. -/
def label : PortSpec → String
  | .one port => toString port.toNat
  | .text raw => String.ofList (trim raw.toList)

/-- Whether a port lies in the specification. -/
def covers (spec : PortSpec) (port : U16) : Bool :=
  match spec.ports with
  | .ok (first, last) => first ≤ port && port ≤ last
  | .error _ => false

end PortSpec

/-- The ports from `first` to `last`, both included. -/
def portRange (first last : U16) : List U16 :=
  (List.range' first.toNat (last.toNat + 1 - first.toNat)).map
    (BitVec.ofNat 16)

theorem mem_portRange {first last port : U16} :
    port ∈ portRange first last ↔ first ≤ port ∧ port ≤ last := by
  have firstBound := first.isLt
  have lastBound := last.isLt
  have portBound := port.isLt
  simp only [portRange, List.mem_map, List.mem_range'_1,
    BitVec.le_def]
  constructor
  · rintro ⟨value, inRange, rfl⟩
    simp only [BitVec.toNat_ofNat]
    omega
  · rintro ⟨atLeast, atMost⟩
    exact ⟨port.toNat, by omega, by simp⟩

/-- `Vec::dedup`: drop an element equal to the one after it. -/
def dedup {Element : Type} [DecidableEq Element] :
    List Element → List Element
  | [] => []
  | [element] => [element]
  | first :: second :: rest =>
      if first = second then
        dedup (second :: rest)
      else
        first :: dedup (second :: rest)

theorem mem_dedup
    {Element : Type}
    [DecidableEq Element]
    {element : Element}
    {items : List Element} :
    element ∈ dedup items ↔ element ∈ items := by
  induction items using dedup.induct with
  | case1 =>
      simp [dedup]
  | case2 =>
      simp [dedup]
  | case3 second rest inductionHypothesis =>
      simp [dedup, inductionHypothesis]
  | case4 first second rest different inductionHypothesis =>
      simp [dedup, different, inductionHypothesis]

/-- Every port of a list of specifications, sorted and without repeats. -/
def expand (specs : List PortSpec) : Except Error (List U16) := do
  let ranges ← specs.mapM PortSpec.ports
  let out := ranges.flatMap fun (first, last) => portRange first last
  return dedup (out.insertionSort (· ≤ ·))

/-- A narrower rule: a port, optionally from one network, optionally limited. -/
structure Rule where
  proto : String
  port : PortSpec
  from? : Option String
  limit : Option String
  deriving Repr, DecidableEq

namespace Rule

/-- The limit of a rule: `"6/30s"` is `(6, 30)`. -/
def rate (rule : Rule) : Except Error (Option (U16 × U16)) :=
  match rule.limit with
  | none => .ok none
  | some limit =>
      match splitOnce '/' limit.toList with
      | none =>
          Error.bail ("limit " ++ debugText limit ++ " must look like 6/30s")
      | some (count, window) => do
          let window := trim window
          let (number, factor) : List Char × U32 :=
            match window.getLast? with
            | some 's' => (window.dropLast, 1)
            | some 'm' => (window.dropLast, 60)
            | _ => (window, 1)
          let badLimit := "bad limit " ++ debugText limit
          let count ← Error.withContext badLimit (parseNumber 16 (trim count))
          let number ← Error.withContext badLimit (parseNumber 32 (trim number))
          let secs : U32 := number * factor
          if count = 0 ∨ secs = 0 ∨ 3600 < secs then
            Error.bail ("limit " ++ debugText limit ++
              ": count and window must be above 0, window at most 1h")
          else
            .ok (some (count, secs.setWidth 16))

/-- How a rule is shown. -/
def label (rule : Rule) : String :=
  rule.proto ++ " " ++ rule.port.label ++
    (rule.from?.map (" from " ++ ·)).getD "" ++
    (rule.limit.map (" limit " ++ ·)).getD ""

end Rule

/-- The `[feeds]` settings. -/
structure FeedConfig where
  lists : List String
  urls : List String
  refreshHours : U64
  deriving Repr, DecidableEq

namespace FeedConfig

/-- The feeds of a file that names none. -/
def default : FeedConfig where
  lists := ["spamhaus-drop"]
  urls := []
  refreshHours := 24

end FeedConfig

/-- A network profile: it replaces what it sets. -/
structure Profile where
  networks : List String
  allowTcp : Option (List PortSpec)
  allowUdp : Option (List PortSpec)
  allowPing : Option Bool
  rules : Option (List Rule)
  deriving Repr, DecidableEq

/-- What applies right now: the base settings with the profile on top. -/
structure Policy where
  profile : Option String
  allowTcp : List PortSpec
  allowUdp : List PortSpec
  allowPing : Bool
  rules : List Rule
  deriving Repr, DecidableEq

/-- The `[detector]` settings. -/
structure DetectorConfig where
  windowSecs : U64
  synLimit : U32
  portLimit : U32
  udpLimit : U32
  dropLimit : U32
  deriving Repr, DecidableEq

namespace DetectorConfig

/-- The detector settings of a file that sets none. -/
def default : DetectorConfig where
  windowSecs := 10
  synLimit := 40
  portLimit := 12
  udpLimit := 150
  dropLimit := 30

end DetectorConfig

/-- The `[bans]` settings. -/
structure BanConfig where
  baseSecs : U64
  maxSecs : U64
  forgiveSecs : U64
  deriving Repr, DecidableEq

namespace BanConfig

/-- The ban settings of a file that sets none. -/
def default : BanConfig where
  baseSecs := 120
  maxSecs := 86400
  forgiveSecs := 21600

end BanConfig

/-- An IPv4 network in host order. -/
structure Cidr where
  net : U32
  mask : U32
  deriving Repr, DecidableEq

namespace Cidr

/-- The address part of a network and its prefix length, 32 without one. -/
def splitBits (text : String) : Except Error (List Char × U32) :=
  match splitOnce '/' text.toList with
  | some (address, bits) => do
      let bits ←
        Error.withContext ("bad prefix in " ++ text) (parseNumber 32 bits)
      return (address, bits)
  | none => .ok (text.toList, 32)

/-- Read an address or `address/bits`. -/
def parse (text : String) : Except Error Cidr := do
  let (address, bits) ← splitBits text
  if 32 < bits then
    Error.bail ("bad prefix in " ++ text)
  else
    match parseIpv4 (trim address) with
    | none =>
        .error ["bad address " ++ text, "invalid IPv4 address syntax"]
    | some address =>
        let mask := BitPrefix.prefixMask 32 bits.toNat
        .ok ⟨address &&& mask, mask⟩

/-- The network of one address. -/
def single (ip : U32) : Cidr :=
  ⟨ip, BitVec.allOnes 32⟩

/-- Whether an address lies in the network. -/
def contains (cidr : Cidr) (ip : U32) : Bool :=
  ip &&& cidr.mask = cidr.net

/-- A network as `Cidr::parse` builds it: a prefix mask and no host bits. -/
def WellFormed (cidr : Cidr) : Prop :=
  ∃ length ≤ 32,
    cidr.mask = BitPrefix.prefixMask 32 length ∧
      cidr.net &&& cidr.mask = cidr.net

/-- A parsed network is well formed. -/
theorem wellFormed_of_parse
    {text : String}
    {cidr : Cidr}
    (parsed : parse text = .ok cidr) :
    cidr.WellFormed := by
  unfold parse at parsed
  obtain ⟨⟨address, bits⟩, _, rest⟩ := Error.bind_ok.mp parsed
  dsimp only at rest
  split at rest
  · cases rest
  · rename_i narrow
    split at rest
    · cases rest
    · injection rest with same
      subst same
      have fits : bits.toNat ≤ 32 := by
        simpa [BitVec.lt_def] using narrow
      exact ⟨bits.toNat, fits, rfl,
        BitPrefix.and_prefixMask_and_prefixMask _ _⟩

end Cidr

/-- The feeds that have a name, with their addresses. -/
def knownFeeds : List (String × String) :=
  [("spamhaus-drop", "https://www.spamhaus.org/drop/drop_v4.json"),
    ("firehol-level1",
      "https://raw.githubusercontent.com/firehol/blocklist-ipsets/master/firehol_level1.netset")]

/-- The address of a named feed. -/
def known (name : String) : Option String :=
  (knownFeeds.find? fun feed => feed.1 == name).map Prod.snd

/-- The settings the daemon and the kernel program are driven by. -/
structure Config where
  mode : String
  allowTcp : List PortSpec
  allowUdp : List PortSpec
  allowPing : Bool
  udpStrict : Bool
  trusted : List String
  blocked : List String
  detector : DetectorConfig
  bans : BanConfig
  rules : List Rule
  feeds : FeedConfig
  /-- The profiles in name order. -/
  profiles : List (String × Profile)
  notifyBans : Bool
  posture : Option String
  deriving Repr, DecidableEq

namespace Config

/-- The configuration an empty file stands for. -/
def default : Config where
  mode := "enforce"
  allowTcp := []
  allowUdp := []
  allowPing := true
  udpStrict := true
  trusted := []
  blocked := []
  detector := .default
  bans := .default
  rules := []
  feeds := .default
  profiles := []
  notifyBans := true
  posture := none

/-- The profile of a name. -/
def profile? (cfg : Config) (name : String) : Option Profile :=
  (cfg.profiles.find? fun entry => entry.1 == name).map Prod.snd

/-- The settings that apply under a profile. -/
def policy (cfg : Config) (profile : Option String) : Policy :=
  let found := profile.bind cfg.profile?
  { profile := found.bind fun _ => profile
    allowTcp := (found.bind Profile.allowTcp).getD cfg.allowTcp
    allowUdp := (found.bind Profile.allowUdp).getD cfg.allowUdp
    allowPing := (found.bind Profile.allowPing).getD cfg.allowPing
    rules := (found.bind Profile.rules).getD cfg.rules }

/-- Whether the firewall drops, or only watches. -/
def enforce (cfg : Config) : Bool :=
  cfg.mode == "enforce"

/-- The networks that are never banned. -/
def trustedCidrs (cfg : Config) : Except Error (List Cidr) :=
  cfg.trusted.mapM Cidr.parse

/-- The networks that are always banned. -/
def blockedCidrs (cfg : Config) : Except Error (List Cidr) :=
  cfg.blocked.mapM Cidr.parse

end Config

end AiFirewall
