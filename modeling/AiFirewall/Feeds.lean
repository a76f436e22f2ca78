import AiFirewall.ApplyConfig

namespace AiFirewall

/-!
# Blocklist feeds

Public lists of known-bad IPv4 networks: where they come from, how their text
is read, the cached copies on disk and the table of the kernel they end up
in.  The cache knows a list by its name and a copy by its age.
-/

open RustText

namespace Feeds

/-- `RESERVED`: never blocked, whatever a list says. -/
def reservedTexts : List String :=
  ["0.0.0.0/8", "10.0.0.0/8", "100.64.0.0/10", "127.0.0.0/8",
    "169.254.0.0/16", "172.16.0.0/12", "192.0.0.0/24", "192.168.0.0/16",
    "198.18.0.0/15", "224.0.0.0/4", "240.0.0.0/4"]

def reserved : List Cidr :=
  reservedTexts.filterMap fun text => (Cidr.parse text).toOption

/-- Every reserved network is one that parses. -/
example : reserved.length = reservedTexts.length := by
  decide +kernel

def overlaps (first second : Cidr) : Bool :=
  first.contains second.net || second.contains first.net

/-- What may stand in an address or a network. -/
def isTokenChar (char : Char) : Bool :=
  char.isDigit || char == '.' || char == '/'

/-- The words of a line, without its comment. -/
def tokens (line : List Char) : List (List Char) :=
  (line.takeWhile fun char => char != '#' && char != ';').splitOnP
    fun char => !isTokenChar char

/-- The network a word stands for, if it may be blocked. -/
def network?
    (protectedNets : List Cidr)
    (token : List Char) : Option Cidr :=
  if token.count '.' ≠ 3 then
    none
  else
    match Cidr.parse (String.ofList token) with
    | .error _ => none
    | .ok cidr =>
        -- No sane list blocks a sixteenth of the internet.
        if BitPrefix.leadingOnes cidr.mask < 8 ∨
            (reserved ++ protectedNets).any (overlaps · cidr) then
          none
        else
          some cidr

/-- The order of `sort_by_key(|c| (c.net, c.mask))`. -/
def NetLE (first second : Cidr) : Prop :=
  first.net < second.net ∨
    first.net = second.net ∧ first.mask ≤ second.mask

instance : DecidableRel NetLE :=
  fun first second =>
    inferInstanceAs
      (Decidable (first.net < second.net ∨
        first.net = second.net ∧ first.mask ≤ second.mask))

/-- Sorted, each network once. -/
def sorted (nets : List Cidr) : List Cidr :=
  dedup (nets.insertionSort NetLE)

@[simp] theorem mem_sorted
    {nets : List Cidr}
    {net : Cidr} :
    net ∈ sorted nets ↔ net ∈ nets := by
  rw [sorted, mem_dedup]
  exact (List.perm_insertionSort NetLE nets).mem_iff

/-- Every IPv4 network in a text, minus reserved and protected space. -/
def parse (text : String) (protectedNets : List Cidr) : List Cidr :=
  sorted
    ((lines text.toList).flatMap fun line =>
      (tokens line).filterMap (network? protectedNets))

example :
    parse "1.10.16.0/20 ; 10.0.0.0/8\n5.6.7.8 0.0.0.0/0\n" [] =
      [⟨0x010a1000, 0xfffff000⟩, ⟨0x05060708, 0xffffffff⟩] := by
  decide +kernel

theorem network?_eq_some
    {protectedNets : List Cidr}
    {token : List Char}
    {net : Cidr}
    (found : network? protectedNets token = some net) :
    Cidr.parse (String.ofList token) = .ok net ∧
      ∀ spared ∈ reserved ++ protectedNets,
        overlaps spared net = false := by
  unfold network? at found
  split at found
  · cases found
  · split at found
    · cases found
    · rename_i cidr parsed
      split at found
      · cases found
      · rename_i kept
        injection found with same
        subst same
        refine ⟨parsed, fun spared member => ?_⟩
        rw [not_or, List.any_eq_true] at kept
        exact Bool.eq_false_iff.mpr fun touches =>
          kept.2 ⟨spared, member, touches⟩

/-- What a text gives is well formed and stays clear of spared space. -/
theorem spares_of_mem_parse
    {text : String}
    {protectedNets : List Cidr}
    {net : Cidr}
    (member : net ∈ parse text protectedNets) :
    net.WellFormed ∧
      ∀ spared ∈ reserved ++ protectedNets,
        overlaps spared net = false := by
  rw [parse, mem_sorted, List.mem_flatMap] at member
  obtain ⟨line, _, inLine⟩ := member
  obtain ⟨token, _, found⟩ := List.mem_filterMap.mp inLine
  obtain ⟨parsed, spares⟩ := network?_eq_some found
  exact ⟨Cidr.wellFormed_of_parse parsed, spares⟩

/-- A cached copy of a list. -/
structure CachedFile where
  /-- What it says; `none` when that is not UTF-8. -/
  text : Option String
  /-- Nanoseconds of the Unix epoch. -/
  modified : Nat
  /-- The URL it was downloaded from, which nothing on disk records. -/
  origin : String
  deriving Repr, DecidableEq

/-- The files under `DIR`, by path. -/
abbrev Cache := Table String CachedFile

structure FeedState where
  name : String
  entries : Nat
  /-- Unix time of the cached copy, 0 if there is none. -/
  updatedUnix : U64
  error : Option String
  deriving Repr, DecidableEq

/-- A character of a file name. -/
def safeChar (char : Char) : Char :=
  if char.isAlphanum || char == '-' then char else '_'

def cachePath (name : String) : String :=
  "/var/lib/ai-firewall/feeds/" ++
    String.ofList (name.toList.map safeChar) ++ ".txt"

/-- How old a copy is; a time in the future is none. -/
def age (now : Nat) (file : CachedFile) : Option Nat :=
  if file.modified ≤ now then
    some (now - file.modified)
  else
    none

/-- Name and URL of everything the config asks for, own URLs by position. -/
def sources (cfg : FeedConfig) : List (String × String) :=
  (cfg.lists.filterMap fun name =>
      (known name).map fun url => (name, url)) ++
    cfg.urls.zipIdx.map fun (url, index) =>
      ("custom-" ++ toString (index + 1), url)

/-- The age at which a copy is downloaded anew, in nanoseconds. -/
def maxAge (cfg : FeedConfig) : Nat :=
  (umax cfg.refreshHours 1 * 3600).toNat * 1000000000

/-- One run of `curl`, and the renaming of what it wrote. -/
structure Download where
  /-- What the URL gave, if that worked; the inner `none` is no UTF-8. -/
  fetched : Option (Option String)
  renamed : Bool
  finished : Nat
  deriving Repr, DecidableEq

/-- Whether `refresh` leaves a copy as it is. -/
def isFresh
    (cfg : FeedConfig)
    (force : Bool)
    (now : Nat)
    (cache : Cache)
    (name : String) : Bool :=
  !force &&
    ((cache.lookup (cachePath name)).bind (age now)).any (· < maxAge cfg)

/-- The body of the loop of `refresh`: one source, and its result. -/
def refreshSource
    (cfg : FeedConfig)
    (force : Bool)
    (now : Nat)
    (download : Download)
    (cache : Cache)
    (source : String × String) :
    Cache × Option (String × Option String) :=
  if isFresh cfg force now cache source.1 then
    (cache, none)
  else
    match download.fetched, download.renamed with
    | some text, true =>
        (cache.insert (cachePath source.1)
            ⟨text, download.finished, source.2⟩,
          some (source.1, none))
    | _, _ => (cache, some (source.1, some "download failed"))

/-- `read_to_string` of a cached copy, empty when it cannot be read. -/
def cachedText (cache : Cache) (name : String) : String :=
  ((cache.lookup (cachePath name)).bind CachedFile.text).getD ""

/-- What `load` makes of one source. -/
def feedState
    (protectedNets : List Cidr)
    (errors : List (String × Option String))
    (cache : Cache)
    (name : String) : FeedState where
  name := name
  entries := (parse (cachedText cache name) protectedNets).length
  updatedUnix :=
    match cache.lookup (cachePath name) with
    | some file => BitVec.ofNat 64 (file.modified / 1000000000)
    | none => 0
  error := (errors.find? fun error => error.1 == name).bind Prod.snd

/-- The networks of all cached lists, and the state of each list. -/
def load
    (cfg : FeedConfig)
    (protectedNets : List Cidr)
    (errors : List (String × Option String))
    (cache : Cache) : List Cidr × List FeedState :=
  (sorted
      ((sources cfg).flatMap fun source =>
        parse (cachedText cache source.1) protectedNets),
    (sources cfg).map fun source =>
      feedState protectedNets errors cache source.1)

theorem mem_load
    {cfg : FeedConfig}
    {protectedNets : List Cidr}
    {errors : List (String × Option String)}
    {cache : Cache}
    {net : Cidr} :
    net ∈ (load cfg protectedNets errors cache).1 ↔
      ∃ source ∈ sources cfg,
        net ∈ parse (cachedText cache source.1) protectedNets := by
  rw [load, mem_sorted, List.mem_flatMap]

end Feeds

/-- `FEEDS`, and the networks the daemon takes to be in it. -/
structure FeedTable where
  trie : PrefixTrie 131072
  /-- `feed_nets`, as network and mask. -/
  nets : HashSet (U32 × U32)

/-- The trie node of a network. -/
def feedKey (net : U32 × U32) : List Bool :=
  triePrefix (BitPrefix.leadingOnes net.2) (BitPrefix.bytes32 net.1)

/-- The trie node of a well-formed network holds its leading bits. -/
theorem feedKey_eq
    {net mask : U32}
    {length : Nat}
    (fits : length ≤ 32)
    (isMask : mask = BitPrefix.prefixMask 32 length) :
    feedKey (net, mask) = (BitPrefix.bits net).take length := by
  rw [feedKey, triePrefix, BitPrefix.bitsOfBytes_bytes32, isMask,
    BitPrefix.leadingOnes_prefixMask fits]

/-- The kernel's lookup hits a network exactly for the addresses in it. -/
theorem feedKey_prefix_iff
    {net : Cidr}
    (wellFormed : net.WellFormed)
    (address : U32) :
    feedKey (net.net, net.mask) <+:
        triePrefix 32 (BitPrefix.bytes32 address) ↔
      net.contains address = true := by
  obtain ⟨length, fits, isMask, masked⟩ := wellFormed
  have whole :
      triePrefix 32 (BitPrefix.bytes32 address) =
        BitPrefix.bits address := by
    rw [triePrefix, BitPrefix.bitsOfBytes_bytes32]
    exact List.take_of_length_le (by simp)
  have ownLength :
      ((BitPrefix.bits net.net).take length).length = length := by
    simpa using fits
  rw [feedKey_eq fits isMask, whole, List.prefix_iff_eq_take, ownLength,
    ← BitPrefix.and_prefixMask_eq_iff fits, ← isMask, masked,
    Cidr.contains, decide_eq_true_eq]
  exact eq_comm

/-- Two well-formed networks with one trie node are the same. -/
theorem feedKey_injective
    {first second : Cidr}
    (firstFormed : first.WellFormed)
    (secondFormed : second.WellFormed)
    (same :
      feedKey (first.net, first.mask) = feedKey (second.net, second.mask)) :
    first = second := by
  obtain ⟨firstLength, firstFits, firstMask, firstMasked⟩ := firstFormed
  obtain ⟨secondLength, secondFits, secondMask, secondMasked⟩ := secondFormed
  rw [feedKey_eq firstFits firstMask, feedKey_eq secondFits secondMask]
    at same
  have sameLength : firstLength = secondLength := by
    simpa [firstFits, secondFits] using congrArg List.length same
  subst sameLength
  have sameMask : first.mask = second.mask :=
    firstMask.trans secondMask.symm
  have sameNet : first.net = second.net := by
    rw [← firstMasked, ← secondMasked, ← sameMask, firstMask]
    exact (BitPrefix.and_prefixMask_eq_iff firstFits _ _).mpr same
  cases first
  cases second
  exact congrArg₂ Cidr.mk sameNet sameMask

namespace FeedTable

/-- A map of a new daemon. -/
def fresh : FeedTable where
  trie := .empty
  nets := .empty

def removeNet
    (trie : PrefixTrie 131072)
    (net : U32 × U32) : PrefixTrie 131072 :=
  (trie.remove? (feedKey net)).getD trie

/-- A network that does not fit is counted. -/
def insertNet
    (state : PrefixTrie 131072 × Nat)
    (net : U32 × U32) : PrefixTrie 131072 × Nat :=
  match state.1.insert? (feedKey net) with
  | some trie => (trie, state.2)
  | none => (state.1, state.2 + 1)

/-- Bring the trie to the wanted networks; with how many did not fit. -/
def update
    (order : IterOrder)
    (wanted : HashSet (U32 × U32))
    (table : FeedTable) : FeedTable × Nat :=
  let removed :=
    (order.visit (table.nets.difference wanted)).foldl removeNet table.trie
  let inserted :=
    (order.visit (wanted.difference table.nets)).foldl insertNet
      (removed, 0)
  (⟨inserted.1, wanted⟩, inserted.2)

theorem mem_removeNet
    {trie : PrefixTrie 131072}
    {net : U32 × U32}
    {key : List Bool} :
    key ∈ (removeNet trie net).prefixes ↔
      key ≠ feedKey net ∧ key ∈ trie.prefixes := by
  unfold removeNet
  cases removed : trie.remove? (feedKey net) with
  | some changed =>
      exact PrefixTrie.mem_of_remove? removed key
  | none =>
      have absent : feedKey net ∉ trie.prefixes := by
        intro present
        simp [PrefixTrie.remove?, present] at removed
      exact ⟨fun member => ⟨fun same => absent (same ▸ member), member⟩,
        And.right⟩

/-- A removal that goes wrong had nothing to remove. -/
theorem mem_foldl_removeNet
    {nets : List (U32 × U32)}
    {trie : PrefixTrie 131072}
    {key : List Bool} :
    key ∈ (nets.foldl removeNet trie).prefixes ↔
      (∀ net ∈ nets, key ≠ feedKey net) ∧ key ∈ trie.prefixes := by
  induction nets generalizing trie with
  | nil =>
      simp
  | cons net rest inductionHypothesis =>
      rw [List.foldl_cons, inductionHypothesis, mem_removeNet,
        List.forall_mem_cons]
      tauto

/-- An insertion adds its own network or nothing. -/
theorem mem_insertNet_or
    {state : PrefixTrie 131072 × Nat}
    {net : U32 × U32}
    {key : List Bool}
    (member : key ∈ (insertNet state net).1.prefixes) :
    key = feedKey net ∨ key ∈ state.1.prefixes := by
  unfold insertNet at member
  split at member
  · rename_i accepted
    exact (PrefixTrie.mem_of_insert? accepted key).mp member
  · exact Or.inr member

theorem mem_foldl_insertNet_or
    {nets : List (U32 × U32)}
    {state : PrefixTrie 131072 × Nat}
    {key : List Bool}
    (member : key ∈ (nets.foldl insertNet state).1.prefixes) :
    (∃ net ∈ nets, key = feedKey net) ∨ key ∈ state.1.prefixes := by
  induction nets generalizing state with
  | nil =>
      exact Or.inr member
  | cons net rest inductionHypothesis =>
      rcases inductionHypothesis member with ⟨later, inRest, isKey⟩ | before
      · exact Or.inl ⟨later, List.mem_cons_of_mem net inRest, isKey⟩
      · rcases mem_insertNet_or before with isNew | already
        · exact Or.inl ⟨net, List.mem_cons_self, isNew⟩
        · exact Or.inr already

/-- The trie never holds more than the daemon believes. -/
def Within (table : FeedTable) : Prop :=
  ∀ key ∈ table.trie.prefixes, ∃ net ∈ table.nets, key = feedKey net

theorem within_fresh : Within fresh := by
  intro key member
  cases member

/-- An update keeps what is wanted of the trie and adds wanted networks. -/
theorem within_update
    {order : IterOrder}
    {wanted : HashSet (U32 × U32)}
    {table : FeedTable}
    (within : table.Within) :
    (table.update order wanted).1.Within := by
  intro key member
  rcases mem_foldl_insertNet_or member with ⟨net, visited, isKey⟩ | kept
  · rw [IterOrder.mem_visit, HashSet.mem_difference] at visited
    exact ⟨net, visited.1, isKey⟩
  · obtain ⟨spared, before⟩ := mem_foldl_removeNet.mp kept
    obtain ⟨net, known, isKey⟩ := within key before
    refine ⟨net, ?_, isKey⟩
    by_contra unwanted
    refine spared net ?_ isKey
    rw [IterOrder.mem_visit, HashSet.mem_difference]
    exact ⟨known, unwanted⟩

end FeedTable

/-- What `apply_feeds` reads. -/
structure FeedInput where
  cfg : Config
  /-- `net::auto_protected()`. -/
  autoProtected : List Cidr
  results : List (String × Option String)
  cache : Feeds.Cache
  order : IterOrder

namespace FeedInput

def protectedNets (input : FeedInput) : List Cidr :=
  input.autoProtected ++
    match input.cfg.trustedCidrs with
    | .ok cidrs => cidrs
    | .error _ => []

/-- The networks the cached lists give. -/
def nets (input : FeedInput) : List Cidr :=
  (Feeds.load input.cfg.feeds input.protectedNets input.results
    input.cache).1

def wanted (input : FeedInput) : HashSet (U32 × U32) :=
  .ofList (input.nets.map fun cidr => (cidr.net, cidr.mask))

/-- The wanted networks are those that some source of the cache gives. -/
theorem mem_wanted
    {input : FeedInput}
    {net : Cidr} :
    (net.net, net.mask) ∈ input.wanted ↔ net ∈ input.nets := by
  rw [wanted, HashSet.mem_ofList, List.mem_map]
  constructor
  · rintro ⟨⟨address, mask⟩, member, same⟩
    injection same with sameAddress sameMask
    subst sameAddress
    subst sameMask
    exact member
  · intro member
    exact ⟨net, member, rfl⟩

/-- A wanted network is well formed and touches nothing protected. -/
theorem spares_of_mem_nets
    {input : FeedInput}
    {net : Cidr}
    (member : net ∈ input.nets) :
    net.WellFormed ∧
      ∀ spared ∈ Feeds.reserved ++ input.protectedNets,
        Feeds.overlaps spared net = false := by
  obtain ⟨_, _, inText⟩ := Feeds.mem_load.mp member
  exact Feeds.spares_of_mem_parse inText

end FeedInput

/-- Load the cached lists into the kernel; with the state of each list. -/
def applyFeeds
    (input : FeedInput)
    (table : FeedTable) : FeedTable × List Feeds.FeedState :=
  ((table.update input.order input.wanted).1,
    (Feeds.load input.cfg.feeds input.protectedNets input.results
      input.cache).2)

end AiFirewall
