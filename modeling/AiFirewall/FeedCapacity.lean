import AiFirewall.AddressText
import AiFirewall.Feeds
import AiFirewall.Runs

namespace AiFirewall

/-!
# The feed table and its capacity

`apply_feeds` works on the difference to what it remembers and forgets what
it could not insert.  While the wanted networks fit, the trie holds exactly
what the daemon believes; the first list that is too long breaks that.
-/

namespace FeedTable

/-- The trie holds exactly the networks in `feed_nets`. -/
def InStep (table : FeedTable) : Prop :=
  ∀ key,
    key ∈ table.trie.prefixes ↔ ∃ net ∈ table.nets, key = feedKey net

/-- The remembered networks came from parsed lists. -/
def Parsed (table : FeedTable) : Prop :=
  ∀ net ∈ table.nets, (⟨net.1, net.2⟩ : Cidr).WellFormed

theorem nodup_keys
    {table : FeedTable}
    (parsed : table.Parsed) :
    (table.nets.elems.map feedKey).Nodup := by
  refine List.Nodup.map_on ?_ table.nets.nodup
  intro first firstMember second secondMember same
  have sameNet :
      (⟨first.1, first.2⟩ : Cidr) = ⟨second.1, second.2⟩ :=
    feedKey_injective (parsed first firstMember)
      (parsed second secondMember) same
  injection sameNet with sameAddress sameMask
  exact Prod.ext sameAddress sameMask

/-- In step, the reported count is the number of nodes of the trie. -/
theorem InStep.reported
    {table : FeedTable}
    (inStep : table.InStep)
    (parsed : table.Parsed) :
    table.trie.prefixes.length = table.nets.elems.length := by
  have sameKeys :
      table.trie.prefixes.Perm (table.nets.elems.map feedKey) := by
    refine (List.perm_ext_iff_of_nodup table.trie.nodup
      (nodup_keys parsed)).mpr fun key => ?_
    rw [inStep key, List.mem_map]
    constructor
    · rintro ⟨net, member, isKey⟩
      exact ⟨net, member, isKey.symm⟩
    · rintro ⟨net, member, isKey⟩
      exact ⟨net, member, isKey.symm⟩
  simpa using sameKeys.length_eq

/-- A trie inside a short list of keys takes every key of the list. -/
theorem insertNet_of_room
    {keys : List (List Bool)}
    (short : keys.length ≤ 131072)
    {state : PrefixTrie 131072 × Nat}
    (inside : ∀ key ∈ state.1.prefixes, key ∈ keys)
    {net : U32 × U32}
    (isKey : feedKey net ∈ keys) :
    ∃ trie,
      insertNet state net = (trie, state.2) ∧
        ∀ key,
          key ∈ trie.prefixes ↔
            key = feedKey net ∨ key ∈ state.1.prefixes := by
  cases inserted : state.1.insert? (feedKey net) with
  | some trie =>
      exact ⟨trie, by rw [insertNet, inserted],
        PrefixTrie.mem_of_insert? inserted⟩
  | none =>
      exfalso
      have absent : feedKey net ∉ state.1.prefixes := by
        intro present
        simp [PrefixTrie.insert?, present] at inserted
      have full : ¬state.1.prefixes.length < 131072 := by
        rw [← PrefixTrie.insert?_isSome_of_absent absent, inserted]
        simp
      have distinct : (feedKey net :: state.1.prefixes).Nodup :=
        List.nodup_cons.mpr ⟨absent, state.1.nodup⟩
      have bounded :=
        (distinct.subperm (List.cons_subset.mpr ⟨isKey, inside⟩)).length_le
      rw [List.length_cons] at bounded
      omega

theorem foldl_insertNet_of_room
    {keys : List (List Bool)}
    (short : keys.length ≤ 131072)
    {nets : List (U32 × U32)}
    (areKeys : ∀ net ∈ nets, feedKey net ∈ keys)
    (state : PrefixTrie 131072 × Nat)
    (inside : ∀ key ∈ state.1.prefixes, key ∈ keys) :
    ∃ trie,
      nets.foldl insertNet state = (trie, state.2) ∧
        ∀ key,
          key ∈ trie.prefixes ↔
            (∃ net ∈ nets, key = feedKey net) ∨
              key ∈ state.1.prefixes := by
  induction nets generalizing state with
  | nil =>
      exact ⟨state.1, rfl, by simp⟩
  | cons net rest inductionHypothesis =>
      obtain ⟨isKey, restKeys⟩ := List.forall_mem_cons.mp areKeys
      obtain ⟨middle, stepped, middleHolds⟩ :=
        insertNet_of_room short inside isKey
      have middleInside : ∀ key ∈ middle.prefixes, key ∈ keys := by
        intro key member
        rcases (middleHolds key).mp member with isNew | before
        · exact isNew ▸ isKey
        · exact inside key before
      obtain ⟨trie, finished, holds⟩ :=
        inductionHypothesis restKeys (middle, state.2) middleInside
      refine ⟨trie, by rw [List.foldl_cons, stepped, finished],
        fun key => ?_⟩
      rw [holds key, middleHolds key, List.exists_mem_cons_iff,
        or_left_comm, or_assoc]

/-- When the wanted networks fit, an update reaches them, all of them. -/
theorem inStep_update
    {order : IterOrder}
    {wanted : HashSet (U32 × U32)}
    {table : FeedTable}
    (inStep : table.InStep)
    (parsed : table.Parsed)
    (short : wanted.elems.length ≤ 131072) :
    (table.update order wanted).1.InStep ∧
      (table.update order wanted).2 = 0 := by
  let removed :=
    (order.visit (table.nets.difference wanted)).foldl removeNet table.trie
  have kept :
      ∀ key,
        key ∈ removed.prefixes ↔
          ∃ net ∈ table.nets, net ∈ wanted ∧ key = feedKey net := by
    intro key
    rw [show removed = _ from rfl, mem_foldl_removeNet, inStep key]
    constructor
    · rintro ⟨spared, net, known, isKey⟩
      refine ⟨net, known, ?_, isKey⟩
      by_contra unwanted
      refine spared net ?_ isKey
      rw [IterOrder.mem_visit, HashSet.mem_difference]
      exact ⟨known, unwanted⟩
    · rintro ⟨net, known, isWanted, isKey⟩
      refine ⟨?_, net, known, isKey⟩
      intro other visited sameKey
      rw [IterOrder.mem_visit, HashSet.mem_difference] at visited
      -- Two networks with one key are one network, and that is wanted.
      have same :=
        feedKey_injective (parsed net known) (parsed other visited.1)
          (isKey.symm.trans sameKey)
      injection same with sameAddress sameMask
      exact visited.2 (Prod.ext sameAddress sameMask ▸ isWanted)
  have inKeys :
      ∀ net ∈ wanted, feedKey net ∈ wanted.elems.map feedKey :=
    fun net member => List.mem_map_of_mem member
  have addedInKeys :
      ∀ net ∈ order.visit (wanted.difference table.nets),
        feedKey net ∈ wanted.elems.map feedKey := by
    intro net visited
    rw [IterOrder.mem_visit, HashSet.mem_difference] at visited
    exact inKeys net visited.1
  have keptInKeys :
      ∀ key ∈ removed.prefixes, key ∈ wanted.elems.map feedKey := by
    intro key member
    obtain ⟨net, _, isWanted, isKey⟩ := (kept key).mp member
    exact isKey ▸ inKeys net isWanted
  have shortKeys : (wanted.elems.map feedKey).length ≤ 131072 := by
    simpa using short
  obtain ⟨trie, finished, holds⟩ :=
    foldl_insertNet_of_room shortKeys addedInKeys (removed, 0) keptInKeys
  have updated :
      table.update order wanted = (⟨trie, wanted⟩, 0) := by
    rw [update, show (order.visit (table.nets.difference wanted)).foldl
      removeNet table.trie = removed from rfl, finished]
  rw [updated]
  refine ⟨fun key => ?_, rfl⟩
  dsimp only
  rw [holds key, kept key]
  constructor
  · rintro (⟨net, visited, isKey⟩ | ⟨net, _, isWanted, isKey⟩)
    · rw [IterOrder.mem_visit, HashSet.mem_difference] at visited
      exact ⟨net, visited.1, isKey⟩
    · exact ⟨net, isWanted, isKey⟩
  · rintro ⟨net, isWanted, isKey⟩
    by_cases known : net ∈ table.nets
    · exact Or.inr ⟨net, known, isWanted, isKey⟩
    · refine Or.inl ⟨net, ?_, isKey⟩
      rw [IterOrder.mem_visit, HashSet.mem_difference]
      exact ⟨isWanted, known⟩

end FeedTable

/-- The table after a list of calls of `apply_feeds`, from the start on. -/
def feedsAfter (calls : List FeedInput) : FeedTable :=
  Runs.run (fun table input => (applyFeeds input table).1) .fresh calls

theorem FeedInput.parsed_of_mem_wanted
    {input : FeedInput}
    {net : U32 × U32}
    (member : net ∈ input.wanted) :
    (⟨net.1, net.2⟩ : Cidr).WellFormed :=
  (spares_of_mem_nets
    (mem_wanted.mp (show (net.1, net.2) ∈ input.wanted from member))).1

theorem parsed_feedsAfter (calls : List FeedInput) :
    (feedsAfter calls).Parsed := by
  rcases List.eq_nil_or_concat' calls with rfl | ⟨past, input, rfl⟩
  · intro net member
    exact absurd member (HashSet.notMem_empty net)
  · rw [feedsAfter, Runs.run_concat]
    intro net member
    exact FeedInput.parsed_of_mem_wanted member

/-- From step, a call ends in step exactly when what it wants fits. -/
theorem inStep_applyFeeds_iff
    {input : FeedInput}
    {table : FeedTable}
    (inStep : table.InStep)
    (parsed : table.Parsed) :
    (applyFeeds input table).1.InStep ↔
      input.wanted.elems.length ≤ 131072 := by
  constructor
  · intro stays
    have nowParsed : (applyFeeds input table).1.Parsed :=
      fun net member => FeedInput.parsed_of_mem_wanted member
    have counted := stays.reported nowParsed
    have bounded := (applyFeeds input table).1.trie.fits
    rw [counted] at bounded
    exact bounded
  · intro short
    exact (FeedTable.inStep_update inStep parsed short).1

/--
After every call of a run the trie holds exactly `feed_nets`, and as many
networks as are reported, if and only if no call wants more than fit.
-/
theorem feeds_in_step_iff (calls : List FeedInput) :
    (∀ past later,
        calls = past ++ later →
        (feedsAfter past).InStep ∧
          (feedsAfter past).trie.prefixes.length =
            (feedsAfter past).nets.elems.length) ↔
      ∀ call ∈ calls, call.wanted.elems.length ≤ 131072 := by
  constructor
  · intro always call member
    obtain ⟨past, later, shape⟩ := List.append_of_mem member
    have before := (always past (call :: later) shape).1
    have after :=
      (always (past ++ [call]) later (by rw [shape]; simp)).1
    rw [feedsAfter, Runs.run_concat] at after
    exact (inStep_applyFeeds_iff before (parsed_feedsAfter past)).mp after
  · intro short past later shape
    have pastShort : ∀ call ∈ past, call.wanted.elems.length ≤ 131072 :=
      fun call member =>
        short call (shape ▸ List.mem_append_left later member)
    clear shape
    have inStep : (feedsAfter past).InStep := by
      induction past using List.reverseRecOn with
      | nil =>
          intro key
          constructor
          · intro member
            cases member
          · rintro ⟨net, member, _⟩
            exact absurd member (HashSet.notMem_empty net)
      | append_singleton past call inductionHypothesis =>
          rw [feedsAfter, Runs.run_concat]
          have earlier : (feedsAfter past).InStep :=
            inductionHypothesis fun other member =>
              pastShort other (List.mem_append_left [call] member)
          exact (inStep_applyFeeds_iff earlier
            (parsed_feedsAfter past)).mpr
              (pastShort call (by simp))
    exact ⟨inStep, inStep.reported (parsed_feedsAfter past)⟩

/-- A text of terminated lines has them as its lines. -/
theorem mem_lines_of_mem
    {texts : List (List Char)}
    (plain : ∀ text ∈ texts, '\n' ∉ text ∧ '\r' ∉ text)
    {text : List Char}
    (member : text ∈ texts) :
    text ∈ lines (texts.flatMap fun text => text ++ ['\n']) := by
  induction texts with
  | nil =>
      cases member
  | cons first rest inductionHypothesis =>
      obtain ⟨firstPlain, restPlain⟩ := List.forall_mem_cons.mp plain
      rw [List.flatMap_cons, List.append_assoc, List.singleton_append,
        lines_cons firstPlain.1 firstPlain.2]
      rcases List.mem_cons.mp member with isFirst | inRest
      · exact List.mem_cons.mpr (Or.inl isFirst)
      · exact List.mem_cons_of_mem first
          (inductionHypothesis restPlain inRest)

theorem notMem_ipv4Text
    {char : Char}
    (noDigit : char.isDigit = false)
    (noDot : char ≠ '.')
    (ip : U32) :
    char ∉ ipv4Text ip := by
  intro member
  rcases digit_or_dot_of_mem_ipv4Text member with isDigit | isDot
  · exact absurd isDigit (Bool.eq_false_iff.mp noDigit)
  · exact noDot isDot

/-- A line that is an address has that one word. -/
theorem Feeds.tokens_ipv4Text (ip : U32) :
    tokens (ipv4Text ip) = [ipv4Text ip] := by
  have uncommented :
      (ipv4Text ip).takeWhile (fun char => char != '#' && char != ';') =
        ipv4Text ip := by
    refine List.takeWhile_eq_self_iff.mpr fun char member => ?_
    have noHash : char ≠ '#' := by
      intro same
      exact notMem_ipv4Text (by decide) (by decide) ip (same ▸ member)
    have noSemicolon : char ≠ ';' := by
      intro same
      exact notMem_ipv4Text (by decide) (by decide) ip (same ▸ member)
    simp [noHash, noSemicolon]
  rw [tokens, uncommented]
  refine List.splitOnP_eq_singleton fun char member => ?_
  rcases digit_or_dot_of_mem_ipv4Text member with isDigit | isDot
  · simp [isTokenChar, isDigit]
  · simp [isTokenChar, isDot]

theorem Feeds.network?_ipv4Text
    {protectedNets : List Cidr}
    {ip : U32}
    (clear :
      ∀ spared ∈ reserved ++ protectedNets,
        overlaps spared (.single ip) = false) :
    network? protectedNets (ipv4Text ip) = some (.single ip) := by
  have narrow :
      ¬BitPrefix.leadingOnes (Cidr.single ip).mask < 8 := by
    show ¬BitPrefix.leadingOnes (BitVec.allOnes 32) < 8
    decide
  have nothing :
      ¬(reserved ++ protectedNets).any (overlaps · (.single ip)) = true := by
    rw [List.any_eq_true]
    rintro ⟨spared, member, touches⟩
    rw [clear spared member] at touches
    cases touches
  unfold network?
  rw [if_neg (by rw [count_dot_ipv4Text]; simp), Cidr.parse_ipv4Text]
  dsimp only
  rw [if_neg (not_or.mpr ⟨narrow, nothing⟩)]

/-- The addresses from 1.0.0.0 on. -/
def crowdedAddress (index : Nat) : U32 :=
  BitVec.ofNat 32 (0x01000000 + index)

/-- A list of 131073 addresses, one a line. -/
def crowdedList : String :=
  String.ofList
    (((List.range 131073).map fun index =>
        ipv4Text (crowdedAddress index)).flatMap fun text =>
      text ++ ['\n'])

def crowdedInput : FeedInput where
  cfg :=
    { Config.default with
      feeds :=
        { lists := []
          urls := ["https://example.org/x.txt"]
          refreshHours := 24 } }
  autoProtected := [⟨0x7f000000, 0xff000000⟩, .single 0]
  results := []
  cache :=
    AList.insert (Feeds.cachePath "custom-1")
      ⟨some crowdedList, 0, "https://example.org/x.txt"⟩ ∅
  order := .insertion

theorem toNat_crowdedAddress
    {index : Nat}
    (inRange : index < 131073) :
    (crowdedAddress index).toNat = 0x01000000 + index := by
  rw [crowdedAddress, BitVec.toNat_ofNat]
  omega

/-- Every address of the list is in 1.0.0.0/8. -/
theorem crowdedAddress_and
    {index : Nat}
    (inRange : index < 131073) :
    crowdedAddress index &&& 0xff000000 = 0x01000000 := by
  have isMask : (0xff000000 : U32) = BitPrefix.prefixMask 32 8 := by
    decide
  apply BitVec.eq_of_toNat_eq
  rw [isMask, BitPrefix.toNat_and_prefixMask (by decide),
    toNat_crowdedAddress inRange]
  show (0x01000000 + index) / 2 ^ 24 * 2 ^ 24 = 0x01000000
  omega

theorem crowdedAddress_clear
    {index : Nat}
    (inRange : index < 131073)
    {spared : Cidr}
    (member : spared ∈ Feeds.reserved ++ crowdedInput.protectedNets) :
    Feeds.overlaps spared (.single (crowdedAddress index)) = false := by
  have apart :
      ∀ spared ∈ Feeds.reserved ++ crowdedInput.protectedNets,
        (0x01000000 : U32) &&& spared.mask ≠ spared.net &&& 0xff000000 ∧
          spared.net &&& 0xff000000 ≠ 0x01000000 := by
    decide +kernel
  obtain ⟨notInside, notAround⟩ := apart spared member
  have inNetwork := crowdedAddress_and inRange
  rw [Feeds.overlaps, Bool.or_eq_false_iff]
  constructor
  · refine decide_eq_false fun contains => notInside ?_
    rw [← contains, ← inNetwork, BitVec.and_assoc, BitVec.and_assoc,
      BitVec.and_comm 0xff000000]
    rfl
  · refine decide_eq_false fun contains => notAround ?_
    have same : spared.net = crowdedAddress index :=
      BitVec.and_allOnes.symm.trans contains
    rw [same, inNetwork]

theorem crowdedAddress_mem
    {index : Nat}
    (inRange : index < 131073) :
    .single (crowdedAddress index) ∈ crowdedInput.nets := by
  have isSource :
      ("custom-1", "https://example.org/x.txt") ∈
        Feeds.sources crowdedInput.cfg.feeds := by
    decide +kernel
  have text :
      Feeds.cachedText crowdedInput.cache "custom-1" = crowdedList := by
    rw [Feeds.cachedText, crowdedInput, AList.lookup_insert]
    rfl
  refine Feeds.mem_load.mpr ⟨_, isSource, ?_⟩
  rw [text, Feeds.parse, Feeds.mem_sorted, List.mem_flatMap]
  refine ⟨ipv4Text (crowdedAddress index), ?_, ?_⟩
  · rw [crowdedList, String.toList_ofList]
    refine mem_lines_of_mem ?_
      (List.mem_map_of_mem (List.mem_range.mpr inRange))
    intro line member
    obtain ⟨other, _, isLine⟩ := List.mem_map.mp member
    subst isLine
    exact ⟨notMem_ipv4Text (by decide) (by decide) _,
      notMem_ipv4Text (by decide) (by decide) _⟩
  · rw [Feeds.tokens_ipv4Text, List.mem_filterMap]
    exact ⟨_, List.mem_singleton_self _,
      Feeds.network?_ipv4Text fun _ member =>
        crowdedAddress_clear inRange member⟩

/-- The list gives one network more than the trie can hold. -/
theorem crowdedInput_wants :
    131073 ≤ crowdedInput.wanted.elems.length := by
  have distinct :
      ((List.range 131073).map fun index =>
        (crowdedAddress index, BitVec.allOnes 32)).Nodup := by
    refine List.Nodup.map_on ?_ List.nodup_range
    intro first firstMember second secondMember same
    have sameAddress := congrArg (fun net => net.1.toNat) same
    dsimp only at sameAddress
    rw [toNat_crowdedAddress (List.mem_range.mp firstMember),
      toNat_crowdedAddress (List.mem_range.mp secondMember)] at sameAddress
    omega
  have inside :
      ((List.range 131073).map fun index =>
        (crowdedAddress index, BitVec.allOnes 32)) ⊆
          crowdedInput.wanted.elems := by
    intro net member
    obtain ⟨index, inRange, isNet⟩ := List.mem_map.mp member
    subst isNet
    have isWanted :=
      FeedInput.mem_wanted.mpr
        (crowdedAddress_mem (List.mem_range.mp inRange))
    rwa [HashSet.mem_iff] at isWanted
  have bounded := (distinct.subperm inside).length_le
  rwa [List.length_map, List.length_range] at bounded

/-- After the crowded list the daemon believes more than the trie holds. -/
theorem crowded_list_out_of_step :
    ¬(feedsAfter [crowdedInput]).InStep := by
  intro inStep
  have counted := inStep.reported (parsed_feedsAfter [crowdedInput])
  have bounded := (feedsAfter [crowdedInput]).trie.fits
  have wants := crowdedInput_wants
  rw [counted] at bounded
  exact absurd (le_trans wants bounded) (by omega)

end AiFirewall
