import AiFirewall.BoundedBins
import AiFirewall.ConfigBans
import AiFirewall.ConfigRollback
import AiFirewall.Posture

namespace AiFirewall

/-!
# Room for what a configuration asks for

The check of a configuration bounds each port range and each blocked network
by itself.  The tries and the blocklist are bounded as a whole: applying a
configuration to empty maps fails when all its rules, or all its blocked
networks, ask for more entries than there are.
-/

open FallibleWrites

/-- The kernel tables that refuse a new entry once they are full. -/
inductive Store where
  | trie (proto : Proto)
  | blocklist
  deriving DecidableEq

namespace Store

/-- The part of the world a table is in. -/
def part : Store → Part
  | .trie proto => .trie proto
  | .blocklist => .shared

/-- The sizes the kernel programs declare. -/
def capacity : Store → Nat
  | .trie _ => 4096
  | .blocklist => 65536

end Store

/-- The table a step takes a new entry in. -/
def ConfigStep.store? : ConfigStep → Option Store
  | .mapWrite (.insertKey proto _) => some (.trie proto)
  | .block _ => some .blocklist
  | _ => none

/-- The steps of a call that starts from empty maps. -/
def ConfigStep.Adds : ConfigStep → Prop
  | .mapWrite (.removeKey _ _) => False
  | .dropKey _ _ => False
  | .block source => ∃ ip, source = .v4 ip
  | _ => True

section

variable {Score : Type}

/-- The number of entries of a table. -/
def World.size (world : World Score) : Store → Nat
  | .trie proto => (world.kernel.tries proto).nodes.prefixes.length
  | .blocklist => world.shared.blocklist.v4.size

/-- What the step is about is not in the maps. -/
def ConfigStep.Vacant
    (step : ConfigStep)
    (world : World Score) : Prop :=
  match step with
  | .mapWrite (.insertKey proto key) =>
      trieBits key ∉ (world.kernel.tries proto).nodes.prefixes
  | .lift ip => world.shared.blocklist.lookup ip = none
  | .block ip => world.shared.blocklist.lookup ip = none
  | _ => True

/-- The kernel refuses nothing that there is room for. -/
structure Attempt.Willing (attempt : Attempt) : Prop where
  writes : ∀ write, attempt.refuses write = false
  inserts : ∀ ip, attempt.host.refusesInsert ip = false

section

variable
  {attempt : Attempt}
  {step : ConfigStep}
  {before after : World Score}

theorem part_of_store?
    {store : Store}
    (goes : step.store? = some store) :
    step.part = store.part := by
  cases step with
  | mapWrite write =>
      cases write with
      | insertKey proto key =>
          cases goes
          rfl
      | setting slot value => cases goes
      | setPort proto port value => cases goes
      | removeKey proto key => cases goes
      | setRate port packed => cases goes
  | block ip =>
      cases goes
      rfl
  | dropKey proto key => cases goes
  | rememberPorts proto wanted => cases goes
  | rememberKeys proto wanted => cases goes
  | rememberRates rates => cases goes
  | reconfigure cfg => cases goes
  | lift ip => cases goes
  | markDirty => cases goes

theorem size_congr
    {store : Store}
    (same : after.get store.part = before.get store.part) :
    after.size store = before.size store := by
  cases store with
  | trie proto =>
      exact congrArg (fun trie : RuleTrie => trie.nodes.prefixes.length) same
  | blocklist =>
      exact congrArg (fun shared : Shared Score => shared.blocklist.v4.size)
        same

theorem size_fits (world : World Score) (store : Store) :
    world.size store ≤ store.capacity := by
  cases store with
  | trie proto => exact (world.kernel.tries proto).nodes.fits
  | blocklist => exact world.shared.blocklist.v4.fits

/-- A step that adds no entry is always accepted. -/
theorem accept?_of_no_store
    (willing : attempt.Willing)
    (adds : step.Adds)
    (goes : step.store? = none) :
    ∃ after, step.accept? attempt before = some after := by
  cases step with
  | mapWrite write =>
      simp only [ConfigStep.accept?, willing.writes]
      cases write with
      | setting slot value => exact ⟨_, rfl⟩
      | setPort proto port value => exact ⟨_, rfl⟩
      | insertKey proto key => cases goes
      | removeKey proto key => exact absurd adds id
      | setRate port packed => exact ⟨_, rfl⟩
  | dropKey proto key => exact absurd adds id
  | rememberPorts proto wanted => exact ⟨_, rfl⟩
  | rememberKeys proto wanted => exact ⟨_, rfl⟩
  | rememberRates rates => exact ⟨_, rfl⟩
  | reconfigure cfg => exact ⟨_, rfl⟩
  | lift ip => exact ⟨_, rfl⟩
  | block ip => cases goes
  | markDirty => exact ⟨_, rfl⟩

/-- A new entry is accepted when its table has room. -/
theorem accept?_iff_of_store
    (willing : attempt.Willing)
    {store : Store}
    (adds : step.Adds)
    (vacant : step.Vacant before)
    (goes : step.store? = some store) :
    (∃ after, step.accept? attempt before = some after) ↔
      before.size store < store.capacity := by
  rw [← Option.isSome_iff_exists]
  cases step with
  | mapWrite write =>
      cases write with
      | insertKey proto key =>
          cases goes
          rw [ConfigStep.accept?, willing.writes, if_neg Bool.false_ne_true,
            MapWrite.effect?, Option.isSome_map]
          exact PrefixTrie.insert?_isSome_of_absent vacant
      | setting slot value => cases goes
      | setPort proto port value => cases goes
      | removeKey proto key => cases goes
      | setRate port packed => cases goes
  | block source =>
      cases goes
      obtain ⟨ip, rfl⟩ := adds
      rw [ConfigStep.accept?, Option.isSome_map, Blocklist.insert?,
        willing.inserts, if_neg Bool.false_ne_true, Option.isSome_map]
      exact BoundedMap.insert?_isSome_of_absent vacant _
  | dropKey proto key => cases goes
  | rememberPorts proto wanted => cases goes
  | rememberKeys proto wanted => cases goes
  | rememberRates rates => cases goes
  | reconfigure cfg => cases goes
  | lift ip => cases goes
  | markDirty => cases goes

/-- A step leaves the other tables as large as they were. -/
theorem size_of_other_store
    {store : Store}
    (adds : step.Adds)
    (vacant : step.Vacant before)
    (accepted : step.accept? attempt before = some after)
    (elsewhere : step.store? ≠ some store) :
    after.size store = before.size store := by
  by_cases here : store.part = step.part
  · cases step with
    | mapWrite write =>
        cases write with
        | insertKey proto key =>
            cases store with
            | trie other =>
                cases here
                exact absurd rfl elsewhere
            | blocklist => cases here
        | removeKey proto key => exact absurd adds id
        | setting slot value => cases store <;> cases here
        | setPort proto port value => cases store <;> cases here
        | setRate port packed => cases store <;> cases here
    | rememberKeys proto wanted =>
        cases accepted
        cases store with
        | trie other =>
            cases here
            simp [World.size, World.setTrie]
        | blocklist => cases here
    | lift ip =>
        cases accepted
        cases store with
        | trie other => cases here
        | blocklist =>
            exact congrArg (fun blocklist : Blocklist => blocklist.v4.size)
              (Blocklist.drop_of_absent vacant)
    | block ip =>
        cases store with
        | trie other => cases here
        | blocklist => exact absurd rfl elsewhere
    | dropKey proto key => exact absurd adds id
    | rememberPorts proto wanted => cases store <;> cases here
    | rememberRates rates => cases store <;> cases here
    | reconfigure cfg =>
        cases accepted
        cases store with
        | trie other => cases here
        | blocklist => rfl
    | markDirty =>
        cases accepted
        cases store with
        | trie other => cases here
        | blocklist => rfl
  · exact size_congr (get_of_accept? accepted here)

/-- An accepted new entry makes its table larger by one. -/
theorem size_of_store
    {store : Store}
    (adds : step.Adds)
    (vacant : step.Vacant before)
    (accepted : step.accept? attempt before = some after)
    (goes : step.store? = some store) :
    after.size store = before.size store + 1 := by
  cases step with
  | mapWrite write =>
      cases write with
      | insertKey proto key =>
          cases goes
          obtain ⟨_, done⟩ := accept_mapWrite_iff.mp accepted
          obtain ⟨nodes, inserted, rfl⟩ := Option.map_eq_some_iff.mp done
          have grown := PrefixTrie.length_of_insert?_absent vacant inserted
          simpa [World.size, World.setTrie] using grown
      | setting slot value => cases goes
      | setPort proto port value => cases goes
      | removeKey proto key => cases goes
      | setRate port packed => cases goes
  | block source =>
      cases goes
      obtain ⟨ip, rfl⟩ := adds
      obtain ⟨blocklist, inserted, rfl⟩ :=
        Option.map_eq_some_iff.mp accepted
      exact BoundedMap.size_of_insert?_absent vacant
        (Blocklist.v4_of_insert? inserted).1
  | dropKey proto key => cases goes
  | rememberPorts proto wanted => cases goes
  | rememberKeys proto wanted => cases goes
  | rememberRates rates => cases goes
  | reconfigure cfg => cases goes
  | lift ip => cases goes
  | markDirty => cases goes

/-- The tables of the kernel, for a kernel that is willing. -/
def configBins
    (Score : Type)
    {attempt : Attempt}
    (willing : attempt.Willing) :
    Bins
      (ConfigStep.accept? attempt :
        ConfigStep → World Score → Option (World Score)) where
  Bin := Store
  Usual := ConfigStep.Adds
  bin? := ConfigStep.store?
  size := World.size
  capacity := Store.capacity
  Vacant := ConfigStep.Vacant
  fits := size_fits
  free := accept?_of_no_store willing
  room adds vacant := accept?_iff_of_store willing adds vacant
  still := size_of_other_store
  grows := size_of_store

instance (willing : attempt.Willing) :
    DecidableEq (configBins Score willing).Bin :=
  inferInstanceAs (DecidableEq Store)

/-- Whether a step is vacant can be told from its cell. -/
theorem vacant_congr
    {place : Place}
    (concerns : step.place? = some place)
    (same : after.value place = before.value place)
    (vacant : step.Vacant before) :
    step.Vacant after := by
  cases step with
  | mapWrite write =>
      cases concerns
      cases write with
      | insertKey proto key =>
          have sameNode := decide_eq_decide.mp same
          exact fun member => vacant (sameNode.mp member)
      | setting slot value => trivial
      | setPort proto port value => trivial
      | removeKey proto key => trivial
      | setRate port packed => trivial
  | lift ip =>
      cases concerns
      exact (congrArg Prod.fst same).trans vacant
  | block ip =>
      cases concerns
      exact (congrArg Prod.fst same).trans vacant
  | dropKey proto key => trivial
  | rememberPorts proto wanted => trivial
  | rememberKeys proto wanted => trivial
  | rememberRates rates => trivial
  | reconfigure cfg => trivial
  | markDirty => trivial

/-- Steps on different cells do not fill each other's place. -/
theorem apart_of_distinct
    (willing : attempt.Willing)
    {steps : List ConfigStep}
    (distinct : (configCells Score attempt).Distinct steps) :
    steps.Pairwise (configBins Score willing).Apart := by
  refine (List.pairwise_filterMap.mp distinct).imp ?_
  intro first second different before after accepted vacant
  cases concerns : second.place? with
  | none =>
      cases second with
      | rememberPorts proto wanted => trivial
      | rememberKeys proto wanted => trivial
      | rememberRates rates => trivial
      | markDirty => trivial
      | mapWrite write => cases concerns
      | dropKey proto key => cases concerns
      | reconfigure cfg => cases concerns
      | lift ip => cases concerns
      | block ip => cases concerns
  | some place =>
      refine vacant_congr concerns ?_ vacant
      refine (configCells Score attempt).frame accepted fun here => ?_
      exact different place here place concerns rfl

/-- The number of steps that take a new entry in a table. -/
def load (steps : List ConfigStep) (store : Store) : Nat :=
  steps.countP fun step => step.store? = some store

theorem load_append
    (first second : List ConfigStep)
    (store : Store) :
    load (first ++ second) store = load first store + load second store :=
  List.countP_append

/-- Steps on other parts take no room in a table. -/
theorem load_eq_zero
    {steps : List ConfigStep}
    {store : Store}
    (elsewhere : ∀ step ∈ steps, step.part ≠ store.part) :
    load steps store = 0 := by
  rw [load, List.countP_eq_zero]
  intro step member goes
  exact elsewhere step member (part_of_store? (of_decide_eq_true goes))

variable
  {cfg : Config}
  {policy : Policy}
  {compiled : Compiled}
  {blocked : List Cidr}

/-- The load of a call is that of the segment which fills the table. -/
theorem load_plan (store : Store) :
    load (plan attempt cfg policy compiled blocked before) store =
      load (segment attempt cfg policy compiled blocked before store.part)
        store := by
  have around :
      ∃ earlier later : List Part,
        store.part ∉ earlier ∧ store.part ∉ later ∧
          plan attempt cfg policy compiled blocked before = _ :=
    plan_around store.part
  obtain ⟨earlier, later, notEarlier, notLater, shape⟩ := around
  have others
      {parts : List Part}
      (absent : store.part ∉ parts) :
      load
          (parts.flatMap
            (segment attempt cfg policy compiled blocked before))
          store = 0 := by
    refine load_eq_zero fun step member => ?_
    obtain ⟨part, inParts, inSegment⟩ := List.mem_flatMap.mp member
    rw [part_of_mem_segment inSegment]
    rintro rfl
    exact absent inParts
  rw [shape, load_append, load_append, others notEarlier, others notLater,
    Nat.zero_add, Nat.add_zero]

/-- On fresh maps every wanted key is a new entry. -/
theorem load_trieSteps
    (proto : Proto)
    (wanted : HashSet (U32 × RuleKey)) :
    load (trieSteps attempt proto wanted .empty) (.trie proto) =
      wanted.elems.length := by
  have nothing :
      (HashSet.empty : HashSet (U32 × RuleKey)).difference wanted = [] :=
    rfl
  have everything : wanted.difference .empty = wanted.elems := by
    simp [HashSet.difference]
  rw [trieSteps, nothing, everything, IterOrder.visit_nil, List.map_nil,
    List.nil_append, load_append]
  have inserts :
      load
          ((attempt.order.visit wanted.elems).map fun key =>
            .mapWrite (.insertKey proto key))
          (.trie proto) = wanted.elems.length := by
    rw [load, List.countP_map, List.countP_eq_length.mpr]
    · exact (attempt.order.perm _).length_eq
    · intro key _
      exact decide_eq_true rfl
  rw [inserts]
  rfl

/-- Every address that is blocked is an entry. -/
theorem load_blockSteps
    (records : Table Src BanRecord) :
    load (.reconfigure cfg :: blockSteps attempt blocked records)
        .blocklist =
      (listedSources blocked).elems.length := by
  have lifts :
      load
          ((attempt.order.visit
              (staleSources records (listedSources blocked))).map .lift)
          .blocklist = 0 := by
    rw [load, List.countP_map, List.countP_eq_zero]
    intro ip _
    exact Bool.false_ne_true
  have blocks :
      load
          ((attempt.order.visit (listedSources blocked).elems).map .block)
          .blocklist = (listedSources blocked).elems.length := by
    rw [load, List.countP_map, List.countP_eq_length.mpr]
    · exact (attempt.order.perm _).length_eq
    · intro ip _
      rfl
  have reconfigures :
      load [.reconfigure cfg] .blocklist = 0 :=
    rfl
  have marks : load [.markDirty] .blocklist = 0 := rfl
  rw [blockSteps, ← List.singleton_append, load_append, load_append,
    load_append, reconfigures, lifts, blocks, marks, Nat.zero_add,
    Nat.zero_add, Nat.add_zero]

/-- The ports that a policy opens to networks, each with its network. -/
def Policy.openings (policy : Policy) (proto : Proto) : Set (Cidr × U16) :=
  {opening |
    ∃ rule ∈ policy.rules, rule.OpensTo proto opening.1 opening.2}

/-- Different openings have different keys. -/
theorem length_keys
    (compiles : compile policy = .ok compiled)
    (proto : Proto) :
    (compiled.keys proto).elems.length =
      (policy.openings proto).ncard := by
  have keys :
      {key | key ∈ compiled.keys proto} =
        (fun opening : Cidr × U16 => networkKey opening.2 opening.1) ''
          policy.openings proto := by
    ext key
    simp only [Set.mem_ofPred_eq, mem_keys_compile compiles, Set.mem_image,
      Policy.openings, Prod.exists]
    constructor
    · rintro ⟨rule, member, network, port, opens, rfl⟩
      exact ⟨network, port, ⟨rule, member, opens⟩, rfl⟩
    · rintro ⟨network, port, ⟨rule, member, opens⟩, rfl⟩
      exact ⟨rule, member, network, port, opens, rfl⟩
  rw [HashSet.length_elems, keys]
  refine Set.InjOn.ncard_image ?_
  rintro ⟨first, firstPort⟩ ⟨_, _, _, ⟨_, _, firstParsed⟩, _⟩
    ⟨second, secondPort⟩ ⟨_, _, _, ⟨_, _, secondParsed⟩, _⟩ same
  obtain ⟨samePort, sameNet⟩ :=
    opening_of_trieBits (Cidr.wellFormed_of_parse firstParsed)
      (Cidr.wellFormed_of_parse secondParsed) (congrArg trieBits same)
  exact Prod.ext sameNet samePort

/-- The addresses to block, counted once each. -/
theorem length_listedSources
    (readable : cfg.blockedCidrs = .ok blocked) :
    (listedSources blocked).elems.length = Set.ncard {ip | cfg.Blocks ip} := by
  have sources :
      {source | source ∈ listedSources blocked} =
        Src.v4 '' {ip | cfg.Blocks ip} := by
    ext source
    simp only [Set.mem_ofPred_eq, mem_listedSources readable, Set.mem_image]
    constructor
    · rintro ⟨ip, rfl, blocks⟩
      exact ⟨ip, blocks, rfl⟩
    · rintro ⟨ip, blocks, rfl⟩
      exact ⟨ip, rfl, blocks⟩
  rw [HashSet.length_elems, sources]
  exact Set.ncard_image_of_injective _ fun _ _ same => Src.v4.inj same

/-- A call on empty maps works with new entries only. -/
theorem adds_of_fresh
    (readable : cfg.blockedCidrs = .ok blocked)
    (fresh : before.kernel = .fresh)
    (member :
      step ∈ plan attempt cfg policy compiled blocked before) :
    step.Adds := by
  obtain ⟨part, _, inSegment⟩ := List.mem_flatMap.mp member
  cases part with
  | settings =>
      simp only [segment, settingSteps, List.mem_cons, List.not_mem_nil,
        or_false] at inSegment
      rcases inSegment with rfl | rfl | rfl <;> trivial
  | ports proto =>
      rcases mem_portSteps.mp inSegment with
        ⟨_, _, rfl⟩ | ⟨_, _, rfl⟩ | rfl <;> trivial
  | trie proto =>
      rcases mem_trieSteps.mp inSegment with
        ⟨key, ⟨old, _⟩, rfl⟩ | ⟨_, _, rfl⟩ | rfl
      · rw [fresh] at old
        exact absurd old (HashSet.notMem_empty key)
      · trivial
      · trivial
  | rate =>
      rcases mem_rateSteps.mp inSegment with
        ⟨_, _, rfl⟩ | ⟨_, _, _, rfl⟩ | rfl <;> trivial
  | shared =>
      rcases List.mem_cons.mp inSegment with rfl | inBlocks
      · trivial
      · rcases mem_blockSteps.mp inBlocks with
          ⟨_, _, rfl⟩ | ⟨source, listed, rfl⟩ | rfl
        · trivial
        · obtain ⟨ip, isV4, _⟩ := (mem_listedSources readable).mp listed
          exact ⟨ip, isV4⟩
        · trivial

theorem vacant_of_fresh
    (fresh : before.kernel = .fresh)
    (noBans : before.shared.blocklist.entries = []) :
    step.Vacant before := by
  have nobody (ip : Src) : before.shared.blocklist.lookup ip = none := by
    cases found : before.shared.blocklist.lookup ip with
    | none => rfl
    | some expiry =>
        have member := Blocklist.mem_entries.mpr found
        rw [noBans] at member
        cases member
  cases step with
  | mapWrite write =>
      cases write with
      | insertKey proto key =>
          intro member
          rw [fresh] at member
          cases member
      | setting slot value => trivial
      | setPort proto port value => trivial
      | removeKey proto key => trivial
      | setRate port packed => trivial
  | lift ip => exact nobody ip
  | block ip => exact nobody ip
  | dropKey proto key => trivial
  | rememberPorts proto wanted => trivial
  | rememberKeys proto wanted => trivial
  | rememberRates rates => trivial
  | reconfigure cfg => trivial
  | markDirty => trivial

theorem size_of_fresh
    (fresh : before.kernel = .fresh)
    (noBans : before.shared.blocklist.entries = [])
    (store : Store) :
    before.size store = 0 := by
  cases store with
  | trie proto =>
      rw [World.size, fresh]
      rfl
  | blocklist =>
      have noV4 := (List.append_eq_nil_iff.mp noBans).1
      have noEntries := List.map_eq_nil_iff.mp noV4
      have noTable : before.shared.blocklist.v4.table.entries = [] :=
        List.map_eq_nil_iff.mp noEntries
      rw [World.size, BoundedMap.size, Table.size, AList.keys, noTable]
      rfl

/-- A configuration goes into empty maps exactly when they have the room. -/
theorem applied_iff_room
    (compiles : compile policy = .ok compiled)
    (readable : cfg.blockedCidrs = .ok blocked)
    (willing : attempt.Willing)
    (fresh : before.kernel = .fresh)
    (noBans : before.shared.blocklist.entries = []) :
    (∃ after : World Score,
        (applyConfig attempt cfg policy).run before = .ok () after) ↔
      (∀ proto, (policy.openings proto).ncard ≤ 4096) ∧
        Set.ncard {ip | cfg.Blocks ip} ≤ 65536 := by
  have canonical : before.kernel.Canonical :=
    fresh ▸ Kernel.fresh_canonical
  have fitting :=
    (configBins Score willing).exists_written_iff
      (fun _ member => adds_of_fresh readable fresh member)
      (apart_of_distinct willing
        (distinct_plan compiles canonical))
      (fun _ _ => vacant_of_fresh fresh noBans)
  have trieLoad (proto : Proto) :
      load (plan attempt cfg policy compiled blocked before)
          (.trie proto) = (policy.openings proto).ncard := by
    rw [load_plan, ← length_keys compiles]
    have noKeys : (before.kernel.tries proto).keys = .empty := by
      rw [fresh]
      rfl
    rw [Store.part, segment, noKeys]
    exact load_trieSteps proto _
  have blockLoad :
      load (plan attempt cfg policy compiled blocked before) .blocklist =
        Set.ncard {ip | cfg.Blocks ip} := by
    rw [load_plan, ← length_listedSources readable]
    exact load_blockSteps _
  calc
    (∃ after : World Score,
        (applyConfig attempt cfg policy).run before = .ok () after) ↔
        ∃ after : World Score,
          Written (ConfigStep.accept? attempt)
            (plan attempt cfg policy compiled blocked before) before
            after :=
      exists_congr fun after => applyConfig_ok_iff compiles readable
    _ ↔ ∀ store : Store,
          before.size store +
            load (plan attempt cfg policy compiled blocked before) store ≤
          store.capacity :=
      fitting
    _ ↔ (∀ proto, (policy.openings proto).ncard ≤ 4096) ∧
          Set.ncard {ip | cfg.Blocks ip} ≤ 65536 := by
      simp only [size_of_fresh fresh noBans, Nat.zero_add]
      constructor
      · intro roomy
        exact ⟨fun proto => trieLoad proto ▸ roomy (.trie proto),
          blockLoad ▸ roomy .blocklist⟩
      · rintro ⟨openings, addresses⟩ store
        cases store with
        | trie proto => exact (trieLoad proto).symm ▸ openings proto
        | blocklist => exact blockLoad.symm ▸ addresses

/--
Whatever is accepted compiles, and goes into empty maps if and only if its
openings and its blocked addresses are no more than the maps can hold.
-/
theorem accepted_config_applies_iff
    (fromToml : String → Except Error Config)
    (text : String)
    (parsed : Config.parse fromToml text = .ok cfg)
    (posture : Option Posture)
    (valid : ∀ given ∈ posture, given.validate = .ok ())
    (profile : Option String)
    (willing : attempt.Willing)
    (fresh : before.kernel = .fresh)
    (noBans : before.shared.blocklist.entries = []) :
    (∃ compiled,
        compile ((withPosture cfg posture).policy profile) =
          .ok compiled) ∧
      ((∃ after : World Score,
          (applyConfig attempt (withPosture cfg posture)
              ((withPosture cfg posture).policy profile)).run before =
            .ok () after) ↔
        (∀ proto,
            (((withPosture cfg posture).policy profile).openings
              proto).ncard ≤ 4096) ∧
          Set.ncard {ip | (withPosture cfg posture).Blocks ip} ≤ 65536) := by
  have usable :=
    withPosture_usable valid
      (Config.validate_ok.mp (Config.validate_of_parse parsed))
  obtain ⟨compiled, blocked, compiles, readable⟩ :=
    compiled_of_accepted (Config.validate_ok.mpr usable) profile
  exact ⟨⟨compiled, compiles⟩,
    applied_iff_room compiles readable willing fresh noBans⟩

end

end

/-- Two rules, each of which could have the trie for itself. -/
def crowdedConfig : Config :=
  { Config.default with
    rules :=
      [⟨"tcp", .text "1-4096", some "10.0.0.0/8", none⟩,
        ⟨"tcp", .one 5000, some "10.0.0.0/8", none⟩] }

theorem finite_openings (policy : Policy) (proto : Proto) :
    (policy.openings proto).Finite := by
  have words (width : Nat) : Finite (BitVec width) :=
    Finite.of_injective BitVec.toFin fun _ _ same =>
      BitVec.eq_of_toFin_eq same
  have networks : Finite Cidr :=
    Finite.of_injective (fun network => (network.net, network.mask))
      fun first second same => by
        cases first
        cases second
        cases same
        rfl
  exact Set.toFinite _

/-- Together they open one port too many. -/
theorem crowded_openings :
    4096 < ((crowdedConfig.policy none).openings .tcp).ncard := by
  let opening (port : Nat) : Cidr × U16 :=
    (⟨0x0a000000, 0xff000000⟩, BitVec.ofNat 16 (port + 1))
  have inside :
      opening '' (insert 4999 (Finset.range 4096) : Finset Nat) ⊆
        (crowdedConfig.policy none).openings .tcp := by
    have network :
        Cidr.parse "10.0.0.0/8" = .ok ⟨0x0a000000, 0xff000000⟩ := by
      decide
    have range : PortSpec.ports (.text "1-4096") = .ok (1, 4096) := by
      decide
    rintro _ ⟨port, member, rfl⟩
    rcases Finset.mem_insert.mp member with isLast | inRange
    · subst isLast
      exact ⟨_, List.mem_cons_of_mem _ (List.mem_singleton_self _), rfl,
        ⟨_, rfl, network⟩, by decide⟩
    · have low := Finset.mem_range.mp inRange
      refine ⟨_, List.mem_cons_self, rfl, ⟨_, rfl, network⟩, ?_⟩
      simp only [PortSpec.covers, range, opening, Bool.and_eq_true,
        decide_eq_true_eq]
      bv_omega
  have distinct :
      Set.InjOn opening (insert 4999 (Finset.range 4096) : Finset Nat) := by
    have small
        {port : Nat}
        (member : port ∈ (insert 4999 (Finset.range 4096) : Finset Nat)) :
        port ≤ 4999 := by
      rcases Finset.mem_insert.mp member with isLast | inRange
      · exact Nat.le_of_eq isLast
      · exact (Finset.mem_range.mp inRange).le.trans (by decide)
    intro first firstMember second secondMember same
    have firstSmall := small firstMember
    have secondSmall := small secondMember
    have samePort := congrArg (fun opened => opened.2.toNat) same
    simp only [opening, BitVec.toNat_ofNat] at samePort
    omega
  calc
    4096 < (insert 4999 (Finset.range 4096) : Finset Nat).card := by
      rw [Finset.card_insert_of_notMem (by simp), Finset.card_range]
      exact Nat.lt_succ_self 4096
    _ = (opening '' (insert 4999 (Finset.range 4096) : Finset Nat)).ncard := by
      rw [distinct.ncard_image, Set.ncard_coe_finset]
    _ ≤ ((crowdedConfig.policy none).openings .tcp).ncard :=
      Set.ncard_le_ncard inside (finite_openings _ _)

theorem refusing_nothing_willing :
    (refusing fun _ => false).Willing where
  writes _ := rfl
  inserts _ := rfl

/-- It passes its check, and the daemon cannot start with it. -/
theorem crowded_config_is_refused :
    crowdedConfig.validate = .ok () ∧
      ¬∃ after,
        (applyConfig (refusing fun _ => false) crowdedConfig
            (crowdedConfig.policy none)).run
            (⟨fun _ => 0, .fresh, freshShared⟩ : World ℚ) =
          .ok () after := by
  have accepted : crowdedConfig.validate = .ok () := by
    decide
  obtain ⟨compiled, blocked, compiles, readable⟩ :=
    compiled_of_accepted accepted none
  refine ⟨accepted, ?_⟩
  rw [applied_iff_room compiles readable refusing_nothing_willing rfl rfl]
  rintro ⟨roomy, _⟩
  exact absurd (roomy .tcp) (Nat.not_le.mpr crowded_openings)

/-- Four ports and one are open to networks, and four addresses blocked. -/
def roomyConfig : Config :=
  { Config.default with
    allowTcp := [.one 22]
    blocked := ["198.51.100.0/30"]
    rules :=
      [⟨"tcp", .text "8000-8003", some "10.0.0.0/8", none⟩,
        ⟨"udp", .one 5353, some "192.168.0.0/16", none⟩] }

/-- What is counted is far from what the maps hold: the daemon starts. -/
theorem roomy_config_applies :
    (((withPosture roomyConfig none).policy none).openings .tcp).ncard = 4 ∧
      (((withPosture roomyConfig none).policy none).openings .udp).ncard =
        1 ∧
      Set.ncard {ip | (withPosture roomyConfig none).Blocks ip} = 4 ∧
      ∃ after,
        (applyConfig (refusing fun _ => false)
            (withPosture roomyConfig none)
            ((withPosture roomyConfig none).policy none)).run
            (⟨fun _ => 0, .fresh, freshShared⟩ : World ℚ) =
          .ok () after := by
  have parsed :
      Config.parse (fun _ => .ok roomyConfig) "" = .ok roomyConfig := by
    decide +kernel
  have usable : (withPosture roomyConfig none).Usable :=
    Config.validate_ok.mp (Config.validate_of_parse parsed)
  obtain ⟨compiled, blocked, compiles, readable⟩ :=
    compiled_of_accepted (Config.validate_ok.mpr usable) none
  have keys (proto : Proto) (count : Nat)
      (counted :
        ((compile ((withPosture roomyConfig none).policy
            none)).toOption.map fun compiled =>
              (compiled.keys proto).elems.length) = some count) :
      (((withPosture roomyConfig none).policy none).openings
        proto).ncard = count := by
    rw [compiles] at counted
    rw [← length_keys compiles]
    exact Option.some.inj counted
  have tcp := keys .tcp 4 (by decide +kernel)
  have udp := keys .udp 1 (by decide +kernel)
  have addresses :
      Set.ncard {ip | (withPosture roomyConfig none).Blocks ip} = 4 := by
    have counted :
        ((withPosture roomyConfig none).blockedCidrs.toOption.map
            fun blocked => (listedSources blocked).elems.length) =
          some 4 := by
      decide +kernel
    rw [readable] at counted
    rw [← length_listedSources readable]
    exact Option.some.inj counted
  refine ⟨tcp, udp, addresses,
    ((accepted_config_applies_iff (fun _ => .ok roomyConfig) "" parsed none
      (by simp) none refusing_nothing_willing rfl rfl).2).mpr ⟨?_, ?_⟩⟩
  · intro proto
    cases proto with
    | tcp => exact tcp.le.trans (by decide)
    | udp => exact udp.le.trans (by decide)
  · exact addresses.le.trans (by decide)

end AiFirewall
