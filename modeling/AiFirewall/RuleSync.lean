import AiFirewall.ConfigCells
import AiFirewall.Runs

namespace AiFirewall

/-!
# The rule maps and what is remembered of them

A call writes the difference between the policy and what it remembers of the
last one.  This is right as long as the maps hold what is remembered.  A call
that fails keeps it so exactly when it has not changed the map it fails on.
-/

open FallibleWrites

/-- The ports of a set are open, and no other. -/
def PortMap.Shows (map : PortMap) (wanted : HashSet U16) : Prop :=
  ∀ port, map.entries port = if port ∈ wanted then 1 else 0

/-- The trie stores the keys of a set, and nothing else. -/
def RuleTrie.Shows
    (trie : RuleTrie)
    (wanted : HashSet (U32 × RuleKey)) : Prop :=
  ∀ stored, stored ∈ trie.nodes.prefixes ↔
    ∃ key ∈ wanted, trieBits key = stored

/-- The ports of a table are limited as it says, and no other. -/
def RateMap.Shows (map : RateMap) (wanted : Table U16 U32) : Prop :=
  ∀ port, map.entries port = (wanted.lookup port).getD 0

namespace Kernel

/-- The rule maps hold a compiled policy, and nothing else. -/
structure Holds (kernel : Kernel) (compiled : Compiled) : Prop where
  ports : ∀ proto, (kernel.ports proto).Shows (compiled.ports proto)
  tries : ∀ proto, (kernel.tries proto).Shows (compiled.keys proto)
  rates : kernel.rate.Shows compiled.rates

/-- The keys that are remembered are keys `compile` has made. -/
def Canonical (kernel : Kernel) : Prop :=
  ∀ proto, ∀ key ∈ (kernel.tries proto).keys, CanonicalKey key

/-- The rule maps hold what is remembered of them. -/
structure InStep (kernel : Kernel) : Prop where
  ports :
    ∀ proto, (kernel.ports proto).Shows (kernel.ports proto).openPorts
  tries : ∀ proto, (kernel.tries proto).Shows (kernel.tries proto).keys
  rates : kernel.rate.Shows kernel.rate.rateSet

/-- What is remembered is a compiled policy. -/
structure Remembers (kernel : Kernel) (compiled : Compiled) : Prop where
  ports : ∀ proto, (kernel.ports proto).openPorts = compiled.ports proto
  tries : ∀ proto, (kernel.tries proto).keys = compiled.keys proto
  rates : kernel.rate.rateSet = compiled.rates

theorem InStep.holds
    {kernel : Kernel}
    {compiled : Compiled}
    (inStep : kernel.InStep)
    (remembers : kernel.Remembers compiled) :
    kernel.Holds compiled where
  ports proto := remembers.ports proto ▸ inStep.ports proto
  tries proto := remembers.tries proto ▸ inStep.tries proto
  rates := remembers.rates ▸ inStep.rates

/-- Fresh maps are empty, and nothing is remembered of them. -/
theorem fresh_inStep : fresh.InStep where
  ports _ port := (if_neg (HashSet.notMem_empty port)).symm
  tries _ stored := by
    simp [fresh, PrefixTrie.empty]
  rates _ := rfl

theorem fresh_canonical : fresh.Canonical :=
  fun _ key member => absurd member (HashSet.notMem_empty key)

end Kernel

section

variable
  {Score : Type}
  {attempt : Attempt}
  {cfg : Config}
  {policy : Policy}
  {compiled : Compiled}
  {blocked : List Cidr}
  {before after : World Score}

section

variable
  {proto : Proto}
  {wanted openPorts : HashSet U16}
  {newKeys oldKeys : HashSet (U32 × RuleKey)}
  {rates rateSet : Table U16 U32}

/-- Every port is written once at most. -/
theorem distinct_portSteps :
    (configCells Score attempt).Distinct
      (portSteps attempt proto wanted openPorts) := by
  have apart :
      (attempt.order.visit (openPorts.difference wanted)).Disjoint
        (attempt.order.visit (wanted.difference openPorts)) := by
    intro port closed opened
    simp only [IterOrder.mem_visit, HashSet.mem_difference] at closed opened
    exact opened.2 closed.1
  have ports :=
    List.nodup_append'.mpr
      ⟨(attempt.order.nodup_visit).mpr (openPorts.nodup_difference wanted),
        (attempt.order.nodup_visit).mpr (wanted.nodup_difference openPorts),
        apart⟩
  have injective : Function.Injective (Place.port proto) :=
    fun _ _ same => by cases same; rfl
  have places := ports.map injective
  rw [List.map_append] at places
  simpa [Cells.Distinct, portSteps, configCells, ConfigStep.place?,
    MapWrite.place, List.filterMap_map, List.filterMap_cons,
    Function.comp_def] using places

/-- Every node is written once at most. -/
theorem distinct_trieSteps
    (newCanonical : ∀ key ∈ newKeys, CanonicalKey key)
    (oldCanonical : ∀ key ∈ oldKeys, CanonicalKey key) :
    (configCells Score attempt).Distinct
      (trieSteps attempt proto newKeys oldKeys) := by
  have apart :
      (attempt.order.visit (oldKeys.difference newKeys)).Disjoint
        (attempt.order.visit (newKeys.difference oldKeys)) := by
    intro key removed added
    simp only [IterOrder.mem_visit, HashSet.mem_difference] at removed added
    exact added.2 removed.1
  have keys :=
    List.nodup_append'.mpr
      ⟨(attempt.order.nodup_visit).mpr (oldKeys.nodup_difference newKeys),
        (attempt.order.nodup_visit).mpr (newKeys.nodup_difference oldKeys),
        apart⟩
  have canonical :
      ∀ key ∈ attempt.order.visit (oldKeys.difference newKeys) ++
          attempt.order.visit (newKeys.difference oldKeys),
        CanonicalKey key := by
    intro key member
    simp only [List.mem_append, IterOrder.mem_visit,
      HashSet.mem_difference] at member
    rcases member with ⟨old, _⟩ | ⟨new, _⟩
    · exact oldCanonical key old
    · exact newCanonical key new
  have places :=
    keys.map_on (f := fun key => Place.node proto (trieBits key))
      fun first inFirst second inSecond same => by
        injection same with _ sameBits
        exact trieBits_injective (canonical first inFirst)
          (canonical second inSecond) sameBits
  rw [List.map_append] at places
  simpa [Cells.Distinct, trieSteps, configCells, ConfigStep.place?,
    MapWrite.place, List.filterMap_map, List.filterMap_cons,
    Function.comp_def] using places

/-- Every limit is written once at most. -/
theorem distinct_rateSteps :
    (configCells Score attempt).Distinct
      (rateSteps attempt rates rateSet) := by
  have gone :
      ((attempt.order.visit
          (rateSet.toList.filter fun entry => entry.1 ∉ rates)).map
        Prod.fst).Nodup :=
    ((attempt.order.perm _).map Prod.fst).nodup_iff.mpr
      (rateSet.nodup_toList.sublist (List.filter_sublist.map Prod.fst))
  have kept :
      ((attempt.order.visit rates.toList).map Prod.fst).Nodup :=
    ((attempt.order.perm _).map Prod.fst).nodup_iff.mpr rates.nodup_toList
  have apart :
      ((attempt.order.visit
          (rateSet.toList.filter fun entry => entry.1 ∉ rates)).map
        Prod.fst).Disjoint
        ((attempt.order.visit rates.toList).map Prod.fst) := by
    intro port isGone isKept
    obtain ⟨⟨_, old⟩, inGone, rfl⟩ := List.mem_map.mp isGone
    obtain ⟨⟨other, new⟩, inKept, same⟩ := List.mem_map.mp isKept
    simp only [IterOrder.mem_visit, List.mem_filter,
      decide_eq_true_eq] at inGone inKept
    have found := Table.mem_toList.mp inKept
    cases same
    exact inGone.2 (AList.lookup_isSome.mp (Option.isSome_of_mem found))
  have injective : Function.Injective Place.rate :=
    fun _ _ same => by cases same; rfl
  have places :=
    (List.nodup_append'.mpr ⟨gone, kept, apart⟩).map injective
  rw [List.map_append, List.map_map, List.map_map] at places
  simpa [Cells.Distinct, rateSteps, configCells, ConfigStep.place?,
    MapWrite.place, List.filterMap_map, List.filterMap_cons,
    Function.comp_def] using places

theorem mem_portSteps
    {step : ConfigStep} :
    step ∈ portSteps attempt proto wanted openPorts ↔
      (∃ port, (port ∈ openPorts ∧ port ∉ wanted) ∧
          .mapWrite (.setPort proto port 0) = step) ∨
        (∃ port, (port ∈ wanted ∧ port ∉ openPorts) ∧
          .mapWrite (.setPort proto port 1) = step) ∨
        step = .rememberPorts proto wanted := by
  simp [portSteps]

theorem mem_trieSteps
    {step : ConfigStep} :
    step ∈ trieSteps attempt proto newKeys oldKeys ↔
      (∃ key, (key ∈ oldKeys ∧ key ∉ newKeys) ∧
          .dropKey proto key = step) ∨
        (∃ key, (key ∈ newKeys ∧ key ∉ oldKeys) ∧
          .mapWrite (.insertKey proto key) = step) ∨
        step = .rememberKeys proto newKeys := by
  simp only [trieSteps, List.mem_append, List.mem_map, IterOrder.mem_visit,
    HashSet.mem_difference, List.mem_singleton, or_assoc]

theorem mem_rateSteps
    {step : ConfigStep} :
    step ∈ rateSteps attempt rates rateSet ↔
      (∃ port, ((rateSet.lookup port).isSome ∧ rates.lookup port = none) ∧
          .mapWrite (.setRate port 0) = step) ∨
        (∃ port packed, rates.lookup port = some packed ∧
          .mapWrite (.setRate port packed) = step) ∨
        step = .rememberRates rates := by
  simp only [rateSteps, List.mem_append, List.mem_map, IterOrder.mem_visit,
    List.mem_filter, List.mem_singleton, or_assoc, Prod.exists,
    Table.mem_toList, decide_eq_true_eq, ← AList.lookup_eq_none,
    Option.isSome_iff_exists]
  refine or_congr_left ?_
  constructor
  · rintro ⟨port, old, ⟨known, gone⟩, same⟩
    exact ⟨port, ⟨⟨old, known⟩, gone⟩, same⟩
  · rintro ⟨port, ⟨⟨old, known⟩, gone⟩, same⟩
    exact ⟨port, old, ⟨known, gone⟩, same⟩

/-- A port loop that comes to its end leaves the wanted ports open. -/
theorem ports_of_written
    (written :
      Written (ConfigStep.accept? attempt)
        (portSteps attempt proto wanted openPorts) before after)
    (shown : (before.kernel.ports proto).Shows openPorts) :
    (after.kernel.ports proto).Shows wanted := by
  intro port
  have settled
      {value : U8}
      (member :
        .mapWrite (.setPort proto port value) ∈
          portSteps attempt proto wanted openPorts) :
      (after.kernel.ports proto).entries port = value := by
    have stored :
        ConfigStep.Settled attempt
          (.mapWrite (.setPort proto port value)) after :=
      ConfigStep.settled_of_written written distinct_portSteps member rfl
    exact stored
  have kept
      (agree : port ∈ wanted ↔ port ∈ openPorts) :
      after.value (.port proto port) = before.value (.port proto port) := by
    refine World.value_of_foreign written ?_
    intro step member concerns
    rcases mem_portSteps.mp member with
      ⟨other, ⟨old, notNew⟩, rfl⟩ | ⟨other, ⟨new, notOld⟩, rfl⟩ | rfl
    · cases concerns
      exact notNew (agree.mpr old)
    · cases concerns
      exact notOld (agree.mp new)
    · cases concerns
  by_cases new : port ∈ wanted
  · rw [if_pos new]
    by_cases old : port ∈ openPorts
    · exact (kept (iff_of_true new old)).trans
        ((shown port).trans (if_pos old))
    · exact settled (mem_portSteps.mpr (.inr (.inl ⟨port, ⟨new, old⟩, rfl⟩)))
  · rw [if_neg new]
    by_cases old : port ∈ openPorts
    · exact settled (mem_portSteps.mpr (.inl ⟨port, ⟨old, new⟩, rfl⟩))
    · exact (kept (iff_of_false new old)).trans
        ((shown port).trans (if_neg old))

/-- A rate loop that comes to its end leaves the wanted limits. -/
theorem rates_of_written
    (written :
      Written (ConfigStep.accept? attempt)
        (rateSteps attempt rates rateSet) before after)
    (shown : before.kernel.rate.Shows rateSet) :
    after.kernel.rate.Shows rates := by
  intro port
  have settled
      {packed : U32}
      (member :
        .mapWrite (.setRate port packed) ∈
          rateSteps attempt rates rateSet) :
      after.kernel.rate.entries port = packed := by
    have stored :
        ConfigStep.Settled attempt (.mapWrite (.setRate port packed))
          after :=
      ConfigStep.settled_of_written written distinct_rateSteps member rfl
    exact stored
  cases new : rates.lookup port with
  | some packed =>
      exact settled (mem_rateSteps.mpr (.inr (.inl ⟨port, packed, new, rfl⟩)))
  | none =>
      by_cases old : (rateSet.lookup port).isSome
      · exact settled (mem_rateSteps.mpr (.inl ⟨port, ⟨old, new⟩, rfl⟩))
      · have kept : after.value (.rate port) = before.value (.rate port) := by
          refine World.value_of_foreign written ?_
          intro step member concerns
          rcases mem_rateSteps.mp member with
            ⟨other, ⟨known, _⟩, rfl⟩ | ⟨other, packed, wanted, rfl⟩ | rfl
          · cases concerns
            exact old known
          · cases concerns
            rw [new] at wanted
            cases wanted
          · cases concerns
        rw [Option.not_isSome_iff_eq_none] at old
        have wasZero := shown port
        rw [old] at wasZero
        exact kept.trans wasZero

/-- A trie loop leaves alone what is in both sets, or in neither. -/
theorem node_kept_of_foreign
    (written :
      Written (ConfigStep.accept? attempt)
        (trieSteps attempt proto newKeys oldKeys) before after)
    {stored : List Bool}
    (foreign :
      ∀ key, trieBits key = stored → (key ∈ newKeys ↔ key ∈ oldKeys)) :
    stored ∈ (after.kernel.tries proto).nodes.prefixes ↔
      stored ∈ (before.kernel.tries proto).nodes.prefixes := by
  have same :
      after.value (.node proto stored) =
        before.value (.node proto stored) := by
    refine World.value_of_foreign written ?_
    intro step member concerns
    rcases mem_trieSteps.mp member with
      ⟨key, ⟨old, notNew⟩, rfl⟩ | ⟨key, ⟨new, notOld⟩, rfl⟩ | rfl
    · cases concerns
      exact notNew ((foreign key rfl).mpr old)
    · cases concerns
      exact notOld ((foreign key rfl).mp new)
    · cases concerns
  exact decide_eq_decide.mp same

/-- Keys of the two sets that have the same bits are one key. -/
theorem key_eq_of_bits
    (newCanonical : ∀ key ∈ newKeys, CanonicalKey key)
    (oldCanonical : ∀ key ∈ oldKeys, CanonicalKey key)
    {first second : U32 × RuleKey}
    (firstKnown : first ∈ newKeys ∨ first ∈ oldKeys)
    (secondKnown : second ∈ newKeys ∨ second ∈ oldKeys)
    (same : trieBits first = trieBits second) :
    first = second :=
  trieBits_injective
    (firstKnown.elim (newCanonical first) (oldCanonical first))
    (secondKnown.elim (newCanonical second) (oldCanonical second)) same

/-- An old key whose removal is refused stays. -/
theorem node_kept_of_refused
    (written :
      Written (ConfigStep.accept? attempt)
        (trieSteps attempt proto newKeys oldKeys) before after)
    (newCanonical : ∀ key ∈ newKeys, CanonicalKey key)
    (oldCanonical : ∀ key ∈ oldKeys, CanonicalKey key)
    {key : U32 × RuleKey}
    (old : key ∈ oldKeys)
    (refused : attempt.refuses (.removeKey proto key) = true) :
    trieBits key ∈ (after.kernel.tries proto).nodes.prefixes ↔
      trieBits key ∈ (before.kernel.tries proto).nodes.prefixes := by
  have sameKey
      {other : U32 × RuleKey}
      (known : other ∈ newKeys ∨ other ∈ oldKeys)
      (same : trieBits other = trieBits key) : other = key :=
    key_eq_of_bits newCanonical oldCanonical known (.inr old) same
  have same :
      after.value (.node proto (trieBits key)) =
        before.value (.node proto (trieBits key)) := by
    refine World.value_of_settled written ?_
    intro step member concerns
    rcases mem_trieSteps.mp member with
      ⟨other, ⟨otherOld, _⟩, rfl⟩ | ⟨other, ⟨otherNew, notOld⟩, rfl⟩ | rfl
    · injection concerns with concerns
      injection concerns with _ sameBits
      cases sameKey (.inr otherOld) sameBits
      exact .inl refused
    · injection concerns with concerns
      injection concerns with _ sameBits
      cases sameKey (.inl otherNew) sameBits
      exact absurd old notOld
    · cases concerns
  exact decide_eq_decide.mp same

/--
A trie loop that comes to its end stores the wanted keys, and besides them
the old ones whose removal was refused.
-/
theorem tries_of_written
    (written :
      Written (ConfigStep.accept? attempt)
        (trieSteps attempt proto newKeys oldKeys) before after)
    (newCanonical : ∀ key ∈ newKeys, CanonicalKey key)
    (oldCanonical : ∀ key ∈ oldKeys, CanonicalKey key)
    (shown : (before.kernel.tries proto).Shows oldKeys) :
    (after.kernel.tries proto).Shows newKeys ↔
      ∀ key ∈ oldKeys, key ∉ newKeys →
        attempt.refuses (.removeKey proto key) = false := by
  have settled
      {step : ConfigStep}
      {place : Place}
      (member : step ∈ trieSteps attempt proto newKeys oldKeys)
      (concerns : step.place? = some place) :
      step.Settled attempt after :=
    ConfigStep.settled_of_written written
      (distinct_trieSteps newCanonical oldCanonical) member concerns
  constructor
  · intro shows key old notNew
    by_contra refused
    rw [Bool.not_eq_false] at refused
    have stays :=
      node_kept_of_refused written newCanonical oldCanonical old refused
    have stillStored := stays.mpr ((shown _).mpr ⟨key, old, rfl⟩)
    obtain ⟨other, new, sameBits⟩ := (shows _).mp stillStored
    cases key_eq_of_bits newCanonical oldCanonical (.inl new) (.inr old)
      sameBits
    exact notNew new
  · intro willing stored
    by_cases new : ∃ key ∈ newKeys, trieBits key = stored
    · refine iff_of_true ?_ new
      obtain ⟨key, isNew, rfl⟩ := new
      by_cases old : key ∈ oldKeys
      · refine (node_kept_of_foreign written fun other same => ?_).mpr
          ((shown _).mpr ⟨key, old, rfl⟩)
        have isKey (known : other ∈ newKeys ∨ other ∈ oldKeys) :
            other = key :=
          key_eq_of_bits newCanonical oldCanonical known (.inl isNew) same
        constructor
        · intro otherNew
          rw [isKey (.inl otherNew)]
          exact old
        · intro otherOld
          rw [isKey (.inr otherOld)]
          exact isNew
      · have inserted :
            ConfigStep.Settled attempt (.mapWrite (.insertKey proto key))
              after :=
          settled (mem_trieSteps.mpr (.inr (.inl ⟨key, ⟨isNew, old⟩, rfl⟩)))
            rfl
        exact inserted
    · refine iff_of_false ?_ new
      by_cases old : ∃ key ∈ oldKeys, trieBits key = stored
      · obtain ⟨key, isOld, rfl⟩ := old
        have notNew : key ∉ newKeys := fun isNew => new ⟨key, isNew, rfl⟩
        have removed :
            ConfigStep.Settled attempt (.dropKey proto key) after :=
          settled (mem_trieSteps.mpr (.inl ⟨key, ⟨isOld, notNew⟩, rfl⟩)) rfl
        rcases removed with refused | gone
        · rw [willing key isOld notNew] at refused
          cases refused
        · exact gone
      · intro stillStored
        have wasStored :=
          (node_kept_of_foreign written fun key same =>
            iff_of_false (fun isNew => new ⟨key, isNew, same⟩)
              (fun isOld => old ⟨key, isOld, same⟩)).mp stillStored
        exact old ((shown _).mp wasStored)

end

/-- Everything that is remembered of the rule maps. -/
def World.remembered (world : World Score) :
    (Proto → HashSet U16) × (Proto → HashSet (U32 × RuleKey)) ×
      Table U16 U32 :=
  (fun proto => (world.kernel.ports proto).openPorts,
    fun proto => (world.kernel.tries proto).keys,
    world.kernel.rate.rateSet)

/-- The rule maps. -/
def Part.IsRules : Part → Prop
  | .settings => False
  | .ports _ => True
  | .trie _ => True
  | .rate => True
  | .shared => False

/-- A part holds what is remembered of it. -/
def World.InStepAt (world : World Score) : Part → Prop
  | .settings => True
  | .ports proto =>
      (world.kernel.ports proto).Shows (world.kernel.ports proto).openPorts
  | .trie proto =>
      (world.kernel.tries proto).Shows (world.kernel.tries proto).keys
  | .rate => world.kernel.rate.Shows world.kernel.rate.rateSet
  | .shared => True

/-- What is remembered of a part is what a compiled policy has for it. -/
def World.RemembersAt (world : World Score) (compiled : Compiled) :
    Part → Prop
  | .settings => True
  | .ports proto =>
      (world.kernel.ports proto).openPorts = compiled.ports proto
  | .trie proto => (world.kernel.tries proto).keys = compiled.keys proto
  | .rate => world.kernel.rate.rateSet = compiled.rates
  | .shared => True

theorem inStep_iff :
    after.kernel.InStep ↔ ∀ part, after.InStepAt part := by
  constructor
  · intro inStep part
    cases part with
    | settings => trivial
    | ports proto => exact inStep.ports proto
    | trie proto => exact inStep.tries proto
    | rate => exact inStep.rates
    | shared => trivial
  · intro inStep
    exact ⟨fun proto => inStep (.ports proto),
      fun proto => inStep (.trie proto), inStep .rate⟩

theorem remembers_iff :
    after.kernel.Remembers compiled ↔
      ∀ part, after.RemembersAt compiled part := by
  constructor
  · intro remembers part
    cases part with
    | settings => trivial
    | ports proto => exact remembers.ports proto
    | trie proto => exact remembers.tries proto
    | rate => exact remembers.rates
    | shared => trivial
  · intro remembers
    exact ⟨fun proto => remembers (.ports proto),
      fun proto => remembers (.trie proto), remembers .rate⟩

section

variable {part : Part}

theorem inStepAt_congr
    (same : after.get part = before.get part) :
    after.InStepAt part ↔ before.InStepAt part := by
  cases part with
  | settings => exact Iff.rfl
  | ports proto =>
      exact iff_of_eq
        (congrArg (fun map : PortMap => map.Shows map.openPorts) same)
  | trie proto =>
      exact iff_of_eq
        (congrArg (fun trie : RuleTrie => trie.Shows trie.keys) same)
  | rate =>
      exact iff_of_eq
        (congrArg (fun map : RateMap => map.Shows map.rateSet) same)
  | shared => exact Iff.rfl

theorem remembersAt_congr
    (same : after.get part = before.get part) :
    after.RemembersAt compiled part ↔ before.RemembersAt compiled part := by
  cases part with
  | settings => exact Iff.rfl
  | ports proto =>
      exact iff_of_eq
        (congrArg (fun map : PortMap => map.openPorts = compiled.ports proto)
          same)
  | trie proto =>
      exact iff_of_eq
        (congrArg (fun trie : RuleTrie => trie.keys = compiled.keys proto)
          same)
  | rate =>
      exact iff_of_eq
        (congrArg (fun map : RateMap => map.rateSet = compiled.rates) same)
  | shared => exact Iff.rfl

/-- Equal cells and an equal memory keep a part in step. -/
theorem inStepAt_of_values
    (values :
      ∀ place, place.part = part → after.value place = before.value place)
    (remembered : after.remembered = before.remembered)
    (inStep : before.InStepAt part) :
    after.InStepAt part := by
  obtain ⟨samePorts, rest⟩ := Prod.ext_iff.mp remembered
  obtain ⟨sameKeys, sameRates⟩ := Prod.ext_iff.mp rest
  cases part with
  | settings => trivial
  | ports proto =>
      intro port
      rw [show (after.kernel.ports proto).openPorts =
        (before.kernel.ports proto).openPorts from congrFun samePorts proto]
      exact Eq.trans (values (.port proto port) rfl) (inStep port)
  | trie proto =>
      intro stored
      rw [show (after.kernel.tries proto).keys =
        (before.kernel.tries proto).keys from congrFun sameKeys proto]
      exact (decide_eq_decide.mp (values (.node proto stored) rfl)).trans
        (inStep stored)
  | rate =>
      intro port
      rw [show after.kernel.rate.rateSet = before.kernel.rate.rateSet from
        sameRates]
      exact Eq.trans (values (.rate port) rfl) (inStep port)
  | shared => trivial

/-- A kernel write leaves what is remembered alone. -/
theorem MapWrite.remembered_of_effect?
    {write : MapWrite}
    (done : write.effect? before = some after) :
    after.remembered = before.remembered := by
  have update_openPorts
      (proto : Proto)
      (entries : U16 → U8) :
      (fun other =>
        (Function.update before.kernel.ports proto
          { before.kernel.ports proto with entries := entries }
          other).openPorts) =
        fun other => (before.kernel.ports other).openPorts := by
    funext other
    by_cases same : other = proto
    · subst same
      rw [Function.update_self]
    · rw [Function.update_of_ne same]
  have update_keys
      (proto : Proto)
      (nodes : PrefixTrie 4096) :
      (fun other =>
        (Function.update before.kernel.tries proto
          { before.kernel.tries proto with nodes := nodes } other).keys) =
        fun other => (before.kernel.tries other).keys := by
    funext other
    by_cases same : other = proto
    · subst same
      rw [Function.update_self]
    · rw [Function.update_of_ne same]
  cases write with
  | setting slot value =>
      cases done
      rfl
  | setPort proto port value =>
      cases done
      exact Prod.ext (update_openPorts proto _) rfl
  | insertKey proto key =>
      obtain ⟨nodes, _, rfl⟩ := Option.map_eq_some_iff.mp done
      exact Prod.ext rfl (Prod.ext (update_keys proto nodes) rfl)
  | removeKey proto key =>
      obtain ⟨nodes, _, rfl⟩ := Option.map_eq_some_iff.mp done
      exact Prod.ext rfl (Prod.ext (update_keys proto nodes) rfl)
  | setRate port packed =>
      cases done
      rfl

/-- Steps that write to a kernel map. -/
def ConfigStep.IsWrite : ConfigStep → Prop
  | .mapWrite _ => True
  | .dropKey _ _ => True
  | .rememberPorts _ _ => False
  | .rememberKeys _ _ => False
  | .rememberRates _ => False
  | .reconfigure _ => False
  | .lift _ => False
  | .block _ => False
  | .markDirty => False

theorem remembered_of_accept?
    {step : ConfigStep}
    (isWrite : step.IsWrite)
    (accepted : step.accept? attempt before = some after) :
    after.remembered = before.remembered := by
  cases step with
  | mapWrite write =>
      obtain ⟨_, done⟩ := accept_mapWrite_iff.mp accepted
      exact MapWrite.remembered_of_effect? done
  | dropKey proto key =>
      rcases accept_dropKey_cases accepted with ⟨same, _⟩ | ⟨_, done⟩
      · rw [same]
      · exact MapWrite.remembered_of_effect? done
  | rememberPorts proto wanted => cases isWrite
  | rememberKeys proto wanted => cases isWrite
  | rememberRates rates => cases isWrite
  | reconfigure cfg => cases isWrite
  | lift ip => cases isWrite
  | block ip => cases isWrite
  | markDirty => cases isWrite

/-- The segment of a rule map: kernel writes, then what to remember. -/
theorem segment_of_rules
    (attempt : Attempt)
    (cfg : Config)
    (policy : Policy)
    (compiled : Compiled)
    (blocked : List Cidr)
    (world : World Score)
    (rules : part.IsRules) :
    ∃ writes memory,
      segment attempt cfg policy compiled blocked world part =
          writes ++ [memory] ∧
        (∀ step ∈ writes, step.IsWrite) ∧
        (∀ state : World Score, memory.accept? attempt state ≠ none) ∧
        ∀ first last : World Score,
          memory.accept? attempt first = some last →
          last.RemembersAt compiled part := by
  cases part with
  | settings => cases rules
  | shared => cases rules
  | ports proto =>
      refine ⟨_, _, rfl, ?_, fun state => Option.some_ne_none _, ?_⟩
      · intro step member
        simp only [List.mem_append, List.mem_map] at member
        rcases member with ⟨_, _, rfl⟩ | ⟨_, _, rfl⟩ <;> trivial
      · rintro first last ⟨⟩
        simp [World.RemembersAt, World.setPorts]
  | trie proto =>
      refine ⟨_, _, rfl, ?_, fun state => Option.some_ne_none _, ?_⟩
      · intro step member
        simp only [List.mem_append, List.mem_map] at member
        rcases member with ⟨_, _, rfl⟩ | ⟨_, _, rfl⟩ <;> trivial
      · rintro first last ⟨⟩
        simp [World.RemembersAt, World.setTrie]
  | rate =>
      refine ⟨_, _, rfl, ?_, fun state => Option.some_ne_none _, ?_⟩
      · intro step member
        simp only [List.mem_append, List.mem_map] at member
        rcases member with ⟨_, _, rfl⟩ | ⟨_, _, rfl⟩ <;> trivial
      · rintro first last ⟨⟩
        rfl

/-- A finished segment leaves its policy remembered. -/
theorem remembersAt_of_finished
    {world : World Score}
    (written :
      Written (ConfigStep.accept? attempt)
        (segment attempt cfg policy compiled blocked world part)
        before after) :
    after.RemembersAt compiled part := by
  by_cases rules : part.IsRules
  · obtain ⟨writes, memory, shape, _, _, remembers⟩ :=
      segment_of_rules attempt cfg policy compiled blocked world rules
    rw [shape] at written
    obtain ⟨middle, _, accepted⟩ := written.last
    exact remembers middle after accepted
  · cases part with
    | settings => trivial
    | shared => trivial
    | ports proto => exact absurd trivial rules
    | trie proto => exact absurd trivial rules
    | rate => exact absurd trivial rules

end

/-- A segment of a rule map is interrupted among its kernel writes. -/
theorem writes_of_interrupted
    {world : World Score}
    {part : Part}
    (rules : part.IsRules)
    (stopped :
      Stopped (ConfigStep.accept? attempt)
        (segment attempt cfg policy compiled blocked world part)
        before after) :
    ∃ done refused rest,
      segment attempt cfg policy compiled blocked world part =
          done ++ refused :: rest ∧
        (∀ step ∈ done, step.IsWrite) ∧
        Written (ConfigStep.accept? attempt) done before after ∧
        refused.accept? attempt after = none := by
  obtain ⟨writes, memory, shape, areWrites, accepted, _⟩ :=
    segment_of_rules attempt cfg policy compiled blocked world rules
  rw [shape] at stopped
  obtain ⟨done, refused, rest, isWrites, written, isRefused⟩ :=
    Stopped.of_accepted_last accepted stopped
  refine ⟨done, refused, rest ++ [memory], by rw [shape, isWrites]; simp,
    ?_, written, isRefused⟩
  intro step member
  refine areWrites step ?_
  rw [isWrites]
  exact List.mem_append_left _ member

theorem remembered_of_writes
    {steps : List ConfigStep}
    (areWrites : ∀ step ∈ steps, step.IsWrite)
    (written : Written (ConfigStep.accept? attempt) steps before after) :
    after.remembered = before.remembered :=
  written.frame World.remembered fun step member _ _ accepted =>
    remembered_of_accept? (areWrites step member) accepted

/-- A call comes to a step after it has taken others. -/
def ComesTo
    (attempt : Attempt)
    (steps : List ConfigStep)
    (before : World Score)
    (done : List ConfigStep)
    (step : ConfigStep)
    (here : World Score) : Prop :=
  ∃ rest,
    steps = done ++ step :: rest ∧
      Written (ConfigStep.accept? attempt) done before here

/-- No removal from a trie is refused before its keys are remembered. -/
def RemovesAll
    (attempt : Attempt)
    (steps : List ConfigStep)
    (before : World Score) : Prop :=
  ∀ done proto wanted here,
    ComesTo attempt steps before done (.rememberKeys proto wanted) here →
    ∀ key, .dropKey proto key ∈ done →
      attempt.refuses (.removeKey proto key) = false

/--
Every removal is made, and where a write to a rule map ends the call, the
steps before it on that map had nothing to change.
-/
structure KeepsStep
    (attempt : Attempt)
    (steps : List ConfigStep)
    (before : World Score) : Prop where
  removals : RemovesAll attempt steps before
  stops :
    ∀ done step here,
      ComesTo attempt steps before done step here →
      step.accept? attempt here = none →
      step.part.IsRules →
      ∀ earlier ∈ done, earlier.part = step.part →
        earlier.Settled attempt before

section

variable
  {steps earlier later : List ConfigStep}
  {first last : World Score}
  {part : Part}

/-- A finished part is in step with the new policy. -/
theorem inStepAt_of_finished
    (removals : RemovesAll attempt steps before)
    (compiles : compile policy = .ok compiled)
    (canonical : before.kernel.Canonical)
    (shape :
      steps =
        earlier ++
          (segment attempt cfg policy compiled blocked before part ++ later))
    (writtenEarlier :
      Written (ConfigStep.accept? attempt) earlier before first)
    (same : first.get part = before.get part)
    (written :
      Written (ConfigStep.accept? attempt)
        (segment attempt cfg policy compiled blocked before part) first last)
    (inStep : before.InStepAt part) :
    last.InStepAt part := by
  have remembers := remembersAt_of_finished written
  rw [← inStepAt_congr same] at inStep
  cases part with
  | settings => trivial
  | shared => trivial
  | ports proto =>
      have map : first.kernel.ports proto = before.kernel.ports proto := same
      change (last.kernel.ports proto).Shows _
      rw [show (last.kernel.ports proto).openPorts = _ from remembers]
      refine ports_of_written written ?_
      rw [← map]
      exact inStep
  | trie proto =>
      have trie : first.kernel.tries proto = before.kernel.tries proto := same
      change (last.kernel.tries proto).Shows _
      rw [show (last.kernel.tries proto).keys = _ from remembers]
      refine (tries_of_written written (canonical_of_compile compiles proto)
        (canonical proto) ?_).mpr ?_
      · rw [← trie]
        exact inStep
      intro key old notNew
      obtain ⟨middle, writtenLoops, _⟩ := written.last
      have comes :
          ComesTo attempt steps before _
            (.rememberKeys proto (compiled.keys proto)) middle :=
        ⟨later, by rw [shape]; simp [segment, trieSteps],
          Written.append_iff.mpr ⟨first, writtenEarlier, writtenLoops⟩⟩
      refine removals _ proto _ middle comes key ?_
      simp [old, notNew]
  | rate =>
      have map : first.kernel.rate = before.kernel.rate := same
      change last.kernel.rate.Shows _
      rw [show last.kernel.rate.rateSet = _ from remembers]
      refine rates_of_written written ?_
      rw [← map]
      exact inStep

/-- A part a call is interrupted in holds what it held before. -/
theorem inStepAt_of_interrupted
    (keeps : KeepsStep attempt steps before)
    (shape :
      steps =
        earlier ++
          (segment attempt cfg policy compiled blocked before part ++ later))
    (writtenEarlier :
      Written (ConfigStep.accept? attempt) earlier before first)
    (same : first.get part = before.get part)
    (stopped :
      Stopped (ConfigStep.accept? attempt)
        (segment attempt cfg policy compiled blocked before part)
        first after)
    (inStep : before.InStepAt part) :
    after.InStepAt part := by
  by_cases rules : part.IsRules
  · obtain ⟨done, refused, rest, segmentShape, areWrites, written,
      isRefused⟩ := writes_of_interrupted rules stopped
    have inPart : ∀ step ∈ done ++ refused :: rest, step.part = part := by
      intro step member
      rw [← segmentShape] at member
      exact part_of_mem_segment member
    have refusedPart : refused.part = part := inPart refused (by simp)
    have comes : ComesTo attempt steps before (earlier ++ done) refused after :=
      ⟨rest ++ later, by rw [shape, segmentShape]; simp,
        Written.append_iff.mpr ⟨first, writtenEarlier, written⟩⟩
    have settled : ∀ step ∈ done, step.Settled attempt before := by
      intro step member
      refine keeps.stops _ _ _ comes isRefused (refusedPart ▸ rules) step
        (List.mem_append_right _ member) ?_
      rw [inPart step (List.mem_append_left _ member), refusedPart]
    have inStepFirst := (inStepAt_congr same).mpr inStep
    refine inStepAt_of_values ?_ ?_ inStepFirst
    · intro place isPart
      refine World.value_of_settled written fun step member concerns => ?_
      refine ConfigStep.settled_congr concerns ?_ (settled step member)
      exact (World.value_congr (isPart ▸ same)).symm
    · exact remembered_of_writes areWrites written
  · cases part with
    | settings => trivial
    | shared => trivial
    | ports proto => exact absurd trivial rules
    | trie proto => exact absurd trivial rules
    | rate => exact absurd trivial rules

end

/-- After every call only keys `compile` has made are remembered. -/
theorem applyConfig_canonical
    (attempt : Attempt)
    (compiles : compile policy = .ok compiled)
    (readable : cfg.blockedCidrs = .ok blocked)
    (canonical : before.kernel.Canonical) :
    match (applyConfig attempt cfg policy).run before with
    | .ok _ after => after.kernel.Canonical
    | .error _ after => after.kernel.Canonical := by
  have ofKeys
      {after : World Score}
      (keys :
        ∀ proto,
          (after.kernel.tries proto).keys =
              (before.kernel.tries proto).keys ∨
            (after.kernel.tries proto).keys = compiled.keys proto) :
      after.kernel.Canonical := by
    intro proto
    rcases keys proto with same | new
    · rw [same]
      exact canonical proto
    · rw [new]
      exact canonical_of_compile compiles proto
  have finishedKeys
      {proto : Proto}
      {first last after : World Score}
      (finished :
        Written (ConfigStep.accept? attempt)
          (segment attempt cfg policy compiled blocked before (.trie proto))
          first last)
      (isLast : last.get (.trie proto) = after.get (.trie proto)) :
      (after.kernel.tries proto).keys = compiled.keys proto := by
    have remembers : last.RemembersAt compiled (.trie proto) :=
      remembersAt_of_finished finished
    exact (remembersAt_congr isLast).mp remembers
  cases ran : (applyConfig attempt cfg policy).run before with
  | ok result after =>
      refine ofKeys fun proto => .inr ?_
      obtain ⟨_, _, first, last, _, _, _, finished, isLast⟩ :=
        finished_of_written_plan ((applyConfig_ok_iff compiles readable).mp ran) (.trie proto)
      exact finishedKeys finished isLast
  | error failure after =>
      have stopped := (applyConfig_error_iff compiles readable).mp ⟨failure, ran⟩
      refine ofKeys fun proto => ?_
      cases progress_of_stopped_plan stopped (.trie proto) with
      | untouched same => exact .inl (congrArg RuleTrie.keys same)
      | finished shape writtenEarlier same finished isLast =>
          exact .inr (finishedKeys finished isLast)
      | interrupted shape writtenEarlier same interrupted =>
          have rules : (Part.trie proto).IsRules := trivial
          obtain ⟨_, _, _, _, areWrites, written, _⟩ :=
            writes_of_interrupted rules interrupted
          have remembered := remembered_of_writes areWrites written
          obtain ⟨_, rest⟩ := Prod.ext_iff.mp remembered
          obtain ⟨keys, _⟩ := Prod.ext_iff.mp rest
          exact .inl ((congrFun keys proto).trans
            (congrArg RuleTrie.keys same))

/-- A call that succeeds leaves its policy in the rule maps. -/
theorem inStep_of_ok
    (compiles : compile policy = .ok compiled)
    (readable : cfg.blockedCidrs = .ok blocked)
    (canonical : before.kernel.Canonical)
    (inStep : before.kernel.InStep)
    (removals :
      RemovesAll attempt (plan attempt cfg policy compiled blocked before)
        before)
    (ran : (applyConfig attempt cfg policy).run before = .ok () after) :
    after.kernel.InStep ∧ after.kernel.Holds compiled := by
  have written := (applyConfig_ok_iff compiles readable).mp ran
  rw [inStep_iff] at inStep
  have inStepAfter : after.kernel.InStep := by
    refine inStep_iff.mpr fun part => ?_
    obtain ⟨_, _, first, last, shape, writtenEarlier, same, finished,
      isLast⟩ := finished_of_written_plan written part
    exact (inStepAt_congr isLast).mp
      (inStepAt_of_finished removals compiles canonical shape
        writtenEarlier same finished (inStep part))
  refine ⟨inStepAfter, inStepAfter.holds ?_⟩
  refine remembers_iff.mpr fun part => ?_
  obtain ⟨_, _, first, last, _, _, _, finished, isLast⟩ :=
    finished_of_written_plan written part
  exact (remembersAt_congr isLast).mp (remembersAt_of_finished finished)

/-- What a call that succeeds leaves in `CONFIG`. -/
theorem settings_of_ok
    (compiles : compile policy = .ok compiled)
    (readable : cfg.blockedCidrs = .ok blocked)
    (ran : (applyConfig attempt cfg policy).run before = .ok () after) :
    after.settings cfgEnforce = (if cfg.enforce then 1 else 0) ∧
      after.settings cfgEphemeralLow = attempt.ephemeralLow ∧
      after.settings cfgDropPing = (if policy.allowPing then 0 else 1) ∧
      after.settings cfgUdpStrict = before.settings cfgUdpStrict := by
  have written := (applyConfig_ok_iff compiles readable).mp ran
  obtain ⟨_, _, first, last, _, _, same, finished, isLast⟩ :=
    finished_of_written_plan written .settings
  have distinct :
      (configCells Score attempt).Distinct
        (settingSteps attempt cfg policy) := by
    have slots :
        [Place.setting cfgEnforce, Place.setting cfgEphemeralLow,
          Place.setting cfgDropPing].Nodup := by
      decide
    exact slots
  have settled
      {slot : Fin 4}
      {value : U32}
      (member :
        .mapWrite (.setting slot value) ∈
          settingSteps attempt cfg policy) :
      after.settings slot = value := by
    have stored :
        ConfigStep.Settled attempt (.mapWrite (.setting slot value)) last :=
      ConfigStep.settled_of_written finished distinct member rfl
    exact (congrFun isLast slot).symm.trans stored
  refine ⟨settled (by simp [settingSteps]), settled (by simp [settingSteps]),
    settled (by simp [settingSteps]), ?_⟩
  have kept :
      last.value (.setting cfgUdpStrict) =
        first.value (.setting cfgUdpStrict) := by
    refine World.value_of_foreign finished fun step member concerns => ?_
    simp only [segment, settingSteps, List.mem_cons, List.not_mem_nil,
      or_false] at member
    rcases member with rfl | rfl | rfl
    all_goals
      injection concerns with sameCell
      injection sameCell with sameSlot
      exact absurd sameSlot (by decide)
  calc
    after.settings cfgUdpStrict = last.settings cfgUdpStrict :=
      (congrFun isLast _).symm
    _ = first.settings cfgUdpStrict := kept
    _ = before.settings cfgUdpStrict := congrFun same _

/-- From fresh maps nothing has to be removed. -/
theorem removesAll_of_fresh
    (fresh : before.kernel = .fresh) :
    RemovesAll attempt (plan attempt cfg policy compiled blocked before)
      before := by
  intro done proto wanted here comes key member
  obtain ⟨rest, shape, _⟩ := comes
  have inPlan :
      .dropKey proto key ∈
        plan attempt cfg policy compiled blocked before := by
    rw [shape]
    exact List.mem_append_left _ member
  obtain ⟨part, _, inSegment⟩ := List.mem_flatMap.mp inPlan
  have isPart := part_of_mem_segment inSegment
  subst isPart
  rcases mem_trieSteps.mp inSegment with
    ⟨other, ⟨old, _⟩, _⟩ | ⟨_, _, same⟩ | same
  · rw [fresh] at old
    exact absurd old (HashSet.notMem_empty other)
  · cases same
  · cases same

/-- One call, successful or not, keeps the rule maps in step. -/
theorem applyConfig_inStep
    (compiles : compile policy = .ok compiled)
    (readable : cfg.blockedCidrs = .ok blocked)
    (canonical : before.kernel.Canonical)
    (inStep : before.kernel.InStep)
    (keeps :
      KeepsStep attempt (plan attempt cfg policy compiled blocked before)
        before) :
    match (applyConfig attempt cfg policy).run before with
    | .ok _ after => after.kernel.InStep ∧ after.kernel.Holds compiled
    | .error _ after => after.kernel.InStep := by
  cases ran : (applyConfig attempt cfg policy).run before with
  | ok result after =>
      exact inStep_of_ok compiles readable canonical inStep keeps.removals
        ran
  | error failure after =>
      have stopped := (applyConfig_error_iff compiles readable).mp ⟨failure, ran⟩
      rw [inStep_iff] at inStep
      refine inStep_iff.mpr fun part => ?_
      cases progress_of_stopped_plan stopped part with
      | untouched same => exact (inStepAt_congr same).mpr (inStep part)
      | finished shape writtenEarlier same finished isLast =>
          exact (inStepAt_congr isLast).mp
            (inStepAt_of_finished keeps.removals compiles canonical shape
              writtenEarlier same finished (inStep part))
      | interrupted shape writtenEarlier same interrupted =>
          exact inStepAt_of_interrupted keeps shape writtenEarlier same
            interrupted (inStep part)

end

/-- What happens to the rule maps of one daemon, from its start on. -/
inductive RuleEvent (Score : Type) where
  /-- A configuration is applied, under a profile. -/
  | call (attempt : Attempt) (cfg : Config) (profile : Option String)
  /-- Everything else the daemon does leaves the rule maps alone. -/
  | meanwhile (settings : Fin 4 → U32) (shared : Shared Score)

section

variable {Score : Type}

/-- A call, successful or not, leaves what it has written. -/
def ruleStep (world : World Score) : RuleEvent Score → World Score
  | .call attempt cfg profile =>
      match (applyConfig attempt cfg (cfg.policy profile)).run world with
      | .ok _ after => after
      | .error _ after => after
  | .meanwhile settings shared =>
      { world with settings := settings, shared := shared }

/-- The configuration of a call has passed its check. -/
def RuleEvent.Accepted : RuleEvent Score → Prop
  | .call _ cfg _ => cfg.validate = .ok ()
  | .meanwhile _ _ => True

/-- A call that leaves no rule map half written. -/
def RuleEvent.LeavesInStep (world : World Score) : RuleEvent Score → Prop
  | .call attempt cfg profile =>
      ∀ compiled blocked,
        compile (cfg.policy profile) = .ok compiled →
        cfg.blockedCidrs = .ok blocked →
        KeepsStep attempt
          (plan attempt cfg (cfg.policy profile) compiled blocked world)
          world
  | .meanwhile _ _ => True

/-- The rule maps hold what is remembered, and only canonical keys. -/
def Tidy (world : World Score) : Prop :=
  world.kernel.InStep ∧ world.kernel.Canonical

/-- What an accepted configuration gives a call to work with. -/
theorem compiled_of_accepted
    {cfg : Config}
    (accepted : cfg.validate = .ok ())
    (profile : Option String) :
    ∃ compiled blocked,
      compile (cfg.policy profile) = .ok compiled ∧
        cfg.blockedCidrs = .ok blocked := by
  have usable := Config.validate_ok.mp accepted
  obtain ⟨compiled, compiles⟩ := compile_of_usable (usable.policy profile)
  obtain ⟨blocked, readable, _⟩ := usable.blocked
  exact ⟨compiled, blocked, compiles, readable⟩

theorem ruleStep_tidy
    {world : World Score}
    {event : RuleEvent Score}
    (accepted : event.Accepted)
    (leaves : event.LeavesInStep world)
    (tidy : Tidy world) :
    Tidy (ruleStep world event) := by
  cases event with
  | meanwhile settings shared => exact tidy
  | call attempt cfg profile =>
      obtain ⟨compiled, blocked, compiles, readable⟩ :=
        compiled_of_accepted accepted profile
      have inStep :=
        applyConfig_inStep compiles readable tidy.2 tidy.1
          (leaves compiled blocked compiles readable)
      have canonical :=
        applyConfig_canonical attempt compiles readable tidy.2
      simp only [ruleStep]
      cases ran :
          (applyConfig attempt cfg (cfg.policy profile)).run world with
      | ok result after =>
          rw [ran] at inStep canonical
          exact ⟨inStep.1, canonical⟩
      | error failure after =>
          rw [ran] at inStep canonical
          exact ⟨inStep, canonical⟩

/--
In every run of calls, failing ones among them, a call that succeeds leaves
exactly its policy in the rule maps, as long as no call has left a rule map
half written.
-/
theorem rules_never_drift
    (settings : Fin 4 → U32)
    (shared : Shared Score)
    (events : List (RuleEvent Score))
    (accepted : ∀ event ∈ events, event.Accepted)
    (leaves :
      Runs.Stepwise
        (fun past event =>
          event.LeavesInStep
            (Runs.run ruleStep ⟨settings, .fresh, shared⟩ past))
        events)
    (past rest : List (RuleEvent Score))
    (attempt : Attempt)
    (cfg : Config)
    (profile : Option String)
    (after : World Score)
    (compiled : Compiled)
    (shape : events = past ++ .call attempt cfg profile :: rest)
    (succeeded :
      (applyConfig attempt cfg (cfg.policy profile)).run
          (Runs.run ruleStep ⟨settings, .fresh, shared⟩ past) =
        .ok () after)
    (compiles : compile (cfg.policy profile) = .ok compiled) :
    after.kernel.Holds compiled := by
  subst shape
  have tidy :
      Tidy (Runs.run ruleStep ⟨settings, .fresh, shared⟩ past) := by
    have pastAccepted :
        Runs.Stepwise
          (fun _ (event : RuleEvent Score) => event.Accepted) past :=
      fun _ event _ isPast =>
        accepted event (by rw [isPast]; simp)
    exact (leaves.before.and pastAccepted).invariant
      (fun _ world => Tidy world)
      ⟨Kernel.fresh_inStep, Kernel.fresh_canonical⟩
      fun _ _ condition holds =>
        ruleStep_tidy condition.2 condition.1 holds
  obtain ⟨_, blocked, _, readable⟩ :=
    compiled_of_accepted (accepted (.call attempt cfg profile) (by simp))
      profile
  have applied :=
    applyConfig_inStep compiles readable tidy.2 tidy.1
      (leaves past _ rest rfl compiled blocked compiles readable)
  rw [succeeded] at applied
  exact applied.2

end

/-- A kernel that refuses some writes, and clocks that stand still. -/
def refusing (refuses : MapWrite → Bool) : Attempt where
  host := clockedHost 1000 1000000
  order := .insertion
  ephemeralLow := 32768
  refuses := refuses

/-- A configuration that opens one TCP port. -/
def openOnly (port : U16) : Config :=
  { Config.default with allowTcp := [.one port] }

/--
Port 22 is open, a change to port 80 fails after port 22 was closed, and the
first configuration is put back.
-/
def putBack : List (RuleEvent ℚ) :=
  [.call (refusing fun _ => false) (openOnly 22) none,
    .call (refusing fun write => write = .setPort .tcp 80 1)
      (openOnly 80) none,
    .call (refusing fun _ => false) (openOnly 22) none]

/-- The world after some of these calls. -/
def putBackWorld (calls : Nat) : World ℚ :=
  Runs.run ruleStep ⟨fun _ => 0, .fresh, freshShared⟩ (putBack.take calls)

/-- The configuration that is put back finds nothing to write. -/
theorem put_back_port_stays_closed :
    ∃ after compiled,
      (applyConfig (refusing fun _ => false) (openOnly 22)
          ((openOnly 22).policy none)).run (putBackWorld 2) =
          .ok () after ∧
        compile ((openOnly 22).policy none) = .ok compiled ∧
        ¬after.kernel.Holds compiled := by
  obtain ⟨compiled, blocked, compiles, readable⟩ :=
    compiled_of_accepted (by decide : (openOnly 22).validate = .ok ()) none
  have wanted : (22 : U16) ∈ compiled.ports .tcp :=
    (mem_ports_compile compiles .tcp 22).mpr
      (.inl ⟨.one 22, List.mem_singleton_self _, by decide⟩)
  have third :
      putBackWorld 3 =
        ruleStep (putBackWorld 2)
          (.call (refusing fun _ => false) (openOnly 22) none) := by
    have shape :
        putBack.take 3 =
          putBack.take 2 ++
            [.call (refusing fun _ => false) (openOnly 22) none] :=
      rfl
    rw [putBackWorld, shape, Runs.run_concat, putBackWorld]
  have closed : ((putBackWorld 3).kernel.ports .tcp).entries 22 = 0 := by
    decide +kernel
  have finished :
      (match (applyConfig (refusing fun _ => false) (openOnly 22)
          ((openOnly 22).policy none)).run (putBackWorld 2) with
      | .ok _ _ => true
      | .error _ _ => false) = true := by
    decide +kernel
  rw [third, ruleStep] at closed
  cases ran :
      (applyConfig (refusing fun _ => false) (openOnly 22)
        ((openOnly 22).policy none)).run (putBackWorld 2) with
  | error failure after =>
      rw [ran] at finished
      cases finished
  | ok result after =>
      rw [ran] at closed
      refine ⟨after, compiled, rfl, compiles, fun holds => ?_⟩
      have isOpen := holds.ports .tcp 22
      rw [if_pos wanted, closed] at isOpen
      cases isOpen

/-- A call that is refused settings at most, for a policy without rules. -/
theorem keepsStep_of_willing
    {Score : Type}
    {attempt : Attempt}
    {cfg : Config}
    {policy : Policy}
    {compiled : Compiled}
    {blocked : List Cidr}
    {world : World Score}
    (compiles : compile policy = .ok compiled)
    (willing :
      ∀ write, attempt.refuses write = true → write.part = .settings)
    (noRules : policy.rules = []) :
    KeepsStep attempt (plan attempt cfg policy compiled blocked world)
      world where
  removals _ proto _ _ _ key _ := by
    rw [← Bool.not_eq_true]
    intro refused
    cases willing (.removeKey proto key) refused
  stops done step here comes refused rules := by
    obtain ⟨rest, shape, _⟩ := comes
    have member :
        step ∈ plan attempt cfg policy compiled blocked world := by
      rw [shape]
      simp
    obtain ⟨part, _, inSegment⟩ := List.mem_flatMap.mp member
    have isPart := part_of_mem_segment inSegment
    subst isPart
    have willingPort (proto : Proto) (port : U16) (value : U8) :
        ¬attempt.refuses (.setPort proto port value) = true := by
      intro refused
      cases willing _ refused
    have willingRate (port : U16) (packed : U32) :
        ¬attempt.refuses (.setRate port packed) = true := by
      intro refused
      cases willing _ refused
    exfalso
    cases isPart : step.part with
    | settings =>
        rw [isPart] at rules
        cases rules
    | shared =>
        rw [isPart] at rules
        cases rules
    | ports proto =>
        rw [isPart] at inSegment
        rcases mem_portSteps.mp inSegment with
          ⟨_, _, rfl⟩ | ⟨_, _, rfl⟩ | rfl
        · simp [ConfigStep.accept?, willingPort, MapWrite.effect?] at refused
        · simp [ConfigStep.accept?, willingPort, MapWrite.effect?] at refused
        · cases refused
    | trie proto =>
        rw [isPart] at inSegment
        rcases mem_trieSteps.mp inSegment with
          ⟨_, _, rfl⟩ | ⟨key, ⟨wanted, _⟩, _⟩ | rfl
        · unfold ConfigStep.accept? at refused
          dsimp only at refused
          split at refused <;> cases refused
        · obtain ⟨rule, inRules, _⟩ :=
            (mem_keys_compile compiles proto key).mp wanted
          rw [noRules] at inRules
          cases inRules
        · cases refused
    | rate =>
        rw [isPart] at inSegment
        rcases mem_rateSteps.mp inSegment with
          ⟨_, _, rfl⟩ | ⟨_, _, _, rfl⟩ | rfl
        · simp [ConfigStep.accept?, willingRate, MapWrite.effect?] at refused
        · simp [ConfigStep.accept?, willingRate, MapWrite.effect?] at refused
        · cases refused

/-- A call that does not come to its end fails. -/
theorem failed_of_unfinished
    {world : World ℚ}
    {attempt : Attempt}
    {cfg : Config}
    {policy : Policy}
    (unfinished :
      (match (applyConfig attempt cfg policy).run world with
      | .ok _ _ => false
      | .error _ _ => true) = true) :
    ∃ failure after,
      (applyConfig attempt cfg policy).run world = .error failure after := by
  cases ran : (applyConfig attempt cfg policy).run world with
  | error failure after => exact ⟨failure, after, rfl⟩
  | ok result after =>
      rw [ran] at unfinished
      cases unfinished

/-- A call that comes to its end leaves the world of the next step. -/
theorem ran_of_finished
    {world : World ℚ}
    {attempt : Attempt}
    {cfg : Config}
    {profile : Option String}
    (finished :
      (match (applyConfig attempt cfg (cfg.policy profile)).run world with
      | .ok _ _ => true
      | .error _ _ => false) = true) :
    (applyConfig attempt cfg (cfg.policy profile)).run world =
      .ok () (ruleStep world (.call attempt cfg profile)) := by
  rw [ruleStep]
  cases ran : (applyConfig attempt cfg (cfg.policy profile)).run world with
  | error failure after =>
      rw [ran] at finished
      cases finished
  | ok result after => rfl

/-- The kernel refuses `CONFIG[0]` when port 80 is to replace port 22, and
the call is made again. -/
def madeAgain : List (RuleEvent ℚ) :=
  [.call (refusing fun _ => false) (openOnly 22) none,
    .call (refusing fun write => write = .setting cfgEnforce 1)
      (openOnly 80) none,
    .call (refusing fun _ => false) (openOnly 80) none]

/-- The world after some of these calls. -/
def madeAgainWorld (calls : Nat) : World ℚ :=
  Runs.run ruleStep ⟨fun _ => 0, .fresh, freshShared⟩ (madeAgain.take calls)

/-- The second call fails, and the third one leaves its own rules alone. -/
theorem made_again_holds :
    (∃ failure after,
      (applyConfig
          (refusing fun write => write = .setting cfgEnforce 1)
          (openOnly 80) ((openOnly 80).policy none)).run
          (madeAgainWorld 1) = .error failure after) ∧
      ∃ after compiled,
        (applyConfig (refusing fun _ => false) (openOnly 80)
            ((openOnly 80).policy none)).run (madeAgainWorld 2) =
            .ok () after ∧
          compile ((openOnly 80).policy none) = .ok compiled ∧
          after.kernel.Holds compiled := by
  refine ⟨failed_of_unfinished (by decide +kernel), ?_⟩
  obtain ⟨compiled, blocked, compiles, readable⟩ :=
    compiled_of_accepted (by decide : (openOnly 80).validate = .ok ()) none
  have ran :
      (applyConfig (refusing fun _ => false) (openOnly 80)
          ((openOnly 80).policy none)).run (madeAgainWorld 2) =
        .ok () (ruleStep (madeAgainWorld 2)
          (.call (refusing fun _ => false) (openOnly 80) none)) :=
    ran_of_finished (by decide +kernel)
  have leaves :
      ∀ event ∈ madeAgain, ∀ world, event.LeavesInStep world := by
    have refusesSetting :
        ∀ write,
          (refusing fun write => write = .setting cfgEnforce 1).refuses
              write = true →
            write.part = .settings := by
      intro write refused
      rw [of_decide_eq_true refused]
      rfl
    intro event member world
    fin_cases member
    · intro compiled blocked compiles _
      exact keepsStep_of_willing compiles
        (fun _ refused => absurd refused Bool.false_ne_true) rfl
    · intro compiled blocked compiles _
      exact keepsStep_of_willing compiles refusesSetting rfl
    · intro compiled blocked compiles _
      exact keepsStep_of_willing compiles
        (fun _ refused => absurd refused Bool.false_ne_true) rfl
  refine ⟨_, compiled, ran, compiles, ?_⟩
  refine rules_never_drift (fun _ => 0) freshShared madeAgain ?_ ?_
    (madeAgain.take 2) [] (refusing fun _ => false) (openOnly 80) none
    _ compiled rfl ran compiles
  · intro event member
    fin_cases member
    · exact (by decide : (openOnly 22).validate = .ok ())
    · exact (by decide : (openOnly 80).validate = .ok ())
    · exact (by decide : (openOnly 80).validate = .ok ())
  · intro past event rest shape
    exact leaves event (by rw [shape]; simp) _

end AiFirewall
