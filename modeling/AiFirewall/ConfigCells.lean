import AiFirewall.ApplyConfig
import AiFirewall.WriteCells

namespace AiFirewall

/-!
# What a call puts in force, cell by cell

The settings, the rule maps, the bans with their records and the detector's
settings as one device of cells.  The steps of a call concern distinct cells,
so what a call leaves in each of them can be told from the one step that
concerns it.
-/

open FallibleWrites

/-- One cell of what is in force. -/
inductive Place where
  | setting (slot : Fin 4)
  | port (proto : Proto) (port : U16)
  | node (proto : Proto) (stored : List Bool)
  | rate (port : U16)
  | source (ip : Src)
  | detector
  deriving DecidableEq

def Place.Value : Place → Type
  | .setting _ => U32
  | .port _ _ => U8
  | .node _ _ => Bool
  | .rate _ => U32
  | .source _ => Option U64 × Option BanRecord
  | .detector => Bool × DetectorConfig × BanConfig

def MapWrite.place : MapWrite → Place
  | .setting slot _ => .setting slot
  | .setPort proto port _ => .port proto port
  | .insertKey proto key => .node proto (trieBits key)
  | .removeKey proto key => .node proto (trieBits key)
  | .setRate port _ => .rate port

/-- The cell a step concerns; what is only remembered is in no cell. -/
def ConfigStep.place? : ConfigStep → Option Place
  | .mapWrite write => some write.place
  | .dropKey proto key => some (.node proto (trieBits key))
  | .rememberPorts _ _ => none
  | .rememberKeys _ _ => none
  | .rememberRates _ => none
  | .reconfigure _ => some .detector
  | .lift ip => some (.source ip)
  | .block ip => some (.source ip)
  | .markDirty => none

/-- The part of the world a cell lies in. -/
def Place.part : Place → Part
  | .setting _ => .settings
  | .port proto _ => .ports proto
  | .node proto _ => .trie proto
  | .rate _ => .rate
  | .source _ => .shared
  | .detector => .shared

/-- The cell a step concerns lies in the part the step works on. -/
theorem part_of_place?
    {step : ConfigStep}
    {place : Place}
    (concerns : step.place? = some place) :
    place.part = step.part := by
  cases step with
  | mapWrite write =>
      cases concerns
      cases write <;> rfl
  | dropKey proto key =>
      cases concerns
      rfl
  | rememberPorts proto wanted => cases concerns
  | rememberKeys proto wanted => cases concerns
  | rememberRates rates => cases concerns
  | reconfigure cfg =>
      cases concerns
      rfl
  | lift ip =>
      cases concerns
      rfl
  | block ip =>
      cases concerns
      rfl
  | markDirty => cases concerns

section

variable {Score : Type}

def World.value (world : World Score) : (place : Place) → place.Value
  | .setting slot => world.settings slot
  | .port proto port => (world.kernel.ports proto).entries port
  | .node proto stored =>
      decide (stored ∈ (world.kernel.tries proto).nodes.prefixes)
  | .rate port => world.kernel.rate.entries port
  | .source ip =>
      (world.shared.blocklist.lookup ip, world.shared.records.lookup ip)
  | .detector =>
      (world.shared.enforce, world.shared.detector.cfg,
        world.shared.detector.bans)

/-- What a cell holds can be told from its part. -/
theorem World.value_congr
    {before after : World Score}
    {place : Place}
    (same : after.get place.part = before.get place.part) :
    after.value place = before.value place := by
  cases place with
  | setting slot => exact congrFun same slot
  | port proto port =>
      exact congrArg (fun map : PortMap => map.entries port) same
  | node proto stored =>
      exact congrArg
        (fun trie : RuleTrie => decide (stored ∈ trie.nodes.prefixes)) same
  | rate port => exact congrArg (fun map : RateMap => map.entries port) same
  | source ip =>
      exact congrArg
        (fun shared : Shared Score =>
          (shared.blocklist.lookup ip, shared.records.lookup ip)) same
  | detector =>
      exact congrArg
        (fun shared : Shared Score =>
          (shared.enforce, shared.detector.cfg, shared.detector.bans)) same

/-- The map holds already what the write would put there. -/
def MapWrite.Stored (world : World Score) : MapWrite → Prop
  | .setting slot value => world.settings slot = value
  | .setPort proto port value =>
      (world.kernel.ports proto).entries port = value
  | .insertKey proto key =>
      trieBits key ∈ (world.kernel.tries proto).nodes.prefixes
  | .removeKey proto key =>
      trieBits key ∉ (world.kernel.tries proto).nodes.prefixes
  | .setRate port packed => world.kernel.rate.entries port = packed

/-- Nothing that is in force would change by the step. -/
def ConfigStep.Settled
    (attempt : Attempt)
    (step : ConfigStep)
    (world : World Score) : Prop :=
  match step with
  | .mapWrite write => write.Stored world
  | .dropKey proto key =>
      attempt.refuses (.removeKey proto key) = true ∨
        (MapWrite.removeKey proto key).Stored world
  | .rememberPorts _ _ => True
  | .rememberKeys _ _ => True
  | .rememberRates _ => True
  | .reconfigure cfg =>
      world.value .detector = (cfg.enforce, cfg.detector, cfg.bans)
  | .lift ip =>
      world.shared.records.lookup ip = none ∧
        (attempt.host.refusesRemove ip = true ∨
          world.shared.blocklist.lookup ip = none)
  | .block ip =>
      world.value (.source ip) =
        (some (expiryFor attempt.host 0), some configRecord)
  | .markDirty => True

section

variable
  {attempt : Attempt}
  {before after : World Score}
  {place : Place}

theorem value_setPorts
    {proto : Proto}
    {ports : PortMap}
    (away :
      ∀ port, place = .port proto port →
        ports.entries port = (before.kernel.ports proto).entries port) :
    (before.setPorts proto ports).value place = before.value place := by
  cases place with
  | port other port =>
      change (Function.update before.kernel.ports proto ports other).entries
          port = (before.kernel.ports other).entries port
      by_cases same : other = proto
      · subst same
        rw [Function.update_self]
        exact away port rfl
      · rw [Function.update_of_ne same]
  | setting slot => rfl
  | node other stored => rfl
  | rate port => rfl
  | source ip => rfl
  | detector => rfl

theorem value_setTrie
    {proto : Proto}
    {trie : RuleTrie}
    (away :
      ∀ stored, place = .node proto stored →
        (stored ∈ trie.nodes.prefixes ↔
          stored ∈ (before.kernel.tries proto).nodes.prefixes)) :
    (before.setTrie proto trie).value place = before.value place := by
  cases place with
  | node other stored =>
      change decide (stored ∈
          (Function.update before.kernel.tries proto trie other).nodes.prefixes) =
        decide (stored ∈ (before.kernel.tries other).nodes.prefixes)
      by_cases same : other = proto
      · subst same
        rw [Function.update_self, decide_eq_decide]
        exact away stored rfl
      · rw [Function.update_of_ne same]
  | setting slot => rfl
  | port other port => rfl
  | rate port => rfl
  | source ip => rfl
  | detector => rfl

theorem value_setRate
    {rate : RateMap}
    (away :
      ∀ port, place = .rate port →
        rate.entries port = before.kernel.rate.entries port) :
    (before.setRate rate).value place = before.value place := by
  cases place with
  | rate port => exact away port rfl
  | setting slot => rfl
  | port other port => rfl
  | node other stored => rfl
  | source ip => rfl
  | detector => rfl

theorem value_setShared
    {shared : Shared Score}
    (awaySource :
      ∀ ip, place = .source ip →
        shared.blocklist.lookup ip = before.shared.blocklist.lookup ip ∧
          shared.records.lookup ip = before.shared.records.lookup ip)
    (awayDetector :
      place = .detector →
        shared.enforce = before.shared.enforce ∧
          shared.detector.cfg = before.shared.detector.cfg ∧
          shared.detector.bans = before.shared.detector.bans) :
    ({ before with shared := shared } : World Score).value place =
      before.value place := by
  cases place with
  | source ip =>
      obtain ⟨listed, recorded⟩ := awaySource ip rfl
      exact Prod.ext listed recorded
  | detector =>
      obtain ⟨mode, limits, lengths⟩ := awayDetector rfl
      exact Prod.ext mode (Prod.ext limits lengths)
  | setting slot => rfl
  | port other port => rfl
  | node other stored => rfl
  | rate port => rfl

/-- A kernel write leaves every cell but its own alone. -/
theorem MapWrite.value_of_effect?
    {write : MapWrite}
    (done : write.effect? before = some after)
    (elsewhere : write.place ≠ place) :
    after.value place = before.value place := by
  cases write with
  | setting slot value =>
      cases done
      cases place with
      | setting other =>
          have different : other ≠ slot := by
            rintro rfl
            exact elsewhere rfl
          exact Function.update_of_ne different _ _
      | port other port => rfl
      | node other stored => rfl
      | rate port => rfl
      | source ip => rfl
      | detector => rfl
  | setPort proto port value =>
      cases done
      refine value_setPorts fun other isPlace => ?_
      have different : other ≠ port := by
        rintro rfl
        exact elsewhere isPlace.symm
      exact Function.update_of_ne different _ _
  | insertKey proto key =>
      obtain ⟨nodes, inserted, same⟩ := Option.map_eq_some_iff.mp done
      subst same
      refine value_setTrie fun stored isPlace => ?_
      have different : stored ≠ trieBits key := by
        rintro rfl
        exact elsewhere isPlace.symm
      rw [PrefixTrie.mem_of_insert? inserted]
      exact or_iff_right different
  | removeKey proto key =>
      obtain ⟨nodes, removed, same⟩ := Option.map_eq_some_iff.mp done
      subst same
      refine value_setTrie fun stored isPlace => ?_
      have different : stored ≠ trieBits key := by
        rintro rfl
        exact elsewhere isPlace.symm
      rw [PrefixTrie.mem_of_remove? removed]
      exact and_iff_right different
  | setRate port packed =>
      cases done
      refine value_setRate fun other isPlace => ?_
      have different : other ≠ port := by
        rintro rfl
        exact elsewhere isPlace.symm
      exact Function.update_of_ne different _ _

/-- After a kernel write its cell holds what was written. -/
theorem MapWrite.stored_of_effect?
    {write : MapWrite}
    (done : write.effect? before = some after) :
    write.Stored after := by
  cases write with
  | setting slot value =>
      cases done
      exact Function.update_self _ _ _
  | setPort proto port value =>
      cases done
      simp [MapWrite.Stored, World.setPorts]
  | insertKey proto key =>
      obtain ⟨nodes, inserted, same⟩ := Option.map_eq_some_iff.mp done
      subst same
      simp [MapWrite.Stored, World.setTrie,
        PrefixTrie.mem_of_insert? inserted]
  | removeKey proto key =>
      obtain ⟨nodes, removed, same⟩ := Option.map_eq_some_iff.mp done
      subst same
      simp [MapWrite.Stored, World.setTrie,
        PrefixTrie.mem_of_remove? removed]
  | setRate port packed =>
      cases done
      exact Function.update_self _ _ _

/-- What a cell holds decides whether a write to it is stored already. -/
theorem MapWrite.stored_congr
    {write : MapWrite}
    (same : before.value write.place = after.value write.place)
    (stored : write.Stored before) :
    write.Stored after := by
  cases write with
  | setting slot value => exact same.symm.trans stored
  | setPort proto port value => exact same.symm.trans stored
  | insertKey proto key => exact (decide_eq_decide.mp same).mp stored
  | removeKey proto key =>
      exact fun member => stored ((decide_eq_decide.mp same).mpr member)
  | setRate port packed => exact same.symm.trans stored

/-- Two states in which a write is stored agree on its cell. -/
theorem MapWrite.value_of_stored
    {write : MapWrite}
    (first : write.Stored before)
    (second : write.Stored after) :
    after.value write.place = before.value write.place := by
  cases write with
  | setting slot value => exact Eq.trans second first.symm
  | setPort proto port value => exact Eq.trans second first.symm
  | insertKey proto key =>
      exact decide_eq_decide.mpr (iff_of_true second first)
  | removeKey proto key =>
      exact decide_eq_decide.mpr (iff_of_false second first)
  | setRate port packed => exact Eq.trans second first.symm

/-- A removal that the map has nothing for changes nothing. -/
theorem MapWrite.stored_of_removal
    {proto : Proto}
    {key : U32 × RuleKey}
    (absent : (MapWrite.removeKey proto key).effect? before = none) :
    (MapWrite.removeKey proto key).Stored before := by
  simpa [MapWrite.effect?, PrefixTrie.remove?, MapWrite.Stored] using absent

/-- A dropped key is removed, or everything stays as it was. -/
theorem accept_dropKey_cases
    {proto : Proto}
    {key : U32 × RuleKey}
    (accepted :
      (ConfigStep.dropKey proto key).accept? attempt before = some after) :
    (after = before ∧
        (attempt.refuses (.removeKey proto key) = true ∨
          (MapWrite.removeKey proto key).Stored before)) ∨
      attempt.refuses (.removeKey proto key) = false ∧
        (MapWrite.removeKey proto key).effect? before = some after := by
  simp only [ConfigStep.accept?] at accepted
  split at accepted
  · cases accepted
    exact .inl ⟨rfl, .inl (by assumption)⟩
  · rename_i willing
    rw [Bool.not_eq_true] at willing
    cases done : (MapWrite.removeKey proto key).effect? before with
    | none =>
        rw [done] at accepted
        cases accepted
        exact .inl ⟨rfl, .inr (MapWrite.stored_of_removal done)⟩
    | some changed =>
        rw [done] at accepted
        cases accepted
        exact .inr ⟨willing, rfl⟩

/-- A write that has to succeed is accepted when the kernel takes it. -/
theorem accept_mapWrite_iff
    {write : MapWrite} :
    (ConfigStep.mapWrite write).accept? attempt before = some after ↔
      attempt.refuses write = false ∧
        write.effect? before = some after := by
  simp only [ConfigStep.accept?]
  split
  · simp [*]
  · rename_i willing
    rw [Bool.not_eq_true] at willing
    simp [willing]

/-- A step leaves every cell but its own alone. -/
theorem ConfigStep.value_of_accept?
    {step : ConfigStep}
    (accepted : step.accept? attempt before = some after)
    (elsewhere : step.place? ≠ some place) :
    after.value place = before.value place := by
  cases step with
  | mapWrite write =>
      obtain ⟨_, done⟩ := accept_mapWrite_iff.mp accepted
      exact MapWrite.value_of_effect? done
        fun same => elsewhere (congrArg some same)
  | dropKey proto key =>
      rcases accept_dropKey_cases accepted with ⟨same, _⟩ | ⟨_, done⟩
      · rw [same]
      · exact MapWrite.value_of_effect? done
          fun same => elsewhere (congrArg some same)
  | rememberPorts proto wanted =>
      cases accepted
      exact value_setPorts fun _ _ => rfl
  | rememberKeys proto wanted =>
      cases accepted
      exact value_setTrie fun _ _ => Iff.rfl
  | rememberRates rates =>
      cases accepted
      exact value_setRate fun _ _ => rfl
  | reconfigure cfg =>
      cases accepted
      refine value_setShared (fun _ _ => ⟨rfl, rfl⟩) fun isDetector => ?_
      exact absurd (congrArg some isDetector.symm) elsewhere
  | lift ip =>
      cases accepted
      refine value_setShared (fun other isPlace => ?_)
        fun _ => ⟨rfl, rfl, rfl⟩
      have different : other ≠ ip := by
        rintro rfl
        exact elsewhere (congrArg some isPlace.symm)
      refine ⟨?_, ?_⟩
      · rcases before.shared.blocklist.lookup_drop attempt.host ip other with
          same | ⟨isOther, _⟩
        · exact same
        · exact absurd isOther different
      · exact AList.lookup_erase_ne different
  | block ip =>
      obtain ⟨blocklist, inserted, same⟩ :=
        Option.map_eq_some_iff.mp accepted
      subst same
      refine value_setShared (fun other isPlace => ?_)
        fun _ => ⟨rfl, rfl, rfl⟩
      have different : other ≠ ip := by
        rintro rfl
        exact elsewhere (congrArg some isPlace.symm)
      refine ⟨?_, AList.lookup_insert_ne different⟩
      rw [Blocklist.lookup_of_insert? inserted, if_neg different]
  | markDirty =>
      cases accepted
      exact value_setShared (fun _ _ => ⟨rfl, rfl⟩)
        fun _ => ⟨rfl, rfl, rfl⟩

/-- Once a step is taken, nothing is left for it to change. -/
theorem ConfigStep.settled_of_accept?
    {step : ConfigStep}
    (accepted : step.accept? attempt before = some after) :
    step.Settled attempt after := by
  cases step with
  | mapWrite write =>
      obtain ⟨_, done⟩ := accept_mapWrite_iff.mp accepted
      exact MapWrite.stored_of_effect? done
  | dropKey proto key =>
      rcases accept_dropKey_cases accepted with ⟨same, kept⟩ | ⟨_, done⟩
      · rw [same]
        exact kept
      · exact .inr (MapWrite.stored_of_effect? done)
  | rememberPorts proto wanted => trivial
  | rememberKeys proto wanted => trivial
  | rememberRates rates => trivial
  | reconfigure cfg =>
      cases accepted
      rfl
  | lift ip =>
      cases accepted
      refine ⟨AList.lookup_erase ip _, ?_⟩
      by_cases refused : attempt.host.refusesRemove ip = true
      · exact .inl refused
      · exact .inr (Blocklist.lookup_drop_of_willing refused)
  | block ip =>
      obtain ⟨blocklist, inserted, same⟩ :=
        Option.map_eq_some_iff.mp accepted
      subst same
      refine Prod.ext ?_ (AList.lookup_insert _)
      exact (Blocklist.lookup_of_insert? inserted ip).trans (if_pos rfl)
  | markDirty => trivial

/-- A settled step leaves its cell as it was. -/
theorem ConfigStep.value_of_settled
    {step : ConfigStep}
    (accepted : step.accept? attempt before = some after)
    (concerns : step.place? = some place)
    (settled : step.Settled attempt before) :
    after.value place = before.value place := by
  have settledAfter := settled_of_accept? accepted
  cases step with
  | mapWrite write =>
      cases concerns
      exact MapWrite.value_of_stored settled settledAfter
  | dropKey proto key =>
      cases concerns
      rcases accept_dropKey_cases accepted with ⟨same, _⟩ | ⟨willing, done⟩
      · rw [same]
      · rcases settled with refused | stored
        · rw [willing] at refused
          cases refused
        · exact MapWrite.value_of_stored stored
            (MapWrite.stored_of_effect? done)
  | rememberPorts proto wanted => cases concerns
  | rememberKeys proto wanted => cases concerns
  | rememberRates rates => cases concerns
  | reconfigure cfg =>
      cases concerns
      exact settledAfter.trans settled.symm
  | lift ip =>
      cases concerns
      obtain ⟨noRecord, kept⟩ := settled
      refine Prod.ext ?_ (settledAfter.1.trans noRecord.symm)
      cases accepted
      rcases kept with refused | notListed
      · exact congrArg (fun blocklist => Blocklist.lookup blocklist ip)
          (Blocklist.drop_of_refused refused)
      · rcases before.shared.blocklist.lookup_drop attempt.host ip ip with
          same | ⟨_, gone⟩
        · exact same
        · exact gone.trans notListed.symm
  | block ip =>
      cases concerns
      exact settledAfter.trans settled.symm
  | markDirty => cases concerns

/-- Whether a step is settled can be told from its cell. -/
theorem ConfigStep.settled_congr
    {step : ConfigStep}
    (concerns : step.place? = some place)
    (same : before.value place = after.value place)
    (settled : step.Settled attempt before) :
    step.Settled attempt after := by
  cases step with
  | mapWrite write =>
      cases concerns
      exact MapWrite.stored_congr same settled
  | dropKey proto key =>
      cases concerns
      have sameCell :
          before.value (MapWrite.removeKey proto key).place =
            after.value (MapWrite.removeKey proto key).place :=
        same
      exact settled.imp_right (MapWrite.stored_congr sameCell)
  | rememberPorts proto wanted => trivial
  | rememberKeys proto wanted => trivial
  | rememberRates rates => trivial
  | reconfigure cfg =>
      cases concerns
      exact same.symm.trans settled
  | lift ip =>
      cases concerns
      obtain ⟨listed, recorded⟩ := Prod.ext_iff.mp same
      exact ⟨recorded.symm.trans settled.1,
        settled.2.imp_right listed.symm.trans⟩
  | block ip =>
      cases concerns
      exact same.symm.trans settled
  | markDirty => trivial

theorem ConfigStep.settled_of_noPlace
    {step : ConfigStep}
    (noPlace : step.place? = none) :
    step.Settled attempt before := by
  cases step with
  | mapWrite write => cases noPlace
  | dropKey proto key => cases noPlace
  | rememberPorts proto wanted => trivial
  | rememberKeys proto wanted => trivial
  | rememberRates rates => trivial
  | reconfigure cfg => cases noPlace
  | lift ip => cases noPlace
  | block ip => cases noPlace
  | markDirty => trivial

end

/-- The steps of a call as writes to cells. -/
def configCells (Score : Type) (attempt : Attempt) :
    Cells
      (ConfigStep.accept? attempt :
        ConfigStep → World Score → Option (World Score)) where
  Place := Place
  Value := Place.Value
  value := World.value
  place? := ConfigStep.place?
  Settled := ConfigStep.Settled attempt
  frame := ConfigStep.value_of_accept?
  settles := ConfigStep.settled_of_accept?
  idle := ConfigStep.value_of_settled
  settled_congr := ConfigStep.settled_congr

section

variable
  {attempt : Attempt}
  {steps : List ConfigStep}
  {before after : World Score}
  {place : Place}

/-- A cell that no step concerns stays as it was. -/
theorem World.value_of_foreign
    (written : Written (ConfigStep.accept? attempt) steps before after)
    (foreign : ∀ step ∈ steps, step.place? ≠ some place) :
    after.value place = before.value place :=
  Cells.value_of_foreign (configCells Score attempt) written foreign

/-- Settled steps leave their cell as it was. -/
theorem World.value_of_settled
    (written : Written (ConfigStep.accept? attempt) steps before after)
    (settled :
      ∀ step ∈ steps, step.place? = some place →
        step.Settled attempt before) :
    after.value place = before.value place :=
  Cells.value_of_settled (configCells Score attempt) written settled

/-- Once steps on distinct cells are taken, each of them is settled. -/
theorem ConfigStep.settled_of_written
    {step : ConfigStep}
    (written : Written (ConfigStep.accept? attempt) steps before after)
    (distinct : (configCells Score attempt).Distinct steps)
    (member : step ∈ steps)
    (concerns : step.place? = some place) :
    step.Settled attempt after :=
  Cells.settled_of_written (configCells Score attempt) written distinct
    member concerns

/-- Steps on distinct cells keep a cell exactly when they were settled. -/
theorem World.value_eq_iff
    (written : Written (ConfigStep.accept? attempt) steps before after)
    (distinct : (configCells Score attempt).Distinct steps) :
    after.value place = before.value place ↔
      ∀ step ∈ steps, step.place? = some place →
        step.Settled attempt before :=
  Cells.value_eq_iff (configCells Score attempt) written distinct

end

/-- A key as `compile` makes it. -/
def CanonicalKey (key : U32 × RuleKey) : Prop :=
  ∃ port network,
    Cidr.WellFormed network ∧ key = networkKey port network

/-- The bits of a key: those of the port, then the network's leading bits. -/
theorem trieBits_networkKey
    {port : U16}
    {network : Cidr}
    {length : Nat}
    (fits : length ≤ 32)
    (isMask : network.mask = BitPrefix.prefixMask 32 length) :
    trieBits (networkKey port network) =
      BitPrefix.bits port ++ (BitPrefix.bits network.net).take length := by
  have bitLength :
      ((16 : U32) +
        BitVec.ofNat 32 (BitPrefix.leadingOnes network.mask)).toNat =
        16 + length := by
    rw [isMask, BitPrefix.leadingOnes_prefixMask fits]
    simp
    omega
  rw [trieBits, networkKey, bitLength, triePrefix, bitsOfBytes_ruleKey,
    List.take_append, BitPrefix.length_bits, Nat.add_sub_cancel_left,
    List.take_of_length_le (by simp)]

/-- The bits a trie stores tell the port and the network. -/
theorem opening_of_trieBits
    {firstPort secondPort : U16}
    {firstNet secondNet : Cidr}
    (firstFormed : firstNet.WellFormed)
    (secondFormed : secondNet.WellFormed)
    (same :
      trieBits (networkKey firstPort firstNet) =
        trieBits (networkKey secondPort secondNet)) :
    firstPort = secondPort ∧ firstNet = secondNet := by
  obtain ⟨firstLength, firstFits, firstMask, firstMasked⟩ := firstFormed
  obtain ⟨secondLength, secondFits, secondMask, secondMasked⟩ := secondFormed
  rw [trieBits_networkKey firstFits firstMask,
    trieBits_networkKey secondFits secondMask] at same
  obtain ⟨samePort, sameNet⟩ := List.append_inj same (by simp)
  have sameLength : firstLength = secondLength := by
    simpa [firstFits, secondFits] using congrArg List.length sameNet
  subst sameLength
  have sameMasked :=
    (BitPrefix.and_prefixMask_eq_iff firstFits _ _).mpr sameNet
  rw [← firstMask, firstMasked, firstMask, ← secondMask, secondMasked]
    at sameMasked
  have networks : firstNet = secondNet := by
    cases firstNet
    cases secondNet
    cases sameMasked
    cases firstMask
    cases secondMask
    rfl
  exact ⟨BitPrefix.bits_injective samePort, networks⟩

/-- The bits a trie stores for a key tell the key. -/
theorem trieBits_injective
    {first second : U32 × RuleKey}
    (firstCanonical : CanonicalKey first)
    (secondCanonical : CanonicalKey second)
    (same : trieBits first = trieBits second) :
    first = second := by
  obtain ⟨firstPort, firstNet, firstFormed, rfl⟩ := firstCanonical
  obtain ⟨secondPort, secondNet, secondFormed, rfl⟩ := secondCanonical
  obtain ⟨samePort, sameNet⟩ :=
    opening_of_trieBits firstFormed secondFormed same
  rw [samePort, sameNet]

/-- A compiled policy has keys as `compile` makes them. -/
theorem canonical_of_compile
    {policy : Policy}
    {compiled : Compiled}
    (compiles : compile policy = .ok compiled)
    (proto : Proto) :
    ∀ key ∈ compiled.keys proto, CanonicalKey key := by
  intro key member
  obtain ⟨rule, _, network, port, ⟨_, ⟨text, _, parsed⟩, _⟩, isKey⟩ :=
    (mem_keys_compile compiles proto key).mp member
  exact ⟨port, network, Cidr.wellFormed_of_parse parsed, isKey⟩

end

end AiFirewall
