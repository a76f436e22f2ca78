import AiFirewall.ConfigRollback

namespace AiFirewall

/-!
# The addresses a configuration blocks

`blocked` names networks; `apply_config` bans every address of them, one
entry of the blocklist each, and lifts the bans whose record says that an
earlier configuration placed them.
-/

open FallibleWrites

/-- An address lies in a network that is to be blocked. -/
def Config.Blocks (cfg : Config) (ip : U32) : Prop :=
  ∃ text ∈ cfg.blocked, ∃ network,
    Cidr.parse text = .ok network ∧ network.contains ip = true

section

variable
  {cfg : Config}
  {blocked : List Cidr}

theorem Config.blocks_iff
    (readable : cfg.blockedCidrs = .ok blocked)
    (ip : U32) :
    cfg.Blocks ip ↔ ∃ network ∈ blocked, network.contains ip = true := by
  constructor
  · rintro ⟨text, inList, network, parsed, inside⟩
    exact ⟨network,
      (Error.mem_of_mapM_ok readable network).mpr ⟨text, inList, parsed⟩,
      inside⟩
  · rintro ⟨network, member, inside⟩
    obtain ⟨text, inList, parsed⟩ :=
      (Error.mem_of_mapM_ok readable network).mp member
    exact ⟨text, inList, network, parsed, inside⟩

/-- The addresses of a network, counted from its first one. -/
theorem Cidr.contains_iff
    {network : Cidr}
    (wellFormed : network.WellFormed)
    (ip : U32) :
    network.contains ip = true ↔
      ∃ offset < (~~~network.mask).toNat + 1,
        BitVec.ofNat 32 (network.net.toNat + offset) = ip := by
  obtain ⟨length, fits, isMask, masked⟩ := wellFormed
  rw [Cidr.contains, decide_eq_true_iff]
  rw [isMask] at masked ⊢
  have inWords := BitPrefix.network_fits fits masked
  rw [BitPrefix.and_prefixMask_eq_iff_interval fits masked]
  refine exists_congr fun offset => and_congr_right fun inside => ?_
  rw [BitVec.toNat_eq, BitVec.toNat_ofNat, Nat.mod_eq_of_lt (by omega),
    eq_comm]

/-- `listed` holds the addresses that are to be blocked. -/
theorem mem_listedSources
    (readable : cfg.blockedCidrs = .ok blocked)
    {source : Src} :
    source ∈ listedSources blocked ↔
      ∃ ip, source = .v4 ip ∧ cfg.Blocks ip := by
  simp only [listedSources, HashSet.mem_ofList, List.mem_flatMap,
    List.mem_map, List.mem_range]
  constructor
  · rintro ⟨network, member, offset, inside, rfl⟩
    refine ⟨_, rfl, (Config.blocks_iff readable _).mpr
      ⟨network, member, ?_⟩⟩
    obtain ⟨text, _, parsed⟩ :=
      (Error.mem_of_mapM_ok readable network).mp member
    exact (Cidr.contains_iff (Cidr.wellFormed_of_parse parsed) _).mpr
      ⟨offset, inside, rfl⟩
  · rintro ⟨ip, rfl, blocks⟩
    obtain ⟨network, member, contains⟩ :=
      (Config.blocks_iff readable ip).mp blocks
    obtain ⟨text, _, parsed⟩ :=
      (Error.mem_of_mapM_ok readable network).mp member
    obtain ⟨offset, inside, same⟩ :=
      (Cidr.contains_iff (Cidr.wellFormed_of_parse parsed) ip).mp contains
    exact ⟨network, member, offset, inside, congrArg Src.v4 same⟩

variable
  {Score : Type}
  {attempt : Attempt}
  {policy : Policy}
  {compiled : Compiled}
  {step : ConfigStep}
  {steps : List ConfigStep}
  {before after : World Score}

/-- A step bans its own address, lifts it, or leaves its entry alone. -/
theorem source_of_accept?
    (accepted : step.accept? attempt before = some after)
    (ip : Src) :
    after.value (.source ip) = before.value (.source ip) ∨
      step = .lift ip ∨ step = .block ip := by
  by_cases concerns : step.place? = some (.source ip)
  · cases step with
    | lift other =>
        cases concerns
        exact .inr (.inl rfl)
    | block other =>
        cases concerns
        exact .inr (.inr rfl)
    | mapWrite write => cases write <;> cases concerns
    | dropKey proto key => cases concerns
    | rememberPorts proto wanted => cases concerns
    | rememberKeys proto wanted => cases concerns
    | rememberRates rates => cases concerns
    | reconfigure cfg => cases concerns
    | markDirty => cases concerns
  · exact .inl (ConfigStep.value_of_accept? accepted concerns)

/-- What a call lifts is stale, and what it bans is listed. -/
theorem mem_plan_sources
    {ip : Src} :
    (.lift ip ∈ plan attempt cfg policy compiled blocked before ↔
        ip ∈ staleSources before.shared.records (listedSources blocked)) ∧
      (.block ip ∈ plan attempt cfg policy compiled blocked before ↔
        ip ∈ listedSources blocked) := by
  constructor
  · rw [mem_plan_iff rfl]
    show _ ∈ _ :: blockSteps _ _ _ ↔ _
    rw [List.mem_cons, mem_blockSteps]
    simp
  · rw [mem_plan_iff rfl]
    show _ ∈ _ :: blockSteps _ _ _ ↔ _
    rw [List.mem_cons, mem_blockSteps]
    simp

/-- However far a call comes, it bans no address that is not listed. -/
theorem contains_of_written
    (inPlan :
      ∀ step ∈ steps,
        step ∈ plan attempt cfg policy compiled blocked before)
    (written : Written (ConfigStep.accept? attempt) steps before after)
    {ip : Src}
    (banned : after.shared.blocklist.contains ip = true) :
    before.shared.blocklist.contains ip = true ∨
      ip ∈ listedSources blocked := by
  refine written.preserves
    (fun world =>
      world.shared.blocklist.contains ip = true →
        before.shared.blocklist.contains ip = true ∨
          ip ∈ listedSources blocked)
    ?_ .inl banned
  intro step member first second holds accepted present
  rcases source_of_accept? accepted ip with same | isLift | isBlock
  · have sameLookup :
        second.shared.blocklist.lookup ip =
          first.shared.blocklist.lookup ip :=
      congrArg Prod.fst same
    refine holds ?_
    rwa [Blocklist.contains, ← sameLookup]
  · subst isLift
    cases accepted
    exact holds (Blocklist.contains_of_drop present)
  · subst isBlock
    exact .inr (mem_plan_sources.2.mp (inPlan _ member))

/-- A ban that is not listed stays when its removal is refused. -/
theorem entry_of_refused
    (inPlan :
      ∀ step ∈ steps,
        step ∈ plan attempt cfg policy compiled blocked before)
    (written : Written (ConfigStep.accept? attempt) steps before after)
    {ip : Src}
    (refused : attempt.host.refusesRemove ip = true)
    (unlisted : ip ∉ listedSources blocked) :
    after.shared.blocklist.lookup ip =
      before.shared.blocklist.lookup ip := by
  refine written.preserves
    (fun world =>
      world.shared.blocklist.lookup ip =
        before.shared.blocklist.lookup ip) ?_ rfl
  intro step member first second same accepted
  rcases source_of_accept? accepted ip with unchanged | isLift | isBlock
  · exact (congrArg Prod.fst unchanged).trans same
  · subst isLift
    cases accepted
    refine Eq.trans ?_ same
    exact congrArg (fun blocklist => blocklist.lookup ip)
      (Blocklist.drop_of_refused refused)
  · subst isBlock
    exact absurd (mem_plan_sources.2.mp (inPlan _ member)) unlisted

/-- What a call has written when it fails is part of its plan. -/
theorem written_of_error
    {failure : ApplyError}
    (compiles : compile policy = .ok compiled)
    (readable : cfg.blockedCidrs = .ok blocked)
    (ran :
      (applyConfig attempt cfg policy).run before = .error failure after) :
    ∃ done,
      (∀ step ∈ done,
          step ∈ plan attempt cfg policy compiled blocked before) ∧
        Written (ConfigStep.accept? attempt) done before after := by
  obtain ⟨done, step, rest, shape, written, _⟩ :=
    (applyConfig_error_iff compiles readable).mp ⟨failure, ran⟩
  refine ⟨done, fun earlier member => ?_, written⟩
  rw [shape]
  exact List.mem_append_left _ member

/-- What a call that succeeds leaves of the entry and record of a source. -/
theorem sources_of_ok
    (compiles : compile policy = .ok compiled)
    (readable : cfg.blockedCidrs = .ok blocked)
    (ran : (applyConfig attempt cfg policy).run before = .ok () after)
    (ip : Src) :
    (ip ∈ listedSources blocked →
        after.shared.blocklist.lookup ip = some banForever ∧
          after.shared.records.lookup ip = some configRecord) ∧
      (ip ∈ staleSources before.shared.records (listedSources blocked) →
        after.shared.records.lookup ip = none ∧
          (attempt.host.refusesRemove ip = true ∨
            after.shared.blocklist.lookup ip = none)) ∧
      (ip ∉ listedSources blocked →
        ip ∉ staleSources before.shared.records (listedSources blocked) →
        after.shared.blocklist.lookup ip =
            before.shared.blocklist.lookup ip ∧
          after.shared.records.lookup ip =
            before.shared.records.lookup ip) := by
  have written := (applyConfig_ok_iff compiles readable).mp ran
  obtain ⟨_, _, first, last, _, _, same, finished, isLast⟩ :=
    finished_of_written_plan written .shared
  have distinct :
      (configCells Score attempt).Distinct
        (.reconfigure cfg ::
          blockSteps attempt blocked before.shared.records) :=
    distinct_blockSteps _
  have sameAfter : after.shared = last.shared := isLast.symm
  have sameBefore : first.shared = before.shared := same
  rw [sameAfter, ← sameBefore]
  refine ⟨fun listed => ?_, fun stale => ?_, fun unlisted kept => ?_⟩
  · have blocks :
        .block ip ∈ .reconfigure cfg ::
          blockSteps attempt blocked before.shared.records :=
      List.mem_cons_of_mem _
        (mem_blockSteps.mpr (.inr (.inl ⟨ip, listed, rfl⟩)))
    exact Prod.ext_iff.mp
      (ConfigStep.settled_of_written finished distinct blocks rfl)
  · have lifts :
        .lift ip ∈ .reconfigure cfg ::
          blockSteps attempt blocked before.shared.records :=
      List.mem_cons_of_mem _
        (mem_blockSteps.mpr (.inl ⟨ip, sameBefore ▸ stale, rfl⟩))
    exact ConfigStep.settled_of_written finished distinct lifts rfl
  · have foreign :
        ∀ step ∈ ConfigStep.reconfigure cfg ::
            blockSteps attempt blocked before.shared.records,
          step.place? ≠ some (.source ip) := by
      intro step member concerns
      rcases List.mem_cons.mp member with isFirst | inBlocks
      · subst isFirst
        cases concerns
      · rcases mem_blockSteps.mp inBlocks with
          ⟨other, isStale, rfl⟩ | ⟨other, isListed, rfl⟩ | isLast
        · cases concerns
          exact kept (sameBefore ▸ isStale)
        · cases concerns
          exact unlisted isListed
        · subst isLast
          cases concerns
    exact Prod.ext_iff.mp
      ((configCells Score attempt).value_of_foreign finished foreign)

end

end AiFirewall
