import AiFirewall.LimitText
import AiFirewall.PolicyCompile

namespace AiFirewall

/-!
# The strictest limit

Several rules can limit one port.  `compile` keeps one limit for each port
and replaces it by a lower one, so what it keeps at the end is a limit with
the least number of connections a second, whatever the order of the rules.
-/

/-! Keeping the least of the items seen so far. -/

section Least

variable {Item Rank : Type*} [LinearOrder Rank]

/-- What is kept of some items is one of the lowest rank, if there is any. -/
structure KeepsLeast
    (rank : Item → Rank)
    (items : Set Item)
    (kept : Option Item) : Prop where
  empty : kept = none → items = ∅
  member : ∀ item ∈ kept, item ∈ items
  least : ∀ item ∈ kept, ∀ other ∈ items, rank item ≤ rank other

/-- The kept item, or a new one of a lower rank. -/
def keepLower
    (rank : Item → Rank)
    (kept : Option Item)
    (new : Item) : Item :=
  match kept with
  | none => new
  | some item => if rank new < rank item then new else item

theorem keepsLeast_none (rank : Item → Rank) :
    KeepsLeast rank ∅ none :=
  ⟨fun _ => rfl, nofun, nofun⟩

/-- One more item, and still the least is kept. -/
theorem KeepsLeast.insert
    {rank : Item → Rank}
    {items : Set Item}
    {kept : Option Item}
    (keeps : KeepsLeast rank items kept)
    (new : Item) :
    KeepsLeast rank (insert new items) (some (keepLower rank kept new)) := by
  refine ⟨nofun, ?_, ?_⟩
  · intro item isKept
    cases isKept
    cases kept with
    | none => exact Set.mem_insert new items
    | some item =>
        rw [keepLower]
        split
        · exact Set.mem_insert new items
        · exact Set.mem_insert_of_mem new (keeps.member item rfl)
  · intro item isKept other isOther
    cases isKept
    cases kept with
    | none =>
        rw [keeps.empty rfl] at isOther
        rcases isOther with isNew | nothing
        · rw [isNew]
          exact le_refl _
        · cases nothing
    | some item =>
        have below := keeps.least item rfl
        rw [keepLower]
        split
        · rename_i lower
          rcases isOther with isNew | old
          · rw [isNew]
          · exact lower.le.trans (below other old)
        · rename_i notLower
          rcases isOther with isNew | old
          · rw [isNew]
            exact not_lt.mp notLower
          · exact below other old

/-- What is kept of the same items has the same rank. -/
theorem KeepsLeast.rank_unique
    {rank : Item → Rank}
    {items : Set Item}
    {first second : Option Item}
    (firstKeeps : KeepsLeast rank items first)
    (secondKeeps : KeepsLeast rank items second) :
    first.map rank = second.map rank := by
  cases first with
  | none =>
      cases second with
      | none => rfl
      | some item =>
          have inItems := secondKeeps.member item rfl
          rw [firstKeeps.empty rfl] at inItems
          cases inItems
  | some item =>
      cases second with
      | none =>
          have inItems := firstKeeps.member item rfl
          rw [secondKeeps.empty rfl] at inItems
          cases inItems
      | some other =>
          refine congrArg some (le_antisymm ?_ ?_)
          · exact firstKeeps.least item rfl other
              (secondKeeps.member other rfl)
          · exact secondKeeps.least other rfl item
              (firstKeeps.member item rfl)

end Least

/-- A count and the seconds of its window. -/
abbrev Limit := U16 × U16

/-- New connections a second. -/
def Limit.ratio (limit : Limit) : ℚ :=
  limit.1.toNat / limit.2.toNat

def Limit.pack (limit : Limit) : U32 :=
  ratePack limit.1 limit.2

/-- The number of connections a second of a packed limit. -/
def packedRatio (packed : U32) : ℚ :=
  (packed >>> 16).toNat / (packed &&& 0xffff).toNat

theorem packedRatio_pack (limit : Limit) :
    packedRatio limit.pack = limit.ratio := by
  rw [packedRatio, Limit.pack, toNat_count_ratePack, toNat_window_ratePack,
    Limit.ratio]

/-- The comparison of the products is that of the ratios. -/
theorem Limit.ratio_lt_iff
    {first second : Limit}
    (firstLasts : first.2 ≠ 0)
    (secondLasts : second.2 ≠ 0) :
    first.ratio < second.ratio ↔
      first.1.toNat * second.2.toNat < second.1.toNat * first.2.toNat := by
  have positive {window : U16} (lasts : window ≠ 0) :
      (0 : ℚ) < window.toNat := by
    refine Nat.cast_pos.mpr (Nat.pos_of_ne_zero fun zero => lasts ?_)
    exact BitVec.eq_of_toNat_eq zero
  rw [Limit.ratio, Limit.ratio,
    div_lt_div_iff₀ (positive firstLasts) (positive secondLasts)]
  exact_mod_cast Iff.rfl

/-- `lowerRate` keeps the limit of the lower ratio. -/
theorem lowerRate_pack
    {kept new : Limit}
    (keptLasts : kept.2 ≠ 0)
    (newLasts : new.2 ≠ 0) :
    lowerRate kept.pack new.1 new.2 =
      (keepLower Limit.ratio (some kept) new).pack := by
  unfold lowerRate Limit.pack
  dsimp only
  rw [toNat_count_ratePack, toNat_window_ratePack, keepLower]
  simp only [Limit.ratio_lt_iff newLasts keptLasts]
  split <;> rfl

namespace Rule

/-- The rule limits new connections to the port. -/
def Limits (rule : Rule) (port : U16) (limit : Limit) : Prop :=
  rule.rate = .ok (some limit) ∧ rule.port.covers port = true

/-- Counts and windows that are read are above zero, windows at most an hour. -/
theorem bounds_of_rate
    {rule : Rule}
    {limit : Limit}
    (isRate : rule.rate = .ok (some limit)) :
    1 ≤ limit.1.toNat ∧ 1 ≤ limit.2.toNat ∧ limit.2.toNat ≤ 3600 := by
  cases given : rule.limit with
  | none =>
      rw [rate, given] at isRate
      cases isRate
  | some text =>
      have same : rule = { rule with limit := some text } := by
        rw [← given]
      rw [same, rate_of_limit] at isRate
      obtain ⟨⟨count, number, factor⟩, _, checked⟩ :=
        Error.bind_ok.mp isRate
      obtain ⟨_, counted, lasting, short, isWindow⟩ :=
        checkedLimit_ok.mp checked
      rw [isWindow]
      exact ⟨counted, lasting, short⟩

theorem lasts_of_rate
    {rule : Rule}
    {limit : Limit}
    (isRate : rule.rate = .ok (some limit)) :
    limit.2 ≠ 0 := by
  intro zero
  have lasting := (bounds_of_rate isRate).2.1
  rw [zero] at lasting
  revert lasting
  decide

end Rule

/-- The limits of some rules on a port. -/
def limitsOn (rules : List Rule) (port : U16) : Set Limit :=
  {limit | ∃ rule ∈ rules, rule.Limits port limit}

/-- The entry of a port is the least of some limits. -/
def StrictestOf (limits : Set Limit) (entry : Option U32) : Prop :=
  ∃ kept : Option Limit,
    entry = kept.map Limit.pack ∧ KeepsLeast Limit.ratio limits kept

namespace Compiled

/-- What one port of a rule does to the entry of a port. -/
theorem strictest_addPort
    {proto : Proto}
    {network : Option Cidr}
    {rate : Option Limit}
    {compiled : Compiled}
    {limits : Set Limit}
    {port added : U16}
    (lasts : ∀ limit ∈ limits, limit.2 ≠ 0)
    (rateLasts : ∀ limit ∈ rate, limit.2 ≠ 0)
    (strictest : StrictestOf limits (compiled.rates.lookup port)) :
    StrictestOf (limits ∪ {limit | limit ∈ rate ∧ port = added})
      ((compiled.addPort proto network rate added).rates.lookup port) := by
  have opened : (compiled.openPort proto network added).rates =
      compiled.rates := by
    cases network <;> cases proto <;> rfl
  obtain ⟨kept, isKept, keeps⟩ := strictest
  cases rate with
  | none =>
      refine ⟨kept, ?_, ?_⟩
      · rw [addPort, limitPort, opened, isKept]
      · simpa using keeps
  | some new =>
      by_cases isAdded : port = added
      · subst isAdded
        refine ⟨some (keepLower Limit.ratio kept new), ?_, ?_⟩
        · rw [addPort, limitPort]
          dsimp only
          rw [Table.lookup_insert_eq, if_pos rfl, opened, isKept]
          cases kept with
          | none => rfl
          | some old =>
              exact congrArg some
                (lowerRate_pack (lasts old (keeps.member old rfl))
                  (rateLasts new rfl))
        · have grown :
              limits ∪ {limit | limit ∈ some new ∧ port = port} =
                insert new limits := by
            ext limit
            simp [eq_comm]
          rw [grown]
          exact keeps.insert new
      · refine ⟨kept, ?_, ?_⟩
        · rw [addPort, limitPort]
          dsimp only
          rw [Table.lookup_insert_eq, if_neg isAdded, opened, isKept]
        · simpa [isAdded] using keeps

theorem strictest_addPorts
    {proto : Proto}
    {network : Option Cidr}
    {rate : Option Limit}
    {compiled : Compiled}
    {limits : Set Limit}
    {port : U16}
    {range : List U16}
    (lasts : ∀ limit ∈ limits, limit.2 ≠ 0)
    (rateLasts : ∀ limit ∈ rate, limit.2 ≠ 0)
    (strictest : StrictestOf limits (compiled.rates.lookup port)) :
    StrictestOf (limits ∪ {limit | limit ∈ rate ∧ port ∈ range})
      ((range.foldl (addPort proto network rate) compiled).rates.lookup
        port) := by
  induction range generalizing compiled limits with
  | nil =>
      simpa using strictest
  | cons first rest inductionHypothesis =>
      rw [List.foldl_cons]
      have step :
          StrictestOf (limits ∪ {limit | limit ∈ rate ∧ port = first})
            ((compiled.addPort proto network rate first).rates.lookup
              port) :=
        strictest_addPort lasts rateLasts strictest
      have stillLasts :
          ∀ limit ∈ limits ∪ {limit | limit ∈ rate ∧ port = first},
            limit.2 ≠ 0 := by
        rintro limit (old | ⟨new, _⟩)
        · exact lasts limit old
        · exact rateLasts limit new
      have regrouped :
          limits ∪ {limit | limit ∈ rate ∧ port ∈ first :: rest} =
            limits ∪ {limit | limit ∈ rate ∧ port = first} ∪
              {limit | limit ∈ rate ∧ port ∈ rest} := by
        ext limit
        simp only [Set.mem_union, Set.mem_ofPred_eq, List.mem_cons]
        tauto
      rw [regrouped]
      exact inductionHypothesis stillLasts step

/-- One more rule, and still the strictest limit is kept. -/
theorem strictest_addRule
    {before after : Compiled}
    {rule : Rule}
    {limits : Set Limit}
    {port : U16}
    (added : before.addRule rule = .ok after)
    (lasts : ∀ limit ∈ limits, limit.2 ≠ 0)
    (strictest : StrictestOf limits (before.rates.lookup port)) :
    StrictestOf (limits ∪ {limit | rule.Limits port limit})
      (after.rates.lookup port) := by
  unfold addRule at added
  obtain ⟨network, _, rest⟩ := Error.bind_ok.mp added
  obtain ⟨rate, isRate, rest⟩ := Error.bind_ok.mp rest
  obtain ⟨⟨first, last⟩, isRange, same⟩ := Error.bind_ok.mp rest
  cases same
  have rateLasts : ∀ limit ∈ rate, limit.2 ≠ 0 := by
    intro limit isLimit
    cases isLimit
    exact Rule.lasts_of_rate isRate
  have limited :
      {limit | rule.Limits port limit} =
        {limit | limit ∈ rate ∧ port ∈ portRange first last} := by
    ext limit
    simp only [Set.mem_ofPred_eq, Rule.Limits, isRate, mem_portRange,
      PortSpec.covers, isRange, Except.ok.injEq, Option.mem_def,
      Bool.and_eq_true, decide_eq_true_eq]
  rw [limited]
  exact strictest_addPorts lasts rateLasts strictest

theorem strictest_addRules
    {before after : Compiled}
    {rules : List Rule}
    {limits : Set Limit}
    {port : U16}
    (added : rules.foldlM addRule before = .ok after)
    (lasts : ∀ limit ∈ limits, limit.2 ≠ 0)
    (strictest : StrictestOf limits (before.rates.lookup port)) :
    StrictestOf (limits ∪ limitsOn rules port)
      (after.rates.lookup port) := by
  induction rules generalizing before limits with
  | nil =>
      cases added
      have nothing : limitsOn [] port = ∅ := by
        ext limit
        simp [limitsOn]
      rw [nothing, Set.union_empty]
      exact strictest
  | cons rule rest inductionHypothesis =>
      rw [List.foldlM_cons] at added
      obtain ⟨middle, first, later⟩ := Error.bind_ok.mp added
      have stillLasts :
          ∀ limit ∈ limits ∪ {limit | rule.Limits port limit},
            limit.2 ≠ 0 := by
        rintro limit (old | ⟨isRate, _⟩)
        · exact lasts limit old
        · exact Rule.lasts_of_rate isRate
      have regrouped :
          limits ∪ limitsOn (rule :: rest) port =
            limits ∪ {limit | rule.Limits port limit} ∪
              limitsOn rest port := by
        ext limit
        simp only [limitsOn, Set.mem_union, Set.mem_ofPred_eq,
          List.exists_mem_cons_iff, or_assoc]
      rw [regrouped]
      exact inductionHypothesis later stillLasts
        (strictest_addRule first lasts strictest)

end Compiled

/-- What is compiled for a port is the strictest of its limits. -/
theorem strictest_compile
    {policy : Policy}
    {compiled : Compiled}
    (compiles : compile policy = .ok compiled)
    (port : U16) :
    StrictestOf (limitsOn policy.rules port)
      (compiled.rates.lookup port) := by
  unfold compile at compiles
  obtain ⟨_, _, rest⟩ := Error.bind_ok.mp compiles
  obtain ⟨_, _, added⟩ := Error.bind_ok.mp rest
  have strictest :
      StrictestOf (∅ ∪ limitsOn policy.rules port)
        (compiled.rates.lookup port) :=
    Compiled.strictest_addRules added nofun
      ⟨none, rfl, keepsLeast_none Limit.ratio⟩
  rw [Set.empty_union] at strictest
  exact strictest

theorem StrictestOf.isSome_iff
    {limits : Set Limit}
    {entry : Option U32}
    (strictest : StrictestOf limits entry) :
    entry.isSome ↔ ∃ limit, limit ∈ limits := by
  obtain ⟨kept, isKept, keeps⟩ := strictest
  rw [isKept, Option.isSome_map]
  cases kept with
  | none =>
      simp [keeps.empty rfl]
  | some limit =>
      exact iff_of_true rfl ⟨limit, keeps.member limit rfl⟩

theorem StrictestOf.ratio_unique
    {limits : Set Limit}
    {first second : Option U32}
    (firstStrictest : StrictestOf limits first)
    (secondStrictest : StrictestOf limits second) :
    first.map packedRatio = second.map packedRatio := by
  obtain ⟨firstKept, isFirst, firstKeeps⟩ := firstStrictest
  obtain ⟨secondKept, isSecond, secondKeeps⟩ := secondStrictest
  have ratios : packedRatio ∘ Limit.pack = Limit.ratio :=
    funext packedRatio_pack
  rw [isFirst, isSecond, Option.map_map, Option.map_map, ratios]
  exact firstKeeps.rank_unique secondKeeps

/-- A usable rule with a limit has one that can be read. -/
theorem Rule.exists_rate_iff
    {rule : Rule}
    (usable : rule.Usable) :
    (∃ limit, rule.rate = .ok (some limit)) ↔ rule.limit ≠ none := by
  cases given : rule.limit with
  | none =>
      simp [rate, given]
  | some text =>
      obtain ⟨found, isRate, _⟩ := usable.rate
      refine iff_of_true ?_ (Option.some_ne_none text)
      have same : rule = { rule with limit := some text } := by
        rw [← given]
      rw [isRate]
      rw [same, rate_of_limit] at isRate
      obtain ⟨parts, _, checked⟩ := Error.bind_ok.mp isRate
      rcases checkedLimit_cases text parts with
        ⟨failure, failed⟩ | ⟨count, window, passed⟩
      · rw [failed] at checked
        cases checked
      · rw [passed] at checked
        cases checked
        exact ⟨_, rfl⟩

/--
A port has an entry when a rule limits it, the entry is one of its limits and
none of them is lower, and the order of the rules changes no port's ratio.
-/
theorem strictest_limit_wins
    {policy : Policy}
    {compiled : Compiled}
    (usable :
      PolicyUsable policy.allowTcp policy.allowUdp policy.rules)
    (compiles : compile policy = .ok compiled) :
    (∀ port,
        (compiled.rates.lookup port).isSome ↔
          ∃ rule ∈ policy.rules,
            rule.port.covers port = true ∧ rule.limit ≠ none) ∧
      (∀ port, ∀ packed ∈ compiled.rates.lookup port,
        ∃ limit ∈ limitsOn policy.rules port,
          packed = ratePack limit.1 limit.2 ∧
            ∀ other ∈ limitsOn policy.rules port,
              limit.ratio ≤ other.ratio) ∧
      (∀ (packed : U32) (limit : Limit),
        limit.1.toNat * (packed &&& 0xffff).toNat < 2 ^ 64 ∧
          (packed >>> 16).toNat * limit.2.toNat < 2 ^ 64) ∧
      ∀ rules : List Rule, rules.Perm policy.rules →
        ∃ permuted,
          compile { policy with rules := rules } = .ok permuted ∧
            ∀ port,
              (permuted.rates.lookup port).map packedRatio =
                (compiled.rates.lookup port).map packedRatio := by
  refine ⟨fun port => ?_, fun port packed isEntry => ?_,
    fun packed limit => ?_, fun rules arranged => ?_⟩
  · rw [(strictest_compile compiles port).isSome_iff]
    constructor
    · rintro ⟨limit, rule, member, isRate, covered⟩
      exact ⟨rule, member, covered,
        (Rule.exists_rate_iff (usable.rules rule member)).mp
          ⟨limit, isRate⟩⟩
    · rintro ⟨rule, member, covered, limited⟩
      obtain ⟨limit, isRate⟩ :=
        (Rule.exists_rate_iff (usable.rules rule member)).mpr limited
      exact ⟨limit, rule, member, isRate, covered⟩
  · obtain ⟨kept, isKept, keeps⟩ := strictest_compile compiles port
    rw [isEntry] at isKept
    obtain ⟨limit, isLimit, same⟩ := Option.map_eq_some_iff.mp isKept.symm
    exact ⟨limit, keeps.member limit isLimit, same.symm,
      keeps.least limit isLimit⟩
  · have countBound := limit.1.isLt
    have windowBound := limit.2.isLt
    have entryBound := (packed &&& 0xffff).isLt
    have shiftBound := (packed >>> 16).isLt
    exact ⟨by nlinarith, by nlinarith⟩
  · have permutedUsable :
        PolicyUsable policy.allowTcp policy.allowUdp rules :=
      ⟨usable.tcp, usable.udp, fun rule member =>
        usable.rules rule (arranged.mem_iff.mp member)⟩
    obtain ⟨permuted, isPermuted⟩ :
        ∃ permuted, compile { policy with rules := rules } = .ok permuted :=
      compile_of_usable permutedUsable
    refine ⟨permuted, isPermuted, fun port => ?_⟩
    have sameLimits : limitsOn rules port = limitsOn policy.rules port := by
      ext limit
      simp only [limitsOn, Set.mem_ofPred_eq, arranged.mem_iff]
    have strictest := strictest_compile isPermuted port
    dsimp only at strictest
    rw [sameLimits] at strictest
    exact strictest.ratio_unique (strictest_compile compiles port)

/-- Five a second and six a minute on one port, with overlapping ranges. -/
def sshLimits : List Rule :=
  [⟨"tcp", .text "20-25", none, some "5/1s"⟩,
    ⟨"tcp", .one 22, none, some "6/60s"⟩,
    ⟨"tcp", .one 80, none, none⟩]

/-- A policy of these rules alone. -/
def sshPolicy : Policy :=
  ⟨none, [], [], true, sshLimits⟩

/-- The limit of six a minute wins in both orders. -/
theorem six_a_minute_wins :
    ∃ compiled,
      compile sshPolicy = .ok compiled ∧
        (compiled.rates.lookup 22, compiled.rates.lookup 24,
            compiled.rates.lookup 80) =
          (some (ratePack 6 60), some (ratePack 5 1), none) ∧
        ∃ permuted,
          compile { sshPolicy with rules := sshLimits.reverse } =
              .ok permuted ∧
            ∀ port,
              (permuted.rates.lookup port).map packedRatio =
                (compiled.rates.lookup port).map packedRatio := by
  have rulesUsable : ∀ rule ∈ sshLimits, rule.Usable := by
    have passed : ∀ rule ∈ sshLimits, checkRule "" rule = .ok () := by
      decide +kernel
    exact fun rule member => checkRule_ok.mp (passed rule member)
  have usable : PolicyUsable [] [] sshLimits :=
    ⟨⟨[], rfl⟩, ⟨[], rfl⟩, rulesUsable⟩
  obtain ⟨compiled, compiles⟩ : ∃ compiled, compile sshPolicy = .ok compiled :=
    compile_of_usable usable
  have looked :
      (compile sshPolicy).map (fun compiled =>
          (compiled.rates.lookup 22, compiled.rates.lookup 24,
            compiled.rates.lookup 80)) =
        .ok (some (ratePack 6 60), some (ratePack 5 1), none) := by
    decide +kernel
  rw [compiles] at looked
  exact ⟨compiled, compiles, Except.ok.inj looked,
    (strictest_limit_wins usable compiles).2.2.2 _
      (List.reverse_perm sshLimits)⟩

end AiFirewall
