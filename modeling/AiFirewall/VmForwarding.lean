import AiFirewall.NftListing

namespace AiFirewall

/-!
# Forwarding for virtual machines

Another tool may drop what virtual machines send through the machine.  The
daemon looks every minute, and the doctor when asked, for chains that drop
what is forwarded and do not let a bridge out, and inserts two rules for the
bridge: one for replies first, then one for everything it sends.  Only the
second is looked for.  `nft` is taken to list a rule as it was given; each
insert may fail.
-/

open RustText
open NftListing

namespace VmForwarding

/-- A bridge of `net::virt_bridges`, by its name. -/
structure Bridge where
  name : List Char
  oneLine : '\n' ∉ name
  deriving DecidableEq

/-- A bridge whose manager does not punch its own hole: `vm_bridges`. -/
def Bridge.isVm (bridge : Bridge) : Bool :=
  ["virbr", "lxdbr", "vmnet"].any fun start =>
    start.toList.isPrefixOf bridge.name

def quoted (name : List Char) : List Char :=
  '"' :: (name ++ ['"'])

def outWord : List Char := "iifname ".toList

/-- What a rule that lets a bridge out begins with. -/
def letsOut (name : List Char) : List Char :=
  outWord ++ quoted name

def accept : List Char := "accept".toList

def forward : List Char := "forward".toList

/-- `blocking_forward_chains`. -/
def blockingForwardChains (chains : List Chain) (name : List Char) : List Chain :=
  (chains.filter fun chain =>
      decide (chain.hook = some forward) && chain.policyDrop).filter fun chain =>
    !(lines chain.body).any fun line =>
      decide (letsOut name <:+: line) && decide (accept <:+: line)

/-- The two rules of a bridge. -/
inductive Side where
  | reply
  | out
  deriving Repr, DecidableEq

namespace Side

/-- The word before the name of the bridge. -/
def before : Side → List Char
  | reply => "oifname".toList
  | out => "iifname".toList

/-- The words after it. -/
def after : Side → List (List Char)
  | reply =>
      ["ct".toList, "state".toList, "related,established".toList,
        "accept".toList, "comment".toList, quoted "ai-firewall".toList]
  | out =>
      ["accept".toList, "comment".toList, quoted "ai-firewall".toList]

/-- The words of a rule, as they are given to `nft`. -/
def words (side : Side) (name : List Char) : List (List Char) :=
  side.before :: quoted name :: side.after

/-- What stands before the name and after it. -/
def start (side : Side) : List Char :=
  side.before ++ [' ', '"']

def finish (side : Side) : List Char :=
  '"' :: ' ' :: [' '].intercalate side.after

theorem joined_words (side : Side) (name : List Char) :
    [' '].intercalate (side.words name) =
      side.start ++ (name ++ side.finish) := by
  have more : side.after ≠ [] := by
    cases side <;> exact List.cons_ne_nil _ _
  rw [words, List.intercalate_cons_cons,
    List.intercalate_cons_of_ne_nil more]
  simp [start, finish, quoted]

/-- The two ends of a rule are its own. -/
theorem ends (side : Side) :
    ∃ first between behind last,
      side.start = first :: between ∧ side.finish = behind ++ [last] ∧
        isWhitespace first = false ∧ isWhitespace last = false := by
  cases side with
  | reply =>
      exact ⟨'o', "ifname \"".toList,
        "\" ct state related,established accept comment \"ai-firewall".toList,
        '"', by decide +kernel⟩
  | out =>
      exact ⟨'i', "ifname \"".toList,
        "\" accept comment \"ai-firewall".toList, '"', by decide +kernel⟩

theorem plain_joined (side : Side) (bridge : Bridge) :
    Plain ([' '].intercalate (side.words bridge.name)) := by
  rw [joined_words]
  constructor
  · rw [List.mem_append, List.mem_append, not_or, not_or]
    have noBreak : '\n' ∉ side.start ∧ '\n' ∉ side.finish := by
      cases side <;> decide +kernel
    exact ⟨noBreak.1, bridge.oneLine, noBreak.2⟩
  · obtain ⟨first, between, behind, last, isStart, isFinish, firstSolid,
      lastSolid⟩ := side.ends
    have shape :
        side.start ++ (bridge.name ++ side.finish) =
          first :: (between ++ bridge.name ++ behind ++ [last]) := by
      rw [isStart, isFinish]
      simp
    rw [shape]
    exact trim_of_ends firstSolid lastSolid

/-- No rule begins as a line of another kind. -/
theorem start_isRule (side : Side) (rest : List Char) :
    ¬ tableWord <+: side.start ++ rest ∧ ¬ chainWord <+: side.start ++ rest ∧
      ¬ typeWord <+: side.start ++ rest ∧ side.start ++ rest ≠ closing := by
  have isStart : side.start <+: side.start ++ rest :=
    List.prefix_append _ _
  have differ
      {word : List Char}
      (isWord : word ∈ [tableWord, chainWord, typeWord, closing]) :
      ¬ word <+: side.start ∧ ¬ side.start <+: word := by
    revert word
    cases side <;> decide +kernel
  refine ⟨not_begins isStart (differ (by simp)),
    not_begins isStart (differ (by simp)),
    not_begins isStart (differ (by simp)), fun same => ?_⟩
  rw [same] at isStart
  exact (differ (by simp)).2 isStart

/-- The rule `nft` lists: its words, as they were given. -/
def rule (side : Side) (bridge : Bridge) : NftListing.Rule where
  text := [' '].intercalate (side.words bridge.name)
  plain := side.plain_joined bridge
  isRule := by
    rw [joined_words]
    exact side.start_isRule _

theorem text_rule (side : Side) (bridge : Bridge) :
    (side.rule bridge).text = side.start ++ (bridge.name ++ side.finish) :=
  side.joined_words bridge.name

/-- Different rules are listed differently. -/
theorem rule_inj
    {first second : Side}
    {bridge other : Bridge}
    (same : first.rule bridge = second.rule other) :
    first = second ∧ bridge = other := by
  have texts :
      first.start ++ (bridge.name ++ first.finish) =
        second.start ++ (other.name ++ second.finish) := by
    rw [← text_rule, ← text_rule, same]
  have sides : first = second := by
    have heads := congrArg List.head? texts
    cases first with
    | reply =>
        cases second with
        | reply => rfl
        | out => exact absurd (Option.some.inj heads) (by decide)
    | out =>
        cases second with
        | reply => exact absurd (Option.some.inj heads) (by decide)
        | out => rfl
  subst sides
  refine ⟨rfl, ?_⟩
  rw [List.append_cancel_left_eq, List.append_cancel_right_eq] at texts
  cases bridge
  cases other
  cases texts
  rfl

end Side

/-- The second rule lets the bridge out. -/
theorem letsOut_out (bridge : Bridge) :
    letsOut bridge.name <:+: (Side.out.rule bridge).text ∧
      accept <:+: (Side.out.rule bridge).text := by
  have text :
      (Side.out.rule bridge).text =
        letsOut bridge.name ++ (' ' :: [' '].intercalate Side.out.after) := by
    have start : Side.out.start = outWord ++ ['"'] := by
      decide +kernel
    rw [Side.text_rule, start, Side.finish, letsOut, quoted]
    generalize [' '].intercalate Side.out.after = rest
    rw [List.append_assoc, List.append_assoc, List.singleton_append,
      List.cons_append, List.append_assoc, List.singleton_append]
  rw [text]
  constructor
  · exact (List.prefix_append _ _).isInfix
  · refine List.IsInfix.trans ?_ (List.suffix_append _ _).isInfix
    decide +kernel

/-- What comes of one run of `nft`. -/
inductive NftOutcome where
  | done
  | failed
  | unstarted (error : List Char)
  deriving Repr, DecidableEq

/-- One call: what it finds, and what comes of its inserts. -/
structure Call where
  bridges : List Bridge
  distinct : bridges.Nodup
  listed : Bool
  nft : ChainKey → Side → Bridge → NftOutcome

/-- `vm_bridges`. -/
def Call.vmBridges (call : Call) : List Bridge :=
  call.bridges.filter Bridge.isVm

def keyOf (chain : Chain) : ChainKey :=
  ⟨chain.family, chain.table, chain.name⟩

/-- Where the two rules are to be inserted. -/
def plan (call : Call) (chains : List Chain) : List (Bridge × ChainKey) :=
  call.vmBridges.flatMap fun bridge =>
    (blockingForwardChains chains bridge.name).map fun chain =>
      (bridge, keyOf chain)

/-- The arguments of one insert. -/
def arguments (key : ChainKey) (side : Side) (bridge : Bridge) : List (List Char) :=
  ["insert".toList, "rule".toList, key.family, key.table, key.name] ++
    side.words bridge.name

/-- One insert, and the ruleset after it. -/
def attempt
    (call : Call)
    (key : ChainKey)
    (bridge : Bridge)
    (side : Side)
    (own : Ruleset) :
    Except (List Char) Unit × Ruleset :=
  match call.nft key side bridge with
  | .done => (.ok (), own.insert key (side.rule bridge))
  | .failed =>
      (.error ("nft ".toList ++
          [' '].intercalate (arguments key side bridge) ++ " failed".toList),
        own)
  | .unstarted error => (.error error, own)

/-- `for args in [reply, out]`. -/
def letThrough
    (call : Call)
    (key : ChainKey)
    (bridge : Bridge)
    (own : Ruleset) :
    Except (List Char) Unit × Ruleset :=
  match attempt call key bridge .reply own with
  | (.ok (), next) => attempt call key bridge .out next
  | (.error error, next) => (.error error, next)

def changeText (bridge : Bridge) (key : ChainKey) : List Char :=
  bridge.name ++ " through ".toList ++ key.family ++ [' '] ++ key.table ++
    [' '] ++ key.name

/-- The loops over the bridges and the chains; an error ends both. -/
def overPlan
    (call : Call) :
    List (Bridge × ChainKey) →
    List (List Char) →
    Ruleset →
    Except (List Char) (List (List Char)) × Ruleset
  | [], changed, own => (.ok changed, own)
  | (bridge, key) :: rest, changed, own =>
      match letThrough call key bridge own with
      | (.ok (), next) =>
          overPlan call rest (changed ++ [changeText bridge key]) next
      | (.error error, next) => (.error error, next)

/-- `ensure_vm_forwarding`. -/
def ensureVmForwarding
    (call : Call)
    (own : Ruleset) :
    Except (List Char) (List (List Char)) × Ruleset :=
  if call.vmBridges.isEmpty then
    (.ok [], own)
  else if call.listed then
    overPlan call (plan call (parseRuleset (listing own.tables))) [] own
  else
    (.ok [], own)

/-- The minute checks and the fixes asked for, one after the other. -/
def runCalls (calls : List Call) (own : Ruleset) : Ruleset :=
  calls.foldl (fun state call => (ensureVmForwarding call state).2) own

/-- A chain that is read as one that drops what is forwarded. -/
def DropsForward (own : ListedChain) : Prop :=
  (own.typeLine.bind fun line => hookOf line.text) = some forward ∧
    own.typeLine.any (fun line =>
      decide ("policy drop".toList <:+: line.text)) = true

instance (own : ListedChain) : Decidable (DropsForward own) :=
  inferInstanceAs (Decidable (_ ∧ _))

/-- A line of the chain is taken to let the bridge out. -/
def LetsOut (own : ListedChain) (bridge : Bridge) : Prop :=
  ∃ rule ∈ own.body,
    letsOut bridge.name <:+: rule.text ∧ accept <:+: rule.text

/-- Each rule stands at most once in a chain that drops. -/
def AtMostOnce (own : Ruleset) : Prop :=
  ∀ entry ∈ own.chains, DropsForward entry.2 →
    ∀ side bridge, entry.2.rules.count (Side.rule side bridge) ≤ 1

/-- No chain that drops has the first rule of a bridge it holds back. -/
def Whole (own : Ruleset) : Prop :=
  ∀ entry ∈ own.chains, DropsForward entry.2 →
    ∀ bridge, bridge.isVm = true →
      Side.reply.rule bridge ∈ entry.2.rules → LetsOut entry.2 bridge

/-- What a call would insert, as it is listed. -/
def planned (call : Call) (own : Ruleset) : List (Bridge × ChainKey) :=
  plan call (parseRuleset (listing own.tables))

/-- As far as the loop comes, no second insert fails when the first of its
pair was done. -/
def PairsUp (call : Call) : List (Bridge × ChainKey) → Prop
  | [] => True
  | item :: rest =>
      call.nft item.2 .reply item.1 = .done →
        call.nft item.2 .out item.1 = .done ∧ PairsUp call rest

/-- A call that cuts no pair. -/
def Paired (call : Call) (own : Ruleset) : Prop :=
  call.listed = true → PairsUp call (planned call own)

def AllPaired : List Call → Ruleset → Prop
  | [], _ => True
  | call :: rest, own =>
      Paired call own ∧ AllPaired rest (ensureVmForwarding call own).2

/-- The lines of a listed chain are searched as its rules are. -/
theorem any_lets
    (key : ChainKey)
    (own : ListedChain)
    (bridge : Bridge) :
    (lines (read key own).body).any (fun line =>
        decide (letsOut bridge.name <:+: line) &&
          decide (accept <:+: line)) = true ↔
      LetsOut own bridge := by
  rw [lines_body, List.any_map, List.any_eq_true]
  refine exists_congr fun rule => and_congr_right fun _ => ?_
  rw [Function.comp_apply, Bool.and_eq_true, decide_eq_true_eq,
    decide_eq_true_eq]

theorem drops_read
    (key : ChainKey)
    (own : ListedChain) :
    (decide ((read key own).hook = some forward) &&
        (read key own).policyDrop) = true ↔
      DropsForward own := by
  rw [Bool.and_eq_true, decide_eq_true_eq]
  rfl

/-- The chains that hold a bridge back, by their keys. -/
theorem mem_planned
    {call : Call}
    {own : Ruleset}
    {bridge : Bridge}
    {key : ChainKey} :
    (bridge, key) ∈ planned call own ↔
      bridge ∈ call.vmBridges ∧
        ∃ chain, (key, chain) ∈ own.chains ∧ DropsForward chain ∧
          ¬ LetsOut chain bridge := by
  rw [planned, plan, List.mem_flatMap, parseRuleset_listing]
  constructor
  · rintro ⟨other, isVm, member⟩
    obtain ⟨chain, blocks, same⟩ := List.mem_map.mp member
    cases same
    rw [blockingForwardChains, List.mem_filter, List.mem_filter] at blocks
    obtain ⟨⟨isRead, drops⟩, holds⟩ := blocks
    obtain ⟨entry, isChain, rfl⟩ := List.mem_map.mp isRead
    refine ⟨isVm, entry.2, isChain, (drops_read entry.1 entry.2).mp drops,
      fun lets => ?_⟩
    rw [(any_lets entry.1 entry.2 bridge).mpr lets] at holds
    exact Bool.false_ne_true holds
  · rintro ⟨isVm, chain, isChain, drops, holds⟩
    refine ⟨bridge, isVm, List.mem_map.mpr ⟨read key chain, ?_, rfl⟩⟩
    rw [blockingForwardChains, List.mem_filter, List.mem_filter]
    refine ⟨⟨List.mem_map.mpr ⟨(key, chain), isChain, rfl⟩,
      (drops_read key chain).mpr drops⟩, ?_⟩
    rw [Bool.not_eq_true', Bool.eq_false_iff]
    exact fun found => holds ((any_lets key chain bridge).mp found)

/-- No insert is made twice in one call. -/
theorem planned_nodup
    (call : Call)
    (own : Ruleset) :
    (planned call own).Nodup := by
  have keys :
      (parseRuleset (listing own.tables)).map keyOf =
        own.chains.map Prod.fst := by
    rw [parseRuleset_listing, List.map_map]
    rfl
  rw [planned, plan, List.nodup_flatMap]
  constructor
  · intro bridge _
    have whole : ((parseRuleset (listing own.tables)).map keyOf).Nodup := by
      rw [keys]
      exact own.distinct
    have distinct :
        ((blockingForwardChains (parseRuleset (listing own.tables))
          bridge.name).map keyOf).Nodup :=
      whole.sublist
        ((List.filter_sublist.trans List.filter_sublist).map keyOf)
    have paired := distinct.map (Prod.mk_right_injective bridge)
    rwa [List.map_map] at paired
  · refine (call.distinct.filter _).imp ?_
    intro bridge other differ item inFirst inSecond
    obtain ⟨_, _, rfl⟩ := List.mem_map.mp inFirst
    obtain ⟨_, _, same⟩ := List.mem_map.mp inSecond
    exact differ (congrArg Prod.fst same).symm

/-- Lines only come to a chain. -/
structure Grown (before after : ListedChain) : Prop where
  typeLine : after.typeLine = before.typeLine
  body : before.body ⊆ after.body

namespace Grown

theorem insert (rule : NftListing.Rule) (own : ListedChain) :
    Grown own (own.insert rule) where
  typeLine := rfl
  body := by
    intro line member
    rcases List.mem_append.mp member with inComment | inRules
    · exact List.mem_append_left _ inComment
    · exact List.mem_append_right _ (List.mem_cons_of_mem _ inRules)

theorem trans
    {first second third : ListedChain}
    (sooner : Grown first second)
    (later : Grown second third) :
    Grown first third where
  typeLine := later.typeLine.trans sooner.typeLine
  body := List.Subset.trans sooner.body later.body

theorem dropsForward
    {before after : ListedChain}
    (grown : Grown before after) :
    DropsForward after ↔ DropsForward before := by
  rw [DropsForward, grown.typeLine]
  rfl

theorem letsOut
    {before after : ListedChain}
    {bridge : Bridge}
    (grown : Grown before after)
    (lets : LetsOut before bridge) :
    LetsOut after bridge := by
  obtain ⟨rule, member, isRule⟩ := lets
  exact ⟨rule, grown.body member, isRule⟩

end Grown

/-- Every chain was there before. -/
def Follows (before after : Ruleset) : Prop :=
  ∀ entry ∈ after.chains,
    ∃ own, (entry.1, own) ∈ before.chains ∧ Grown own entry.2

namespace Follows

theorem refl (own : Ruleset) : Follows own own :=
  fun entry member =>
    ⟨entry.2, member, rfl, List.Subset.refl _⟩

theorem trans
    {first second third : Ruleset}
    (before : Follows first second)
    (after : Follows second third) :
    Follows first third := by
  intro entry member
  obtain ⟨own, isChain, later⟩ := after entry member
  obtain ⟨start, isStart, sooner⟩ := before _ isChain
  exact ⟨start, isStart, sooner.trans later⟩

theorem insert
    (key : ChainKey)
    (rule : NftListing.Rule)
    (own : Ruleset) :
    Follows own (own.insert key rule) := by
  intro entry member
  rw [Ruleset.chains_insert] at member
  obtain ⟨start, isStart, rfl⟩ := List.mem_map.mp member
  refine ⟨start.2, isStart, ?_⟩
  by_cases isKey : start.1 = key
  · rw [insertAt, if_pos isKey]
    exact Grown.insert rule start.2
  · rw [insertAt, if_neg isKey]
    exact ⟨rfl, List.Subset.refl _⟩

end Follows

/-- Both rules of a bridge, the second in front. -/
def insertPair (key : ChainKey) (bridge : Bridge) (own : Ruleset) : Ruleset :=
  (own.insert key (Side.reply.rule bridge)).insert key (Side.out.rule bridge)

/-- The three ways the two inserts go. -/
theorem letThrough_cases
    (call : Call)
    (key : ChainKey)
    (bridge : Bridge)
    (own : Ruleset) :
    (∃ error, letThrough call key bridge own = (.error error, own)) ∨
      (call.nft key .reply bridge = .done ∧
        call.nft key .out bridge ≠ .done ∧
        ∃ error, letThrough call key bridge own =
          (.error error, own.insert key (Side.reply.rule bridge))) ∨
      (call.nft key .reply bridge = .done ∧
        letThrough call key bridge own =
          (.ok (), insertPair key bridge own)) := by
  rw [letThrough, attempt]
  cases replied : call.nft key .reply bridge with
  | failed =>
      exact .inl ⟨_, rfl⟩
  | unstarted error =>
      exact .inl ⟨error, rfl⟩
  | done =>
      right
      simp only [attempt]
      cases passed : call.nft key .out bridge with
      | done =>
          exact .inr ⟨trivial, rfl⟩
      | failed =>
          exact .inl ⟨trivial, by decide, _, rfl⟩
      | unstarted error =>
          exact .inl ⟨trivial, NftOutcome.noConfusion, error, rfl⟩

/-- A chain after both inserts. -/
theorem mem_insertPair
    {key : ChainKey}
    {bridge : Bridge}
    {own : Ruleset}
    {entry : ChainKey × ListedChain}
    (member : entry ∈ (insertPair key bridge own).chains) :
    ∃ chain, (entry.1, chain) ∈ own.chains ∧
      (entry.1 ≠ key ∧ entry.2 = chain ∨
        entry.1 = key ∧
          entry.2 = (chain.insert (Side.reply.rule bridge)).insert
            (Side.out.rule bridge)) := by
  rw [insertPair, Ruleset.chains_insert, Ruleset.chains_insert,
    List.map_map] at member
  obtain ⟨start, isStart, rfl⟩ := List.mem_map.mp member
  refine ⟨start.2, isStart, ?_⟩
  by_cases isKey : start.1 = key
  · right
    refine ⟨isKey, ?_⟩
    rw [Function.comp_apply, insertAt, insertAt, if_pos isKey, if_pos isKey]
  · left
    refine ⟨isKey, ?_⟩
    rw [Function.comp_apply, insertAt, insertAt, if_neg isKey, if_neg isKey]

theorem Follows.letThrough
    (call : Call)
    (key : ChainKey)
    (bridge : Bridge)
    (own : Ruleset) :
    Follows own (letThrough call key bridge own).2 := by
  rcases letThrough_cases call key bridge own with
    ⟨error, result⟩ | ⟨_, _, error, result⟩ | ⟨_, result⟩
  · rw [result]
    exact .refl own
  · rw [result]
    exact .insert key _ own
  · rw [result]
    exact (Follows.insert key _ own).trans (.insert key _ _)

theorem Follows.overPlan
    (call : Call)
    (todo : List (Bridge × ChainKey))
    (changed : List (List Char))
    (own : Ruleset) :
    Follows own (overPlan call todo changed own).2 := by
  induction todo generalizing changed own with
  | nil =>
      exact .refl own
  | cons item rest inductionHypothesis =>
      obtain ⟨bridge, key⟩ := item
      have first := Follows.letThrough call key bridge own
      rw [VmForwarding.overPlan]
      cases result : VmForwarding.letThrough call key bridge own with
      | mk outcome next =>
          rw [result] at first
          cases outcome with
          | error error => exact first
          | ok => exact first.trans (inductionHypothesis _ next)

/-- Each rule stands at most once, and none without its pair. -/
structure Clean (own : Ruleset) : Prop where
  atMostOnce : AtMostOnce own
  whole : Whole own

/-- The chain with the key has no rule of the bridge. -/
def Bare (own : Ruleset) (item : Bridge × ChainKey) : Prop :=
  ∀ chain, (item.2, chain) ∈ own.chains →
    ∀ side : Side, side.rule item.1 ∉ chain.rules

/-- What is to be inserted is not there yet. -/
theorem Clean.bare
    {call : Call}
    {own : Ruleset}
    (clean : Clean own) :
    ∀ item ∈ planned call own, Bare own item := by
  rintro ⟨bridge, key⟩ member chain isChain side isRule
  obtain ⟨isVm, other, isOther, drops, holds⟩ := mem_planned.mp member
  cases Ruleset.chain_unique isChain isOther
  cases side with
  | reply =>
      exact holds (clean.whole _ isChain drops bridge
        (List.mem_filter.mp isVm).2 isRule)
  | out =>
      exact holds ⟨_, List.mem_append_right _ isRule, letsOut_out bridge⟩

/-- A rule of one bridge is no rule of another. -/
theorem count_pair
    {bridge other : Bridge}
    {rules : List NftListing.Rule}
    {side : Side}
    (bare : ∀ side : Side, side.rule bridge ∉ rules)
    (once : rules.count (side.rule other) ≤ 1) :
    (Side.out.rule bridge :: Side.reply.rule bridge :: rules).count
      (side.rule other) ≤ 1 := by
  by_cases same : bridge = other
  · subst same
    have none := List.count_eq_zero_of_not_mem (bare side)
    cases side with
    | reply =>
        have differ : Side.out.rule bridge ≠ Side.reply.rule bridge :=
          fun equal => Side.noConfusion (Side.rule_inj equal).1
        rw [List.count_cons_of_ne differ, List.count_cons_self, none]
    | out =>
        have differ : Side.reply.rule bridge ≠ Side.out.rule bridge :=
          fun equal => Side.noConfusion (Side.rule_inj equal).1
        rw [List.count_cons_self, List.count_cons_of_ne differ, none]
  · have differ (own : Side) : own.rule bridge ≠ side.rule other :=
      fun equal => same (Side.rule_inj equal).2
    rwa [List.count_cons_of_ne (differ .out),
      List.count_cons_of_ne (differ .reply)]

/-- Both inserts together keep what holds. -/
theorem Clean.insertPair
    {key : ChainKey}
    {bridge : Bridge}
    {own : Ruleset}
    (clean : Clean own)
    (bare : Bare own (bridge, key)) :
    Clean (insertPair key bridge own) := by
  constructor
  · intro entry member drops side other
    obtain ⟨chain, isChain, ⟨_, same⟩ | ⟨isKey, both⟩⟩ := mem_insertPair member
    · rw [same] at drops ⊢
      exact clean.atMostOnce _ isChain drops side other
    · have grown : Grown chain entry.2 := by
        rw [both]
        exact (Grown.insert _ chain).trans (.insert _ _)
      have once :=
        clean.atMostOnce _ isChain (grown.dropsForward.mp drops) side other
      rw [both]
      rw [isKey] at isChain
      exact count_pair (bare chain isChain) once
  · intro entry member drops other isVm isRule
    obtain ⟨chain, isChain, ⟨_, same⟩ | ⟨isKey, both⟩⟩ := mem_insertPair member
    · rw [same] at drops isRule ⊢
      exact clean.whole _ isChain drops other isVm isRule
    · have grown : Grown chain entry.2 := by
        rw [both]
        exact (Grown.insert _ chain).trans (.insert _ _)
      have front : Side.out.rule bridge ∈ entry.2.body := by
        rw [both]
        exact List.mem_append_right _ List.mem_cons_self
      rw [both] at isRule
      rcases List.mem_cons.mp isRule with isOut | inRest
      · exact Side.noConfusion (Side.rule_inj isOut).1
      rcases List.mem_cons.mp inRest with isReply | inChain
      · rw [(Side.rule_inj isReply).2]
        exact ⟨_, front, letsOut_out bridge⟩
      · exact grown.letsOut
          (clean.whole _ isChain (grown.dropsForward.mp drops) other isVm
            inChain)

/-- Both inserts for one bridge are no rules of the other items. -/
theorem Bare.insertPair
    {key : ChainKey}
    {bridge : Bridge}
    {own : Ruleset}
    {item : Bridge × ChainKey}
    (bare : Bare own item)
    (differ : item ≠ (bridge, key)) :
    Bare (insertPair key bridge own) item := by
  intro chain isChain side isRule
  obtain ⟨before, isBefore, ⟨_, same⟩ | ⟨isKey, both⟩⟩ :=
    mem_insertPair isChain
  · rw [show chain = before from same] at isRule
    exact bare before isBefore side isRule
  · have isRule : side.rule item.1 ∈
        Side.out.rule bridge :: Side.reply.rule bridge :: before.rules := by
      rw [show chain = _ from both] at isRule
      exact isRule
    have otherBridge : item.1 ≠ bridge :=
      fun same => differ (Prod.ext same isKey)
    rcases List.mem_cons.mp isRule with isOut | inRest
    · exact otherBridge (Side.rule_inj isOut).2
    rcases List.mem_cons.mp inRest with isReply | inBefore
    · exact otherBridge (Side.rule_inj isReply).2
    · exact bare before isBefore side inBefore

/-- The loop, when no pair is cut. -/
theorem Clean.overPlan
    {call : Call}
    {todo : List (Bridge × ChainKey)}
    {own : Ruleset}
    (changed : List (List Char))
    (clean : Clean own)
    (bare : ∀ item ∈ todo, Bare own item)
    (distinct : todo.Nodup)
    (paired : PairsUp call todo) :
    Clean (overPlan call todo changed own).2 := by
  induction todo generalizing changed own with
  | nil =>
      exact clean
  | cons item rest inductionHypothesis =>
      obtain ⟨bridge, key⟩ := item
      obtain ⟨bareFirst, bareRest⟩ := List.forall_mem_cons.mp bare
      obtain ⟨notAgain, distinctRest⟩ := List.nodup_cons.mp distinct
      rw [VmForwarding.overPlan]
      rcases letThrough_cases call key bridge own with
        ⟨error, result⟩ | ⟨replied, notPassed, _⟩ | ⟨replied, result⟩
      · rw [result]
        exact clean
      · exact absurd (paired replied).1 notPassed
      · rw [result]
        refine inductionHypothesis _ (clean.insertPair bareFirst) ?_
          distinctRest (paired replied).2
        intro item member
        refine (bareRest item member).insertPair fun same => ?_
        rw [same] at member
        exact notAgain member

/-- One call. -/
theorem Clean.ensureVmForwarding
    {call : Call}
    {own : Ruleset}
    (clean : Clean own)
    (paired : Paired call own) :
    Clean (ensureVmForwarding call own).2 := by
  rw [VmForwarding.ensureVmForwarding]
  split
  · exact clean
  · split
    · rename_i listed
      exact clean.overPlan [] clean.bare (planned_nodup call own)
        (paired listed)
    · exact clean

/-- A whole run. -/
theorem Clean.runCalls
    {calls : List Call}
    {own : Ruleset}
    (clean : Clean own)
    (paired : AllPaired calls own) :
    Clean (runCalls calls own) := by
  induction calls generalizing own with
  | nil =>
      exact clean
  | cons call rest inductionHypothesis =>
      exact inductionHypothesis (clean.ensureVmForwarding paired.1) paired.2

/-- When the loop ends well, each bridge is let out where it was held back. -/
theorem overPlan_lets
    {call : Call}
    {todo : List (Bridge × ChainKey)}
    {changed done : List (List Char)}
    {own after : Ruleset}
    (ended : overPlan call todo changed own = (.ok done, after)) :
    ∀ item ∈ todo, ∀ chain, (item.2, chain) ∈ after.chains →
      LetsOut chain item.1 := by
  induction todo generalizing changed own with
  | nil =>
      exact List.forall_mem_nil _
  | cons item rest inductionHypothesis =>
      obtain ⟨bridge, key⟩ := item
      rw [overPlan] at ended
      rcases letThrough_cases call key bridge own with
        ⟨error, result⟩ | ⟨_, _, error, result⟩ | ⟨_, result⟩
      · rw [result] at ended
        cases ended
      · rw [result] at ended
        cases ended
      · rw [result] at ended
        refine List.forall_mem_cons.mpr ⟨?_, inductionHypothesis ended⟩
        intro chain isChain
        have follows := Follows.overPlan call rest
          (changed ++ [changeText bridge key]) (insertPair key bridge own)
        rw [show overPlan call rest (changed ++ [changeText bridge key])
          (insertPair key bridge own) = (.ok done, after) from ended] at follows
        obtain ⟨middle, isMiddle, grown⟩ := follows _ isChain
        obtain ⟨_, _, ⟨otherKey, _⟩ | ⟨_, both⟩⟩ := mem_insertPair isMiddle
        · exact absurd rfl otherKey
        · refine grown.letsOut ⟨Side.out.rule bridge, ?_, letsOut_out bridge⟩
          rw [show middle = _ from both]
          exact List.mem_append_right _ List.mem_cons_self

/-- After a call that looked and ended well there is nothing to insert. -/
theorem planned_after
    {call next : Call}
    {own after : Ruleset}
    {changed : List (List Char)}
    (listed : call.listed = true)
    (ended : ensureVmForwarding call own = (.ok changed, after))
    (same : next.vmBridges ⊆ call.vmBridges) :
    planned next after = [] := by
  rw [List.eq_nil_iff_forall_not_mem]
  rintro ⟨bridge, key⟩ member
  obtain ⟨isVm, chain, isChain, drops, holds⟩ := mem_planned.mp member
  have some : call.vmBridges.isEmpty ≠ true := fun isEmpty => by
    rw [List.isEmpty_iff.mp isEmpty] at same
    exact List.not_mem_nil (same isVm)
  rw [ensureVmForwarding, if_neg some, if_pos listed] at ended
  have follows := Follows.overPlan call (planned call own) [] own
  rw [planned, ended] at follows
  obtain ⟨before, isBefore, grown⟩ := follows _ isChain
  by_cases lets : LetsOut before bridge
  · exact holds (grown.letsOut lets)
  · have wasPlanned : (bridge, key) ∈ planned call own :=
      mem_planned.mpr
        ⟨same isVm, before, isBefore, grown.dropsForward.mp drops, lets⟩
    exact holds (overPlan_lets ended _ wasPlanned chain isChain)

theorem ensureVmForwarding_of_planned_nil
    {call : Call}
    {own : Ruleset}
    (nothing : planned call own = []) :
    ensureVmForwarding call own = (.ok [], own) := by
  rw [planned] at nothing
  rw [ensureVmForwarding, nothing, overPlan, ite_self, ite_self]

/-- Where a chain is after both inserts for a bridge. -/
theorem exists_insertPair
    {own : Ruleset}
    {entry : ChainKey × ListedChain}
    (key : ChainKey)
    (bridge : Bridge)
    (member : entry ∈ own.chains) :
    ∃ after, (entry.1, after) ∈ (insertPair key bridge own).chains ∧
      after.typeLine = entry.2.typeLine ∧
      entry.2.rules.Sublist after.rules ∧
      (entry.1 = key →
        (Side.reply.rule bridge :: entry.2.rules).Sublist after.rules) := by
  rw [insertPair, Ruleset.chains_insert, Ruleset.chains_insert, List.map_map]
  have placed := List.mem_map_of_mem
    (f := insertAt key (Side.out.rule bridge) ∘
      insertAt key (Side.reply.rule bridge)) member
  refine ⟨_, placed, ?_⟩
  by_cases isKey : entry.1 = key
  · simp only [insertAt, if_pos isKey, ListedChain.insert]
    have inserted :
        (Side.reply.rule bridge :: entry.2.rules).Sublist
          (Side.out.rule bridge :: Side.reply.rule bridge ::
            entry.2.rules) :=
      List.sublist_cons_self _ _
    exact ⟨trivial, (List.sublist_cons_self _ _).trans inserted,
      fun _ => inserted⟩
  · simp only [insertAt, if_neg isKey]
    exact ⟨trivial, List.Sublist.refl _, fun same => absurd same isKey⟩

/-- When every insert is done, each item puts its first rule on its chain. -/
theorem exists_overPlan
    (call : Call)
    (allDone : ∀ key side bridge, call.nft key side bridge = .done)
    (todo : List (Bridge × ChainKey))
    (changed : List (List Char))
    {own : Ruleset}
    {entry : ChainKey × ListedChain}
    (member : entry ∈ own.chains) :
    ∃ after, (entry.1, after) ∈ (overPlan call todo changed own).2.chains ∧
      after.typeLine = entry.2.typeLine ∧
      entry.2.rules.Sublist after.rules ∧
      ∀ bridge, (bridge, entry.1) ∈ todo →
        (Side.reply.rule bridge :: entry.2.rules).Sublist after.rules := by
  induction todo generalizing changed own entry with
  | nil =>
      exact ⟨entry.2, member, rfl, List.Sublist.refl _,
        fun _ inNil => absurd inNil List.not_mem_nil⟩
  | cons item rest inductionHypothesis =>
      obtain ⟨bridge, key⟩ := item
      have through :
          letThrough call key bridge own =
            (.ok (), insertPair key bridge own) := by
        simp only [letThrough, attempt, allDone, insertPair]
      obtain ⟨middle, isMiddle, sameType, kept, put⟩ :=
        exists_insertPair key bridge member
      obtain ⟨after, isAfter, laterType, later, laterPut⟩ :=
        inductionHypothesis (changed ++ [changeText bridge key]) isMiddle
      rw [overPlan, through]
      refine ⟨after, isAfter, laterType.trans sameType, kept.trans later, ?_⟩
      intro other planned
      rcases List.mem_cons.mp planned with same | inRest
      · cases same
        exact (put rfl).trans later
      · exact (kept.cons_cons _).trans (laterPut other inRest)

theorem pairsUp_of_done
    {call : Call}
    (allDone : ∀ key side bridge, call.nft key side bridge = .done)
    (todo : List (Bridge × ChainKey)) :
    PairsUp call todo := by
  induction todo with
  | nil =>
      trivial
  | cons item rest inductionHypothesis =>
      exact fun _ => ⟨allDone _ _ _, inductionHypothesis⟩

/-- A call for one bridge in which every insert is done. -/
def wholeCall (bridge : Bridge) : Call where
  bridges := [bridge]
  distinct := List.nodup_singleton bridge
  listed := true
  nft := fun _ _ _ => .done

/-- A rule without its pair is inserted once more. -/
theorem whole_of_atMostOnce
    {own : Ruleset}
    (once : ∀ bridge,
      AtMostOnce (ensureVmForwarding (wholeCall bridge) own).2) :
    Whole own := by
  intro entry member drops bridge isVm isRule
  by_contra holds
  have vmBridges : (wholeCall bridge).vmBridges = [bridge] := by
    rw [Call.vmBridges, wholeCall, List.filter_cons_of_pos isVm,
      List.filter_nil]
  have isPlanned : (bridge, entry.1) ∈ planned (wholeCall bridge) own := by
    rw [mem_planned, vmBridges]
    exact ⟨List.mem_singleton_self _, entry.2, member, drops, holds⟩
  obtain ⟨after, isAfter, sameType, _, put⟩ :=
    exists_overPlan (wholeCall bridge) (fun _ _ _ => rfl)
      (planned (wholeCall bridge) own) [] member
  have looked :
      ensureVmForwarding (wholeCall bridge) own =
        overPlan (wholeCall bridge) (planned (wholeCall bridge) own) [] own := by
    rw [ensureVmForwarding, vmBridges]
    rfl
  have single : after.rules.count (Side.reply.rule bridge) ≤ 1 := by
    have present : (entry.1, after) ∈
        (ensureVmForwarding (wholeCall bridge) own).2.chains := by
      rw [looked]
      exact isAfter
    have stillDrops : DropsForward after := by
      rw [DropsForward, sameType]
      exact drops
    exact once bridge _ present stillDrops .reply bridge
  have twice := (put bridge isPlanned).count_le (Side.reply.rule bridge)
  rw [List.count_cons_self] at twice
  have present := List.count_pos_iff.mpr isRule
  omega

/--
The rulesets from which calls that cut no pair put each rule at most once in a
chain are the clean ones; and once a call has looked and ended well, the next
for its bridges inserts nothing.
-/
theorem forwarding_settles_iff (own : Ruleset) :
    ((∀ calls, AllPaired calls own → AtMostOnce (runCalls calls own)) ↔
        Clean own) ∧
      ∀ (call next : Call) (changed : List (List Char)) (after : Ruleset),
        call.listed = true →
        ensureVmForwarding call own = (.ok changed, after) →
        next.vmBridges ⊆ call.vmBridges →
          ensureVmForwarding next after = (.ok [], after) := by
  refine ⟨⟨fun once => ?_, fun clean calls paired => ?_⟩, ?_⟩
  · refine ⟨once [] trivial, whole_of_atMostOnce fun bridge => ?_⟩
    exact once [wholeCall bridge]
      ⟨fun _ => pairsUp_of_done (fun _ _ _ => rfl) _, trivial⟩
  · exact (clean.runCalls paired).atMostOnce
  · intro call next changed after listed ended same
    exact ensureVmForwarding_of_planned_nil (planned_after listed ended same)

def word
    (text : List Char)
    (notEmpty : text ≠ [])
    (solid : text.any isWhitespace = false) :
    Word where
  text := text
  notEmpty := notEmpty
  solid := fun char member => by
    rw [← Bool.not_eq_true]
    exact List.any_eq_false.mp solid char member

/-- The chain of another tool, as it sets it up. -/
def emptyForward : ListedChain where
  name := word "FORWARD".toList (by decide) (by decide +kernel)
  comment := none
  typeLine := some
    { text := "type filter hook forward priority filter; policy drop;".toList
      plain := by decide +kernel
      isType := by decide +kernel }
  rules := []

def filterTable : Ruleset where
  tables :=
    [{  family := word "ip".toList (by decide) (by decide +kernel)
        name := word "filter".toList (by decide) (by decide +kernel)
        entries := [.chain emptyForward] }]
  distinct := by decide +kernel

def virbr : Bridge where
  name := "virbr0".toList
  oneLine := by decide

/-- The second insert fails. -/
def cutShort : Call :=
  { wholeCall virbr with
    nft := fun _ side _ => if side = .reply then .done else .failed }

/-- A failed second insert is repaired by another pair. -/
theorem cut_pair_doubled :
    filterTable.chains.all (fun entry => entry.2.rules.isEmpty) = true ∧
      ¬ AtMostOnce (runCalls [cutShort, wholeCall virbr] filterTable) := by
  refine ⟨rfl, fun once => ?_⟩
  have twice :
      ∃ entry ∈ (runCalls [cutShort, wholeCall virbr] filterTable).chains,
        DropsForward entry.2 ∧
          2 ≤ entry.2.rules.count (Side.reply.rule virbr) := by
    decide +kernel
  obtain ⟨entry, member, drops, doubled⟩ := twice
  have single := once entry member drops .reply virbr
  omega

end VmForwarding

end AiFirewall
