import AiFirewall.TrimmedText

namespace AiFirewall

/-!
# The packet filter's listing

`nft list ruleset` prints the tables of the kernel's packet filter, and
`parse_ruleset` reads the chains back.  A ruleset is kept here as tables of
entries whose texts are such as `nft` prints; what is read from its listing
is every chain, with the hook and the policy of its type line, and its
comment and rules one a line.
-/

open RustText

/-- `Chain`: what the checks keep of a chain. -/
structure Chain where
  family : List Char
  table : List Char
  name : List Char
  hook : Option (List Char)
  policyDrop : Bool
  body : List Char
  deriving Repr, DecidableEq

namespace NftListing

def tableWord : List Char := "table ".toList
def chainWord : List Char := "chain ".toList
def typeWord : List Char := "type ".toList
def hookWord : List Char := "hook ".toList
def brace (char : Char) : Bool := char = '\x7b'
def closing : List Char := ['\x7d']

/-- What `parse_ruleset` keeps while it reads. -/
structure Reader where
  chains : List Chain
  family : List Char
  table : List Char
  current : Option Chain

namespace Reader

def start : Reader where
  chains := []
  family := []
  table := []
  current := none

end Reader

/-- `split("hook ").nth(1)`, and its first word. -/
def hookOf (text : List Char) : Option (List Char) :=
  (splitOnceAt hookWord text).bind fun (_, after) =>
    let part := ((splitOnceAt hookWord after).map Prod.fst).getD after
    (splitWhitespace part).head?

/-- One line of the listing. -/
def readLine (reader : Reader) (line : List Char) : Reader :=
  let text := trim line
  match text.dropPrefix? tableWord with
  | some rest =>
      let parts := splitWhitespace (rest.rdropWhile brace)
      { reader with
        family := parts[0]?.getD []
        table := parts[1]?.getD [] }
  | none =>
      match text.dropPrefix? chainWord with
      | some rest =>
          { reader with
            current := some
              { family := reader.family
                table := reader.table
                name := trim (rest.rdropWhile brace)
                hook := none
                policyDrop := false
                body := [] } }
      | none =>
          if text = closing then
            { reader with
              chains := reader.chains ++ reader.current.toList
              current := none }
          else
            { reader with
              current := reader.current.map fun chain =>
                if typeWord <+: text then
                  { chain with
                    hook := hookOf text
                    policyDrop := decide ("policy drop".toList <:+: text) }
                else
                  { chain with body := chain.body ++ text ++ ['\n'] } }

/-- `parse_ruleset`. -/
def parseRuleset (text : List Char) : List Chain :=
  ((lines text).foldl readLine .start).chains

/-- A text of one line, without white space at its ends. -/
def Plain (text : List Char) : Prop :=
  '\n' ∉ text ∧ trim text = text

instance (text : List Char) : Decidable (Plain text) :=
  inferInstanceAs (Decidable (_ ∧ _))

/-- A name without white space. -/
structure Word where
  text : List Char
  notEmpty : text ≠ []
  solid : ∀ char ∈ text, isWhitespace char = false
  deriving DecidableEq

/-- A rule, as it is printed. -/
structure Rule where
  text : List Char
  plain : Plain text
  isRule :
    ¬ tableWord <+: text ∧ ¬ chainWord <+: text ∧ ¬ typeWord <+: text ∧
      text ≠ closing
  deriving DecidableEq

/-- The line of a base chain that gives its hook and its policy. -/
structure TypeLine where
  text : List Char
  plain : Plain text
  isType : typeWord <+: text
  deriving DecidableEq

/-- A line of something in a table that is no chain. -/
structure OtherLine where
  text : List Char
  plain : Plain text
  isOther : ¬ tableWord <+: text ∧ ¬ chainWord <+: text
  deriving DecidableEq

/-- A chain of the packet filter, its first rule first. -/
structure ListedChain where
  name : Word
  comment : Option Rule
  typeLine : Option TypeLine
  rules : List Rule

/-- The lines of a chain that are kept as its body. -/
def ListedChain.body (own : ListedChain) : List Rule :=
  own.comment.toList ++ own.rules

/-- What a table holds: chains, and sets, maps and the like. -/
inductive Entry where
  | chain (own : ListedChain)
  | other (texts : List OtherLine)

structure Table where
  family : Word
  name : Word
  entries : List Entry

/-- What names a chain to `nft`. -/
structure ChainKey where
  family : List Char
  table : List Char
  name : List Char
  deriving Repr, DecidableEq

def Entry.chain? : Entry → Option ListedChain
  | .chain own => some own
  | .other _ => none

/-- The chains of a table, each with its key. -/
def Table.chains (own : Table) : List (ChainKey × ListedChain) :=
  (own.entries.filterMap Entry.chain?).map fun chain =>
    (⟨own.family.text, own.name.text, chain.name.text⟩, chain)

/-- The chains of the tables in the order of the listing. -/
def chainsOf (tables : List Table) : List (ChainKey × ListedChain) :=
  tables.flatMap Table.chains

theorem chainsOf_cons (own : Table) (rest : List Table) :
    chainsOf (own :: rest) = own.chains ++ chainsOf rest :=
  List.flatMap_cons

/-- The tables of the packet filter; no two chains have one key. -/
structure Ruleset where
  tables : List Table
  distinct : ((chainsOf tables).map Prod.fst).Nodup

def ListedChain.printed (own : ListedChain) : List (List Char) :=
  ['\t' :: (chainWord ++ own.name.text ++ [' ', '\x7b'])] ++
    own.comment.toList.map (fun line => '\t' :: '\t' :: line.text) ++
    own.typeLine.toList.map (fun line => '\t' :: '\t' :: line.text) ++
    own.rules.map (fun rule => '\t' :: '\t' :: rule.text) ++
    ['\t' :: closing]

def Entry.printed : Entry → List (List Char)
  | .chain own => own.printed
  | .other texts => texts.map fun line => '\t' :: line.text

def Table.printed (own : Table) : List (List Char) :=
  [tableWord ++ own.family.text ++ [' '] ++ own.name.text ++ [' ', '\x7b']] ++
    own.entries.flatMap Entry.printed ++ [closing]

/-- `nft list ruleset`. -/
def listing (tables : List Table) : List Char :=
  (tables.flatMap Table.printed).flatMap (· ++ ['\n'])

/-- What is to be read of a chain. -/
def read (key : ChainKey) (own : ListedChain) : Chain where
  family := key.family
  table := key.table
  name := key.name
  hook := own.typeLine.bind fun line => hookOf line.text
  policyDrop := own.typeLine.any fun line =>
    decide ("policy drop".toList <:+: line.text)
  body := own.body.flatMap fun rule => rule.text ++ ['\n']

theorem dropPrefix?_eq_none
    {word text : List Char}
    (other : ¬ word <+: text) :
    text.dropPrefix? word = none := by
  rw [Option.eq_none_iff_forall_ne_some]
  intro rest found
  obtain ⟨own, isText, isWord⟩ := List.dropPrefix?_eq_some_iff.mp found
  rw [eq_of_beq isWord] at isText
  exact other ⟨rest, isText.symm⟩

/-- What begins with one word does not begin with another. -/
theorem not_begins
    {word other text : List Char}
    (isOther : other <+: text)
    (differ : ¬ word <+: other ∧ ¬ other <+: word) :
    ¬ word <+: text := by
  intro isWord
  rcases List.prefix_or_prefix_of_prefix isWord isOther with within | around
  · exact differ.1 within
  · exact differ.2 around

theorem trim_tab (text : List Char) :
    trim ('\t' :: text) = trim text := by
  rw [trim_eq, List.dropWhile_cons_of_pos rfl, ← trim_eq]

/-- A text between solid characters is not trimmed. -/
theorem trim_of_ends
    {first last : Char}
    {middle : List Char}
    (firstSolid : isWhitespace first = false)
    (lastSolid : isWhitespace last = false) :
    trim (first :: (middle ++ [last])) = first :: (middle ++ [last]) := by
  have kept :
      (middle ++ [last]).rdropWhile isWhitespace = middle ++ [last] := by
    rw [List.rdropWhile_concat_neg]
    rw [lastSolid]
    exact Bool.false_ne_true
  have around := trim_around firstSolid [] (middle ++ [last])
  rwa [kept] at around

/-- A plain text does not end in a carriage return. -/
theorem Plain.getLast_ne
    {text : List Char}
    (plain : Plain text) :
    text.getLast? ≠ some '\r' := by
  intro isLast
  obtain ⟨front, rfl⟩ := List.getLast?_eq_some_iff.mp isLast
  have trimmed := plain.2
  rw [trim_append_of_all (List.forall_mem_singleton.mpr rfl)] at trimmed
  obtain ⟨before, after, shape, _⟩ := exists_trim front
  rw [trimmed] at shape
  have lengths := congrArg List.length shape
  simp only [List.length_append, List.length_singleton] at lengths
  omega

/-- The words of a text, one by one. -/
theorem splitWhitespace_word
    (word : Word)
    (rest : List Char) :
    splitWhitespace (word.text ++ ' ' :: rest) =
      word.text :: splitWhitespace rest := by
  have isWord : word.text.splitOnP isWhitespace = [word.text] :=
    List.splitOnP_eq_singleton fun char member => by
      rw [word.solid char member]
  rw [splitWhitespace, List.splitOnP_append_cons _ _ rfl, isWord,
    List.filter_append, List.filter_cons_of_pos, List.filter_nil,
    List.singleton_append, splitWhitespace]
  exact decide_eq_true word.notEmpty

theorem readLine_table
    (reader : Reader)
    (family name : Word) :
    readLine reader
        (tableWord ++ family.text ++ [' '] ++ name.text ++ [' ', '\x7b']) =
      { reader with
        family := family.text
        table := name.text } := by
  have isWord : tableWord = 't' :: "able ".toList := rfl
  have line :
      tableWord ++ family.text ++ [' '] ++ name.text ++ [' ', '\x7b'] =
        tableWord ++ (family.text ++ ' ' :: (name.text ++ [' ', '\x7b'])) := by
    simp
  have trimmed :
      trim (tableWord ++ (family.text ++ ' ' :: (name.text ++ [' ', '\x7b']))) =
        tableWord ++ (family.text ++ ' ' :: (name.text ++ [' ', '\x7b'])) := by
    have shape :
        tableWord ++ (family.text ++ ' ' :: (name.text ++ [' ', '\x7b'])) =
          't' :: (("able ".toList ++ family.text ++ [' '] ++ name.text ++
            [' ']) ++ ['\x7b']) := by
      simp [isWord]
    rw [shape]
    exact trim_of_ends rfl rfl
  have isTable :
      (tableWord ++
        (family.text ++ ' ' :: (name.text ++ [' ', '\x7b']))).dropPrefix?
          tableWord =
        some (family.text ++ ' ' :: (name.text ++ [' ', '\x7b'])) :=
    List.dropPrefix?_append_of_beq _ (beq_self_eq_true tableWord)
  have unbraced :
      (family.text ++ ' ' :: (name.text ++ [' ', '\x7b'])).rdropWhile brace =
        family.text ++ ' ' :: (name.text ++ ' ' :: []) := by
    have shape :
        family.text ++ ' ' :: (name.text ++ [' ', '\x7b']) =
          family.text ++ [' '] ++ name.text ++ [' '] ++ ['\x7b'] := by
      simp
    rw [shape, List.rdropWhile_concat_pos _ _ _ (by decide),
      List.rdropWhile_concat_neg _ _ _ (by decide)]
    simp
  rw [line, readLine]
  simp only [trimmed, isTable, unbraced, splitWhitespace_word]
  rfl

/-- A chain begins. -/
theorem readLine_chain
    (reader : Reader)
    (name : Word) :
    readLine reader ('\t' :: (chainWord ++ name.text ++ [' ', '\x7b'])) =
      { reader with
        current := some
          { family := reader.family
            table := reader.table
            name := name.text
            hook := none
            policyDrop := false
            body := [] } } := by
  have isWord : chainWord = 'c' :: "hain ".toList := rfl
  have trimmed :
      trim ('\t' :: (chainWord ++ name.text ++ [' ', '\x7b'])) =
        chainWord ++ (name.text ++ [' ', '\x7b']) := by
    have shape :
        chainWord ++ (name.text ++ [' ', '\x7b']) =
          'c' :: (("hain ".toList ++ name.text ++ [' ']) ++ ['\x7b']) := by
      simp [isWord]
    rw [trim_tab, List.append_assoc, shape]
    exact trim_of_ends rfl rfl
  have noTable :
      (chainWord ++ (name.text ++ [' ', '\x7b'])).dropPrefix? tableWord =
        none := by
    apply dropPrefix?_eq_none
    exact not_begins (List.prefix_append _ _) (by decide)
  have isChain :
      (chainWord ++ (name.text ++ [' ', '\x7b'])).dropPrefix? chainWord =
        some (name.text ++ [' ', '\x7b']) :=
    List.dropPrefix?_append_of_beq _ (beq_self_eq_true chainWord)
  have isName :
      trim ((name.text ++ [' ', '\x7b']).rdropWhile brace) = name.text := by
    have shape : name.text ++ [' ', '\x7b'] = name.text ++ [' '] ++ ['\x7b'] := by
      simp
    rw [shape, List.rdropWhile_concat_pos _ _ _ (by decide),
      List.rdropWhile_concat_neg _ _ _ (by decide),
      trim_append_of_all (List.forall_mem_singleton.mpr rfl),
      trim_of_solid name.solid]
  rw [readLine]
  simp only [trimmed, noTable, isChain, isName]

/-- The end of a chain, or of anything else. -/
theorem readLine_closing
    (reader : Reader) :
    readLine reader ('\t' :: closing) =
        { reader with
          chains := reader.chains ++ reader.current.toList
          current := none } ∧
      readLine reader closing =
        { reader with
          chains := reader.chains ++ reader.current.toList
          current := none } := by
  have trimmed : trim closing = closing := by
    decide
  have noTable : closing.dropPrefix? tableWord = none := by
    decide
  have noChain : closing.dropPrefix? chainWord = none := by
    decide
  constructor
  · rw [readLine]
    simp only [trim_tab, trimmed, noTable, noChain, if_true]
  · rw [readLine]
    simp only [trimmed, noTable, noChain, if_true]

theorem readLine_rule
    {reader : Reader}
    {chain : Chain}
    (inside : reader.current = some chain)
    (rule : Rule) :
    readLine reader ('\t' :: '\t' :: rule.text) =
      { reader with
        current := some
          { chain with body := chain.body ++ rule.text ++ ['\n'] } } := by
  obtain ⟨noTable, noChain, noType, notClosing⟩ := rule.isRule
  rw [readLine]
  simp only [trim_tab, rule.plain.2, dropPrefix?_eq_none noTable,
    dropPrefix?_eq_none noChain, notClosing, noType, inside, if_false,
    Option.map_some]

theorem TypeLine.isOther (line : TypeLine) :
    ¬ tableWord <+: line.text ∧ ¬ chainWord <+: line.text ∧
      line.text ≠ closing := by
  refine ⟨not_begins line.isType (by decide),
    not_begins line.isType (by decide), fun same => ?_⟩
  have isClosing : typeWord <+: closing := same ▸ line.isType
  revert isClosing
  decide

theorem readLine_type
    {reader : Reader}
    {chain : Chain}
    (inside : reader.current = some chain)
    (line : TypeLine) :
    readLine reader ('\t' :: '\t' :: line.text) =
      { reader with
        current := some
          { chain with
            hook := hookOf line.text
            policyDrop := decide ("policy drop".toList <:+: line.text) } } := by
  obtain ⟨noTable, noChain, notClosing⟩ := line.isOther
  rw [readLine]
  simp only [trim_tab, line.plain.2, dropPrefix?_eq_none noTable,
    dropPrefix?_eq_none noChain, notClosing, line.isType, inside, if_false,
    if_true, Option.map_some]

/-- Outside of chains nothing is kept. -/
theorem readLine_other
    {reader : Reader}
    (outside : reader.current = none)
    (line : OtherLine) :
    readLine reader ('\t' :: line.text) = reader := by
  obtain ⟨noTable, noChain⟩ := line.isOther
  rw [readLine]
  simp only [trim_tab, line.plain.2, dropPrefix?_eq_none noTable,
    dropPrefix?_eq_none noChain, outside, Option.toList_none, List.append_nil,
    Option.map_none]
  rw [← outside]
  exact ite_self reader

/-- The rules of a chain, one after the other. -/
theorem foldl_rules
    {reader : Reader}
    {chain : Chain}
    (inside : reader.current = some chain)
    (rules : List Rule) :
    (rules.map fun rule => '\t' :: '\t' :: rule.text).foldl readLine reader =
      { reader with
        current := some
          { chain with
            body := chain.body ++
              rules.flatMap fun rule => rule.text ++ ['\n'] } } := by
  induction rules generalizing reader chain with
  | nil =>
      rw [List.map_nil, List.foldl_nil, List.flatMap_nil, List.append_nil,
        ← inside]
  | cons rule rest inductionHypothesis =>
      rw [List.map_cons, List.foldl_cons, readLine_rule inside,
        inductionHypothesis rfl, List.flatMap_cons, List.append_assoc,
        List.append_assoc]

/-- A chain is read back. -/
theorem foldl_chain
    (reader : Reader)
    (own : ListedChain) :
    own.printed.foldl readLine reader =
      { reader with
        chains := reader.chains ++
          [read ⟨reader.family, reader.table, own.name.text⟩ own]
        current := none } := by
  rw [ListedChain.printed, List.foldl_append, List.foldl_append,
    List.foldl_append, List.foldl_append]
  simp only [List.foldl_cons, List.foldl_nil, readLine_chain]
  rw [foldl_rules rfl own.comment.toList]
  cases isBase : own.typeLine with
  | none =>
      rw [Option.toList_none, List.map_nil, List.foldl_nil, foldl_rules rfl,
        (readLine_closing _).1, read, isBase, ListedChain.body,
        List.flatMap_append]
      rfl
  | some line =>
      rw [Option.toList_some, List.map_singleton, List.foldl_cons,
        List.foldl_nil, readLine_type rfl, foldl_rules rfl,
        (readLine_closing _).1, read, isBase, ListedChain.body,
        List.flatMap_append]
      rfl

/-- Sets and the like are read past. -/
theorem foldl_other
    {reader : Reader}
    (outside : reader.current = none)
    (texts : List OtherLine) :
    (texts.map fun line => '\t' :: line.text).foldl readLine reader = reader := by
  induction texts with
  | nil =>
      rfl
  | cons line rest inductionHypothesis =>
      rw [List.map_cons, List.foldl_cons, readLine_other outside,
        inductionHypothesis]

/-- The chains of a table's entries are read back in order. -/
theorem foldl_entries
    {reader : Reader}
    (outside : reader.current = none)
    (entries : List Entry) :
    (entries.flatMap Entry.printed).foldl readLine reader =
      { reader with
        chains := reader.chains ++
          (entries.filterMap Entry.chain?).map fun own =>
            read ⟨reader.family, reader.table, own.name.text⟩ own } := by
  induction entries generalizing reader with
  | nil =>
      simp
  | cons entry rest inductionHypothesis =>
      rw [List.flatMap_cons, List.foldl_append]
      cases entry with
      | chain own =>
          have isChain :
              (Entry.chain own :: rest).filterMap Entry.chain? =
                own :: rest.filterMap Entry.chain? :=
            rfl
          rw [Entry.printed, foldl_chain, inductionHypothesis rfl, isChain,
            List.map_cons, outside, List.append_assoc, List.singleton_append]
      | other texts =>
          have noChain :
              (Entry.other texts :: rest).filterMap Entry.chain? =
                rest.filterMap Entry.chain? :=
            rfl
          rw [Entry.printed, foldl_other outside, inductionHypothesis outside,
            noChain]

theorem foldl_tables
    {reader : Reader}
    (outside : reader.current = none)
    (tables : List Table) :
    ((tables.flatMap Table.printed).foldl readLine reader).chains =
      reader.chains ++
        (chainsOf tables).map fun (key, own) => read key own := by
  induction tables generalizing reader with
  | nil =>
      simp [chainsOf]
  | cons own rest inductionHypothesis =>
      rw [List.flatMap_cons, List.foldl_append, Table.printed,
        List.foldl_append, List.foldl_append]
      simp only [List.foldl_cons, List.foldl_nil, readLine_table]
      rw [foldl_entries (by exact outside), (readLine_closing _).2,
        inductionHypothesis rfl, chainsOf_cons, List.map_append, Table.chains,
        List.map_map]
      simp [outside, Function.comp_def]

/-- Each line of the listing is one line. -/
theorem single_tab
    {text : List Char}
    (plain : Plain text) :
    '\n' ∉ '\t' :: text ∧ ('\t' :: text).getLast? ≠ some '\r' := by
  constructor
  · intro member
    rcases List.mem_cons.mp member with isTab | inText
    · revert isTab
      decide
    · exact plain.1 inText
  · have ends := plain.getLast_ne
    cases text with
    | nil => decide
    | cons first rest =>
        rwa [List.getLast?_cons_cons]

theorem Word.newline_notMem (word : Word) :
    '\n' ∉ word.text := by
  intro member
  have solid := word.solid '\n' member
  revert solid
  decide

/-- A line that ends in a brace. -/
theorem single_brace
    {front : List Char}
    (oneLine : '\n' ∉ front) :
    '\n' ∉ front ++ [' ', '\x7b'] ∧
      (front ++ [' ', '\x7b']).getLast? ≠ some '\r' := by
  constructor
  · rw [List.mem_append, not_or]
    exact ⟨oneLine, by decide⟩
  · have shape : front ++ [' ', '\x7b'] = front ++ [' '] ++ ['\x7b'] := by
      simp
    rw [shape, List.getLast?_concat]
    decide

theorem plain_closing : Plain closing := by
  decide

theorem ListedChain.single
    (own : ListedChain) :
    ∀ line ∈ own.printed, '\n' ∉ line ∧ line.getLast? ≠ some '\r' := by
  have twice {text : List Char} (plain : Plain text) :
      '\n' ∉ '\t' :: '\t' :: text ∧
        ('\t' :: '\t' :: text).getLast? ≠ some '\r' := by
    obtain ⟨noBreak, ends⟩ := single_tab plain
    refine ⟨fun member => ?_, by rwa [List.getLast?_cons_cons]⟩
    rcases List.mem_cons.mp member with isTab | inText
    · revert isTab
      decide
    · exact noBreak inText
  rw [ListedChain.printed]
  simp only [List.forall_mem_append, List.forall_mem_singleton,
    List.forall_mem_map]
  refine ⟨⟨⟨⟨?_, fun line _ => twice line.plain⟩,
    fun line _ => twice line.plain⟩, fun rule _ => twice rule.plain⟩,
    single_tab plain_closing⟩
  have oneLine : '\n' ∉ '\t' :: (chainWord ++ own.name.text) := by
    rw [List.mem_cons, List.mem_append, not_or, not_or]
    exact ⟨by decide, by decide, own.name.newline_notMem⟩
  exact single_brace oneLine

theorem Table.single
    (own : Table) :
    ∀ line ∈ own.printed, '\n' ∉ line ∧ line.getLast? ≠ some '\r' := by
  rw [Table.printed]
  simp only [List.forall_mem_append, List.forall_mem_singleton]
  refine ⟨⟨?_, ?_⟩, by decide, by decide⟩
  · have oneLine :
        '\n' ∉ tableWord ++ own.family.text ++ [' '] ++ own.name.text := by
      simp only [List.mem_append, not_or]
      exact ⟨⟨⟨by decide, own.family.newline_notMem⟩, by decide⟩,
        own.name.newline_notMem⟩
    exact single_brace oneLine
  · intro line member
    obtain ⟨entry, _, isPrinted⟩ := List.mem_flatMap.mp member
    cases entry with
    | chain chain =>
        exact chain.single line isPrinted
    | other texts =>
        obtain ⟨text, _, rfl⟩ := List.mem_map.mp isPrinted
        exact single_tab text.plain

/-- Every chain of a listing is read, and nothing else. -/
theorem parseRuleset_listing (tables : List Table) :
    parseRuleset (listing tables) =
      (chainsOf tables).map fun (key, own) => read key own := by
  have single :
      ∀ line ∈ tables.flatMap Table.printed,
        '\n' ∉ line ∧ line.getLast? ≠ some '\r' := by
    intro line member
    obtain ⟨own, _, isPrinted⟩ := List.mem_flatMap.mp member
    exact own.single line isPrinted
  rw [parseRuleset, listing, lines_flatMap single, foldl_tables rfl]
  exact List.nil_append _

/-- The lines of a chain's body are its comment and its rules. -/
theorem lines_body (key : ChainKey) (own : ListedChain) :
    lines (read key own).body = own.body.map Rule.text := by
  have body :
      (read key own).body = (own.body.map Rule.text).flatMap (· ++ ['\n']) := by
    rw [List.flatMap_map]
    rfl
  rw [body, lines_flatMap]
  intro line member
  obtain ⟨rule, _, rfl⟩ := List.mem_map.mp member
  exact ⟨rule.plain.1, rule.plain.getLast_ne⟩

/-- `nft insert rule`: the rule becomes the first of its chain. -/
def ListedChain.insert (rule : Rule) (own : ListedChain) : ListedChain :=
  { own with rules := rule :: own.rules }

def Entry.insert (name : List Char) (rule : Rule) : Entry → Entry
  | .chain own =>
      .chain (if own.name.text = name then own.insert rule else own)
  | .other texts => .other texts

def Table.insert (key : ChainKey) (rule : Rule) (own : Table) : Table :=
  if own.family.text = key.family ∧ own.name.text = key.table then
    { own with entries := own.entries.map (Entry.insert key.name rule) }
  else
    own

/-- The same on a chain with its key. -/
def insertAt
    (key : ChainKey)
    (rule : Rule)
    (entry : ChainKey × ListedChain) :
    ChainKey × ListedChain :=
  (entry.1, if entry.1 = key then entry.2.insert rule else entry.2)

/-- The chains of the entries, the rule inserted. -/
theorem chain?_insert
    (name : List Char)
    (rule : Rule)
    (entries : List Entry) :
    (entries.map (Entry.insert name rule)).filterMap Entry.chain? =
      (entries.filterMap Entry.chain?).map fun own =>
        if own.name.text = name then own.insert rule else own := by
  induction entries with
  | nil =>
      rfl
  | cons entry rest inductionHypothesis =>
      cases entry with
      | chain own =>
          exact congrArg (List.cons _) inductionHypothesis
      | other texts =>
          exact inductionHypothesis

theorem Table.chains_insert
    (key : ChainKey)
    (rule : Rule)
    (own : Table) :
    (own.insert key rule).chains = own.chains.map (insertAt key rule) := by
  by_cases isTable : own.family.text = key.family ∧ own.name.text = key.table
  · rw [Table.insert, if_pos isTable, Table.chains, Table.chains,
      chain?_insert, List.map_map, List.map_map]
    refine List.map_congr_left fun chain _ => ?_
    have isKey :
        (⟨own.family.text, own.name.text, chain.name.text⟩ : ChainKey) = key ↔
          chain.name.text = key.name := by
      cases key
      simp_all
    have sameName :
        (if chain.name.text = key.name then chain.insert rule
          else chain).name = chain.name := by
      split <;> rfl
    simp only [Function.comp_apply, insertAt, sameName, isKey]
  · rw [Table.insert, if_neg isTable, Table.chains, List.map_map]
    refine List.map_congr_left fun chain _ => ?_
    have otherKey :
        (⟨own.family.text, own.name.text, chain.name.text⟩ : ChainKey) ≠ key := by
      rintro rfl
      exact isTable ⟨rfl, rfl⟩
    simp only [Function.comp_apply, insertAt, if_neg otherKey]

/-- The chain with the key has the rule in front; all others are as before. -/
theorem chainsOf_insert
    (key : ChainKey)
    (rule : Rule)
    (tables : List Table) :
    chainsOf (tables.map (Table.insert key rule)) =
      (chainsOf tables).map (insertAt key rule) := by
  rw [chainsOf, chainsOf, List.flatMap_map, List.map_flatMap]
  exact List.flatMap_congr fun own _ => own.chains_insert key rule

namespace Ruleset

def chains (own : Ruleset) : List (ChainKey × ListedChain) :=
  chainsOf own.tables

def insert (key : ChainKey) (rule : Rule) (own : Ruleset) : Ruleset where
  tables := own.tables.map (Table.insert key rule)
  distinct := by
    rw [chainsOf_insert, List.map_map]
    exact own.distinct

theorem chains_insert
    (key : ChainKey)
    (rule : Rule)
    (own : Ruleset) :
    (own.insert key rule).chains = own.chains.map (insertAt key rule) :=
  chainsOf_insert key rule own.tables

/-- A key is that of one chain. -/
theorem chain_unique
    {own : Ruleset}
    {key : ChainKey}
    {first second : ListedChain}
    (isFirst : (key, first) ∈ own.chains)
    (isSecond : (key, second) ∈ own.chains) :
    first = second := by
  have same : (key, first) = (key, second) :=
    List.inj_on_of_nodup_map own.distinct isFirst isSecond rfl
  exact congrArg Prod.snd same

end Ruleset

end NftListing

end AiFirewall
