import Mathlib

namespace AiFirewall

/-!
# Finite tables, bounded maps and prefix tries

`Table` is the unbounded hash map of a process.  `BoundedMap` and
`PrefixTrie` are the two kinds of table a kernel keeps for it: both have a
capacity, and both refuse a new key once they are full.  A trie node is
identified by the leading bits it stores, so a trie is a duplicate-free set
of bit strings and a lookup asks whether one of them starts the address.
-/

/-- A finite map with distinct keys. -/
abbrev Table (Key Value : Type) := AList fun _ : Key => Value

namespace Table

variable {Key Value : Type} [DecidableEq Key]

/-- Keep only the entries that satisfy a test. -/
def retain (keep : Key → Value → Bool) (table : Table Key Value) :
    Table Key Value where
  entries := table.entries.filter fun entry => keep entry.1 entry.2
  nodupKeys := table.nodupKeys.sublist List.filter_sublist

/-- A retained entry is an old entry that passed the test. -/
theorem lookup_retain
    (keep : Key → Value → Bool)
    (table : Table Key Value)
    (key : Key) :
    (retain keep table).lookup key =
      (table.lookup key).filter (keep key) := by
  ext value
  rw [← Option.mem_def, AList.mem_lookup_iff, Option.filter_eq_some_iff,
    ← Option.mem_def, AList.mem_lookup_iff]
  simp [retain]

/-- The number of entries. -/
def size (table : Table Key Value) : Nat :=
  table.keys.length

omit [DecidableEq Key] in
/-- Retaining entries never adds one. -/
theorem size_retain_le
    (keep : Key → Value → Bool)
    (table : Table Key Value) :
    (retain keep table).size ≤ table.size := by
  simpa [size, retain, AList.keys, List.keys] using
    List.length_filter_le
      (fun entry => keep entry.1 entry.2) table.entries

/-- Writing a key that is already there keeps the size. -/
theorem size_insert_of_mem
    {table : Table Key Value}
    {key : Key}
    (member : key ∈ table)
    (value : Value) :
    Table.size (table.insert key value) = table.size := by
  have inKeys : key ∈ table.keys := AList.mem_keys.mp member
  have positive := List.length_pos_of_mem inKeys
  rw [size, size, AList.keys_insert, List.length_cons,
    List.length_erase_of_mem inKeys]
  omega

/-- Writing a new key adds one entry. -/
theorem size_insert_of_notMem
    {table : Table Key Value}
    {key : Key}
    (notMember : key ∉ table)
    (value : Value) :
    Table.size (table.insert key value) = table.size + 1 := by
  have notInKeys : key ∉ table.keys :=
    fun inKeys => notMember (AList.mem_keys.mpr inKeys)
  rw [size, size, AList.keys_insert, List.length_cons,
    List.erase_of_not_mem notInKeys]

/-- Erasing a key never adds an entry. -/
theorem size_erase_le (table : Table Key Value) (key : Key) :
    Table.size (table.erase key) ≤ table.size := by
  rw [size, size, AList.keys_erase]
  exact List.length_erase_le

/-- A table without some key of a finite set is smaller than the set. -/
theorem size_lt_card
    {table : Table Key Value}
    {keys : Finset Key}
    {missing : Key}
    (inKeys : ∀ key ∈ table, key ∈ keys)
    (member : missing ∈ keys)
    (absent : missing ∉ table) :
    table.size < keys.card := by
  have shown : table.keys.toFinset.card = table.size :=
    List.toFinset_card_of_nodup table.keys_nodup
  rw [← shown]
  refine Finset.card_lt_card (Finset.ssubset_iff_subset_ne.mpr ⟨?_, ?_⟩)
  · intro key inTable
    exact inKeys key (AList.mem_keys.mpr (List.mem_toFinset.mp inTable))
  · intro same
    rw [← same, List.mem_toFinset, ← AList.mem_keys] at member
    exact absent member

/-- The entries as key and value pairs. -/
def toList (table : Table Key Value) : List (Key × Value) :=
  table.entries.map fun entry => (entry.1, entry.2)

theorem mem_toList
    {table : Table Key Value}
    {key : Key}
    {value : Value} :
    (key, value) ∈ table.toList ↔ table.lookup key = some value := by
  rw [← Option.mem_def, AList.mem_lookup_iff]
  simp only [toList, List.mem_map, Prod.mk.injEq]
  constructor
  · rintro ⟨⟨entryKey, entryValue⟩, member, rfl, rfl⟩
    exact member
  · intro member
    exact ⟨⟨key, value⟩, member, rfl, rfl⟩

/-- A lookup after an insertion. -/
theorem lookup_insert_eq
    (table : Table Key Value)
    (key query : Key)
    (value : Value) :
    (table.insert key value).lookup query =
      if query = key then some value else table.lookup query := by
  split
  · subst key
    exact AList.lookup_insert table
  · exact AList.lookup_insert_ne (by assumption)

/-- A lookup after an erasure. -/
theorem lookup_erase_eq
    (table : Table Key Value)
    (key query : Key) :
    (table.erase key).lookup query =
      if query = key then none else table.lookup query := by
  split
  · subst key
    exact AList.lookup_erase query table
  · exact AList.lookup_erase_ne (by assumption)

/-- Entries written one after the other leave every other key alone. -/
theorem lookup_foldl_insert_of_notMem
    {Item : Type}
    (key : Item → Key)
    (value : Item → Value)
    {items : List Item}
    (table : Table Key Value)
    {query : Key}
    (absent : query ∉ items.map key) :
    (items.foldl
        (fun written entry => written.insert (key entry) (value entry))
        table).lookup query = table.lookup query := by
  induction items generalizing table with
  | nil =>
      rfl
  | cons head rest inductionHypothesis =>
      rw [List.map_cons, List.mem_cons, not_or] at absent
      rw [List.foldl_cons, inductionHypothesis _ absent.2,
        lookup_insert_eq, if_neg absent.1]

/-- Entries written one after the other: every one of them is found. -/
theorem lookup_foldl_insert
    {Item : Type}
    (key : Item → Key)
    (value : Item → Value)
    {items : List Item}
    (distinct : (items.map key).Nodup)
    (table : Table Key Value)
    {item : Item}
    (member : item ∈ items) :
    (items.foldl
        (fun written entry => written.insert (key entry) (value entry))
        table).lookup (key item) = some (value item) := by
  induction items generalizing table with
  | nil =>
      cases member
  | cons head rest inductionHypothesis =>
      rw [List.map_cons, List.nodup_cons] at distinct
      rw [List.foldl_cons]
      rcases List.mem_cons.mp member with isHead | inRest
      · subst isHead
        rw [lookup_foldl_insert_of_notMem _ _ _ distinct.1,
          lookup_insert_eq, if_pos rfl]
      · exact inductionHypothesis distinct.2 _ inRest

omit [DecidableEq Key] in
/-- The entries of a table have distinct keys. -/
theorem nodup_toList (table : Table Key Value) :
    (table.toList.map Prod.fst).Nodup := by
  have keys : table.toList.map Prod.fst = table.keys := by
    simp [toList, AList.keys, List.keys]
  rw [keys]
  exact table.keys_nodup

end Table

/-- A kernel hash map: at most `capacity` entries. -/
structure BoundedMap (Key Value : Type) (capacity : Nat) where
  table : Table Key Value
  fits : table.size ≤ capacity

namespace BoundedMap

variable {Key Value : Type} [DecidableEq Key] {capacity : Nat}

/-- The map without entries. -/
def empty : BoundedMap Key Value capacity :=
  ⟨∅, Nat.zero_le capacity⟩

/-- The value stored for a key. -/
def get? (map : BoundedMap Key Value capacity) (key : Key) : Option Value :=
  map.table.lookup key

/-- Every entry of the map. -/
def toList (map : BoundedMap Key Value capacity) : List (Key × Value) :=
  map.table.toList

/-- The number of entries. -/
def size (map : BoundedMap Key Value capacity) : Nat :=
  map.table.size

/-- Insert or update; a new key is refused by a full map. -/
def insert?
    (map : BoundedMap Key Value capacity)
    (key : Key)
    (value : Value) :
    Option (BoundedMap Key Value capacity) :=
  if fits : Table.size (map.table.insert key value) ≤ capacity then
    some ⟨map.table.insert key value, fits⟩
  else
    none

/-- Remove a key; a key that is not there is refused. -/
def remove?
    (map : BoundedMap Key Value capacity)
    (key : Key) :
    Option (BoundedMap Key Value capacity) :=
  if (map.get? key).isSome then
    some ⟨map.table.erase key,
      le_trans (Table.size_erase_le map.table key) map.fits⟩
  else
    none

@[simp] theorem get?_empty (key : Key) :
    (empty : BoundedMap Key Value capacity).get? key = none :=
  AList.lookup_empty key

theorem mem_toList
    {map : BoundedMap Key Value capacity}
    {key : Key}
    {value : Value} :
    (key, value) ∈ map.toList ↔ map.get? key = some value :=
  Table.mem_toList

/-- An accepted insertion changes exactly its own key. -/
theorem get?_of_insert?
    {map changed : BoundedMap Key Value capacity}
    {key : Key}
    {value : Value}
    (accepted : map.insert? key value = some changed)
    (query : Key) :
    changed.get? query =
      if query = key then some value else map.get? query := by
  unfold insert? at accepted
  split at accepted
  · injection accepted with same
    subst same
    exact Table.lookup_insert_eq map.table key query value
  · cases accepted

/-- An accepted removal changes exactly its own key. -/
theorem get?_of_remove?
    {map changed : BoundedMap Key Value capacity}
    {key : Key}
    (accepted : map.remove? key = some changed)
    (query : Key) :
    changed.get? query =
      if query = key then none else map.get? query := by
  unfold remove? at accepted
  split at accepted
  · injection accepted with same
    subst same
    exact Table.lookup_erase_eq map.table key query
  · cases accepted

/-- Writing a key that is already there is always accepted. -/
theorem insert?_isSome_of_present
    {map : BoundedMap Key Value capacity}
    {key : Key}
    (present : (map.get? key).isSome)
    (value : Value) :
    (map.insert? key value).isSome := by
  have member : key ∈ map.table := AList.lookup_isSome.mp present
  have fits : Table.size (map.table.insert key value) ≤ capacity := by
    rw [Table.size_insert_of_mem member]
    exact map.fits
  simp only [insert?, fits, ↓reduceDIte, Option.isSome_some]

/-- A new key is accepted exactly when the map has room. -/
theorem insert?_isSome_of_absent
    {map : BoundedMap Key Value capacity}
    {key : Key}
    (absent : map.get? key = none)
    (value : Value) :
    (map.insert? key value).isSome ↔ map.size < capacity := by
  have notMember : key ∉ map.table := AList.lookup_eq_none.mp absent
  have grown := Table.size_insert_of_notMem notMember value
  unfold insert?
  split
  · simp only [size, Option.isSome_some, true_iff]
    omega
  · simp only [size, Option.isSome_none, Bool.false_eq_true, false_iff]
    omega

/-- Inserting a new key adds one entry. -/
theorem size_of_insert?_absent
    {map changed : BoundedMap Key Value capacity}
    {key : Key}
    {value : Value}
    (absent : map.get? key = none)
    (accepted : map.insert? key value = some changed) :
    changed.size = map.size + 1 := by
  have notMember : key ∉ map.table := AList.lookup_eq_none.mp absent
  unfold insert? at accepted
  split at accepted
  · injection accepted with same
    subst same
    exact Table.size_insert_of_notMem notMember value
  · cases accepted

/-- A map whose keys are all in another, which has one more, has room. -/
theorem size_lt_of_within
    {map limit : BoundedMap Key Value capacity}
    {missing : Key}
    (within : ∀ key, (map.get? key).isSome → (limit.get? key).isSome)
    (listed : (limit.get? missing).isSome)
    (absent : map.get? missing = none) :
    map.size < capacity := by
  have keys (key : Key) (inLimit : (limit.get? key).isSome) :
      key ∈ limit.table.keys.toFinset :=
    List.mem_toFinset.mpr
      (AList.mem_keys.mp (AList.lookup_isSome.mp inLimit))
  have card : limit.table.keys.toFinset.card = limit.table.size :=
    List.toFinset_card_of_nodup limit.table.keys_nodup
  have smaller : map.table.size < limit.table.keys.toFinset.card :=
    Table.size_lt_card
      (fun key member =>
        keys key (within key (AList.lookup_isSome.mpr member)))
      (keys missing listed)
      (AList.lookup_eq_none.mp absent)
  rw [card] at smaller
  exact Nat.lt_of_lt_of_le smaller limit.fits

/-- A map lacks one of more keys than it has room for. -/
theorem exists_absent
    (map : BoundedMap Key Value capacity)
    {candidates : List Key}
    (distinct : candidates.Nodup)
    (many : capacity < candidates.length) :
    ∃ key ∈ candidates, map.get? key = none := by
  by_contra allPresent
  push Not at allPresent
  have inside : candidates ⊆ map.table.keys := by
    intro key member
    have present := Option.isSome_iff_ne_none.mpr (allPresent key member)
    exact AList.mem_keys.mp (AList.lookup_isSome.mp present)
  have bounded := (distinct.subperm inside).length_le
  exact absurd (le_trans bounded map.fits) (Nat.not_le.mpr many)

end BoundedMap

/-- Prefixes are compared bit by bit. -/
instance lawfulPrefixes : LawfulBEq (List Bool) :=
  inferInstance

/-- A bounded longest-prefix-match trie, as the set of prefixes it stores. -/
structure PrefixTrie (capacity : Nat) where
  prefixes : List (List Bool)
  nodup : prefixes.Nodup
  fits : prefixes.length ≤ capacity

namespace PrefixTrie

variable {capacity : Nat}

/-- The trie without prefixes. -/
def empty : PrefixTrie capacity :=
  ⟨[], List.nodup_nil, Nat.zero_le capacity⟩

/-- Insert a prefix; a new prefix is refused by a full trie. -/
def insert?
    (trie : PrefixTrie capacity)
    (added : List Bool) :
    Option (PrefixTrie capacity) :=
  if present : added ∈ trie.prefixes then
    some trie
  else if room : trie.prefixes.length < capacity then
    some ⟨added :: trie.prefixes,
      List.nodup_cons.mpr ⟨present, trie.nodup⟩, room⟩
  else
    none

/-- Remove a prefix; a prefix that is not there is refused. -/
def remove?
    (trie : PrefixTrie capacity)
    (removed : List Bool) :
    Option (PrefixTrie capacity) :=
  if removed ∈ trie.prefixes then
    some ⟨trie.prefixes.erase removed,
      trie.nodup.erase removed,
      le_trans (List.length_erase_le) trie.fits⟩
  else
    none

/-- Whether a stored prefix starts the address. -/
def matchesAddress
    (trie : PrefixTrie capacity)
    (address : List Bool) : Bool :=
  trie.prefixes.any fun stored => stored.isPrefixOf address

theorem matchesAddress_iff
    {trie : PrefixTrie capacity}
    {address : List Bool} :
    trie.matchesAddress address = true ↔
      ∃ stored ∈ trie.prefixes, stored <+: address := by
  simp [matchesAddress]

/-- An accepted insertion adds exactly its own prefix. -/
theorem mem_of_insert?
    {trie changed : PrefixTrie capacity}
    {added : List Bool}
    (accepted : trie.insert? added = some changed)
    (query : List Bool) :
    query ∈ changed.prefixes ↔
      query = added ∨ query ∈ trie.prefixes := by
  unfold insert? at accepted
  split at accepted
  · injection accepted with same
    subst same
    constructor
    · exact Or.inr
    · rintro (rfl | member)
      · assumption
      · exact member
  · split at accepted
    · injection accepted with same
      subst same
      exact List.mem_cons
    · cases accepted

/-- An accepted removal drops exactly its own prefix. -/
theorem mem_of_remove?
    {trie changed : PrefixTrie capacity}
    {removed : List Bool}
    (accepted : trie.remove? removed = some changed)
    (query : List Bool) :
    query ∈ changed.prefixes ↔
      query ≠ removed ∧ query ∈ trie.prefixes := by
  unfold remove? at accepted
  split at accepted
  · injection accepted with same
    subst same
    exact trie.nodup.mem_erase_iff
  · cases accepted

/-- A new prefix is accepted exactly when the trie has room. -/
theorem insert?_isSome_of_absent
    {trie : PrefixTrie capacity}
    {added : List Bool}
    (absent : added ∉ trie.prefixes) :
    (trie.insert? added).isSome ↔ trie.prefixes.length < capacity := by
  simp [insert?, absent]

/-- Inserting a new prefix adds one node. -/
theorem length_of_insert?_absent
    {trie changed : PrefixTrie capacity}
    {added : List Bool}
    (absent : added ∉ trie.prefixes)
    (accepted : trie.insert? added = some changed) :
    changed.prefixes.length = trie.prefixes.length + 1 := by
  simp only [insert?, absent, ↓reduceDIte] at accepted
  split at accepted
  · injection accepted with same
    subst same
    rfl
  · cases accepted

end PrefixTrie

end AiFirewall
