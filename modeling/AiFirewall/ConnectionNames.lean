import AiFirewall.Config

namespace AiFirewall

/-!
# Names of connections

NetworkManager prints the active connections one name a line, with every
backslash written twice and a backslash before every colon.  `replace` is the
standard library's; the two replacements of `active_connections` stand for a
reader of these escapes.
-/

open RustText

namespace RustText

/-- `replace`, with `skip` characters of the last match still to be passed. -/
def replaceFrom
    (pattern replacement : List Char) :
    Nat → List Char → List Char
  | _, [] => []
  | skip + 1, _ :: rest => replaceFrom pattern replacement skip rest
  | 0, char :: rest =>
      if pattern.isPrefixOf (char :: rest) then
        replacement ++
          replaceFrom pattern replacement (pattern.length - 1) rest
      else
        char :: replaceFrom pattern replacement 0 rest

/-- `str::replace` of a pattern that is not empty, from left to right. -/
def replace (pattern replacement text : List Char) : List Char :=
  replaceFrom pattern replacement 0 text

/-- A character that starts no match is kept. -/
theorem replace_cons
    {pattern replacement rest : List Char}
    {char : Char}
    (noMatch : ¬ pattern <+: char :: rest) :
    replace pattern replacement (char :: rest) =
      char :: replace pattern replacement rest := by
  rw [replace, replaceFrom, if_neg]
  · rfl
  · rwa [List.isPrefixOf_iff_prefix]

theorem replaceFrom_skip
    (pattern replacement text : List Char)
    (skip : Nat) :
    replaceFrom pattern replacement skip text =
      replace pattern replacement (text.drop skip) := by
  induction text generalizing skip with
  | nil =>
      cases skip <;> rfl
  | cons char rest inductionHypothesis =>
      cases skip with
      | zero => rfl
      | succ skip => exact inductionHypothesis skip

/-- A match is replaced, and the reading goes on after it. -/
theorem replace_match
    {first : Char}
    {pattern replacement : List Char}
    (rest : List Char) :
    replace (first :: pattern) replacement (first :: pattern ++ rest) =
      replacement ++ replace (first :: pattern) replacement rest := by
  have isMatch :
      (first :: pattern).isPrefixOf (first :: (pattern ++ rest)) = true :=
    List.isPrefixOf_iff_prefix.mpr (List.prefix_append (first :: pattern) rest)
  rw [List.cons_append, replace, replaceFrom, if_pos isMatch, replaceFrom_skip,
    List.length_cons, Nat.add_sub_cancel, List.drop_left]

end RustText

namespace ConnectionNames

/-- How `nmcli -t` prints a character of a name. -/
def escapeChar (char : Char) : List Char :=
  if char = '\\' then ['\\', '\\']
  else if char = ':' then ['\\', ':']
  else [char]

/-- How `nmcli -t` prints a name. -/
def escape (name : List Char) : List Char :=
  name.flatMap escapeChar

/-- What `nmcli` prints for the active connections: a line for each name. -/
def listing (names : List (List Char)) : List Char :=
  names.flatMap fun name => escape name ++ ['\n']

/-- The two replacements that read a name. -/
def unescape (line : List Char) : List Char :=
  replace ['\\', '\\'] ['\\'] (replace ['\\', ':'] [':'] line)

/-- `active_connections`, from what `nmcli` printed. -/
def activeConnections (output : List Char) : List String :=
  (((lines output).map unescape).filter (· ≠ [])).map String.ofList

example : activeConnections "a\\\\\\:b\nWired\n".toList =
    ["a\\:b", "Wired"] := by
  decide

/-- A name between the replacements: only its backslashes are doubled. -/
def doubledChar (char : Char) : List Char :=
  if char = '\\' then ['\\', '\\'] else [char]

/-- Before a colon there is always a backslash. -/
theorem escape_head_ne (name : List Char) :
    (escape name).head? ≠ some ':' := by
  cases name with
  | nil =>
      simp [escape]
  | cons char rest =>
      rw [escape, List.flatMap_cons, escapeChar]
      split_ifs <;> simp_all

/--
The first replacement takes the backslash from every colon and from nothing
else: the second of two backslashes is followed by a colon only when that
colon's own backslash is missing.
-/
theorem replace_colons (name : List Char) :
    replace ['\\', ':'] [':'] (escape name) = name.flatMap doubledChar := by
  induction name with
  | nil =>
      rfl
  | cons char rest inductionHypothesis =>
      have shape : escape (char :: rest) = escapeChar char ++ escape rest :=
        List.flatMap_cons
      rw [shape, List.flatMap_cons, ← inductionHypothesis, escapeChar, doubledChar]
      split_ifs with backslash colon
      · have secondKept : ¬ ['\\', ':'] <+: '\\' :: escape rest := by
          rintro ⟨tail, starts⟩
          have headed : (escape rest).head? = some ':' := by
            rw [← (List.cons.inj starts).2]
            rfl
          exact escape_head_ne rest headed
        have firstKept : ¬ ['\\', ':'] <+: '\\' :: '\\' :: escape rest := by
          simp
        simp only [List.cons_append, List.nil_append]
        rw [replace_cons firstKept, replace_cons secondKept]
      · rw [colon]
        exact replace_match (escape rest)
      · have kept : ¬ ['\\', ':'] <+: char :: escape rest := by
          simp [Ne.symm backslash]
        exact replace_cons kept

/-- The second replacement halves every run of backslashes. -/
theorem replace_doubled (name : List Char) :
    replace ['\\', '\\'] ['\\'] (name.flatMap doubledChar) = name := by
  induction name with
  | nil =>
      rfl
  | cons char rest inductionHypothesis =>
      rw [List.flatMap_cons, doubledChar]
      split_ifs with backslash
      · rw [backslash]
        refine (replace_match (rest.flatMap doubledChar)).trans ?_
        rw [inductionHypothesis, List.singleton_append]
      · have kept : ¬ ['\\', '\\'] <+: char :: rest.flatMap doubledChar := by
          simp [Ne.symm backslash]
        refine (replace_cons kept).trans ?_
        rw [inductionHypothesis]

/-- The two replacements undo the escapes of every name. -/
theorem unescape_escape (name : List Char) :
    unescape (escape name) = name := by
  rw [unescape, replace_colons, replace_doubled]

/-- An escaped name ends its line where the name does. -/
theorem mem_escape
    {char : Char}
    {name : List Char}
    (notBackslash : char ≠ '\\') :
    char ∈ escape name ↔ char ∈ name := by
  rw [escape, List.mem_flatMap]
  constructor
  · rintro ⟨own, present, printed⟩
    rw [escapeChar] at printed
    split_ifs at printed <;> simp_all
  · intro present
    refine ⟨char, present, ?_⟩
    rw [escapeChar]
    split_ifs <;> simp_all

theorem getLast?_escape (name : List Char) :
    (escape name).getLast? = name.getLast? := by
  rcases List.eq_nil_or_concat' name with rfl | ⟨front, last, rfl⟩
  · rfl
  · rw [escape, List.flatMap_append, List.flatMap_singleton, escapeChar]
    split_ifs with backslash colon <;> simp_all

/-- A name that takes one line. -/
def OneLine (name : List Char) : Prop :=
  '\n' ∉ name ∧ name.getLast? ≠ some '\r'

instance (name : List Char) : Decidable (OneLine name) :=
  inferInstanceAs (Decidable (_ ∧ _))

/-- The lines of the listing are the escaped names. -/
theorem lines_listing
    {names : List (List Char)}
    (oneLine : ∀ name ∈ names, OneLine name) :
    lines (listing names) = names.map escape := by
  have ended :
      listing names = (names.map escape).flatMap (· ++ ['\n']) := by
    rw [listing, List.flatMap_map]
  rw [ended, lines_flatMap]
  intro line member
  obtain ⟨name, isName, rfl⟩ := List.mem_map.mp member
  rw [mem_escape (by decide), getLast?_escape]
  exact oneLine name isName

/-- The names are read as they are. -/
theorem activeConnections_listing
    {names : List (List Char)}
    (oneLine : ∀ name ∈ names, OneLine name) :
    activeConnections (listing names) =
      (names.filter (· ≠ [])).map String.ofList := by
  have read : (names.map escape).map unescape = names := by
    rw [List.map_map]
    exact (List.map_congr_left fun name _ => unescape_escape name).trans
      (List.map_id names)
  rw [activeConnections, lines_listing oneLine, read]

end ConnectionNames

/-- A profile lists one of the active connections. -/
def Profile.listsActive (active : List String) (profile : Profile) : Bool :=
  profile.networks.any fun network => active.any fun name => name == network

/-- `profile_for`: the first profile, by name, that lists an active one. -/
def Config.profileFor (cfg : Config) (active : List String) : Option String :=
  (cfg.profiles.find? fun entry => entry.2.listsActive active).map Prod.fst

namespace ConnectionNames

theorem listsActive_iff
    {active : List String}
    {profile : Profile} :
    profile.listsActive active = true ↔
      ∃ network ∈ profile.networks, network ∈ active := by
  simp [Profile.listsActive]

/-- The profile chosen is the first that lists an active connection. -/
theorem profileFor_iff
    {cfg : Config}
    {active : List String}
    {chosen : String} :
    cfg.profileFor active = some chosen ↔
      ∃ before after profile,
        cfg.profiles = before ++ (chosen, profile) :: after ∧
        profile.listsActive active = true ∧
        ∀ entry ∈ before, entry.2.listsActive active = false := by
  rw [Config.profileFor, Option.map_eq_some_iff]
  constructor
  · rintro ⟨⟨name, profile⟩, found, rfl⟩
    obtain ⟨lists, before, after, shape, none⟩ :=
      List.find?_eq_some_iff_append.mp found
    refine ⟨before, after, profile, shape, lists, fun entry earlier => ?_⟩
    simpa using none entry earlier
  · rintro ⟨before, after, profile, shape, lists, none⟩
    refine ⟨(chosen, profile), ?_, rfl⟩
    refine List.find?_eq_some_iff_append.mpr
      ⟨lists, before, after, shape, fun entry earlier => ?_⟩
    simpa using none entry earlier

/-- What is read from the listing, as membership. -/
theorem mem_activeConnections
    {names : List (List Char)}
    {network : String}
    (oneLine : ∀ name ∈ names, OneLine name) :
    network ∈ activeConnections (listing names) ↔
      network ≠ "" ∧ network.toList ∈ names := by
  rw [activeConnections_listing oneLine, List.mem_map]
  constructor
  · rintro ⟨name, present, rfl⟩
    obtain ⟨listed, notEmpty⟩ := List.mem_filter.mp present
    rw [String.toList_ofList]
    refine ⟨fun isEmpty => ?_, listed⟩
    have noChars : name = [] := by
      simpa using congrArg String.toList isEmpty
    simp [noChars] at notEmpty
  · rintro ⟨notEmpty, listed⟩
    refine ⟨network.toList, List.mem_filter.mpr ⟨listed, ?_⟩,
      String.ofList_toList⟩
    simpa using notEmpty

/-- A profile lists a connection of `names`. -/
def Lists (names : List (List Char)) (profile : Profile) : Prop :=
  ∃ network ∈ profile.networks, network ≠ "" ∧ network.toList ∈ names

/--
Reading what `nmcli` printed gives every name back, whatever characters it
has, and a profile applies exactly when it is the first to list one of them.
-/
theorem names_read_back
    (cfg : Config)
    (names : List (List Char))
    (oneLine : ∀ name ∈ names, OneLine name) :
    (∀ name : List Char, unescape (escape name) = name) ∧
      activeConnections (listing names) =
        (names.filter (· ≠ [])).map String.ofList ∧
      ∀ chosen : String,
        cfg.profileFor (activeConnections (listing names)) = some chosen ↔
          ∃ before after profile,
            cfg.profiles = before ++ (chosen, profile) :: after ∧
            Lists names profile ∧
            ∀ entry ∈ before, ¬ Lists names entry.2 := by
  have lists (profile : Profile) :
      profile.listsActive (activeConnections (listing names)) = true ↔
        Lists names profile := by
    rw [listsActive_iff, Lists]
    simp only [mem_activeConnections oneLine]
  refine ⟨unescape_escape, activeConnections_listing oneLine, fun chosen => ?_⟩
  rw [profileFor_iff]
  simp only [lists, ← Bool.not_eq_true]

/-- A name of nothing but backslashes and colons, and its profile. -/
theorem odd_name_read_back :
    (∀ name ∈ [['\\', ':', '\\', '\\', ':']], OneLine name) ∧
      Config.profileFor
          { Config.default with
            profiles := [("odd",
              { networks := ["\\:\\\\:"]
                allowTcp := none
                allowUdp := none
                allowPing := none
                rules := none })] }
          (activeConnections (listing [['\\', ':', '\\', '\\', ':']])) =
        some "odd" := by
  have oneLine : ∀ name ∈ [['\\', ':', '\\', '\\', ':']], OneLine name := by
    decide
  refine ⟨oneLine, ?_⟩
  refine ((names_read_back _ _ oneLine).2.2 "odd").mpr
    ⟨[], [], _, rfl, ?_, List.forall_mem_nil _⟩
  exact ⟨_, List.mem_singleton_self _, by decide, by decide⟩

end ConnectionNames

end AiFirewall
