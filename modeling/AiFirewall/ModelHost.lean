import AiFirewall.TrimmedText

namespace AiFirewall

/-!
# The model server

The assistant only talks to a model on this machine.  `local_host` checks the
host of a URL and gives the `host:port` to connect to; `connect` hands that
to the standard library, which splits it at the last colon and reads what
follows as a port.
-/

open RustText

namespace RustText

/-- `str::rsplit_once` at the last separator. -/
def rsplitOnce
    (separator : Char)
    (text : List Char) :
    Option (List Char × List Char) :=
  (splitOnce separator text.reverse).map fun (after, before) =>
    (before.reverse, after.reverse)

theorem rsplitOnce_eq_some
    {separator : Char}
    {text before after : List Char} :
    rsplitOnce separator text = some (before, after) ↔
      text = before ++ separator :: after ∧ separator ∉ after := by
  rw [rsplitOnce, Option.map_eq_some_iff]
  constructor
  · rintro ⟨⟨back, front⟩, split, isBoth⟩
    obtain ⟨rfl, rfl⟩ := Prod.mk.inj isBoth
    obtain ⟨isText, absent⟩ := splitOnce_eq_some.mp split
    refine ⟨?_, fun present => absent (List.mem_reverse.mp present)⟩
    simpa using congrArg List.reverse isText
  · rintro ⟨rfl, absent⟩
    refine ⟨(after.reverse, before.reverse), splitOnce_eq_some.mpr ⟨?_, ?_⟩, ?_⟩
    · simp
    · exact fun present => absent (List.mem_reverse.mp present)
    · simp

end RustText

namespace ModelHost

def http : List Char := "http://".toList

/-- The names that are taken for this machine. -/
def localNames : List (List Char) :=
  ["localhost".toList, "127.0.0.1".toList, "::1".toList]

def bracket (char : Char) : Bool :=
  char = '[' || char = ']'

/-- What stands before the last colon, or everything without one. -/
def namePart (host : List Char) : List Char :=
  ((rsplitOnce ':' host).map Prod.fst).getD host

/-- The name is one of this machine, brackets aside. -/
def IsLocal (host : List Char) : Prop :=
  trimMatches bracket (namePart host) ∈ localNames

instance (host : List Char) : Decidable (IsLocal host) :=
  inferInstanceAs (Decidable (_ ∈ _))

/-- The port is added where none is given. -/
def withPort (host : List Char) : List Char :=
  if ':' ∈ host ∧ host.getLast? ≠ some ']' then
    host
  else
    host ++ ":11434".toList

/-- The part of a URL up to the first slash. -/
def authority (rest : List Char) : List Char :=
  rest.takeWhile (· ≠ '/')

/-- `local_host`: the `host:port` of a model on this machine. -/
def localHost (url : List Char) : Except String (List Char) :=
  match url.dropPrefix? http with
  | none => .error "only plain http:// to a local model is supported"
  | some rest =>
      let host := authority rest
      if IsLocal host then
        .ok (withPort host)
      else
        .error (String.ofList url ++
          " is not on this machine; the assistant only uses local models")

/-- What `connect` reads from `host:port`: the last colon, then a `u16`. -/
def target (host : List Char) : Option (List Char × U16) :=
  (rsplitOnce ':' host).bind fun (name, port) =>
    (parseUnsigned 16 port).toOption.map fun port => (name, port)

/-- The hosts of this machine, as they are written in a URL. -/
def loopback : List (List Char) :=
  ["localhost".toList, "127.0.0.1".toList, "[::1]".toList]

/-- A port in decimal digits. -/
def DecimalPort (text : List Char) (port : U16) : Prop :=
  (∀ char ∈ text, char.isDigit = true) ∧ parseUnsigned 16 text = .ok port

/-- A host of this machine, with a port or without one. -/
def Names (host name : List Char) : Option U16 → Prop
  | none => name ∈ loopback ∧ host = name
  | some port =>
      name ∈ loopback ∧
        ∃ text, DecimalPort text port ∧ host = name ++ ':' :: text

/-- Nothing, or a slash and any path. -/
def IsPath (text : List Char) : Prop :=
  text = [] ∨ ∃ path, text = '/' :: path

/-- A URL of a model on this machine. -/
def Spells (url name : List Char) (port : Option U16) : Prop :=
  ∃ host path, url = http ++ host ++ path ∧ Names host name port ∧ IsPath path

/--
What the check is for: it accepts the URLs of this machine and no others, and
the connection then goes to the host named, at the port given or 11434.
-/
def Sound (url : List Char) : Prop :=
  ((∃ host, localHost url = .ok host) ↔ ∃ name port, Spells url name port) ∧
    ∀ host name port, localHost url = .ok host → Spells url name port →
      target host = some (name, port.getD 11434)

/--
The hosts on which the check goes wrong: the IPv6 loopback without a port,
whose own last colon is taken for the port's; a name in other brackets than
those of `[::1]`; and a name whose port is none.
-/
inductive Misread (host : List Char) : Prop where
  | noPort : host = "[::1]".toList → Misread host
  | brackets : IsLocal host → namePart host ∉ loopback → Misread host
  | badPort (text : List Char) :
      IsLocal host →
      rsplitOnce ':' host = some (namePart host, text) →
      (∀ port, ¬ DecimalPort text port) →
      Misread host

/-- A port is not empty, and ends neither in a bracket nor with a colon. -/
theorem DecimalPort.plain
    {text : List Char}
    {port : U16}
    (isPort : DecimalPort text port) :
    text ≠ [] ∧ ∀ char ∈ text, char ≠ ':' ∧ char ≠ ']' ∧ char ≠ '/' := by
  refine ⟨(digit_or_plus_of_parseUnsigned isPort.2).1, fun char member => ?_⟩
  have digit := isPort.1 char member
  refine ⟨?_, ?_, ?_⟩ <;>
    · rintro rfl
      revert digit
      decide

/-- The last colon of a host with a port is the one before the port. -/
theorem rsplitOnce_port
    {name text : List Char}
    {port : U16}
    (isPort : DecimalPort text port) :
    rsplitOnce ':' (name ++ ':' :: text) = some (name, text) :=
  rsplitOnce_eq_some.mpr
    ⟨rfl, fun present => (isPort.plain.2 ':' present).1 rfl⟩

theorem namePart_of_split
    {host name text : List Char}
    (split : rsplitOnce ':' host = some (name, text)) :
    namePart host = name := by
  rw [namePart, split]
  rfl

theorem namePart_of_none
    {host : List Char}
    (whole : rsplitOnce ':' host = none) :
    namePart host = host := by
  rw [namePart, whole]
  rfl

/-- Without a port, the names are read back except for the IPv6 loopback. -/
theorem plain_name :
    ∀ name ∈ loopback, name ≠ "[::1]".toList →
      IsLocal name ∧ namePart name = name ∧
        rsplitOnce ':' name = none ∧
        target (withPort name) = some (name, 11434) := by
  decide +kernel

theorem trimmed_name :
    ∀ name ∈ loopback, trimMatches bracket name ∈ localNames := by
  decide

theorem slash_notMem_name :
    ∀ name ∈ loopback, '/' ∉ name := by
  decide

/-- With a port, every name is read back, and the connection goes there. -/
theorem name_with_port
    {name text : List Char}
    {port : U16}
    (isName : name ∈ loopback)
    (isPort : DecimalPort text port) :
    IsLocal (name ++ ':' :: text) ∧
      target (withPort (name ++ ':' :: text)) = some (name, port) := by
  have split : rsplitOnce ':' (name ++ ':' :: text) = some (name, text) :=
    rsplitOnce_port isPort
  constructor
  · rw [IsLocal, namePart_of_split split]
    exact trimmed_name name isName
  · obtain ⟨last, isLast⟩ : ∃ last, text.getLast? = some last :=
      Option.isSome_iff_exists.mp (List.getLast?_isSome.mpr isPort.plain.1)
    have notBracket : last ≠ ']' :=
      (isPort.plain.2 last (List.mem_of_getLast? isLast)).2.1
    have ends : (name ++ ':' :: text).getLast? = some last := by
      rw [List.getLast?_append, List.getLast?_cons, isLast]
      rfl
    have kept : withPort (name ++ ':' :: text) = name ++ ':' :: text := by
      rw [withPort, if_pos]
      refine ⟨by simp, ?_⟩
      rw [ends]
      simpa using notBracket
    rw [kept, target, split]
    simp only [Option.bind_some, isPort.2, Except.toOption, Option.map_some]

/-- What the check is for, on the part of the URL it reads. -/
def SoundHost (host : List Char) : Prop :=
  (IsLocal host ↔ ∃ name port, Names host name port) ∧
    ∀ name port, IsLocal host → Names host name port →
      target (withPort host) = some (name, port.getD 11434)

theorem soundHost_of_not_misread
    {host : List Char}
    (fine : ¬ Misread host) :
    SoundHost host := by
  have named {name : List Char} {port : Option U16}
      (names : Names host name port) :
      IsLocal host ∧ target (withPort host) = some (name, port.getD 11434) := by
    cases port with
    | none =>
        obtain ⟨isName, rfl⟩ := names
        obtain ⟨isLocal, _, _, reads⟩ := plain_name host isName fun isSix =>
          fine (.noPort isSix)
        exact ⟨isLocal, reads⟩
    | some port =>
        obtain ⟨isName, text, isPort, rfl⟩ := names
        exact name_with_port isName isPort
  refine ⟨⟨fun isLocal => ?_, fun ⟨_, _, names⟩ => (named names).1⟩,
    fun _ _ _ names => (named names).2⟩
  have isName : namePart host ∈ loopback := by
    by_contra other
    exact fine (.brackets isLocal other)
  cases split : rsplitOnce ':' host with
  | none =>
      rw [namePart_of_none split] at isName
      exact ⟨host, none, isName, rfl⟩
  | some parts =>
      obtain ⟨name, text⟩ := parts
      have isPart := namePart_of_split split
      have hasPort : ∃ port, DecimalPort text port := by
        by_contra noPort
        rw [← isPart] at split
        exact fine (.badPort text isLocal split (not_exists.mp noPort))
      obtain ⟨port, isPort⟩ := hasPort
      rw [isPart] at isName
      exact ⟨name, some port, isName, text, isPort,
        (rsplitOnce_eq_some.mp split).1⟩

theorem not_misread_of_soundHost
    {host : List Char}
    (sound : SoundHost host) :
    ¬ Misread host := by
  have isSix : ¬ IsLocal "[::1]".toList := by
    decide
  intro misread
  cases misread with
  | noPort isHost =>
      subst isHost
      refine isSix (sound.1.mpr ⟨"[::1]".toList, none, ?_, rfl⟩)
      decide
  | brackets isLocal other =>
      obtain ⟨name, port, names⟩ := sound.1.mp isLocal
      cases port with
      | none =>
          obtain ⟨isName, rfl⟩ := names
          have notSix : host ≠ "[::1]".toList := by
            rintro rfl
            exact isSix isLocal
          rw [(plain_name host isName notSix).2.1] at other
          exact other isName
      | some port =>
          obtain ⟨isName, text, isPort, rfl⟩ := names
          rw [namePart_of_split (rsplitOnce_port isPort)] at other
          exact other isName
  | badPort text isLocal split noPort =>
      obtain ⟨name, port, names⟩ := sound.1.mp isLocal
      cases port with
      | none =>
          obtain ⟨isName, rfl⟩ := names
          have notSix : host ≠ "[::1]".toList := by
            rintro rfl
            exact isSix isLocal
          rw [(plain_name host isName notSix).2.2.1] at split
          cases split
      | some port =>
          obtain ⟨isName, digits, isPort, rfl⟩ := names
          rw [rsplitOnce_port isPort] at split
          obtain ⟨_, rfl⟩ := Prod.mk.inj (Option.some.inj split)
          exact noPort port isPort

/-- A host named on this machine has no slash. -/
theorem Names.slash_notMem
    {host name : List Char}
    {port : Option U16}
    (names : Names host name port) :
    '/' ∉ host := by
  cases port with
  | none =>
      obtain ⟨isName, rfl⟩ := names
      exact slash_notMem_name host isName
  | some port =>
      obtain ⟨isName, text, isPort, rfl⟩ := names
      rw [List.mem_append, List.mem_cons, not_or, not_or]
      refine ⟨slash_notMem_name name isName, by decide, fun present => ?_⟩
      exact (isPort.plain.2 '/' present).2.2 rfl

/-- What a URL spells is what its host names. -/
theorem spells_iff
    {rest name : List Char}
    {port : Option U16} :
    Spells (http ++ rest) name port ↔ Names (authority rest) name port := by
  constructor
  · rintro ⟨host, path, isUrl, names, isPath⟩
    rw [List.append_assoc, List.append_cancel_left_eq] at isUrl
    have noSlash : ∀ char ∈ host, char ≠ '/' := by
      rintro char member rfl
      exact names.slash_notMem member
    have isHost : authority rest = host := by
      rw [isUrl, authority, List.takeWhile_append_of_pos (by simpa using noSlash)]
      rcases isPath with rfl | ⟨path, rfl⟩ <;> simp
    rwa [isHost]
  · intro names
    refine ⟨authority rest, rest.dropWhile (· ≠ '/'), ?_, names, ?_⟩
    · rw [List.append_assoc, authority, List.takeWhile_append_dropWhile]
    · cases tail : rest.dropWhile (· ≠ '/') with
      | nil => exact .inl rfl
      | cons first path =>
          have notSkipped := List.head?_dropWhile_not (· ≠ '/') rest
          rw [tail] at notSkipped
          have isSlash : first = '/' := by
            simpa using notSkipped
          exact .inr ⟨path, by rw [isSlash]⟩

/-- The check on a URL with the prefix looks at its host alone. -/
theorem localHost_http (rest : List Char) :
    localHost (http ++ rest) =
      if IsLocal (authority rest) then
        .ok (withPort (authority rest))
      else
        .error (String.ofList (http ++ rest) ++
          " is not on this machine; the assistant only uses local models") := by
  have stripped : (http ++ rest).dropPrefix? http = some rest :=
    List.dropPrefix?_append_of_beq rest (beq_self_eq_true http)
  rw [localHost, stripped]

theorem localHost_ok_iff
    {rest host : List Char} :
    localHost (http ++ rest) = .ok host ↔
      IsLocal (authority rest) ∧ host = withPort (authority rest) := by
  rw [localHost_http]
  split_ifs with isLocal
  · simp [isLocal, eq_comm]
  · simp [isLocal]

theorem sound_http_iff (rest : List Char) :
    Sound (http ++ rest) ↔ SoundHost (authority rest) := by
  simp only [Sound, SoundHost, localHost_ok_iff, spells_iff, exists_and_left,
    exists_eq, and_true, and_imp]
  constructor
  · rintro ⟨accepted, goes⟩
    exact ⟨accepted, fun name port isLocal =>
      goes _ name port isLocal rfl⟩
  · rintro ⟨accepted, goes⟩
    refine ⟨accepted, ?_⟩
    rintro host name port isLocal rfl
    exact goes name port isLocal

/-- Without the prefix a URL is refused, and spells no host. -/
theorem sound_without_http
    {url : List Char}
    (other : ∀ rest, url ≠ http ++ rest) :
    Sound url := by
  have refused : localHost url =
      .error "only plain http:// to a local model is supported" := by
    rw [localHost]
    cases stripped : url.dropPrefix? http with
    | none => rfl
    | some rest =>
        obtain ⟨start, isUrl, isStart⟩ := List.dropPrefix?_eq_some_iff.mp stripped
        rw [eq_of_beq isStart] at isUrl
        exact absurd isUrl (other rest)
  refine ⟨iff_of_false ?_ ?_, fun host _ _ accepted => ?_⟩
  · rintro ⟨host, accepted⟩
    rw [refused] at accepted
    cases accepted
  · rintro ⟨name, port, host, path, isUrl, _⟩
    rw [List.append_assoc] at isUrl
    exact other _ isUrl
  · rw [refused] at accepted
    cases accepted

/--
The check accepts exactly the URLs of this machine, and the connection goes
where the URL says, if and only if the host is not one of those misread.
-/
theorem local_host_sound_iff (url : List Char) :
    Sound url ↔ ∀ rest, url = http ++ rest → ¬ Misread (authority rest) := by
  by_cases hasPrefix : ∃ rest, url = http ++ rest
  · obtain ⟨rest, rfl⟩ := hasPrefix
    rw [sound_http_iff]
    constructor
    · intro sound other same
      rw [← List.append_cancel_left same]
      exact not_misread_of_soundHost sound
    · intro fine
      exact soundHost_of_not_misread (fine rest rfl)
  · rw [not_exists] at hasPrefix
    exact iff_of_true (sound_without_http hasPrefix) fun rest same =>
      absurd same (hasPrefix rest)

/-- The IPv6 loopback without a port is refused. -/
theorem ipv6_loopback_refused :
    ¬ Sound "http://[::1]".toList := by
  intro sound
  have spelled : Spells "http://[::1]".toList "[::1]".toList none :=
    ⟨"[::1]".toList, [], by decide, ⟨by decide, rfl⟩, .inl rfl⟩
  obtain ⟨host, accepted⟩ := sound.1.mpr ⟨_, _, spelled⟩
  have refused : (localHost "http://[::1]".toList).toOption = none := by
    decide +kernel
  rw [accepted] at refused
  cases refused

example : (localHost "http://localhost:8080/api".toList).toOption =
    some "localhost:8080".toList := by
  decide +kernel

end ModelHost

end AiFirewall
