import AiFirewall.AddressText

namespace AiFirewall

/-!
# The assistant

A model on this machine answers questions about the firewall, and may propose
actions in lines of its own.  Proposals are read here: only what is on a
fixed list becomes an action.
-/

open RustText

namespace Doctor

/-- `FIXES`: the repairs, each with its summary. -/
def fixes : List (String × String) :=
  [("start-firewall", "restart the ai-firewall service"),
    ("disable-ufw",
      "turn ufw off and disable it (ai-firewall replaces it)"),
    ("disable-firewalld", "turn firewalld off and disable it"),
    ("enable-forwarding",
      "turn on IPv4 forwarding now and at boot (VMs and containers need it)"),
    ("allow-vm-forwarding",
      "let VM bridges through the FORWARD drop policy (out: all, in: replies only)"),
    ("restart-libvirt-network",
      "restart libvirt's networking so it re-adds its NAT rules"),
    ("restart-resolved", "restart systemd-resolved (DNS)"),
    ("unban-protected",
      "lift bans on your router, DNS servers, own addresses and VM networks")]

def fixSummary (id : String) : Option String :=
  (fixes.find? fun fix => fix.1 = id).map Prod.snd

end Doctor

/-- `selftest::TESTS`, by name. -/
def selftests : List String :=
  ["health", "ports", "detector", "traffic", "services"]

/-- Something the assistant may propose. -/
inductive Action where
  | fix (id : String)
  | openPort (proto : String) (port : U16)
  | closePort (proto : String) (port : U16)
  | unban (source : Src)
  /-- A live test: it only reads, so it runs without a y / n. -/
  | test (name : String)
  deriving Repr, DecidableEq

namespace Action

/-- `describe`: the text of the action's row. -/
def describe (ipv6 : Ipv6Text) : Action → String
  | fix id => (Doctor.fixSummary id).getD id
  | openPort proto port =>
      "open " ++ proto ++ " port " ++ Nat.repr port.toNat ++ " to everyone"
  | closePort proto port =>
      "close " ++ proto ++ " port " ++ Nat.repr port.toNat
  | unban source =>
      "lift the ban on " ++ String.ofList (source.display ipv6)
  | test name => "run the " ++ name ++ " test"

/-- The protocol a word names, in any case. -/
def proto? (word : List Char) : Option String :=
  let lowered := String.ofList (word.map Char.toLower)
  if lowered = "tcp" then some "tcp"
  else if lowered = "udp" then some "udp"
  else none

/-- `parse`: a command of the fixed list, or nothing. -/
def parse (ipv6 : Ipv6Text) (text : List Char) : Option Action :=
  match (splitWhitespace text).map String.ofList with
  | ["fix", id] =>
      (Doctor.fixes.find? fun known => known.1 = id).map fun known =>
        fix known.1
  | ["open", word, number] => do
      let proto ← proto? word.toList
      let port ← (parseUnsigned 16 number.toList).toOption
      if 0 < port then some (openPort proto port) else none
  | ["close", word, number] => do
      let proto ← proto? word.toList
      let port ← (parseUnsigned 16 number.toList).toOption
      some (closePort proto port)
  | ["unban", ip] => (Src.fromStr ipv6 ip.toList).toOption.map unban
  | ["test", "all"] => some (test "all")
  | ["test", name] => (selftests.find? (· = name)).map test
  | _ => none

/-- What the fixed list holds. -/
def Listed : Action → Prop
  | fix id => id ∈ Doctor.fixes.map Prod.fst
  | openPort proto port => (proto = "tcp" ∨ proto = "udp") ∧ 0 < port
  | closePort proto _ => proto = "tcp" ∨ proto = "udp"
  | unban _ => True
  | test name => name = "all" ∨ name ∈ selftests

theorem proto?_listed
    {word : List Char}
    {proto : String}
    (read : proto? word = some proto) :
    proto = "tcp" ∨ proto = "udp" := by
  unfold proto? at read
  grind

/-- What is read from a reply is on the fixed list. -/
theorem listed_of_parse
    {ipv6 : Ipv6Text}
    {text : List Char}
    {action : Action}
    (read : parse ipv6 text = some action) :
    action.Listed := by
  unfold parse at read
  split at read
  · rename_i id _
    obtain ⟨known, found, rfl⟩ := Option.map_eq_some_iff.mp read
    exact List.mem_map_of_mem (List.mem_of_find?_eq_some found)
  · obtain ⟨proto, isProto, remaining⟩ := Option.bind_eq_some_iff.mp read
    obtain ⟨port, _, chosen⟩ := Option.bind_eq_some_iff.mp remaining
    split at chosen
    · rename_i positive
      obtain rfl := Option.some.inj chosen
      exact ⟨proto?_listed isProto, positive⟩
    · cases chosen
  · obtain ⟨proto, isProto, remaining⟩ := Option.bind_eq_some_iff.mp read
    obtain ⟨port, _, chosen⟩ := Option.bind_eq_some_iff.mp remaining
    obtain rfl := Option.some.inj chosen
    exact proto?_listed isProto
  · obtain ⟨source, _, rfl⟩ := Option.map_eq_some_iff.mp read
    exact trivial
  · obtain rfl := Option.some.inj read
    exact Or.inl rfl
  · obtain ⟨name, found, rfl⟩ := Option.map_eq_some_iff.mp read
    exact Or.inr (List.mem_of_find?_eq_some found)
  · cases read

end Action

namespace Assistant

/-- The marks a model may put around a line: a star, a backquote, a dash. -/
def decoration (char : Char) : Bool :=
  char = '*' || char = Char.ofNat 96 || char = '-'

/-- A line without the marks around it. -/
def undecorated (line : List Char) : List Char :=
  trim (trimMatches decoration (trim line))

/-- The action a line of a reply proposes. -/
def proposal (ipv6 : Ipv6Text) (line : List Char) : Option Action := do
  let line := undecorated line
  let rest ← (line.dropPrefix? "ACTION:".toList).or
    (line.dropPrefix? "Action:".toList)
  Action.parse ipv6 (trimMatches (· = Char.ofNat 96) (trim rest))

/-- `parse_actions`: what a reply proposes, each action once. -/
def parseActions (ipv6 : Ipv6Text) (reply : List Char) : List Action :=
  (lines reply).foldl
    (fun out line =>
      match proposal ipv6 line with
      | some action => if action ∈ out then out else out ++ [action]
      | none => out)
    []

/-- `strip_actions`: the reply without the lines shown as rows instead. -/
def stripActions (reply : List Char) : List Char :=
  let shown := (lines reply).filter fun line =>
    ! "ACTION:".toList.isPrefixOf ((undecorated line).map Char.toUpper)
  trim (['\n'].intercalate shown)

/-- Each line adds its proposal, unless it was there. -/
theorem mem_fold
    {ipv6 : Ipv6Text}
    (action : Action)
    (texts : List (List Char))
    (out : List Action) :
    action ∈ texts.foldl
        (fun out line =>
          match proposal ipv6 line with
          | some action => if action ∈ out then out else out ++ [action]
          | none => out)
        out ↔
      action ∈ out ∨ ∃ line ∈ texts, proposal ipv6 line = some action := by
  induction texts generalizing out with
  | nil =>
      simp
  | cons line rest inductionHypothesis =>
      rw [List.foldl_cons, inductionHypothesis]
      cases proposed : proposal ipv6 line with
      | none =>
          simp [proposed]
      | some other =>
          by_cases known : other ∈ out
          · simp only [if_pos known, List.exists_mem_cons_iff, proposed,
              Option.some.injEq]
            constructor
            · exact fun member => member.imp_right Or.inr
            · rintro (member | rfl | later)
              · exact Or.inl member
              · exact Or.inl known
              · exact Or.inr later
          · simp [if_neg known, proposed, or_assoc, eq_comm]

/-- The actions of a reply are the proposals of its lines. -/
theorem mem_parseActions
    {ipv6 : Ipv6Text}
    {reply : List Char}
    {action : Action} :
    action ∈ parseActions ipv6 reply ↔
      ∃ line ∈ lines reply, proposal ipv6 line = some action := by
  simp [parseActions, mem_fold]

/-- Whatever a reply says, only listed actions come out of it. -/
theorem listed_of_mem_parseActions
    {ipv6 : Ipv6Text}
    {reply : List Char}
    {action : Action}
    (member : action ∈ parseActions ipv6 reply) :
    action.Listed := by
  obtain ⟨line, _, proposed⟩ := mem_parseActions.mp member
  obtain ⟨rest, _, read⟩ := Option.bind_eq_some_iff.mp proposed
  exact Action.listed_of_parse read

end Assistant

end AiFirewall
