import AiFirewall.ConfigCheck
import AiFirewall.Runs

namespace AiFirewall

/-!
# Editing ports in the configuration file

`ai-firewall open` and `close` edit the file in place: a command reads it,
edits the text, writes a temporary file and renames that over it.  All
commands use one temporary name.  Each of these steps, and the opening of the
temporary file, is a step of its own here, so that commands can interleave.
-/

open RustText

/-- A value in a TOML array, as far as `set_port` tells values apart. -/
inductive TomlValue where
  | integer (value : Int)
  | text (value : String)
  | other
  deriving Repr, DecidableEq

/-- What a key of the document holds. -/
inductive TomlItem where
  | absent
  | array (values : List TomlValue)
  | other
  deriving Repr, DecidableEq

/-- The document editor, which keeps comments and layout. -/
structure TomlEdit (Doc : Type) where
  parse : String → Except Error Doc
  render : Doc → String
  item : Doc → String → TomlItem
  /-- `doc[key] = value(Array::new())`. -/
  insertArray : Doc → String → Doc
  /-- `push` and `remove` on the array under a key. -/
  push : Doc → String → TomlValue → Doc
  remove : Doc → String → Nat → Doc

/-- What a command is asked for. -/
structure PortEdit where
  proto : String
  port : PortSpec
  opens : Bool
  deriving Repr, DecidableEq

namespace PortEdit

/-- The list that a protocol's ports are in. -/
def key (edit : PortEdit) : Except Error String :=
  if edit.proto = "tcp" then .ok "allow_tcp"
  else if edit.proto = "udp" then .ok "allow_udp"
  else Error.bail "protocol must be tcp or udp"

/-- A value of the list is the port. -/
def isAt (edit : PortEdit) (value : TomlValue) : Bool :=
  match edit.port, value with
  | .one port, .integer found => found = port.toNat
  | .text raw, .text found => trim found.toList = trim raw.toList
  | _, _ => false

/-- The value to push. -/
def value (edit : PortEdit) : TomlValue :=
  match edit.port with
  | .one port => .integer port.toNat
  | .text raw => .text (String.ofList (trim raw.toList))

end PortEdit

/-- The text functions that `set_port` is given. -/
structure ConfigEditor (Doc : Type) where
  toml : TomlEdit Doc
  fromToml : String → Except Error Config

namespace ConfigEditor

variable {Doc : Type}

/-- The new text, once it has passed the check of a configuration. -/
def checked (editor : ConfigEditor Doc) (doc : Doc) :
    Except Error (Option String) := do
  let new := editor.toml.render doc
  let _ ← Config.parse editor.fromToml new
  return some new

/--
`set_port`, from the text that was read to the text to write; none when
nothing changes.
-/
def setPort
    (editor : ConfigEditor Doc)
    (edit : PortEdit)
    (text : String) : Except Error (Option String) := do
  let _ ← edit.port.ports
  let key ← edit.key
  let doc ← editor.toml.parse text
  let doc :=
    if editor.toml.item doc key = .absent then
      editor.toml.insertArray doc key
    else
      doc
  match editor.toml.item doc key with
  | .array values =>
      match edit.opens, values.findIdx? edit.isAt with
      | true, none => editor.checked (editor.toml.push doc key edit.value)
      | false, some index =>
          editor.checked (editor.toml.remove doc key index)
      | _, _ => .ok none
  | _ => Error.bail (key ++ " is not a list")

/-- One command on its own: the text of the file after it. -/
def perform
    (editor : ConfigEditor Doc)
    (edit : PortEdit)
    (text : String) : Option String :=
  match editor.setPort edit text with
  | .ok none => some text
  | .ok (some new) => some new
  | .error _ => none

/-- Commands one after another. -/
def performAll
    (editor : ConfigEditor Doc)
    (edits : List PortEdit)
    (text : String) : Option String :=
  edits.foldlM (fun text edit => editor.perform edit text) text

end ConfigEditor

/--
The two names in the directory, by the files they stand for, and what the
files hold.  A file lives on under no name while a command has it open.
-/
structure ConfigDirectory where
  config : Nat
  temporary : Option Nat
  contents : Nat → String
  /-- The number of the next file. -/
  fresh : Nat

namespace ConfigDirectory

/-- The text of the configuration file. -/
def text (directory : ConfigDirectory) : String :=
  directory.contents directory.config

def store
    (directory : ConfigDirectory)
    (file : Nat)
    (text : String) : ConfigDirectory :=
  { directory with
    contents := fun other =>
      if other = file then text else directory.contents other }

/-- `fs::write` opens the temporary file, which empties or creates it. -/
def openTemporary (directory : ConfigDirectory) : ConfigDirectory × Nat :=
  match directory.temporary with
  | some file => (directory.store file "", file)
  | none =>
      ({ directory.store directory.fresh "" with
          temporary := some directory.fresh
          fresh := directory.fresh + 1 },
        directory.fresh)

/-- A text written from the start of an open file over what it holds. -/
def write
    (directory : ConfigDirectory)
    (file : Nat)
    (new : String) : ConfigDirectory :=
  directory.store file
    (String.ofList
      (new.toList ++
        (directory.contents file).toList.drop new.toList.length))

/-- `rename`; without a temporary file it fails. -/
def rename (directory : ConfigDirectory) : Option ConfigDirectory :=
  directory.temporary.map fun file =>
    { directory with config := file, temporary := none }

end ConfigDirectory

/-- How far a command has got. -/
inductive CommandPhase where
  | ready
  | hasRead (text : String)
  | edited (new : String)
  | opened (file : Nat) (new : String)
  | written (new : String)
  /-- `set_port` has returned: whether it changed the file, or an error. -/
  | returned (result : Except Error Bool)
  deriving DecidableEq

/-- The directory, and the commands that work on it. -/
structure Commands (count : Nat) where
  directory : ConfigDirectory
  phase : Fin count → CommandPhase

namespace Commands

variable {Doc : Type} {count : Nat}

def setPhase
    (commands : Commands count)
    (index : Fin count)
    (phase : CommandPhase) : Commands count :=
  { commands with
    phase := fun other =>
      if other = index then phase else commands.phase other }

/-- The next step of one command. -/
def step
    (editor : ConfigEditor Doc)
    (edits : Fin count → PortEdit)
    (commands : Commands count)
    (index : Fin count) : Commands count :=
  match commands.phase index with
  | .ready => commands.setPhase index (.hasRead commands.directory.text)
  | .hasRead text =>
      commands.setPhase index
        (match editor.setPort (edits index) text with
          | .ok none => .returned (.ok false)
          | .ok (some new) => .edited new
          | .error failure => .returned (.error failure))
  | .edited new =>
      let (directory, file) := commands.directory.openTemporary
      { commands.setPhase index (.opened file new) with
        directory := directory }
  | .opened file new =>
      { commands.setPhase index (.written new) with
        directory := commands.directory.write file new }
  | .written _ =>
      match commands.directory.rename with
      | some directory =>
          { commands.setPhase index (.returned (.ok true)) with
            directory := directory }
      | none =>
          commands.setPhase index
            (.returned (Error.bail "No such file or directory (os error 2)"))
  | .returned _ => commands

/-- All commands before their first step. -/
def ready (directory : ConfigDirectory) : Commands count where
  directory := directory
  phase _ := .ready

end Commands

end AiFirewall
