import JobShell.Syntax.Expansion
import JobShell.System.Kernel
import JobShell.Text.Bindings
import JobShell.Toml.Document

/-!
# Settings

The settings of a shell stand in a file in the TOML format. Everything has a
value of its own when it is left out. A name that means nothing is refused
among the sections, and passed over within the sections on the history and the
log.
-/
namespace JobShell

/-- The settings of a shell. -/
structure Settings where
  /-- The file of the history, as it is written. -/
  historyPath : Text
  historySize : Nat
  /-- A command equal to the last one is not kept. -/
  dedup : Bool
  logLevel : Text
  aliases : Bindings
  environment : Bindings
  deriving DecidableEq, Repr

namespace Settings

/-- The settings without a file. -/
def standard : Settings where
  historyPath := txt "~/.kaze_history"
  historySize := 1000
  dedup := true
  logLevel := txt "warn"
  aliases := []
  environment := []

/-- The file of the history. -/
def historyFile (t : Settings) (s : Surroundings) : Text := Expansion.ofTilde s t.historyPath

/-- A value that must be text. -/
def text? : TomlValue → Option Text
  | .text t => some t
  | _ => none

/-- A value that must be true or false. -/
def flag? : TomlValue → Option Bool
  | .flag b => some b
  | _ => none

/-- A value that must be a number of things. -/
def size? : TomlValue → Option Nat
  | .integer (.ofNat n) => some n
  | _ => none

/-- The value of a field of a section. An array gives the fields in their order instead of by name. -/
def part (v : TomlValue) (position : Nat) (name : Text) : Option TomlValue :=
  match v.fields?, v.elements? with
  | some fields, _ => TomlValue.field? name fields
  | none, some l => l[position]?
  | none, none => none

/-- A field that has a value of its own when it is left out; none when it is of the wrong kind. -/
def partOr {α : Type} (v : TomlValue) (position : Nat) (name : Text) (read : TomlValue → Option α)
    (own : α) : Option α :=
  match part v position name with
  | none => some own
  | some w => read w

/-- Whether a value can be a section. -/
def isSection (v : TomlValue) : Bool := v.fields?.isSome || v.elements?.isSome

/-- The settings with those of the section on the history. -/
def readHistory (t : Settings) (v : TomlValue) : Option Settings := do
  if isSection v then
    return { t with
      historyPath := ← partOr v 0 (txt "path") text? t.historyPath
      historySize := ← partOr v 1 (txt "max_size") size? t.historySize
      dedup := ← partOr v 2 (txt "dedup") flag? t.dedup }
  else none

/-- The settings with those of the section on the log. -/
def readLog (t : Settings) (v : TomlValue) : Option Settings := do
  if isSection v then return { t with logLevel := ← partOr v 0 (txt "level") text? t.logLevel } else none

/-- Names with texts. -/
def bindings? (v : TomlValue) : Option Bindings := do
  let fields ← v.fields?
  let pairs ← fields.mapM (fun p => (text? p.2).map (fun t => (p.1,t)))
  return Bindings.ofList pairs

/-- The settings with those of a section. -/
def readSection (t : Settings) (name : Text) (v : TomlValue) : Option Settings :=
  if name = txt "history" then t.readHistory v
  else if name = txt "log" then t.readLog v
  else if name = txt "aliases" then (bindings? v).map (fun b => { t with aliases := b })
  else if name = txt "env" then (bindings? v).map (fun b => { t with environment := b })
  else none

/-- The settings of a text; none when it is not well formed or says something that means nothing. -/
def ofText? (s : Text) : Option Settings := do
  let fields ← (← Toml.document? s).fields?
  fields.foldlM (fun t p => t.readSection p.1 p.2) standard

/-- Why a file has no settings. -/
inductive Failure where
  /-- The file cannot be read. -/
  | unreadable (e : SystemError)
  /-- The file is not UTF-8. -/
  | notText
  /-- The text has no settings. -/
  | malformed
  deriving DecidableEq, Repr

/-- What is known of the failure. -/
def Failure.message : Failure → Text
  | .unreadable (.os e) => e.report
  | .unreadable .nameWithNul => SystemError.nameWithNul.message
  | .notText => txt "stream did not contain valid UTF-8"
  | .malformed => txt "malformed settings"

/-- The settings of a file; none when there is no such file. -/
def ofFile {σ : Type} [Kernel σ] (s : σ) (path : Text) : Except Failure (Option Settings) :=
  match Kernel.contentOf s path with
  | .error e => if e = .os Errno.noEntry then .ok none else .error (.unreadable e)
  | .ok content =>
    match Utf8.decode? content with
    | none => .error .notText
    | some text =>
      match ofText? text with
      | none => .error .malformed
      | some t => .ok (some t)

/-- The path of the file of the settings. -/
def defaultPath? (environment : Bindings) : Option Text :=
  match environment.get? (txt "KAZE_CONFIG") with
  | some path => some path
  | none =>
    (environment.get? (txt "HOME")).map (fun home => FileSystem.inside home (txt ".config/kaze/config.toml"))

end Settings
end JobShell
