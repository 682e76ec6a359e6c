import JobShell.Text.Numeral
import JobShell.Text.Utf8

/-!
# Entries of the command history

An entry is one line of the history file: the time, the status and the command,
separated by tabs. In the command a backslash is written twice and a line feed
as `\n`, so every command fits one line. A line of another form is a command
without time and status.
-/
namespace JobShell

/-- A command that was run. -/
structure HistoryEntry where
  command : Text
  status : Int
  /-- Seconds of the clock when the command had ended. -/
  time : Nat
  deriving DecidableEq, Repr

namespace HistoryEntry

/-- A command on one line. -/
def escape : Text → Text
  | [] => []
  | c :: r =>
    if c = '\\' then '\\' :: '\\' :: escape r
    else if c = '\n' then '\\' :: 'n' :: escape r
    else c :: escape r

/-- The command of an escaped one. A backslash before another character stands for that character. -/
def unescape : Text → Text
  | [] => []
  | [c] => [c]
  | c :: d :: r => if c = '\\' then (if d = 'n' then '\n' else d) :: unescape r else c :: unescape (d :: r)

/-- An entry as a line, without the line feed. -/
def line (e : HistoryEntry) : Text :=
  Numeral.ofNat e.time ++ '\t' :: Numeral.ofInt e.status ++ '\t' :: escape e.command

/-- The entry of a line that has three fields, a time and a status among them. -/
def ofFields? (l : Text) : Option HistoryEntry := do
  let (time,rest) ← Text.splitAt? '\t' l
  let (status,command) ← Text.splitAt? '\t' rest
  return ⟨unescape command,← Numeral.readInt Numeral.maxInt32 status,← Numeral.readNat Numeral.maxNat64 time⟩

/-- The entry of a line. -/
def ofLine (l : Text) : HistoryEntry := (ofFields? l).getD ⟨l,0,0⟩

/-- The bytes of an entry in the file. -/
def bytes (e : HistoryEntry) : Bytes := Utf8.encode (e.line ++ ['\n'])

/-- The lines of a file. A carriage return before a line feed belongs to neither
    line; what follows the last line feed is a line unless it is empty. -/
def fileLines : Bytes → List Bytes
  | [] => []
  | b :: r =>
    if b = 10 then [] :: fileLines r
    else if b = 13 && r.head? = some 10 then fileLines r
    else match r, fileLines r with
      | [], _ => [[b]]
      | _, [] => [[b]]
      | _, l :: ls => (b :: l) :: ls

/-- The texts of the lines before the first one that is not UTF-8. -/
def textLines : List Bytes → List Text
  | [] => []
  | l :: r =>
    match Utf8.decode? l with
    | some t => t :: textLines r
    | none => []

/-- The entries of a history file. Empty lines are no entries. -/
def ofFile (content : Bytes) : List HistoryEntry :=
  ((textLines (fileLines content)).filter (!·.isEmpty)).map ofLine

end HistoryEntry
end JobShell
