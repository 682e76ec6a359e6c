import JobShell.Line.Editor

/-!
# What the editor shows

The line is drawn after a carriage return, the rest of the terminal's line is
erased, and the cursor is put in its place by drawing the text before it again.
A search shows its query and the entry that it found.
-/
namespace JobShell

/-- Erases the terminal's line from the cursor on. -/
def eraseToEnd : Text := txt "\x1b[K"

namespace Editor

/-- The editor as a terminal shows it. -/
def render (e : Editor) (prompt : Text) (h : History) : Text :=
  match e.mode with
  | .searching s =>
    let label := if s.failed then txt "(failed reverse-i-search)" else txt "(reverse-i-search)"
    '\r' :: label ++ '\x60' :: s.query ++ txt "\x27: " ++ (s.entry? h).getD [] ++ eraseToEnd
  | _ =>
    '\r' :: prompt ++ e.buffer.text ++ eraseToEnd ++
      if e.buffer.after.isEmpty then [] else '\r' :: prompt ++ e.buffer.before

end Editor

/-- A notice as a terminal shows it. -/
def Notice.render : Notice → Text
  | .bell => ['\x07']
  | .candidates l => '\n' :: Text.join (txt "  ") l ++ ['\n']
  | .clearScreen => txt "\x1b[2J\x1b[H"
  | .interrupted => txt "^C\n"

/-- A line that was read from a terminal. -/
structure Reading where
  /-- The line; none at the end of the input. -/
  line : Option Text
  /-- What the terminal showed. -/
  screen : Text
  history : History
  /-- The input that is left. -/
  input : Keystrokes

namespace Editor

/-- The editor at the beginning of a line. -/
def reset (h : History) : Editor × History := (.empty,h.leave)

/-- What a pending notice shows, and the editor without it. -/
def takeNotice (e : Editor) : Text × Editor :=
  ((e.notice.map Notice.render).getD [],{ e with notice := none })

/-- Keys are read until one ends the line. -/
def readKeys [Segmentation] (e : Editor) (prompt : Text) (h : History) (o : Outlook) (input : Keystrokes) : Reading :=
  match step : Key.read input with
  | none => ⟨none,['\n'],h,input⟩
  | some (key,rest) =>
    have : rest.size < input.size := Key.read_size step
    let (outcome,e,h) := e.press h o key
    let (shown,e) := e.takeNotice
    match outcome with
    | some (.submitted line) => ⟨some line,shown ++ e.render prompt h ++ ['\n'],h,rest⟩
    | some .eof => ⟨none,shown ++ ['\n'],h,rest⟩
    | none =>
      let tail := readKeys e prompt h o rest
      { tail with screen := shown ++ e.render prompt h ++ tail.screen }
  termination_by input.size

/-- A line is read after a prompt. -/
def readLine [Segmentation] (prompt : Text) (h : History) (o : Outlook) (input : Keystrokes) : Reading :=
  let (e,h) := reset h
  let r := e.readKeys prompt h o input
  { r with screen := e.render prompt h ++ r.screen }

end Editor
end JobShell
