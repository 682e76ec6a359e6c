import JobShell.Text.Basic

/-!
# The extent of a command substitution

A command substitution is `$(` up to the parenthesis that closes it, where
single-quoted text is passed over, or a back quote up to the next one. One that
is not closed extends to the end of the text.
-/
namespace JobShell

/-- The back quote. -/
abbrev backQuote : Char := '\x60'
/-- The single quote. -/
abbrev singleQuote : Char := '\x27'
/-- The double quote. -/
abbrev doubleQuote : Char := '\x22'
/-- The backslash. -/
abbrev backslash : Char := '\x5c'

namespace Substitution

/-- The number of characters up to and with the parenthesis that closes the one
    before the text, when `depth` further ones are open; `none` when it is not
    closed. `quoted` tells whether the text begins inside single quotes. Any number
    of parentheses may be open here; `Pipeline.parse_succeeds` tells of which texts
    that is true when they are counted by a number of 32 bits. -/
def closing? (depth : Nat) (quoted : Bool) : Text → Option Nat
  | [] => none
  | c :: r =>
    if quoted then (closing? depth (c != singleQuote) r).map (· + 1)
    else if c = singleQuote then (closing? depth true r).map (· + 1)
    else if c = '(' then (closing? (depth+1) false r).map (· + 1)
    else if c = ')' then
      match depth with
      | 0 => some 1
      | d+1 => (closing? d false r).map (· + 1)
    else (closing? depth false r).map (· + 1)

/-- The number of characters after an opening parenthesis that belong to it. -/
def parenLength (r : Text) : Nat := (closing? 0 false r).getD r.length

/-- The number of characters up to and with the next back quote, or of all. -/
def tickLength : Text → Nat
  | [] => 0
  | c :: r => if c = backQuote then 1 else tickLength r + 1

/-- The command of a substitution, without its delimiters. -/
def command (span : Text) : Text :=
  match span with
  | '$' :: '(' :: r =>
    match closing? 0 false r with
    | some n => r.take (n-1)
    | none => r
  | _ =>
    let inner := if span.head? = some backQuote then span.tail else span
    if inner.getLast? = some backQuote then inner.dropLast else inner

end Substitution
end JobShell
