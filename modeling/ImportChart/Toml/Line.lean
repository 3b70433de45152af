import ImportChart.Text.Blank

/-!
# Lines of a TOML text

What may stand between the statements and the values of a TOML text: blanks, comments and the ends
of lines. A comment runs to the end of its line and may hold any printable character.
-/

namespace ImportChart.Toml

/-- Reads something from the start of a text. -/
abbrev Reader (α : Type) := List Char → Option (α × List Char)

/-- A character that may stand in a comment or a string. -/
def isPrintable (c : Char) : Bool :=
  c = '\t' || (decide (0x20 ≤ c.toNat) && decide (c.toNat ≠ 0x7F))

/-- Passes over blanks. -/
def skipBlanks (input : List Char) : List Char :=
  input.dropWhile isBlank

/-- Passes over blanks and a comment. -/
def skipComment (input : List Char) : List Char :=
  match skipBlanks input with
  | '#' :: rest => rest.dropWhile isPrintable
  | rest => rest

/-- The end of a line, and the text after it. -/
def lineEnd? : Reader (List Char)
  | '\n' :: rest => some (['\n'], rest)
  | '\r' :: '\n' :: rest => some (['\r', '\n'], rest)
  | _ => none

/-- Passes over what `skip` does and over the ends of lines, over at most `limit` lines. -/
def skipLinesBy (skip : List Char → List Char) : Nat → List Char → List Char
  | 0, input => input
  | limit + 1, input =>
    match lineEnd? (skip input) with
    | some (_, rest) => skipLinesBy skip limit rest
    | none => skip input

/-- Passes over blanks, comments and the ends of lines. -/
def skipLines (input : List Char) : List Char :=
  skipLinesBy skipComment (input.length + 1) input

/-- Passes over blanks and the ends of lines. -/
def skipGap (input : List Char) : List Char :=
  skipLinesBy skipBlanks (input.length + 1) input

end ImportChart.Toml
