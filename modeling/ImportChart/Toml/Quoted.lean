import ImportChart.Toml.Line

/-!
# Strings and keys of a TOML text

A string is basic, in quotation marks and with escapes, or literal, in apostrophes and taken as it
stands. Either may be written on one line between single marks, or over several lines between
threefold marks. A key is a list of names with dots between them, each bare or a string of one line.
-/

namespace ImportChart.Toml

/-! ## Escapes -/

/-- The value of a hexadecimal digit. -/
def hexValue? (c : Char) : Option Nat :=
  if c.isDigit then some (c.toNat - '0'.toNat)
  else if 'a' ≤ c ∧ c ≤ 'f' then some (c.toNat - 'a'.toNat + 10)
  else if 'A' ≤ c ∧ c ≤ 'F' then some (c.toNat - 'A'.toNat + 10)
  else none

/-- The character with a number, if there is one. -/
def characterOf? (n : Nat) : Option Char :=
  if n.isValidChar then some (Char.ofNat n) else none

/-- The character whose number stands at the start of a text in a count of hexadecimal digits. -/
def characterNumber (digits : Nat) : Reader Char := fun input =>
  if input.length < digits then none
  else do
    let values ← (input.take digits).mapM hexValue?
    let c ← characterOf? (values.foldl (fun n digit => n * 16 + digit) 0)
    some (c, input.drop digits)

/-- The character that an escape stands for. -/
def escape : Reader Char
  | 'b' :: rest => some ('\x08', rest)
  | 't' :: rest => some ('\t', rest)
  | 'n' :: rest => some ('\n', rest)
  | 'f' :: rest => some ('\x0c', rest)
  | 'r' :: rest => some ('\r', rest)
  | 'e' :: rest => some ('\x1b', rest)
  | '\x22' :: rest => some ('\x22', rest)
  | '\\' :: rest => some ('\\', rest)
  | 'x' :: rest => characterNumber 2 rest
  | 'u' :: rest => characterNumber 4 rest
  | 'U' :: rest => characterNumber 8 rest
  | _ => none

/-- Text before the text that a reader takes. -/
def before (text : List Char) : Option (List Char × List Char) → Option (List Char × List Char) :=
  Option.map fun (more, rest) => (text ++ more, rest)

/-! ## Strings of one line -/

/-- A basic string after its opening mark, of at most `limit` characters. -/
def basicString : Nat → Reader (List Char)
  | 0, _ => none
  | _ + 1, [] => none
  | _ + 1, '\x22' :: rest => some ([], rest)
  | limit + 1, '\\' :: rest => do
    let (c, rest) ← escape rest
    before [c] (basicString limit rest)
  | limit + 1, c :: rest => if isPrintable c then before [c] (basicString limit rest) else none

/-- A literal string after its opening mark. -/
def literalString (input : List Char) : Option (List Char × List Char) :=
  let text := input.takeWhile fun c => isPrintable c && c != '\x27'
  match input.drop text.length with
  | '\x27' :: rest => some (text, rest)
  | _ => none

/-! ## Strings of several lines -/

/-- The end of a string at its closing marks, if they follow. Up to two marks before the closing
three are part of the string. -/
def closing? (mark : Char) : Reader (List Char) := fun input =>
  let marks := (input.takeWhile (· = mark)).length
  if marks < 3 then none
  else
    let extra := min (marks - 3) 2
    some (List.replicate extra mark, input.drop (extra + 3))

/-- The text after a backslash at the end of a line, which hides the gap after it, if it is one. -/
def joined? (input : List Char) : Option (List Char) :=
  (lineEnd? (skipBlanks input)).map fun (_, rest) => skipGap rest

/-- The inside of a string of several lines, with escapes if it is basic, of at most `limit`
characters. -/
def longBody (mark : Char) (escapes : Bool) : Nat → Reader (List Char)
  | 0, _ => none
  | limit + 1, input =>
    match closing? mark input with
    | some (text, rest) => some (text, rest)
    | none =>
      match lineEnd? input with
      | some (text, rest) => before text (longBody mark escapes limit rest)
      | none =>
        match escapes, input with
        | _, [] => none
        | true, '\\' :: rest =>
          match joined? rest with
          | some rest => longBody mark escapes limit rest
          | none => do
            let (c, rest) ← escape rest
            before [c] (longBody mark escapes limit rest)
        | _, c :: rest =>
          if isPrintable c then before [c] (longBody mark escapes limit rest) else none

/-- A string of several lines after its opening marks. A line end right after them is no part of
it. -/
def longString (mark : Char) (escapes : Bool) : Reader (List Char) := fun input =>
  let body := ((lineEnd? input).map Prod.snd).getD input
  longBody mark escapes (body.length + 1) body

/-- A string of any kind. -/
def string? : Reader (List Char)
  | '\x22' :: '\x22' :: '\x22' :: rest => longString '\x22' true rest
  | '\x27' :: '\x27' :: '\x27' :: rest => longString '\x27' false rest
  | '\x22' :: rest => basicString (rest.length + 1) rest
  | '\x27' :: rest => literalString rest
  | _ => none

/-! ## Keys -/

/-- A character of a bare name. -/
def isBareName (c : Char) : Bool :=
  c.isAlphanum || c = '_' || c = '-'

/-- One name of a key. -/
def name? : Reader (List Char)
  | '\x22' :: rest => basicString (rest.length + 1) rest
  | '\x27' :: rest => literalString rest
  | input =>
    match input.takeWhile isBareName with
    | [] => none
    | name => some (name, input.drop name.length)

/-- Names with dots between them, at most `limit` of them, and the blanks around each. -/
def names : Nat → Reader (List String)
  | 0, _ => none
  | limit + 1, input => do
    let (name, rest) ← name? (skipBlanks input)
    match skipBlanks rest with
    | '.' :: rest =>
      let (more, rest) ← names limit rest
      some (String.ofList name :: more, rest)
    | rest => some ([String.ofList name], rest)

/-- The most tables that a key may lead through. -/
def deepest : Nat := 80

/-- A key and the blanks around it. -/
def key : Reader (List String) :=
  names (deepest + 1)

end ImportChart.Toml
