import ImportChart.Toml.Definition
import ImportChart.Toml.Word

/-!
# Reading TOML

`Document.ofToml?` reads a TOML text. A text that is malformed anywhere is refused as a whole.

A reader takes characters from the start of its input and leaves the rest. Each value takes at least
one character, and one that holds others is closed by another, so the length of the input bounds the
steps.
-/

namespace ImportChart.Toml

mutual
/-- A value. -/
def value : Nat → Reader Document
  | 0, _ => none
  | limit + 1, '[' :: rest => (items limit rest).map fun (items, rest) => (.list items, rest)
  | limit + 1, '{' :: rest => do
    let (entries, rest) ← inlineEntries limit rest
    let table ← assembleInline entries
    some (table, rest)
  | _ + 1, input =>
    match input with
    | '\x22' :: _ | '\x27' :: _ =>
      (string? input).map fun (text, rest) => (.text (String.ofList text), rest)
    | _ =>
      let word := wordAt input
      (word? word).map fun document => (document, input.drop word.length)
/-- The items of a list, after its opening bracket or a comma. -/
def items : Nat → Reader (List Document)
  | 0, _ => none
  | limit + 1, input =>
    match skipLines input with
    | ']' :: rest => some ([], rest)
    | input => do
      let (item, rest) ← value limit input
      match skipLines rest with
      | ']' :: rest => some ([item], rest)
      | ',' :: rest =>
        let (others, rest) ← items limit rest
        some (item :: others, rest)
      | _ => none
/-- The entries of an inline table, after its opening brace or a comma. -/
def inlineEntries : Nat → Reader (List (List String × Document))
  | 0, _ => none
  | limit + 1, input =>
    match skipLines input with
    | '}' :: rest => some ([], rest)
    | input => do
      let (key, rest) ← key input
      let (document, rest) ← value limit (skipBlanks (← expect '=' rest))
      match skipLines rest with
      | '}' :: rest => some ([(key, document)], rest)
      | ',' :: rest =>
        let (others, rest) ← inlineEntries limit rest
        some ((key, document) :: others, rest)
      | _ => none
end

/-- A statement at the start of a line. -/
def statement : Reader Statement
  | '[' :: '[' :: rest => do
    let (path, rest) ← key rest
    some (.elementHeader path, ← expect ']' (← expect ']' rest))
  | '[' :: rest => do
    let (path, rest) ← key rest
    some (.header path, ← expect ']' rest)
  | input => do
    let (path, rest) ← key input
    let rest := skipBlanks (← expect '=' rest)
    let (document, rest) ← value (rest.length + 1) rest
    some (.entry path document, rest)

/-- Statements, each on a line of its own, at most `limit` of them. -/
def statements : Nat → List Char → Option (List Statement)
  | 0, _ => none
  | limit + 1, input =>
    match skipLines input with
    | [] => some []
    | input => do
      let (first, rest) ← statement input
      match skipComment rest with
      | [] => some [first]
      | rest =>
        let (_, rest) ← lineEnd? rest
        let others ← statements limit rest
        some (first :: others)

end Toml

/-- The document that a TOML text defines. A byte order mark before it is passed over. -/
def Document.ofToml? (text : String) : Option Document :=
  let input :=
    match text.toList with
    | '\uFEFF' :: rest => rest
    | input => input
  (Toml.statements (input.length + 1) input).bind Toml.assemble

end ImportChart
