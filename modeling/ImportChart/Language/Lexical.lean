import ImportChart.Pattern
import ImportChart.Text.Alphanumeric
import ImportChart.Text.Blank

/-!
# Words, quotes and comments

The small patterns from which the import statements of every language are made, and the comments and
string literals that hide text from them.

Two kinds of space occur. A blank is a space or a tab and keeps a statement on its line; a gap may
also hold line ends.
-/

namespace ImportChart

/-- The mark around a character literal. -/
def apostrophe : Char := '\x27'

/-- The mark around a string literal. -/
def quotationMark : Char := '\x22'

/-- The mark around a raw string or a template. -/
def backtick : Char := '\x60'

/-- A blank or a part of a line end. -/
def isGap (c : Char) : Bool :=
  isBlank c || decide (c = '\n' ∨ c = '\r')

/-- A character of an identifier. -/
def isIdentifierChar (c : Char) : Bool :=
  isAlphanumeric c || decide (c = '_' ∨ c = '$')

/-- A character of a dotted name. -/
def isDottedChar (c : Char) : Bool :=
  isAlphanumeric c || decide (c = '_' ∨ c = '.')

/-- A character of a qualified name, which may end in a star. -/
def isQualifiedChar (c : Char) : Bool :=
  isIdentifierChar c || decide (c = '.' ∨ c = '*')

namespace Pattern

/-- Blanks, if any. -/
def blanks : Pattern := chars isBlank

/-- Blanks, at least one. -/
def someBlanks : Pattern := someChars isBlank

/-- A gap, if any. -/
def gap : Pattern := chars isGap

/-- A gap of at least one character. -/
def someGap : Pattern := someChars isGap

/-- Any character. -/
def anyChar : Pattern := char fun _ => true

/-- Any character but the given ones. -/
def noneOf (excluded : List Char) : Pattern := char fun c => !excluded.contains c

/-- An identifier of any language. -/
def identifier : Pattern := someChars isIdentifierChar

/-- A token between two marks: as many characters as follow, at least one, of which none is the
closing mark or excluded. -/
def tokenBetween (opening closing : Char) (excluded : List Char) : Pattern :=
  only opening ++ token (someChars fun c => !(closing :: excluded).contains c) ++ only closing

/-- A token in single or double quotes, on one line. -/
def quoted : Pattern :=
  tokenBetween apostrophe apostrophe ['\n'] <|> tokenBetween quotationMark quotationMark ['\n']

/-! ## Text that hides statements -/

/-- A comment from two slashes to the end of its line. -/
def lineComment : Pattern :=
  keyword "//" ++ chars (fun c => decide (c ≠ '\n'))

/-- A comment between slash-star and star-slash, which must be closed. -/
def blockComment : Pattern :=
  keyword "/*" ++ upTo "*/" ++ keyword "*/"

/-- A comment from a hash to the end of its line. -/
def hashComment : Pattern :=
  only '#' ++ chars (fun c => decide (c ≠ '\n'))

/-- The inside of a string literal: a backslash takes the next character with it, and the literal's
own mark and a line end stand nowhere else. -/
def stringLiteralBody (mark : Char) : Pattern :=
  many ((only '\\' ++ anyChar) <|> noneOf [mark, '\\', '\n'])

/-- A string literal between two marks of one kind. -/
def stringLiteralIn (mark : Char) : Pattern :=
  only mark ++ stringLiteralBody mark ++ only mark

/-- A string literal in single or double quotes, on one line unless a backslash takes the line
end. -/
def stringLiteral : Pattern :=
  stringLiteralIn apostrophe <|> stringLiteralIn quotationMark

/-- A raw string, in which only the closing mark is special. -/
def rawString : Pattern :=
  only backtick ++ chars (fun c => decide (c ≠ backtick)) ++ only backtick

/-- A text between two threefold marks. -/
def tripled (mark : Char) : Pattern :=
  let marks := String.ofList [mark, mark, mark]
  keyword marks ++ upTo marks ++ keyword marks

/-- A threefold quoted string, over any number of lines. -/
def tripleQuoted : Pattern :=
  tripled quotationMark <|> tripled apostrophe

/-! ## Templates -/

/-- The text of a template: a backslash takes the next character with it, and neither the closing
mark nor the start of an interpolation is part of it. -/
def templateText : Pattern :=
  many ((only '\\' ++ anyChar) <|> noneOf [backtick, '$', '\\'] <|> (only '$' ++ notBefore ['{']))

/-- Template text with the mark that closes the template. -/
def templateEnd : Pattern :=
  templateText ++ only backtick

/-- Template text with the opening of an interpolation. -/
def templateInterpolation : Pattern :=
  templateText ++ word ['$', '{']

end Pattern

end ImportChart
