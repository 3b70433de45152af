import ImportChart.Language
import ImportChart.Language.Statement
import ImportChart.Text.Position

/-!
# How a language is read

A `Profile` holds what the scanner and the resolver need of a language: the text that hides
statements, the statements with the places where each may start, whether backticks open templates,
and the suffixes by which a relative name becomes the path of a file.

A statement is given by its keyword, what may stand before it, and what follows it. Its `anchor`
says where it may start; both anchors are decided from the `Position` alone.
-/

namespace ImportChart

/-- Where a statement may start. -/
inductive Anchor where
  /-- Not right after an identifier character or a dot. -/
  | word
  /-- After blanks only on its line. -/
  | lineStart
  deriving DecidableEq, Repr

/-- Whether an identifier character or a dot. -/
def isWordChar (c : Char) : Bool :=
  isIdentifierChar c || decide (c = '.')

/-- Whether a statement so anchored may start at a position. -/
def Anchor.admits : Anchor → Position → Bool
  | .word, position => position.last.all fun c => !isWordChar c
  | .lineStart, position => position.blankLine

/-- A statement that names other modules. -/
structure Rule where
  anchor : Anchor
  /-- What stands before the keyword. -/
  lead : Pattern := .nothing
  keyword : String
  /-- What follows the keyword. -/
  tail : Pattern

/-- The whole statement. -/
def Rule.statement (rule : Rule) : Pattern :=
  rule.lead ++ Pattern.keyword rule.keyword ++ rule.tail

/-- What reading a language takes. -/
structure Profile where
  /-- Comments and string literals. -/
  hidden : Pattern
  /-- The statements, in the order in which they are tried. -/
  rules : List Rule
  /-- Backticks open templates, whose interpolations are code. -/
  templates : Bool
  /-- What is appended to a relative name to make the path of a file, in the order of trial. -/
  suffixes : List String

open Pattern Statement

/-- JavaScript and TypeScript. -/
def javascriptProfile : Profile where
  hidden := lineComment <|> blockComment <|> stringLiteral
  rules :=
    [{ anchor := .word, keyword := "import", tail := afterImport },
     { anchor := .word, keyword := "export", tail := afterExport },
     { anchor := .word, keyword := "require", tail := afterRequire }]
  templates := true
  suffixes :=
    ["", ".js", ".jsx", ".ts", ".tsx", ".mjs", ".cjs", "/index.js", "/index.ts",
      "/index.jsx", "/index.tsx"]

/-- Python. -/
def pythonProfile : Profile where
  hidden := hashComment <|> tripleQuoted <|> stringLiteral
  rules :=
    [{ anchor := .lineStart, keyword := "import", tail := afterModuleImport },
     { anchor := .lineStart, keyword := "from", tail := afterFrom },
     { anchor := .word, keyword := "__import__", tail := afterImportFunction },
     { anchor := .word, lead := optional (Pattern.keyword "importlib."), keyword := "import_module"
       tail := afterImportFunction }]
  templates := false
  suffixes := ["", ".py", "/__init__.py"]

/-- C and C++. -/
def cppProfile : Profile where
  hidden := lineComment <|> blockComment <|> stringLiteral
  rules :=
    [{ anchor := .lineStart, lead := only '#' ++ blanks, keyword := "include",
       tail := afterInclude }]
  templates := false
  suffixes := ["", ".h", ".hpp", ".hxx", ".cpp", ".cc", ".cxx"]

/-- Java. -/
def javaProfile : Profile where
  hidden := lineComment <|> blockComment <|> stringLiteral
  rules :=
    [{ anchor := .lineStart, keyword := "import", tail := afterQualifiedImport },
     { anchor := .word, keyword := "Class.forName", tail := afterClassLookup }]
  templates := false
  suffixes := ["", ".java"]

/-- Go. -/
def goProfile : Profile where
  hidden := lineComment <|> blockComment <|> stringLiteral <|> rawString
  rules := [{ anchor := .lineStart, keyword := "import", tail := afterPackageImport }]
  templates := false
  suffixes := ["", ".go"]

/-- The profile of a language. -/
def Language.profile : Language → Profile
  | .javascript => javascriptProfile
  | .python => pythonProfile
  | .cpp => cppProfile
  | .java => javaProfile
  | .go => goProfile

/-- Every pattern of every language reads at least one character when it matches, and repeats only
patterns that do. -/
theorem Language.patterns_productive (language : Language) :
    (language.profile.hidden.isProductive && language.profile.hidden.hasProductiveLoops) = true ∧
      ∀ rule ∈ language.profile.rules,
        (rule.statement.isProductive && rule.statement.hasProductiveLoops) = true := by
  cases language <;> decide

end ImportChart
