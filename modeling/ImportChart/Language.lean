import ImportChart.Text.Path

/-!
# Languages

The languages whose imports are read. A path selects a language by its ending; a path that selects
none is read as JavaScript, whose statements are the most permissive.
-/

namespace ImportChart

/-- A family of source languages with one form of import. -/
inductive Language where
  /-- JavaScript and TypeScript. -/
  | javascript
  | python
  /-- C and C++. -/
  | cpp
  | java
  | go
  deriving DecidableEq, Repr

namespace Language

/-- Every language, in the order in which path endings are tried. -/
def all : List Language :=
  [python, cpp, java, go, javascript]

/-- The name of a language in documents. -/
def name : Language → String
  | javascript => "javascript"
  | python => "python"
  | cpp => "cpp"
  | java => "java"
  | go => "go"

/-- The path endings that select a language. -/
def endings : Language → List String
  | javascript => [".js", ".jsx", ".ts", ".tsx", ".mjs", ".cjs"]
  | python => [".py"]
  | cpp => [".cpp", ".cc", ".cxx", ".c", ".h", ".hpp", ".hxx"]
  | java => [".java"]
  | go => [".go"]

/-- The language that a path selects, if any. -/
def recognize (path : String) : Option Language :=
  all.find? fun language => language.endings.any (endsWith · path)

/-- The language in which a path is read. -/
def detect (path : String) : Language :=
  (recognize path).getD javascript

theorem mem_all (language : Language) : language ∈ all := by
  cases language <;> decide

end Language

end ImportChart
