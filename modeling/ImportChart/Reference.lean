import ImportChart.Language
import ImportChart.Text.Position

/-!
# References between modules

A reference goes through three forms. A `Reference` is a module name as it stands in a text. A
`ClassifiedReference` also says where the named module comes from (`Origin`). A `Dependency` is a
classified reference with the file it leads to, where one is known.

Only internal references lead to files: `ClassifiedReference.resolve` keeps a path for them alone,
and `Dependency.target?` is that path for them and the token for all others.
-/

namespace ImportChart

/-- A module name in a text. -/
structure Reference where
  token : String
  /-- Where the token stands, in bytes. -/
  span : Span
  /-- The line of the token, counted from one; zero for a token of no text. -/
  line : Nat
  deriving DecidableEq, Repr

/-- Where a named module comes from. -/
inductive Origin where
  /-- The tree that the reference stands in. -/
  | internal
  /-- A package of someone else. -/
  | external
  /-- The standard library of the language. -/
  | builtin
  deriving DecidableEq, Repr

/-- The name of an origin in documents. -/
def Origin.name : Origin → String
  | .internal => "internal"
  | .external => "external"
  | .builtin => "builtin"

/-- A reference whose origin is known. -/
structure ClassifiedReference extends Reference where
  origin : Origin
  deriving DecidableEq, Repr

/-- A reference and the file it leads to. An internal one without a path is unresolved. -/
structure Dependency extends ClassifiedReference where
  targetPath : Option String
  deriving DecidableEq, Repr

/-- The references of one file. -/
structure ParsedFile where
  path : String
  language : Language
  references : List ClassifiedReference
  deriving DecidableEq, Repr

/-- The dependencies of one file. -/
structure ResolvedFile where
  path : String
  language : Language
  dependencies : List Dependency
  deriving DecidableEq, Repr

/-- A classified token of no text. -/
def ClassifiedReference.ofToken (token : String) (origin : Origin) : ClassifiedReference :=
  { token := token, span := ⟨0, 0⟩, line := 0, origin := origin }

/-- The dependency of a reference, which keeps the path only if the reference is internal. -/
def ClassifiedReference.resolve (reference : ClassifiedReference)
    (path : Option String) : Dependency :=
  { reference with targetPath := if reference.origin = .internal then path else none }

/-- What a dependency leads to: the path of an internal one, which it may lack, and otherwise the
token. -/
def Dependency.target? (dependency : Dependency) : Option String :=
  if dependency.origin = .internal then dependency.targetPath else some dependency.token

@[simp] theorem ClassifiedReference.resolve_toClassifiedReference (reference : ClassifiedReference)
    (path : Option String) : (reference.resolve path).toClassifiedReference = reference := rfl

/-- A resolved internal reference leads to its path, any other to its token. -/
theorem ClassifiedReference.target?_resolve (reference : ClassifiedReference)
    (path : Option String) :
    (reference.resolve path).target? =
      if reference.origin = .internal then path else some reference.token := by
  unfold Dependency.target? ClassifiedReference.resolve
  split <;> rfl

end ImportChart
