import ImportChart.Language.Library
import ImportChart.Reference.Scan

/-!
# Where a reference comes from

A token that starts with a dot is internal, in every language. Of the others, those in the
language's standard library are builtin. What is left is external, except in Go, where a package of
the same module is told from a foreign one by its first segment: a foreign one starts with a host
name, which has a dot, or names one of the well-known hosts.
-/

namespace ImportChart

/-- Hosts whose name marks a Go package as foreign. -/
def goHosts : List String :=
  ["github.com", "gitlab.com", "bitbucket.org", "golang.org", "gopkg.in", "go.googlesource.com"]

/-- The origin of a Go package outside of the standard library. -/
def goOrigin (token : String) : Origin :=
  let host := token.toList.takeWhile (fun c => decide (c ≠ '/'))
  if '.' ∈ host ∨ goHosts.any (fun name => occursIn name.toList token.toList) then .external
  else .internal

/-- The origin of a token. -/
def Language.classify (language : Language) (token : String) : Origin :=
  if startsWith "." token then .internal
  else if language.library.contains token then .builtin
  else
    match language with
    | .go => goOrigin token
    | .javascript | .python | .cpp | .java => .external

/-- A reference with its origin in a language. -/
def Language.classifyReference (language : Language) (reference : Reference) :
    ClassifiedReference :=
  { reference with origin := language.classify reference.token }

/-- The references of the file at a path, in the language of the path. -/
def ParsedFile.ofText (path text : String) : ParsedFile :=
  let language := Language.detect path
  { path, language, references := (language.extract text).map language.classifyReference }

end ImportChart
