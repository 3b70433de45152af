import ImportChart.Language.Lexical

/-!
# Import statements

What follows the keyword in the statements that name another module, for each language. The tokens
of these patterns are the names of the modules.

A pattern reads a statement as far as its module names need; what follows, such as the names
imported from a Python module, is left to be read as code.
-/

namespace ImportChart.Statement

open Pattern

/-! ## JavaScript and TypeScript -/

/-- Bindings in braces, over any number of lines. -/
def namedBindings : Pattern :=
  only '{' ++ chars (fun c => decide (c ≠ '}')) ++ only '}'

/-- A star bound to a name. -/
def namespaceBinding : Pattern :=
  only '*' ++ gap ++ keyword "as" ++ someGap ++ identifier

/-- The bindings of an import: in braces, a star, or a name that either of these may follow. -/
def importClause : Pattern :=
  (gap ++ (namedBindings <|> namespaceBinding)) <|>
    (someGap ++ identifier ++
      optional (gap ++ only ',' ++ gap ++ (namedBindings <|> namespaceBinding)))

/-- The module after `from`. -/
def fromClause : Pattern :=
  gap ++ keyword "from" ++ gap ++ quoted

/-- After `import`: a call, a bare module, or bindings from a module. -/
def afterImport : Pattern :=
  (gap ++ only '(' ++ gap ++ quoted ++ gap ++ only ')') <|>
    (gap ++ quoted) <|>
    (someGap ++ keyword "type" ++ importClause ++ fromClause) <|>
    (importClause ++ fromClause)

/-- After `export`: everything, or names, from a module. -/
def afterExport : Pattern :=
  optional (someGap ++ keyword "type") ++ gap ++
    ((only '*' ++ optional (gap ++ keyword "as" ++ someGap ++ identifier)) <|> namedBindings) ++
    fromClause

/-- After `require`: a call on a module. -/
def afterRequire : Pattern :=
  gap ++ only '(' ++ gap ++ quoted ++ gap ++ only ')'

/-! ## Python -/

/-- A dotted name, which leading dots make relative. -/
def dottedName : Pattern :=
  token (someChars isDottedChar)

/-- A dotted name and the name it is bound to. -/
def aliasedName : Pattern :=
  dottedName ++ optional (someBlanks ++ keyword "as" ++ someBlanks ++ identifier)

/-- After `import`: modules separated by commas, on one line. -/
def afterModuleImport : Pattern :=
  someBlanks ++ aliasedName ++ many (blanks ++ only ',' ++ blanks ++ aliasedName)

/-- After `from`: a module, up to the word `import`. -/
def afterFrom : Pattern :=
  someBlanks ++ dottedName ++ someBlanks ++ keyword "import"

/-- After a function that imports by name: the start of a call on a module. -/
def afterImportFunction : Pattern :=
  blanks ++ only '(' ++ blanks ++ quoted ++ blanks ++ (only ')' <|> only ',')

/-! ## C and C++ -/

/-- After `include`: a header in angle brackets or in quotes. -/
def afterInclude : Pattern :=
  blanks ++ (tokenBetween '<' '>' ['\n'] <|> tokenBetween quotationMark quotationMark ['\n'])

/-! ## Java -/

/-- After `import`: a qualified name and its semicolon. -/
def afterQualifiedImport : Pattern :=
  someGap ++ optional (keyword "static" ++ someGap) ++
    token (someChars isQualifiedChar) ++ gap ++ only ';'

/-- After `Class.forName`: the start of a call on a class name. -/
def afterClassLookup : Pattern :=
  gap ++ only '(' ++ gap ++ quoted ++ gap ++ (only ')' <|> only ',')

/-! ## Go -/

/-- The path of a package, interpreted or raw. -/
def packagePath : Pattern :=
  tokenBetween quotationMark quotationMark ['\n'] <|> tokenBetween backtick backtick []

/-- A package path and the name before it, if any. -/
def packageSpec : Pattern :=
  optional ((only '.' <|> identifier) ++ someBlanks) ++ packagePath

/-- Everything in parentheses, in which only package paths count. -/
def packageBlock : Pattern :=
  only '(' ++
    many (packagePath <|> lineComment <|> blockComment <|> noneOf [')', quotationMark, backtick]) ++
    only ')'

/-- After `import`: a block or a single package. -/
def afterPackageImport : Pattern :=
  blanks ++ (packageBlock <|> packageSpec)

end ImportChart.Statement
