import ImportChart.Proofs.Language.Comment
import ImportChart.Proofs.Reference.Passage

/-!
# Import declarations in Go

A declaration names one package, or any number of packages in parentheses. Between the parentheses
stand package specs, comments, white space and semicolons, in any order, and the reader keeps only
the package paths. Paths and comments may hold the characters that mean something to the reader: a
path may hold a parenthesis or two slashes, and a comment quotation marks, parentheses and whole
declarations.

The reader takes a block piece by piece, and each piece by the first of four patterns that matches.
So a block is read by one lemma for each kind of part (`BlockPart.reads`), whatever the parts behind
it are, and the closing parenthesis is the first character that no pattern reads.
-/

namespace ImportChart.Go

open Pattern Statement Scan

variable {rest : List Char}

/-! ## Package specs -/

/-- The path of a package: in quotation marks on one line, or in backticks over any number of
lines. -/
inductive PackagePath where
  | interpreted (path : List Char) (ne_nil : path ≠ []) (h : ∀ c ∈ path, c ∉ [quotationMark, '\n'])
  | raw (path : List Char) (ne_nil : path ≠ []) (h : backtick ∉ path)

namespace PackagePath

/-- The path without its marks. -/
def token : PackagePath → List Char
  | .interpreted path _ _ | .raw path _ _ => path

def text : PackagePath → List Char
  | .interpreted path _ _ => [quotationMark] ++ path ++ [quotationMark]
  | .raw path _ _ => [backtick] ++ path ++ [backtick]

theorem stopsAt {p : Char → Bool} (path : PackagePath)
    (h : p quotationMark = false ∧ p backtick = false) (rest : List Char) :
    StopsAt p (path.text ++ rest) := by
  cases path with
  | interpreted => exact stopsAt_cons.mpr h.1
  | raw => exact stopsAt_cons.mpr h.2

theorem reads (path : PackagePath) (rest : List Char) :
    packagePath.Reads path.text [path.token] rest := by
  cases path with
  | interpreted path hne h => exact (reads_tokenBetween hne h rest).left _
  | raw path hne h =>
    have hinside : ∀ c ∈ path, c ∉ [backtick] := by
      intro c hc
      rw [List.mem_singleton]
      rintro rfl
      exact h hc
    exact (reads_tokenBetween hne hinside rest).right (refuses_of_starts rfl rfl)

end PackagePath

theorem reads_packagePath_iff {text : List Char} {tokens : List (List Char)} :
    packagePath.Reads text tokens rest ↔
      ∃ path : PackagePath, text = path.text ∧ tokens = [path.token] := by
  constructor
  · intro h
    rcases reads_either_iff.mp h with h | ⟨-, h⟩
    · obtain ⟨path, hne, hinside, rfl, rfl⟩ := reads_tokenBetween_iff.mp h
      exact ⟨.interpreted path hne hinside, rfl, rfl⟩
    · obtain ⟨path, hne, hinside, rfl, rfl⟩ := reads_tokenBetween_iff.mp h
      exact ⟨.raw path hne fun hmem => hinside _ hmem (List.mem_singleton_self _), rfl, rfl⟩
  · rintro ⟨path, rfl, rfl⟩
    exact path.reads rest

/-- The name under which a package is known in a file. An underscore is an identifier. -/
inductive LocalName where
  | named (name : Identifier)
  | dot

def LocalName.text : LocalName → List Char
  | .named name => name.text
  | .dot => ['.']

/-- A package path with the name before it, if any, and the blanks between them. -/
structure PackageSpec where
  localName : Option (LocalName × SomeChars isBlank)
  path : PackagePath

/-- What stands before the path. -/
def PackageSpec.lead (spec : PackageSpec) : List Char :=
  match spec.localName with
  | none => []
  | some (name, blanks) => name.text ++ blanks.text

def PackageSpec.text (spec : PackageSpec) : List Char :=
  spec.lead ++ spec.path.text

/-- A local name does not start with a character outside of names. -/
theorem LocalName.stopsAt {p : Char → Bool} (name : LocalName)
    (hname : ∀ c, isIdentifierChar c = true → p c = false) (hdot : p '.' = false)
    (rest : List Char) : StopsAt p (name.text ++ rest) := by
  cases name with
  | named name => exact name.stopsAt hname rest
  | dot => exact stopsAt_cons.mpr hdot

theorem LocalName.reads (name : LocalName) (hrest : StopsAt isIdentifierChar rest) :
    (only '.' <|> identifier).Reads name.text [] rest := by
  cases name with
  | named name =>
    have hdot : (only '.').Refuses (name.text ++ rest) := by
      refine refuses_of_stopsAt rfl (name.stopsAt (fun c hc => decide_eq_false ?_) rest)
      exact ne_of_class hc (by decide)
    exact (reads_identifier name hrest).right hdot
  | dot => exact (reads_only '.' rest).left identifier

theorem PackageSpec.stopsAt {p : Char → Bool} (spec : PackageSpec)
    (hname : ∀ c, isIdentifierChar c = true → p c = false)
    (h : p '.' = false ∧ p quotationMark = false ∧ p backtick = false) (rest : List Char) :
    StopsAt p (spec.text ++ rest) := by
  obtain ⟨localName, path⟩ := spec
  cases localName with
  | none => exact path.stopsAt h.2 rest
  | some lead =>
    obtain ⟨name, blanks⟩ := lead
    simp only [PackageSpec.text, PackageSpec.lead, List.append_assoc]
    exact name.stopsAt hname h.1 _

theorem PackageSpec.reads (spec : PackageSpec) (rest : List Char) :
    packageSpec.Reads spec.text [spec.path.token] rest := by
  obtain ⟨localName, path⟩ := spec
  have hpath := path.reads rest
  cases localName with
  | none =>
    have hname : (only '.' <|> identifier).Refuses (path.text ++ rest) :=
      refuses_of_stopsAt rfl (path.stopsAt ⟨rfl, rfl⟩ rest)
    exact (hname.seq someBlanks).optional.seq hpath
  | some lead =>
    obtain ⟨name, blanks⟩ := lead
    have hblanks : StopsAt isBlank (path.text ++ rest) := path.stopsAt ⟨rfl, rfl⟩ rest
    have hname : StopsAt isIdentifierChar (blanks.text ++ (path.text ++ rest)) :=
      blanks.stopsAt (fun _ => isIdentifierChar_of_isBlank) _
    have hlead := (name.reads hname).seq (reads_someChars blanks.isOf blanks.ne_nil hblanks)
    exact hlead.optional.seq hpath

/-- What is read as a package spec is one. -/
theorem reads_packageSpec_iff {text : List Char} {tokens : List (List Char)} :
    packageSpec.Reads text tokens rest ↔
      ∃ spec : PackageSpec, text = spec.text ∧ tokens = [spec.path.token] := by
  constructor
  · intro h
    obtain ⟨lead, _, found, _, rfl, rfl, hlead, hpath⟩ := reads_seq_iff.mp h
    obtain ⟨path, rfl, rfl⟩ := reads_packagePath_iff.mp hpath
    rcases reads_either_iff.mp hlead with hlead | ⟨-, hlead⟩
    · obtain ⟨name, blanks, _, _, rfl, rfl, hname, hblanks⟩ := reads_seq_iff.mp hlead
      obtain ⟨rfl, hne, hall, -⟩ := reads_someChars_iff.mp hblanks
      rcases reads_either_iff.mp hname with hname | ⟨-, hname⟩
      · obtain ⟨c, hc, rfl, rfl⟩ := reads_char_iff.mp hname
        obtain rfl := of_decide_eq_true hc
        exact ⟨⟨some (.dot, ⟨⟨blanks, hall⟩, hne⟩), path⟩, rfl, rfl⟩
      · obtain ⟨rfl, hne', hall', -⟩ := reads_someChars_iff.mp hname
        exact ⟨⟨some (.named ⟨name, hne', hall'⟩, ⟨⟨blanks, hall⟩, hne⟩), path⟩, rfl, rfl⟩
    · obtain ⟨rfl, rfl⟩ := reads_nothing_iff.mp hlead
      exact ⟨⟨none, path⟩, rfl, rfl⟩
  · rintro ⟨spec, rfl, rfl⟩
    exact spec.reads rest

/-! ## Blocks -/

/-- One piece of a block. -/
def blockPiece : Pattern :=
  packagePath <|> lineComment <|> blockComment <|> noneOf [')', quotationMark, backtick]

theorem packageBlock_eq : packageBlock = only '(' ++ many blockPiece ++ only ')' := rfl

/-- A part of a block. A comment on a line comes with the line end behind it. -/
inductive BlockPart where
  | package (spec : PackageSpec)
  | slashes (body : LineText)
  | block (body : BlockText)
  | whiteSpace (c : Char) (h : isWhiteSpace c = true)
  | semicolon

namespace BlockPart

def text : BlockPart → List Char
  | .package spec => spec.text
  | .slashes body => ['/', '/'] ++ body.text ++ ['\n']
  | .block body => ['/', '*'] ++ body.text ++ ['*', '/']
  | .whiteSpace c _ => [c]
  | .semicolon => [';']

/-- The paths of a part. -/
def paths : BlockPart → List (List Char)
  | .package spec => [spec.path.token]
  | .slashes _ | .block _ | .whiteSpace _ _ | .semicolon => []

end BlockPart

/-- The characters that start no piece of a block but themselves. -/
def isPassedOver (c : Char) : Bool :=
  !([')', quotationMark, backtick, '/'].contains c)

theorem isPassedOver_of_not_special {p : Char → Bool}
    (hp : [')', quotationMark, backtick, '/'].any p = false)
    {c : Char} (h : p c = true) : isPassedOver c = true := by
  rw [isPassedOver, Bool.not_eq_true', ← Bool.not_eq_true, List.contains_iff_mem]
  intro hmem
  exact List.any_eq_false.mp hp c hmem h

theorem reads_blockPiece_char {c : Char} (h : isPassedOver c = true) (rest : List Char) :
    blockPiece.Reads [c] [] rest := by
  have hc : c ≠ ')' ∧ c ≠ quotationMark ∧ c ≠ backtick ∧ c ≠ '/' := by
    simpa [isPassedOver] using h
  obtain ⟨hparenthesis, hquotationMark, hbacktick, hslash⟩ := hc
  have hclass : (!List.contains [')', quotationMark, backtick] c) = true := by
    simp [hparenthesis, hquotationMark, hbacktick]
  have hpath : packagePath.Refuses ([c] ++ rest) := by
    refine refuses_of_starts rfl ?_
    simp [packagePath, tokenBetween, starts, only, isProductive, hquotationMark, hbacktick]
  have hline : lineComment.Refuses ([c] ++ rest) := by
    refine refuses_of_starts rfl ?_
    simp [lineComment, keyword, starts, isProductive, Ne.symm hslash]
  have hblock : blockComment.Refuses ([c] ++ rest) := by
    refine refuses_of_starts rfl ?_
    simp [blockComment, keyword, starts, isProductive, Ne.symm hslash]
  exact (((reads_char hclass rest).right hblock).right hline).right hpath

/-- Characters passed over may stand before whatever a block goes on with. -/
theorem reads_many_passedOver {text more : List Char} {tokens : List (List Char)}
    (htext : ∀ c ∈ text, isPassedOver c = true) (hmore : (many blockPiece).Reads more tokens rest) :
    (many blockPiece).Reads (text ++ more) tokens rest := by
  induction text with
  | nil => exact hmore
  | cons c cs ih =>
    have hc := reads_blockPiece_char (htext c List.mem_cons_self) (cs ++ more ++ rest)
    exact hc.many (ih fun d hd => htext d (List.mem_cons_of_mem c hd)) rfl

theorem PackageSpec.isPassedOver_lead (spec : PackageSpec) :
    ∀ c ∈ spec.lead, isPassedOver c = true := by
  obtain ⟨localName, path⟩ := spec
  cases localName with
  | none => exact nofun
  | some lead =>
    obtain ⟨name, blanks⟩ := lead
    intro c hc
    rcases List.mem_append.mp hc with hc | hc
    · cases name with
      | named name => exact isPassedOver_of_not_special rfl (name.isIdentifierChar c hc)
      | dot =>
        obtain rfl := List.mem_singleton.mp hc
        decide
    · exact isPassedOver_of_not_special rfl (blanks.isOf c hc)

/-- A part of a block is read as its paths, whatever the block goes on with. -/
theorem BlockPart.reads (part : BlockPart) {more : List Char} {tokens : List (List Char)}
    (hmore : (many blockPiece).Reads more tokens rest) :
    (many blockPiece).Reads (part.text ++ more) (part.paths ++ tokens) rest := by
  cases part with
  | package spec =>
    have hpath : blockPiece.Reads spec.path.text [spec.path.token] (more ++ rest) :=
      (spec.path.reads (more ++ rest)).left _
    have hread := reads_many_passedOver spec.isPassedOver_lead (hpath.many hmore rfl)
    rw [← List.append_assoc] at hread
    exact hread
  | slashes body =>
    have hpath : packagePath.Refuses (['/', '/'] ++ body.text ++ ('\n' :: (more ++ rest))) :=
      refuses_of_starts rfl rfl
    have hcomment : blockPiece.Reads (['/', '/'] ++ body.text) [] ('\n' :: more ++ rest) :=
      ((reads_lineComment body (endsLine_newline (more ++ rest))).left _).right hpath
    have hlineEnd : ∀ c ∈ ['\n'], isPassedOver c = true := List.all_eq_true.mp rfl
    have hread := hcomment.many (reads_many_passedOver hlineEnd hmore) rfl
    rw [text, List.append_assoc]
    exact hread
  | block body =>
    have hpath : packagePath.Refuses (['/', '*'] ++ body.text ++ ['*', '/'] ++ (more ++ rest)) :=
      refuses_of_starts rfl rfl
    have hline : lineComment.Refuses (['/', '*'] ++ body.text ++ ['*', '/'] ++ (more ++ rest)) := by
      rw [List.append_assoc, List.append_assoc]
      exact refuses_lineComment_block _
    have hcomment : blockPiece.Reads (['/', '*'] ++ body.text ++ ['*', '/']) [] (more ++ rest) :=
      (((reads_blockComment body (more ++ rest)).left _).right hline).right hpath
    exact hcomment.many hmore rfl
  | whiteSpace c h =>
    have hc : ∀ d ∈ [c], isPassedOver d = true := by
      intro d hd
      obtain rfl := List.mem_singleton.mp hd
      exact isPassedOver_of_not_special rfl h
    exact reads_many_passedOver hc hmore
  | semicolon =>
    have hsemicolon : ∀ c ∈ [';'], isPassedOver c = true := List.all_eq_true.mp rfl
    exact reads_many_passedOver hsemicolon hmore

theorem reads_packageBlock (parts : List BlockPart) (rest : List Char) :
    packageBlock.Reads (['('] ++ parts.flatMap BlockPart.text ++ [')'])
      (parts.flatMap BlockPart.paths) rest := by
  have hparts :
      (many blockPiece).Reads (parts.flatMap BlockPart.text) (parts.flatMap BlockPart.paths)
      ([')'] ++ rest) := by
    induction parts with
    | nil => exact Refuses.many (refuses_of_starts rfl rfl) rfl
    | cons part parts ih => exact part.reads ih
  have hblock := ((reads_only '(' _).seq hparts).seq (reads_only ')' rest)
  rw [List.append_nil, List.nil_append] at hblock
  rw [packageBlock_eq]
  exact hblock

/-! ## Declarations -/

/-- What a declaration imports. -/
inductive Imported where
  | package (spec : PackageSpec)
  | block (parts : List BlockPart)

namespace Imported

def text : Imported → List Char
  | .package spec => spec.text
  | .block parts => ['('] ++ parts.flatMap BlockPart.text ++ [')']

def paths : Imported → List (List Char)
  | .package spec => [spec.path.token]
  | .block parts => parts.flatMap BlockPart.paths

theorem stopsAt_isBlank (imported : Imported) (rest : List Char) :
    StopsAt isBlank (imported.text ++ rest) := by
  cases imported with
  | package spec => exact spec.stopsAt (fun _ => isBlank_of_isIdentifierChar) ⟨rfl, rfl, rfl⟩ rest
  | block parts => exact stopsAt_cons.mpr rfl

theorem reads (imported : Imported) (rest : List Char) :
    (packageBlock <|> packageSpec).Reads imported.text imported.paths rest := by
  cases imported with
  | package spec =>
    have hparenthesis : (only '(').Refuses (spec.text ++ rest) := by
      refine refuses_of_stopsAt rfl
        (spec.stopsAt (fun c hc => decide_eq_false ?_) ⟨rfl, rfl, rfl⟩ rest)
      exact ne_of_class hc (by decide)
    exact (spec.reads rest).right ((hparenthesis.seq _).seq (only ')'))
  | block parts => exact (reads_packageBlock parts rest).left packageSpec

end Imported

/-- An import declaration on a line of its own, which a block may continue on more lines. -/
structure Declaration where
  indent : Chars isBlank
  between : Chars isBlank
  imported : Imported

namespace Declaration

def text (declaration : Declaration) : List Char :=
  declaration.indent.text ++
    ("import".toList ++ (declaration.between.text ++ declaration.imported.text)) ++ ['\n']

def paths (declaration : Declaration) : List (List Char) :=
  declaration.imported.paths

def rule : Rule where
  anchor := .lineStart
  keyword := "import"
  tail := afterPackageImport

theorem reads (declaration : Declaration) (rest : List Char) :
    rule.statement.Reads ("import".toList ++
      (declaration.between.text ++ declaration.imported.text))
      declaration.paths rest := by
  have hblanks := declaration.imported.stopsAt_isBlank rest
  have htail := (reads_chars declaration.between.isOf hblanks).seq (declaration.imported.reads rest)
  exact @Rule.reads rule _ rest _ rfl htail

theorem collects (declaration : Declaration) {state : State} (rest : List Char)
    (hadmits : Anchor.lineStart.admits state.position = true) :
    Collects Language.go.profile state declaration.text declaration.paths
      state.interpolations rest := by
  have hindent : ∀ c ∈ declaration.indent.text, isGap c = true := fun c hc =>
    isGap_of_isBlank (declaration.indent.isOf c hc)
  have hadmitted := Anchor.admits_lineStart hadmits declaration.indent.isOf
  have hblanks := @Collects.of_gap state ("import".toList ++ (declaration.between.text ++
    declaration.imported.text) ++ (['\n'] ++ rest)) declaration.indent.text .go hindent
  have hstatement : Collects Language.go.profile ⟨state.position.afterText declaration.indent.text,
      state.interpolations⟩ ("import".toList ++
        (declaration.between.text ++ declaration.imported.text))
      declaration.paths state.interpolations (['\n'] ++ rest) :=
    Collects.of_rule [] [] rfl rfl nofun hadmitted (declaration.reads (['\n'] ++ rest))
  have hline := hblanks.append hstatement
  have hended := hline.append Collects.of_lineEnd
  rw [List.nil_append, List.append_nil] at hended
  exact hended

end Declaration

/-- Declarations, each ended by a line end. -/
def fileText (declarations : List Declaration) : List Char :=
  declarations.flatMap Declaration.text

theorem collects_declarations (declarations : List Declaration) (state : State)
    (hadmits : Anchor.lineStart.admits state.position = true) :
    Collects Language.go.profile state (fileText declarations)
      (declarations.flatMap Declaration.paths)
      state.interpolations [] := by
  induction declarations generalizing state with
  | nil => exact .nil state []
  | cons declaration more ih =>
    have hfirst := declaration.collects (fileText more ++ []) hadmits
    have hadmitted := Anchor.admits_lineStart_concat state.position (declaration.indent.text ++
      ("import".toList ++ (declaration.between.text ++ declaration.imported.text)))
    exact hfirst.append (ih ⟨_, state.interpolations⟩ hadmitted)

/-- The packages that declarations import are found, each where it first occurs, and nothing is
found in a comment. -/
theorem extract_declarations (declarations : List Declaration) :
    (Language.go.extract (String.ofList (fileText declarations))).map Reference.token =
      firsts ((declarations.flatMap Declaration.paths).map String.ofList) :=
  (Language.map_token_extract (collects_declarations declarations .start rfl)).1

-- the comments hold a path, a closing parenthesis and a quotation mark that nothing closes
example :
    (Language.go.extract "import (\n// \"a\" )\n/* \" */ _ \"b)\"; . \"c\"\n)\n").map
      Reference.token =
    ["b)", "c"] := by
  decide +kernel

end ImportChart.Go
