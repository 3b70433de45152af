import ImportChart.Proofs.Language.Go.PackageImport

/-!
# What stands behind a keyword

A statement may start only where its anchor admits it, so no identifier runs into its keyword from
the left. On the right nothing but the tail of the rule keeps the keyword apart: the character
behind the keyword is one that the tail starts with. For all rules of four languages this is a
blank, a line end or a mark, and never a character of an identifier
(`Language.starts_tail_of_isIdentifierChar`). The tail of an import in Go starts with blanks, if
any, and the name under which the package is known may follow at once.

`Scan.ReadsBy` says of a stop of a scan that a rule reads a statement there. Every reference is
found at such a stop (`Scan.exists_readsBy`). `Language.keyword_boundary` says what stands behind
the keyword there, and in which texts this is a character of an identifier.
-/

namespace ImportChart

open Pattern

/-! ## Statements in a scan -/

/-- A scan of a text reads a statement by a rule: at a stop with some text ahead, where nothing
hidden starts, the rule is the first that may start there and matches. -/
structure Scan.ReadsBy (profile : Profile) (input : List Char) (rule : Rule) (stop : Stop)
    (ahead : List Char) :
    Prop where
  stop_mem : ∃ before after,
    stops profile input = before ++ stop :: after ∧ ahead = textOfStops (stop :: after)
  hidden : profile.hidden.Refuses ahead
  first : ∃ earlier later, profile.rules = earlier ++ rule :: later ∧
    ∀ other ∈ earlier, other.anchor.admits stop.state.position = true →
    other.statement.Refuses ahead
  admits : rule.anchor.admits stop.state.position = true
  consumes : rule.statement.consume ahead = some ⟨stop.read.lexemes, stop.read.rest⟩

/-- Lexemes of which none is marked hold no token. -/
theorem tokensOf_eq_nil {lexemes : List Lexeme}
    (h : ∀ lexeme ∈ lexemes, lexeme.ReadBy fun _ => false) :
    tokensOf lexemes = [] := by
  refine List.filterMap_eq_nil_iff.mpr fun lexeme hlexeme => ?_
  cases h lexeme hlexeme with
  | plain c => rfl
  | token hp => cases hp

/-- Neither hidden text nor what stands before a keyword is marked. -/
theorem Language.marks_tails (language : Language) :
    language.profile.hidden.marksOnly (fun _ => false) = true ∧
      ∀ rule ∈ language.profile.rules,
      rule.lead.marksOnly (fun _ => false) = true ∧ rule.tail.isProductive = true := by
  cases language <;> decide

/-- Every reference of a text is found where a rule reads a statement. -/
theorem Scan.exists_readsBy {language : Language} {text : String} {reference : Reference}
    (h : reference ∈ language.mentions text) :
    ∃ rule stop ahead, ReadsBy language.profile text.toList rule stop ahead ∧
      reference ∈ stop.references := by
  obtain ⟨stop, hstop, hreference⟩ := List.mem_flatMap.mp h
  obtain ⟨before, after, hsplit⟩ := List.append_of_mem hstop
  obtain ⟨c, rest, hahead, hread⟩ := read_of_mem_stops language text.toList hsplit
  have htokens : tokensOf stop.read.lexemes ≠ [] := fun hnone =>
    List.ne_nil_of_mem hreference (locate_eq_nil hnone stop.state.position)
  rw [advance] at hread
  split at hread
  · next m hm =>
    rw [hread] at htokens
    exact absurd (tokensOf_eq_nil (readBy_of_mem_lexemes language.marks_tails.1 hm)) htokens
  · next hhidden =>
    split at hread
    · next m hm =>
      obtain ⟨earlier, rule, later, hrules, hrule, hearlier⟩ := List.findSome?_eq_some_iff.mp hm
      obtain ⟨hadmits, hconsumes⟩ := Option.ite_none_right_eq_some.mp hrule
      refine ⟨rule, stop, c :: rest,
        ⟨⟨before, after, hsplit, hahead.symm⟩, hhidden, ⟨earlier, later, hrules, ?_⟩,
        hadmits, ?_⟩, hreference⟩
      · intro other hother hadmitted
        have hnone := hearlier other hother
        rwa [if_pos hadmitted] at hnone
      · rw [hread]
        exact hconsumes
    · rw [hread] at htokens
      exact absurd (tokensOf_eq_nil (readBy_readCode _ _ c rest)) htokens

/-! ## Behind the keyword -/

/-- A statement is what stands before the keyword, the keyword, and at least one character that the
tail reads. -/
theorem Rule.exists_split_of_consume {rule : Rule} {ahead : List Char} {m : Match}
    (hlead : rule.lead.marksOnly (fun _ => false) = true) (htail : rule.tail.isProductive = true)
    (h : rule.statement.consume ahead = some m) : ∃ lead c more,
      ahead = lead ++ (rule.keyword.toList ++ c :: (more ++ m.rest)) ∧
      rule.lead.Reads lead [] (rule.keyword.toList ++ c :: (more ++ m.rest)) ∧
      rule.tail.Reads (c :: more) (tokensOf m.lexemes) m.rest := by
  obtain ⟨hahead, hreads⟩ := reads_of_consume h
  obtain ⟨front, text, _, tokens, htext, htokens, hfront, hread⟩ := reads_seq_iff.mp hreads
  obtain ⟨lead, word, found, _, rfl, rfl, hlead', hword⟩ := reads_seq_iff.mp hfront
  obtain ⟨rfl, rfl⟩ := reads_word_iff.mp hword
  obtain rfl : found = [] := by
    obtain ⟨lexemes, hconsume, rfl⟩ := hlead'
    exact tokensOf_eq_nil (readBy_of_mem_lexemes hlead hconsume)
  cases text with
  | nil =>
    obtain ⟨lexemes, hconsume, -⟩ := hread
    exact absurd (rest_length_lt htail hconsume) (Nat.lt_irrefl _)
  | cons c more =>
    rw [List.nil_append, List.nil_append] at htokens
    rw [htext, List.append_assoc, List.append_assoc] at hahead
    rw [htokens]
    exact ⟨lead, c, more, hahead, hlead', hread⟩

/-- A reading starts with a character that the pattern starts with. -/
theorem Pattern.Reads.starts {p : Pattern} {c : Char} {more rest : List Char}
    {tokens : List (List Char)} (h : p.Reads (c :: more) tokens rest) (hp : p.isProductive = true) :
    p.starts c = true := by
  cases hstarts : p.starts c with
  | true => rfl
  | false => exact absurd (refuses_of_starts hp hstarts) h.not_refuses

/-- In four languages no tail starts with a character of an identifier. -/
theorem Language.starts_tail_of_isIdentifierChar {language : Language}
    (hlanguage : language ≠ .go) {c : Char} (hc : isIdentifierChar c = true) :
    ∀ rule ∈ language.profile.rules, rule.tail.starts c = false := by
  have hgap : isGap c = false := isGap_of_isIdentifierChar hc
  have hblank : isBlank c = false := isBlank_of_isIdentifierChar hc
  have hmark : ∀ d, isIdentifierChar d = false → c ≠ d := fun d hd => ne_of_class hc hd
  have hparenthesis := hmark '(' (by decide)
  have hbrace := hmark '{' (by decide)
  have hstar := hmark '*' (by decide)
  have hangle := hmark '<' (by decide)
  have hapostrophe := hmark apostrophe (by decide)
  have hquotationMark := hmark quotationMark (by decide)
  have hquoted : quoted.starts c = false := by
    simp [quoted, tokenBetween, only, starts, isProductive, hapostrophe, hquotationMark]
  cases language with
  | javascript =>
    simp [Language.profile, javascriptProfile, Statement.afterImport, Statement.afterExport,
      Statement.afterRequire, Statement.importClause, Statement.fromClause, Statement.namedBindings,
      Statement.namespaceBinding, gap, someGap, only, chars, someChars, atLeastOnce,
      Pattern.optional, starts, isProductive, hgap, hquoted, hparenthesis, hbrace, hstar]
  | python =>
    simp [Language.profile, pythonProfile, Statement.afterModuleImport, Statement.afterFrom,
      Statement.afterImportFunction, blanks, someBlanks, only, chars, someChars, atLeastOnce,
      starts, isProductive, hblank, hparenthesis]
  | cpp =>
    simp [Language.profile, cppProfile, Statement.afterInclude, blanks, tokenBetween, only, chars,
      starts, isProductive, hblank, hangle, hquotationMark]
  | java =>
    simp [Language.profile, javaProfile, Statement.afterQualifiedImport, Statement.afterClassLookup,
      gap, someGap, only, chars, someChars, atLeastOnce, starts, isProductive, hgap, hparenthesis]
  | go => exact absurd rfl hlanguage

/-- What the tail of an import reads in Go, if it starts with a character of an identifier. -/
theorem Go.reads_afterPackageImport {c : Char} {more rest : List Char} {tokens : List (List Char)}
    (hc : isIdentifierChar c = true)
    (h : Statement.afterPackageImport.Reads (c :: more) tokens rest) :
    ∃ (name : Identifier) (blanks : SomeChars isBlank) (path : PackagePath),
      c :: more = name.text ++ (blanks.text ++ path.text) ∧ tokens = [path.token] := by
  obtain ⟨between, text, _, _, hsplit, rfl, hbetween, himported⟩ := reads_seq_iff.mp h
  obtain ⟨rfl, hall, -⟩ := reads_chars_iff.mp hbetween
  cases between with
  | cons d between =>
    obtain ⟨rfl, -⟩ := List.cons.inj hsplit
    exact absurd (hall c List.mem_cons_self) (Bool.eq_false_iff.mp (isBlank_of_isIdentifierChar hc))
  | nil =>
    obtain rfl : c :: more = text := hsplit
    have hblock : Statement.packageBlock.Refuses (c :: more ++ rest) := by
      refine refuses_of_starts rfl ?_
      have hparenthesis : c ≠ '(' := ne_of_class hc (by decide)
      simp [Statement.packageBlock, only, starts, isProductive, hparenthesis]
    rcases reads_either_iff.mp himported with himported | ⟨-, himported⟩
    · exact absurd hblock himported.not_refuses
    · obtain ⟨⟨localName, path⟩, htext, rfl⟩ := reads_packageSpec_iff.mp himported
      cases localName with
      | none =>
        -- a path starts with its mark
        have hstop : StopsAt isIdentifierChar (path.text ++ rest) :=
          path.stopsAt ⟨by decide, by decide⟩ rest
        rw [show path.text = c :: more from htext.symm, List.cons_append, stopsAt_cons, hc] at hstop
        cases hstop
      | some lead =>
        obtain ⟨name, blanks⟩ := lead
        cases name with
        | named name => exact ⟨name, blanks, path, htext.trans (List.append_assoc _ _ _), rfl⟩
        | dot =>
          have hdot : c = '.' := (List.cons.inj htext).1
          exact absurd hdot (ne_of_class hc (by decide))

/-- **What stands behind a keyword.** Every reference of a text is found where a rule reads a
statement. There a character stands behind the keyword of the rule, and it is no character of an
identifier, except in Go, where it is one exactly if the rest of an identifier, blanks and the path
of a package follow the keyword. Then the keyword is the beginning of a longer word, and the one
reference found is the path. -/
theorem Language.keyword_boundary (language : Language) (text : String) :
    (∀ reference ∈ language.mentions text, ∃ rule stop ahead,
        Scan.ReadsBy language.profile text.toList rule stop ahead ∧ reference ∈ stop.references) ∧
      ∀ rule stop ahead, Scan.ReadsBy language.profile text.toList rule stop ahead →
        ∃ lead c after, ahead = lead ++ (rule.keyword.toList ++ c :: after) ∧
          rule.lead.Reads lead [] (rule.keyword.toList ++ c :: after) ∧
          (isIdentifierChar c = true ↔ language = .go ∧
            ∃ (name : Identifier) (blanks : SomeChars isBlank) (path : Go.PackagePath),
              c :: after = name.text ++ (blanks.text ++ (path.text ++ stop.read.rest)) ∧
                stop.references.map Reference.token = [String.ofList path.token]) := by
  refine ⟨fun reference => Scan.exists_readsBy, fun rule stop ahead h => ?_⟩
  have hrule : rule ∈ language.profile.rules := by
    obtain ⟨earlier, later, hrules, -⟩ := h.first
    rw [hrules]
    exact List.mem_append_right _ List.mem_cons_self
  obtain ⟨hlead, htail⟩ := language.marks_tails.2 rule hrule
  obtain ⟨lead, c, more, hahead, hreads, hmore⟩ :=
    Rule.exists_split_of_consume hlead htail h.consumes
  refine ⟨lead, c, _, hahead, hreads, fun hc => ?_, ?_⟩
  · by_cases hlanguage : language = .go
    · subst hlanguage
      obtain rfl := List.mem_singleton.mp hrule
      obtain ⟨name, blanks, path, hsplit, htokens⟩ := Go.reads_afterPackageImport hc hmore
      refine ⟨rfl, name, blanks, path, ?_, ?_⟩
      · rw [← List.cons_append, hsplit, List.append_assoc, List.append_assoc]
      · rw [Scan.Stop.references, Scan.map_token_locate, htokens]
        rfl
    · have hstarts := Language.starts_tail_of_isIdentifierChar hlanguage hc rule hrule
      rw [hmore.starts htail] at hstarts
      cases hstarts
  · rintro ⟨-, name, blanks, path, hsplit, -⟩
    obtain ⟨d, ds, hname⟩ := List.exists_cons_of_ne_nil name.ne_nil
    rw [hname, List.cons_append] at hsplit
    refine name.isIdentifierChar c ?_
    rw [hname, (List.cons.inj hsplit).1]
    exact List.mem_cons_self

/-- A type with an embedded field whose type has a name that begins with a keyword, and a tag behind
it. -/
def embeddedField : String :=
  "type T struct \x7b\n\timporter \x60json:\"x\"\x60\n\x7d\n"

/-- Where the scan stands when it comes to the field, and what it reads there. -/
def embeddedFieldStop : Scan.Stop where
  state :=
    { position := { offset := 17, line := 2, last := some '\t', blankLine := true },
      interpolations := [] }
  read :=
    { lexemes := "importer \x60".toList.map .plain ++ [.token "json:\"x\"".toList, .plain backtick]
      rest := "\n\x7d\n".toList
      interpolations := [] }

/-- The tag is found, behind a keyword that is the beginning of the name. -/
theorem Language.keyword_boundary_embeddedField :
    (Language.go.extract embeddedField).map Reference.token = ["json:\"x\""] ∧
      isIdentifierChar 'e' = true ∧
      ∃ rule stop after,
        Scan.ReadsBy Language.go.profile embeddedField.toList rule stop
          (rule.keyword.toList ++ 'e' :: after) ∧
          rule.lead = .nothing ∧ stop.references.map Reference.token = ["json:\"x\""] := by
  have hsplit : Scan.stops Language.go.profile embeddedField.toList =
      (Scan.stops Language.go.profile embeddedField.toList).take 17 ++
        embeddedFieldStop :: (Scan.stops Language.go.profile embeddedField.toList).drop 18 := by
    decide +kernel
  have hahead : Go.Declaration.rule.keyword.toList ++ 'e' :: "r \x60json:\"x\"\x60\n\x7d\n".toList =
      Scan.textOfStops (embeddedFieldStop ::
        (Scan.stops Language.go.profile embeddedField.toList).drop 18) := by
    decide +kernel
  have hreads :
      Scan.ReadsBy Language.go.profile embeddedField.toList Go.Declaration.rule embeddedFieldStop
      (Go.Declaration.rule.keyword.toList ++ 'e' :: "r \x60json:\"x\"\x60\n\x7d\n".toList) :=
    { stop_mem := ⟨_, _, hsplit, hahead⟩
      hidden := refuses_of_starts rfl rfl
      first := ⟨[], [], rfl, nofun⟩
      admits := rfl
      consumes := by decide +kernel }
  exact ⟨by decide +kernel, by decide, _, _, _, hreads, rfl, by decide +kernel⟩

end ImportChart
