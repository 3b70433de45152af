import ImportChart.Proofs.Language.Lexical
import ImportChart.Proofs.Reference.Passage

/-!
# Steps of a scan over JavaScript

What a scan of JavaScript collects in one step: a character of code that opens and closes nothing,
and what one of the three rules reads. The lemmas leave the text around a step open, so they hold
inside of an interpolation as at the top of a file.
-/

namespace ImportChart.Javascript

open Pattern Statement Scan

/-- A quoted token in parentheses, with gaps around them. -/
structure Call where
  before : Gap
  opened : Gap
  quoted : QuotedToken
  closed : Gap

def Call.text (call : Call) : List Char :=
  call.before.text ++ ['('] ++ call.opened.text ++ call.quoted.text ++ call.closed.text ++ [')']

variable {state : State} {rest : List Char}

theorem reads_call (call : Call) (rest : List Char) :
    afterRequire.Reads call.text [call.quoted.token] rest := by
  have hopening : StopsAt isGap (['('] ++ (call.opened.text ++ (call.quoted.text ++
      (call.closed.text ++ ([')'] ++ rest))))) := stopsAt_cons.mpr rfl
  have hquoted : StopsAt isGap (call.quoted.text ++ (call.closed.text ++ ([')'] ++ rest))) :=
    call.quoted.stopsAt ⟨rfl, rfl⟩ _
  have hclosing : StopsAt isGap ([')'] ++ rest) := stopsAt_cons.mpr rfl
  have hopen :=
    ((reads_gap call.before hopening).seq (reads_only '(' _)).seq (reads_gap call.opened hquoted)
  have htoken := (hopen.seq (reads_quoted call.quoted _)).seq (reads_gap call.closed hclosing)
  exact htoken.seq (reads_only ')' rest)

/-- A character of code that opens and closes nothing is passed over. -/
theorem collects_char {c : Char} (hs : Language.javascript.profile.starts c = false)
    (hc : c ∉ [backtick, '{', '}']) :
    Collects Language.javascript.profile state [c] [] state.interpolations rest :=
  Collects.of_code hs (readCode_of_not_mem hc _ ([] ++ rest)) rfl

/-! ## Rules -/

def importRule : Rule where
  anchor := .word
  keyword := "import"
  tail := afterImport

def exportRule : Rule where
  anchor := .word
  keyword := "export"
  tail := afterExport

def requireRule : Rule where
  anchor := .word
  keyword := "require"
  tail := afterRequire

theorem mem_rules_iff {rule : Rule} :
    rule ∈ Language.javascript.profile.rules ↔
      rule = importRule ∨ rule = exportRule ∨ rule = requireRule := by
  change rule ∈ [importRule, exportRule, requireRule] ↔ _
  simp only [List.mem_cons, List.not_mem_nil, or_false]

/-- What a rule reads is collected where a word may start. The keywords start with different
letters, so no rule stands in the way of a later one. -/
theorem collects_rule {rule : Rule} {text : List Char} {tokens : List (List Char)}
    (hrule : rule ∈ Language.javascript.profile.rules)
    (hadmits : Anchor.word.admits state.position = true) (h : rule.tail.Reads text tokens rest) :
    Collects Language.javascript.profile state (rule.keyword.toList ++ text) tokens
      state.interpolations rest := by
  rcases mem_rules_iff.mp hrule with rfl | rfl | rfl
  · exact Collects.of_rule [] [exportRule, requireRule] rfl rfl nofun hadmits (Rule.reads rfl h)
  · exact Collects.of_rule [importRule] [requireRule] rfl rfl (by decide) hadmits (Rule.reads rfl h)
  · exact Collects.of_rule [importRule, exportRule] [] rfl rfl (by decide) hadmits
      (Rule.reads rfl h)

end ImportChart.Javascript
