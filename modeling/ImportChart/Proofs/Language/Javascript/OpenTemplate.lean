import ImportChart.Proofs.Language.Javascript.Template

/-!
# Templates that are left open

Template text ends at the first backtick or leads into the first interpolation that it comes to. It
may come to neither: the text of the file ends before, with a backslash as its last character
perhaps. Then nothing of it is read as template text, so the backtick or the brace before it stands
alone, and what follows is code (`readTemplate_eq_iff`).
-/

namespace ImportChart.Javascript

open Pattern Scan

/-- Whether template text comes to a backtick or to an interpolation. A character behind a backslash
is neither. -/
def meetsEnd : List Char → Bool
  | [] => false
  | ['\\'] => false
  | '\\' :: _ :: rest => meetsEnd rest
  | c :: rest =>
    decide (c = backtick) || (decide (c = '$') && ['{'].isPrefixOf rest) || meetsEnd rest

/-- What stands ahead where template text stops: a backtick or an interpolation if it comes to one,
else the end. -/
def StopsTemplate (meets : Bool) (ahead : List Char) : Prop :=
  if meets then ∃ rest, ahead = [backtick] ++ rest ∨ ahead = ['$', '{'] ++ rest
  else ahead = [] ∨ ahead = ['\\']

/-- A dollar sign that opens no interpolation is template text. -/
theorem reads_dollar {rest : List Char} (h : ¬ ['{'] <+: rest) :
    templatePiece.Reads ['$'] [] rest := by
  have hescape : (only '\\' ++ anyChar).Refuses (['$'] ++ rest) := refuses_of_starts rfl rfl
  have hplain : (noneOf [backtick, '$', '\\']).Refuses (['$'] ++ rest) := refuses_of_starts rfl rfl
  have hbefore : (notBefore ['{']).Reads [] [] rest :=
    ⟨[], if_neg (mt List.isPrefixOf_iff_prefix.mp h), rfl⟩
  exact (((reads_only '$' rest).seq hbefore).right hplain).right hescape

/-- Template text is read up to the first backtick or interpolation, and else up to where the text
ends. -/
theorem exists_reads_templateText (input : List Char) : ∃ skipped ahead, input = skipped ++ ahead ∧
    templateText.Reads skipped [] ahead ∧ StopsTemplate (meetsEnd input) ahead := by
  -- a piece of template text stands before what is read behind it
  have behind : ∀ {piece rest : List Char} {meets : Bool}, templatePiece.Reads piece [] rest →
      (∃ skipped ahead, rest = skipped ++ ahead ∧ templateText.Reads skipped [] ahead ∧
        StopsTemplate meets ahead) →
      ∃ skipped ahead, piece ++ rest = skipped ++ ahead ∧ templateText.Reads skipped [] ahead ∧
        StopsTemplate meets ahead := by
    rintro piece rest meets hpiece ⟨skipped, ahead, rfl, hmore, hstops⟩
    exact ⟨piece ++ skipped, ahead, (List.append_assoc _ _ _).symm, hpiece.many hmore rfl, hstops⟩
  fun_induction meetsEnd input with
  | case1 => exact ⟨[], [], rfl, Refuses.many rfl rfl, .inl rfl⟩
  | case2 => exact ⟨[], ['\\'], rfl, Refuses.many rfl rfl, .inr rfl⟩
  | case3 c rest ih => exact behind ((TemplateChar.escaped c).reads rest) ih
  | case4 c rest hlast hescape ih =>
    by_cases hbacktick : c = backtick
    · subst hbacktick
      exact ⟨[], _, rfl, (refuses_backtick rest).many rfl, _, .inl rfl⟩
    by_cases hdollar : c = '$'
    · subst hdollar
      by_cases hbrace : ['{'] <+: rest
      · obtain ⟨rest, rfl⟩ := hbrace
        exact ⟨[], _, rfl, (refuses_interpolation rest).many rfl, _, .inr rfl⟩
      · have hmeets : ['{'].isPrefixOf rest = false := by
          rw [← Bool.not_eq_true, List.isPrefixOf_iff_prefix]
          exact hbrace
        rw [hmeets]
        exact behind (reads_dollar hbrace) ih
    · have hbackslash : c ≠ '\\' := by
        intro hc
        cases rest with
        | nil => exact hlast hc rfl
        | cons d rest => exact hescape d rest hc rfl
      have hplain : c ∉ [backtick, '$', '\\'] := by simp [hbacktick, hdollar, hbackslash]
      rw [decide_eq_false hbacktick, decide_eq_false hdollar]
      exact behind ((TemplateChar.plain c hplain).reads rest) ih

/-- Behind template text stands no backtick and no opening of an interpolation, if it comes to
neither. -/
theorem StopsTemplate.refuses {ahead : List Char} (h : StopsTemplate false ahead) :
    (only backtick).Refuses ahead ∧ (word ['$', '{']).Refuses ahead := by
  rcases h with rfl | rfl
  · exact ⟨rfl, rfl⟩
  · exact ⟨refuses_of_starts rfl rfl, rfl⟩

/-- **Open template text is not read.** Template text is left as it is, with the interpolations
around it, exactly if it comes to no backtick and to no interpolation. -/
theorem readTemplate_eq_iff {interpolations : List Nat} {input : List Char} :
    readTemplate interpolations input = ⟨[], input, interpolations⟩ ↔ meetsEnd input = false := by
  obtain ⟨skipped, ahead, hinput, htext, hstops⟩ := exists_reads_templateText input
  constructor
  · intro hread
    have hrest : (readTemplate interpolations input).rest = input := congrArg Advance.rest hread
    rw [← Bool.not_eq_true]
    intro hmeets
    rw [hmeets] at hstops
    -- what is left behind the mark would be all of the text
    obtain ⟨rest, rfl | rfl⟩ := hstops
    · obtain ⟨lexemes, hend, _⟩ := readTemplate_of_end interpolations htext
      rw [hinput, ← List.append_assoc, hend] at hrest
      exact List.append_ne_nil_of_right_ne_nil skipped (List.cons_ne_nil _ _)
        (List.self_eq_append_left.mp hrest)
    · obtain ⟨lexemes, hopen, _⟩ := readTemplate_of_interpolation interpolations htext
      rw [hinput, ← List.append_assoc, hopen] at hrest
      exact List.append_ne_nil_of_right_ne_nil skipped (List.cons_ne_nil _ _)
        (List.self_eq_append_left.mp hrest)
  · intro hmeets
    rw [hmeets] at hstops
    obtain ⟨hbacktick, hbrace⟩ := hstops.refuses
    have hends : templateEnd.Refuses (skipped ++ ahead) := htext.seq_refuses hbacktick
    have hopens : templateInterpolation.Refuses (skipped ++ ahead) := htext.seq_refuses hbrace
    rw [Refuses] at hends hopens
    rw [hinput]
    simp only [readTemplate, hends, hopens]

end ImportChart.Javascript
