import ImportChart.Language.Profile
import ImportChart.Proofs.Language.Lexical

/-!
# Comments

Comments as they may be written: with any text on their line, or with any text in which the closing
mark does not occur. Whatever else the text holds (quotes, parentheses, the openings of other
comments, statements), the pattern for the comment reads all of it and nothing after it.

A `Comment` belongs to a language. It is read by the hidden text of the language, where a comment on
a line must be followed by a line end or by the end of the text (`Comment.reads`).
-/

namespace ImportChart

/-- A text without a line end. -/
structure LineText where
  text : List Char
  no_lineEnd : '\n' ∉ text

/-- A text in which no block comment is closed. -/
structure BlockText where
  text : List Char
  no_close : ¬ ['*', '/'] <:+: text

/-- No line goes on at the start of a text. -/
def EndsLine (rest : List Char) : Prop :=
  StopsAt (fun c => decide (c ≠ '\n')) rest

theorem endsLine_newline (rest : List Char) : EndsLine ('\n' :: rest) :=
  stopsAt_cons.mpr rfl

theorem endsLine_nil : EndsLine [] :=
  stopsAt_nil _

namespace Pattern

variable {rest : List Char}

/-- The characters of a line are read up to its end. -/
theorem reads_line (line : LineText) (h : EndsLine rest) :
    (chars fun c => decide (c ≠ '\n')).Reads line.text [] rest := by
  refine reads_chars (fun c hc => decide_eq_true ?_) h
  rintro rfl
  exact line.no_lineEnd hc

theorem reads_lineComment (body : LineText) (h : EndsLine rest) :
    lineComment.Reads (['/', '/'] ++ body.text) [] rest :=
  (reads_keyword "//" (body.text ++ rest)).seq (reads_line body h)

theorem reads_hashComment (body : LineText) (h : EndsLine rest) :
    hashComment.Reads (['#'] ++ body.text) [] rest :=
  (reads_only '#' (body.text ++ rest)).seq (reads_line body h)

/-- A closing mark that starts inside a text does not reach into the mark behind it. -/
theorem not_close_prefix {c : Char} {cs : List Char} (h : ¬ ['*', '/'] <:+: c :: cs)
    (rest : List Char) :
    ¬ ['*', '/'] <+: c :: cs ++ (['*', '/'] ++ rest) := by
  intro hprefix
  obtain ⟨rfl, hslash⟩ := List.cons_prefix_cons.mp hprefix
  cases cs with
  | nil =>
    obtain ⟨hstar, -⟩ := List.cons_prefix_cons.mp hslash
    exact absurd hstar (by decide)
  | cons d ds =>
    obtain ⟨rfl, -⟩ := List.cons_prefix_cons.mp hslash
    exact h ⟨[], ds, rfl⟩

theorem reads_upTo_close (body : BlockText) (rest : List Char) :
    (upTo "*/").Reads body.text [] (['*', '/'] ++ rest) := by
  obtain ⟨text, hbody⟩ := body
  induction text with
  | nil =>
    have hclosed : (notBefore ['*', '/']).Refuses (['*', '/'] ++ rest) := rfl
    exact (hclosed.seq anyChar).many rfl
  | cons c cs ih =>
    have hrest : ¬ ['*', '/'] <:+: cs := fun hclose =>
      hbody (hclose.trans (List.suffix_cons c cs).isInfix)
    have hmark : ¬ ['*', '/'].isPrefixOf (c :: cs ++ (['*', '/'] ++ rest)) = true := fun hprefix =>
      not_close_prefix hbody rest (List.isPrefixOf_iff_prefix.mp hprefix)
    have hopen : (notBefore ['*', '/']).Reads [] [] ([c] ++ (cs ++ (['*', '/'] ++ rest))) :=
      ⟨[], if_neg hmark, rfl⟩
    have hchar : anyChar.Reads [c] [] (cs ++ (['*', '/'] ++ rest)) := reads_char rfl _
    have hpiece := hopen.seq hchar
    exact hpiece.many (ih hrest) rfl

theorem reads_blockComment (body : BlockText) (rest : List Char) :
    blockComment.Reads (['/', '*'] ++ body.text ++ ['*', '/']) [] rest :=
  ((reads_keyword "/*" _).seq (reads_upTo_close body rest)).seq (reads_keyword "*/" rest)

/-- A block comment does not start like a comment on a line. -/
theorem refuses_lineComment_block (rest : List Char) :
    lineComment.Refuses (['/', '*'] ++ rest) := by
  have hmarks : (keyword "//").Refuses (['/', '*'] ++ rest) := rfl
  exact hmarks.seq _

end Pattern

/-- A comment of a language: from a hash to the end of the line in Python, and in the other
languages from two slashes to the end of the line or between the marks of a block. -/
inductive Comment : Language → Type where
  | hash (body : LineText) : Comment .python
  | slashes {language : Language} (h : language ≠ .python) (body : LineText) : Comment language
  | block {language : Language} (h : language ≠ .python) (body : BlockText) : Comment language

namespace Comment

variable {language : Language} {rest : List Char}

def text : Comment language → List Char
  | .hash body => ['#'] ++ body.text
  | .slashes _ body => ['/', '/'] ++ body.text
  | .block _ body => ['/', '*'] ++ body.text ++ ['*', '/']

theorem text_ne_nil (comment : Comment language) : comment.text ≠ [] := by
  cases comment with
  | hash => exact List.cons_ne_nil _ _
  | slashes => exact List.cons_ne_nil _ _
  | block => exact List.cons_ne_nil _ _

open Pattern

/-- Comments of both kinds are tried first in every language that has them. -/
theorem exists_hidden_eq (h : language ≠ .python) :
    ∃ others, language.profile.hidden = (lineComment <|> blockComment <|> others) := by
  cases language with
  | javascript => exact ⟨_, rfl⟩
  | python => exact absurd rfl h
  | cpp => exact ⟨_, rfl⟩
  | java => exact ⟨_, rfl⟩
  | go => exact ⟨_, rfl⟩

/-- A comment hides all of its text, whatever it holds. -/
theorem reads (comment : Comment language) (h : EndsLine rest) :
    language.profile.hidden.Reads comment.text [] rest := by
  cases comment with
  | hash body => exact (reads_hashComment body h).left _
  | slashes hlanguage body =>
    obtain ⟨others, hhidden⟩ := exists_hidden_eq hlanguage
    rw [hhidden]
    exact (reads_lineComment body h).left _
  | block hlanguage body =>
    obtain ⟨others, hhidden⟩ := exists_hidden_eq hlanguage
    have hslashes : lineComment.Refuses (['/', '*'] ++ body.text ++ ['*', '/'] ++ rest) := by
      rw [List.append_assoc, List.append_assoc]
      exact refuses_lineComment_block _
    rw [hhidden]
    exact ((reads_blockComment body rest).left others).right hslashes

end Comment

end ImportChart
