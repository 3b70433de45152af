import ImportChart.Language.Lexical
import ImportChart.Proofs.Pattern.Reading

/-!
# Gaps, names and quoted tokens

The small texts from which statements are written: gaps, identifiers, runs of any other class of
characters, and quoted tokens. Each comes with the proof that it is one, so a statement put together
from them is well formed, and with the lemma that the pattern for it reads it as it is. A gap, an
identifier and a run end where the next character is of another class; a quoted token ends at its
mark.
-/

namespace ImportChart

/-- Blanks and line ends, or nothing. -/
structure Gap where
  text : List Char
  isGap : ∀ c ∈ text, ImportChart.isGap c = true

/-- Blanks and line ends, at least one. -/
structure SomeGap extends Gap where
  ne_nil : text ≠ []

structure Identifier where
  text : List Char
  ne_nil : text ≠ []
  isIdentifierChar : ∀ c ∈ text, ImportChart.isIdentifierChar c = true

/-- Characters of a class, or nothing. -/
structure Chars (class' : Char → Bool) where
  text : List Char
  isOf : ∀ c ∈ text, class' c = true

/-- Characters of a class, at least one. -/
structure SomeChars (class' : Char → Bool) extends Chars class' where
  ne_nil : text ≠ []

/-- A token between two marks of one kind, on one line. -/
structure QuotedToken where
  mark : Char
  token : List Char
  isMark : mark = apostrophe ∨ mark = quotationMark
  ne_nil : token ≠ []
  inside : ∀ c ∈ token, c ≠ mark ∧ c ≠ '\n'

/-- The token with its marks. -/
def QuotedToken.text (quoted : QuotedToken) : List Char :=
  [quoted.mark] ++ quoted.token ++ [quoted.mark]

/-! ## Characters of different classes -/

theorem ne_of_class {p : Char → Bool} {c d : Char} (hc : p c = true)
    (hd : p d = false) : c ≠ d := by
  rintro rfl
  rw [hc] at hd
  cases hd

/-- Classes that are apart are so in both directions. -/
theorem eq_false_of_disjoint {p q : Char → Bool} (h : ∀ c, p c = true → q c = false)
    (c : Char) (hc : q c = true) :
    p c = false := by
  refine Bool.eq_false_iff.mpr fun hp => ?_
  rw [h c hp] at hc
  cases hc

/-- A class holds no character of a gap if it holds none of the four that there are. -/
theorem eq_false_of_isGap (p : Char → Bool) {c : Char} (h : isGap c = true)
    (hp : [' ', '\t', '\n', '\r'].any p = false) : p c = false := by
  have hmem : c ∈ [' ', '\t', '\n', '\r'] := by
    simpa [isGap, isBlank, or_assoc] using h
  exact Bool.eq_false_iff.mpr (List.any_eq_false.mp hp c hmem)

theorem isGap_of_isBlank {c : Char} (h : isBlank c = true) : isGap c = true := by
  rw [isGap, h, Bool.true_or]

theorem isIdentifierChar_of_isGap {c : Char} (h : isGap c = true) : isIdentifierChar c = false :=
  eq_false_of_isGap isIdentifierChar h (by decide)

theorem isGap_of_isIdentifierChar {c : Char} (h : isIdentifierChar c = true) : isGap c = false :=
  eq_false_of_disjoint (fun _ => isIdentifierChar_of_isGap) c h

theorem isIdentifierChar_of_isBlank {c : Char} (h : isBlank c = true) :
    isIdentifierChar c = false :=
  isIdentifierChar_of_isGap (isGap_of_isBlank h)

theorem isBlank_of_isIdentifierChar {c : Char} (h : isIdentifierChar c = true) :
    isBlank c = false :=
  eq_false_of_disjoint (fun _ => isIdentifierChar_of_isBlank) c h

section

variable {p class' : Char → Bool} {rest : List Char}

/-- A class is stopped by any run of another class if what follows the run stops it. -/
theorem Chars.stopsAt (run : Chars class') (h : ∀ c, class' c = true → p c = false)
    (hrest : StopsAt p rest) :
    StopsAt p (run.text ++ rest) := by
  cases htext : run.text with
  | nil => exact hrest
  | cons c cs =>
    have hc := run.isOf c (by rw [htext]; exact List.mem_cons_self)
    rw [List.cons_append, stopsAt_cons]
    exact h c hc

theorem SomeChars.stopsAt (run : SomeChars class') (h : ∀ c, class' c = true → p c = false)
    (rest : List Char) :
    StopsAt p (run.text ++ rest) := by
  obtain ⟨c, cs, htext⟩ := List.exists_cons_of_ne_nil run.ne_nil
  have hc := run.isOf c (by rw [htext]; exact List.mem_cons_self)
  rw [htext, List.cons_append, stopsAt_cons]
  exact h c hc

theorem Chars.not_mem {c : Char} (run : Chars class') (h : class' c = false) :
    c ∉ run.text := fun hc =>
  ne_of_class (run.isOf c hc) h rfl

/-- A class is stopped by any gap if no character of a gap is of the class, and what follows stops
it. -/
theorem Gap.stopsAt (gap : Gap) (h : ∀ c, ImportChart.isGap c = true → p c = false)
    (hrest : StopsAt p rest) :
    StopsAt p (gap.text ++ rest) :=
  (Chars.mk gap.text gap.isGap).stopsAt h hrest

theorem SomeGap.stopsAt (gap : SomeGap) (h : ∀ c, ImportChart.isGap c = true → p c = false)
    (rest : List Char) :
    StopsAt p (gap.text ++ rest) :=
  (SomeChars.mk ⟨gap.text, gap.isGap⟩ gap.ne_nil).stopsAt h rest

theorem Identifier.stopsAt (name : Identifier)
    (h : ∀ c, ImportChart.isIdentifierChar c = true → p c = false) (rest : List Char) :
    StopsAt p (name.text ++ rest) :=
  (SomeChars.mk ⟨name.text, name.isIdentifierChar⟩ name.ne_nil).stopsAt h rest

theorem Identifier.stopsAt_isGap (name : Identifier) (rest : List Char) :
    StopsAt ImportChart.isGap (name.text ++ rest) :=
  name.stopsAt (fun _ => isGap_of_isIdentifierChar) rest

theorem QuotedToken.stopsAt (quoted : QuotedToken)
    (h : p apostrophe = false ∧ p quotationMark = false) (rest : List Char) :
    StopsAt p (quoted.text ++ rest) := by
  rw [QuotedToken.text, List.singleton_append, List.cons_append, List.cons_append, stopsAt_cons]
  rcases quoted.isMark with hmark | hmark
  · rw [hmark]
    exact h.1
  · rw [hmark]
    exact h.2

end

namespace Pattern

variable {rest : List Char}

/-! ## Gaps -/

theorem reads_gap (g : Gap) (h : StopsAt isGap rest) : gap.Reads g.text [] rest :=
  reads_chars g.isGap h

theorem reads_someGap (g : SomeGap) (h : StopsAt isGap rest) : someGap.Reads g.text [] rest :=
  reads_someChars g.isGap g.ne_nil h

/-- What is refused behind a gap is refused with the gap. -/
theorem Refuses.gap_seq {p : Pattern} (h : p.Refuses rest) (g : Gap) (hrest : StopsAt isGap rest) :
    (gap ++ p).Refuses (g.text ++ rest) :=
  (reads_gap g hrest).seq_refuses h

/-- A gap that must not be empty reads any gap there is, or refuses. -/
theorem Refuses.someGap_seq {p : Pattern} (h : p.Refuses rest) (g : Gap)
    (hrest : StopsAt isGap rest) :
    (someGap ++ p).Refuses (g.text ++ rest) := by
  by_cases hne : g.text = []
  · rw [hne, List.nil_append]
    exact (Refuses.seq (refuses_char hrest) _).seq p
  · exact (reads_someGap ⟨g, hne⟩ hrest).seq_refuses h

/-! ## Identifiers -/

theorem reads_identifier (name : Identifier) (h : StopsAt isIdentifierChar rest) :
    identifier.Reads name.text [] rest :=
  reads_someChars name.isIdentifierChar name.ne_nil h

/-! ## Quoted tokens -/

theorem reads_tokenBetween {opening closing : Char} {excluded token : List Char} (hne : token ≠ [])
    (h : ∀ c ∈ token, c ∉ closing :: excluded) (rest : List Char) :
    (tokenBetween opening closing excluded).Reads ([opening] ++ token ++ [closing])
    [token] rest := by
  have hclass : ∀ c ∈ token, (!(closing :: excluded).contains c) = true := by
    intro c hc
    simpa using h c hc
  have hstop : StopsAt (fun c => !(closing :: excluded).contains c) ([closing] ++ rest) := by
    rw [List.singleton_append, stopsAt_cons]
    simp
  have hopening := reads_only opening (token ++ ([closing] ++ rest))
  have htoken := (reads_someChars hclass hne hstop).token
  exact (hopening.seq htoken).seq (reads_only closing rest)

theorem reads_tokenBetween_iff {opening closing : Char} {excluded text : List Char}
    {tokens : List (List Char)} :
    (tokenBetween opening closing excluded).Reads text tokens rest ↔ ∃ token, token ≠ [] ∧
      (∀ c ∈ token, c ∉ closing :: excluded) ∧ text = [opening] ++ token ++ [closing] ∧
      tokens = [token] := by
  constructor
  · intro h
    obtain ⟨front, last, _, _, rfl, rfl, hfront, hlast⟩ := reads_seq_iff.mp h
    obtain ⟨first, token, _, _, rfl, rfl, hfirst, htoken⟩ := reads_seq_iff.mp hfront
    obtain ⟨c, hc, rfl, rfl⟩ := reads_char_iff.mp hfirst
    obtain ⟨d, hd, rfl, rfl⟩ := reads_char_iff.mp hlast
    obtain ⟨rfl, found, hinside⟩ := reads_token_iff.mp htoken
    obtain ⟨-, hne, hall, -⟩ := reads_someChars_iff.mp hinside
    obtain rfl := of_decide_eq_true hc
    obtain rfl := of_decide_eq_true hd
    refine ⟨token, hne, fun e he hmem => ?_, rfl, rfl⟩
    have hcontains := hall e he
    rw [List.contains_iff_mem.mpr hmem] at hcontains
    cases hcontains
  · rintro ⟨token, hne, hinside, rfl, rfl⟩
    exact reads_tokenBetween hne hinside rest

theorem reads_quoted (q : QuotedToken) (rest : List Char) : quoted.Reads q.text [q.token] rest := by
  have hinside : ∀ c ∈ q.token, c ∉ [q.mark, '\n'] := by
    intro c hc
    simpa using q.inside c hc
  rw [QuotedToken.text]
  rcases q.isMark with hmark | hmark
  · rw [hmark] at hinside ⊢
    exact (reads_tokenBetween q.ne_nil hinside rest).left _
  · rw [hmark] at hinside ⊢
    exact (reads_tokenBetween q.ne_nil hinside rest).right (refuses_of_starts rfl rfl)

end Pattern

end ImportChart
