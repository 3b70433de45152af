import ImportChart.Pattern

/-!
# Laws of patterns

A match holds all it read: its text followed by its rest is the text it was read from
(`Pattern.text_append_rest`). A productive pattern leaves a shorter text
(`Pattern.rest_length_lt`), and a pattern whose repetitions are productive reads a repetition as
"once and then again, or not at all" (`Pattern.consume_many`), whatever bound the repetition was
given.
-/

namespace ImportChart

@[simp] theorem textOf_nil : textOf [] = [] := rfl

@[simp] theorem textOf_append (xs ys : List Lexeme) : textOf (xs ++ ys) = textOf xs ++ textOf ys :=
  List.flatMap_append

@[simp] theorem textOf_plain (text : List Char) : textOf (text.map .plain) = text := by
  induction text with
  | nil => rfl
  | cons c cs ih => exact congrArg (c :: ·) ih

@[simp] theorem textOf_cons (lexeme : Lexeme) (rest : List Lexeme) :
    textOf (lexeme :: rest) = lexeme.text ++ textOf rest :=
  List.flatMap_cons

namespace Pattern

@[simp] theorem append_eq (p q : Pattern) : p ++ q = seq p q := rfl

@[simp] theorem orElse_eq (p q : Pattern) : (p <|> q) = either p q := rfl

/-- Repeated reading keeps what each reading keeps. -/
theorem text_readRepeatedly {step : List Char → Option Match}
    (h : ∀ input m, step input = some m → m.text ++ m.rest = input) (bound input : List Char) :
    (readRepeatedly step bound input).text ++ (readRepeatedly step bound input).rest = input := by
  induction bound generalizing input with
  | nil => rfl
  | cons _ bound ih =>
    unfold readRepeatedly
    split
    · rfl
    · next first hfirst =>
      have hf := h input first hfirst
      have hm := ih first.rest
      simp only [Match.text, textOf_append, List.append_assoc] at hf hm ⊢
      rw [hm, hf]

/-- The text read followed by the rest is the text given. -/
theorem text_append_rest {p : Pattern} {input : List Char} {m : Match}
    (h : p.consume input = some m) :
    m.text ++ m.rest = input := by
  induction p generalizing input m with
  | nothing => cases h; rfl
  | char p =>
    cases input with
    | nil => cases h
    | cons c rest =>
      simp only [consume] at h
      split at h
      · cases h; rfl
      · cases h
  | word text =>
    simp only [consume] at h
    split at h
    · next hp =>
      cases h
      obtain ⟨rest, rfl⟩ := List.isPrefixOf_iff_prefix.mp hp
      simp [Match.text]
    · cases h
  | notBefore text =>
    simp only [consume] at h
    split at h
    · cases h
    · cases h; rfl
  | seq p q ihp ihq =>
    simp only [consume] at h
    split at h
    · cases h
    · next first hfirst =>
      split at h
      · cases h
      · next second hsecond =>
        cases h
        have h1 := ihp hfirst
        have h2 := ihq hsecond
        simp only [Match.text, textOf_append, List.append_assoc] at h1 h2 ⊢
        rw [h2, h1]
  | either p q ihp ihq =>
    simp only [consume] at h
    split at h
    · exact ihq h
    · next hm =>
      cases h
      exact ihp hm
  | many p ih =>
    cases h
    exact text_readRepeatedly (fun _ _ => ih) _ _
  | token p ih =>
    simp only [consume] at h
    split at h
    · cases h
    · next m' hm =>
      cases h
      have := ih hm
      simpa [Match.text, Lexeme.text] using this

/-- What is left is no longer than what was given. -/
theorem rest_length_le {p : Pattern} {input : List Char} {m : Match}
    (h : p.consume input = some m) :
    m.rest.length ≤ input.length := by
  rw [← text_append_rest h, List.length_append]
  exact Nat.le_add_left _ _

/-- A productive pattern leaves a shorter text. -/
theorem rest_length_lt {p : Pattern} {input : List Char} {m : Match} (hp : p.isProductive = true)
    (h : p.consume input = some m) : m.rest.length < input.length := by
  induction p generalizing input m with
  | nothing => cases hp
  | char p =>
    cases input with
    | nil => cases h
    | cons c rest =>
      simp only [consume] at h
      split at h
      · cases h; exact Nat.lt_succ_self _
      · cases h
  | word text =>
    simp only [consume] at h
    split at h
    · next hpre =>
      cases h
      obtain ⟨rest, rfl⟩ := List.isPrefixOf_iff_prefix.mp hpre
      cases text with
      | nil => cases hp
      | cons c cs =>
        rw [List.drop_left, List.length_append, List.length_cons]
        show rest.length < _
        omega
    · cases h
  | notBefore text => cases hp
  | seq p q ihp ihq =>
    simp only [consume] at h
    split at h
    · cases h
    · next first hfirst =>
      split at h
      · cases h
      · next second hsecond =>
        cases h
        have h1 := rest_length_le hfirst
        have h2 := rest_length_le hsecond
        rcases Bool.or_eq_true_iff.mp hp with hp | hp
        · exact Nat.lt_of_le_of_lt h2 (ihp hp hfirst)
        · exact Nat.lt_of_lt_of_le (@ihq first.rest second hp hsecond) h1
  | either p q ihp ihq =>
    obtain ⟨hpp, hpq⟩ := Bool.and_eq_true_iff.mp hp
    simp only [consume] at h
    split at h
    · exact ihq hpq h
    · next hm =>
      cases h
      exact ihp hpp hm
  | many p => cases hp
  | token p ih =>
    simp only [consume] at h
    split at h
    · cases h
    · next m' hm =>
      cases h
      exact @ih input m' hp hm

/-- A reading that shortens the text each time is the same under every bound that is no shorter than
the text. -/
theorem readRepeatedly_eq {step : List Char → Option Match}
    (h : ∀ input m, step input = some m → m.rest.length < input.length) (bound other : List Char)
    {input : List Char} (hb : input.length ≤ bound.length) (ho : input.length ≤ other.length) :
    readRepeatedly step bound input = readRepeatedly step other input := by
  induction bound generalizing other input with
  | nil =>
    obtain rfl := List.eq_nil_of_length_eq_zero (Nat.le_zero.mp hb)
    cases other with
    | nil => rfl
    | cons _ other =>
      simp only [readRepeatedly]
      split
      · rfl
      · next first hfirst => exact absurd (h _ _ hfirst) (Nat.not_lt_zero _)
  | cons _ bound ih =>
    cases other with
    | nil =>
      obtain rfl := List.eq_nil_of_length_eq_zero (Nat.le_zero.mp ho)
      simp only [readRepeatedly]
      split
      · rfl
      · next first hfirst => exact absurd (h _ _ hfirst) (Nat.not_lt_zero _)
    | cons _ other =>
      simp only [readRepeatedly]
      split
      · rfl
      · next first hfirst =>
        have := h _ _ hfirst
        simp only [List.length_cons] at hb ho
        rw [ih other (by omega) (by omega)]

/-- A repetition of a productive pattern reads it once and then again, or not at all. -/
theorem consume_many {p : Pattern} (hp : p.isProductive = true) (input : List Char) :
    (many p).consume input =
      match p.consume input with
      | none => some ⟨[], input⟩
      | some first =>
        ((many p).consume first.rest).map fun more =>
          ⟨first.lexemes ++ more.lexemes, more.rest⟩ := by
  cases hfirst : p.consume input with
  | none =>
    cases input with
    | nil => rfl
    | cons c cs => simp only [consume, readRepeatedly, hfirst]
  | some first =>
    have hlt := rest_length_lt hp hfirst
    cases input with
    | nil => exact absurd hlt (Nat.not_lt_zero _)
    | cons c cs =>
      simp only [consume, readRepeatedly, hfirst, Option.map_some]
      rw [readRepeatedly_eq (fun _ _ => rest_length_lt hp) cs first.rest
        (by simp only [List.length_cons] at hlt; omega) (Nat.le_refl _)]

end Pattern

end ImportChart
