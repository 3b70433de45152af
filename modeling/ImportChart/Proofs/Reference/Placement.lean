import ImportChart.Reference.Scan.Laws
import ImportChart.Proofs.Pattern.Tokens

/-!
# References stand where they say

The place of a reference is computed while a text is scanned, from the position of a stop and the
lexemes read there. This module says what the place means in the text itself: the text is cut into
what stands before the token, the token, and what stands after it, the span is measured by the first
two, and the line is counted in the first (`Reference.StandsIn`).

The stops do not matter: what they read, taken together, is one list of lexemes whose text is the
whole text, and the references are the tokens of that list located from the start
(`Language.mentions_eq_locate`). So everything follows from laws of `Scan.locate` over one list:
where a token stands (`Scan.exists_split_of_mem_locate`) and that a later token starts where an
earlier one has ended (`Scan.pairwise_locate`).

It does not establish which tokens are found, only that those which are found are placed exactly.
-/

namespace ImportChart

/-! ## What the tokens of a language are read by -/

/-- The patterns of a profile mark only parts that pass a test. -/
def Profile.MarksOnly (profile : Profile) (test : Pattern → Bool) : Prop :=
  profile.hidden.marksOnly test = true ∧ ∀ rule ∈ profile.rules,
  rule.statement.marksOnly test = true

/-- The patterns of every language mark only productive patterns as tokens. -/
theorem Language.tokens_productive (language : Language) :
    language.profile.MarksOnly Pattern.isProductive := by
  unfold Profile.MarksOnly
  cases language <;> decide

/-- Whether a lexeme is not an empty token. -/
def Lexeme.Filled : Lexeme → Prop
  | .plain _ => True
  | .token text => text ≠ []

/-- What a productive pattern reads is not empty. -/
theorem Pattern.text_ne_nil {p : Pattern} {input : List Char} {m : Match}
    (hp : p.isProductive = true) (h : p.consume input = some m) : m.text ≠ [] := by
  intro hempty
  have hlt := rest_length_lt hp h
  have htext := text_append_rest h
  rw [hempty, List.nil_append] at htext
  rw [htext] at hlt
  exact Nat.lt_irrefl _ hlt

/-- A token read by a productive pattern is not empty. -/
theorem Lexeme.ReadBy.filled {lexeme : Lexeme}
    (h : lexeme.ReadBy Pattern.isProductive) : lexeme.Filled := by
  cases h with
  | plain c => trivial
  | token hp hm => exact Pattern.text_ne_nil hp hm

namespace Scan

/-! ## The tokens read at a stop -/

variable {test : Pattern → Bool}

/-- Template text holds no token. -/
theorem readBy_readTemplate (interpolations : List Nat) (input : List Char) :
    ∀ lexeme ∈ (readTemplate interpolations input).lexemes, lexeme.ReadBy test := by
  unfold readTemplate
  split
  · next m hm => exact Pattern.readBy_of_mem_lexemes rfl hm
  · split
    · next m hm => exact Pattern.readBy_of_mem_lexemes rfl hm
    · exact fun _ hmem => absurd hmem List.not_mem_nil

/-- A character of code before what is read after it adds no token. -/
theorem readBy_behind {c : Char} {read : Advance}
    (h : ∀ lexeme ∈ read.lexemes, lexeme.ReadBy test) :
    ∀ lexeme ∈ (read.behind c).lexemes, lexeme.ReadBy test := by
  intro lexeme hmem
  rcases List.mem_cons.mp hmem with rfl | hmem
  · exact .plain c
  · exact h lexeme hmem

/-- Code holds no token. -/
theorem readBy_readCode (templates : Bool) (interpolations : List Nat) (c : Char)
    (rest : List Char) :
    ∀ lexeme ∈ (readCode templates interpolations c rest).lexemes, lexeme.ReadBy test := by
  have plain : ∀ lexeme ∈ [Lexeme.plain c], lexeme.ReadBy test := fun lexeme hmem => by
    rw [List.mem_singleton.mp hmem]
    exact .plain c
  unfold readCode
  split
  · exact plain
  split
  · exact readBy_behind (readBy_readTemplate _ _)
  split
  · exact plain
  split
  · split
    · exact plain
    · exact readBy_behind (readBy_readTemplate _ _)
    · exact plain
  · exact plain

/-- The tokens read at a stop are read by parts that the patterns of the profile mark. -/
theorem readBy_advance {profile : Profile} (marks : profile.MarksOnly test)
    (state : State) (c : Char) (rest : List Char) :
    ∀ lexeme ∈ (advance profile state c rest).lexemes, lexeme.ReadBy test := by
  obtain ⟨hhidden, hrules⟩ := marks
  unfold advance
  split
  · next m hm => exact Pattern.readBy_of_mem_lexemes hhidden hm
  · split
    · next m hm =>
      obtain ⟨rule, hrule, _, hc⟩ := exists_rule_of_readStatement hm
      exact Pattern.readBy_of_mem_lexemes (hrules rule hrule) hc
    · exact readBy_readCode _ _ _ _

/-! ## The lexemes of a walk -/

/-- What was read at a list of stops, as one list. -/
def lexemesOfStops (stops : List Stop) : List Lexeme :=
  stops.flatMap fun stop => stop.read.lexemes

@[simp] theorem lexemesOfStops_cons (stop : Stop) (rest : List Stop) :
    lexemesOfStops (stop :: rest) = stop.read.lexemes ++ lexemesOfStops rest :=
  List.flatMap_cons

/-- The text read at the stops is the text of their lexemes. -/
theorem textOf_lexemesOfStops (stops : List Stop) :
    textOf (lexemesOfStops stops) = textOfStops stops := by
  induction stops with
  | nil => rfl
  | cons stop rest ih =>
    rw [lexemesOfStops_cons, textOf_append, ih]
    rfl

/-- The tokens of a walk are read by parts that the patterns of the profile mark. -/
theorem readBy_walk {profile : Profile} (marks : profile.MarksOnly test)
    (limit : Nat) (state : State) (input : List Char) :
    ∀ lexeme ∈ lexemesOfStops (walk profile limit state input), lexeme.ReadBy test := by
  induction limit generalizing state input with
  | zero => exact fun _ hmem => absurd hmem List.not_mem_nil
  | succ limit ih =>
    cases input with
    | nil => exact fun _ hmem => absurd hmem List.not_mem_nil
    | cons c rest =>
      intro lexeme hmem
      rcases List.mem_append.mp hmem with hmem | hmem
      · exact readBy_advance marks state c rest lexeme hmem
      · exact ih _ _ lexeme hmem

/-! ## Locating a list of lexemes -/

/-- Locating two lists is locating the first, and the second from where the first ends. -/
theorem locate_append (position : Position) (xs ys : List Lexeme) :
    locate position (xs ++ ys) =
      locate position xs ++ locate (position.afterText (textOf xs)) ys := by
  induction xs generalizing position with
  | nil => rfl
  | cons lexeme xs ih =>
    cases lexeme with
    | plain c => exact ih (position.after c)
    | token text =>
      simp only [List.cons_append, locate, textOf_cons, Lexeme.text, Position.afterText_append]
      rw [ih]

/-- The references of a walk are the tokens of all its lexemes, located from where it starts. -/
theorem references_walk (profile : Profile) (limit : Nat) (state : State) (input : List Char) :
    (walk profile limit state input).flatMap Stop.references =
      locate state.position (lexemesOfStops (walk profile limit state input)) := by
  induction limit generalizing state input with
  | zero => rfl
  | succ limit ih =>
    cases input with
    | nil => rfl
    | cons c rest =>
      simp only [walk, List.flatMap_cons, lexemesOfStops_cons, locate_append]
      rw [ih]
      rfl

/-- A reference located is a token among the lexemes, measured by the lexemes before it. -/
theorem exists_split_of_mem_locate {position : Position} {lexemes : List Lexeme}
    {reference : Reference} (h : reference ∈ locate position lexemes) :
    ∃ before after, lexemes = before ++ .token reference.token.toList :: after ∧
      reference.span.start = position.offset + byteSize (textOf before) ∧
      reference.span.stop = reference.span.start + byteSize reference.token.toList ∧
      reference.line = position.line + (textOf before).count '\n' := by
  induction lexemes generalizing position with
  | nil => exact absurd h List.not_mem_nil
  | cons lexeme lexemes ih =>
    -- a token found further on is measured by the head as well
    have later : reference ∈ locate (position.afterText lexeme.text) lexemes →
        ∃ before after, lexeme :: lexemes = before ++ .token reference.token.toList :: after ∧
          reference.span.start = position.offset + byteSize (textOf before) ∧
          reference.span.stop = reference.span.start + byteSize reference.token.toList ∧
          reference.line = position.line + (textOf before).count '\n' := by
      intro hmem
      obtain ⟨before, after, hsplit, hstart, hstop, hline⟩ := ih hmem
      refine ⟨lexeme :: before, after, by rw [hsplit, List.cons_append], ?_, hstop, ?_⟩
      · rw [hstart, Position.offset_afterText, textOf_cons, byteSize_append, Nat.add_assoc]
      · rw [hline, Position.line_afterText, textOf_cons, List.count_append, Nat.add_assoc]
    cases lexeme with
    | plain c => exact later h
    | token text =>
      rcases List.mem_cons.mp h with rfl | h
      · exact ⟨[], lexemes, by simp, rfl, by simp, rfl⟩
      · exact later h

/-- A reference located starts no earlier than the place it is located from. -/
theorem offset_le_start {position : Position} {lexemes : List Lexeme} {reference : Reference}
    (h : reference ∈ locate position lexemes) : position.offset ≤ reference.span.start := by
  obtain ⟨_, _, _, hstart, _⟩ := exists_split_of_mem_locate h
  rw [hstart]
  exact Nat.le_add_right _ _

/-- Of two references located, the first ends before the second starts. -/
theorem pairwise_locate (position : Position) (lexemes : List Lexeme) :
    (locate position lexemes).Pairwise fun a b => a.span.stop ≤ b.span.start := by
  induction lexemes generalizing position with
  | nil => exact .nil
  | cons lexeme lexemes ih =>
    cases lexeme with
    | plain c => exact ih (position.after c)
    | token text =>
      refine .cons (fun later hlater => ?_) (ih _)
      have hle := offset_le_start hlater
      rw [Position.offset_afterText] at hle
      exact hle

end Scan

/-! ## The references of a text -/

/-- A reference stands in a text: its token follows the text that its span leaves out before it, in
bytes, and its line is counted in that text. -/
def Reference.StandsIn (reference : Reference) (text : String) : Prop :=
  ∃ before after : String, text = before ++ reference.token ++ after ∧
    reference.span.start = before.utf8ByteSize ∧
    reference.span.stop = (before ++ reference.token).utf8ByteSize ∧
    reference.line = 1 + before.toList.count '\n'

/-- The mentions of a text are the tokens of one list of lexemes, which holds the whole text. -/
theorem Language.mentions_eq_locate (language : Language) (text : String) :
    ∃ lexemes, textOf lexemes = text.toList ∧ (∀ lexeme ∈ lexemes, lexeme.Filled) ∧
      language.mentions text = Scan.locate .start lexemes := by
  refine ⟨Scan.lexemesOfStops (Scan.stops language.profile text.toList), ?_, ?_, ?_⟩
  · rw [Scan.textOf_lexemesOfStops, Scan.text_stops]
  · exact fun lexeme hmem => (Scan.readBy_walk language.tokens_productive _ _ _ lexeme hmem).filled
  · exact Scan.references_walk _ _ _ _

/-- A reference located in lexemes that hold a text stands in that text. -/
theorem Reference.standsIn_of_mem_locate {lexemes : List Lexeme} {text : String}
    {reference : Reference} (htext : textOf lexemes = text.toList)
    (h : reference ∈ Scan.locate .start lexemes) :
    reference.StandsIn text := by
  obtain ⟨before, after, rfl, hstart, hstop, hline⟩ := Scan.exists_split_of_mem_locate h
  refine ⟨String.ofList (textOf before), String.ofList (textOf after), ?_, ?_, ?_, ?_⟩
  · apply String.toList_inj.mp
    rw [← htext]
    simp [Lexeme.text]
  · rw [hstart, byteSize_eq_utf8ByteSize, Position.start, Nat.zero_add]
  · rw [hstop, hstart, String.utf8ByteSize_append, ← byteSize_eq_utf8ByteSize, ← byteSize_toList,
      Position.start, Nat.zero_add]
  · rw [hline, String.toList_ofList, Position.start]

/-- The token of a reference located among filled lexemes is not empty. -/
theorem Reference.token_ne_empty_of_mem_locate {lexemes : List Lexeme} {position : Position}
    {reference : Reference} (hfilled : ∀ lexeme ∈ lexemes, lexeme.Filled)
    (h : reference ∈ Scan.locate position lexemes) : reference.token ≠ "" := by
  obtain ⟨before, after, rfl, _⟩ := Scan.exists_split_of_mem_locate h
  have htoken : reference.token.toList ≠ [] :=
    hfilled _ (List.mem_append_right _ List.mem_cons_self)
  exact fun hempty => htoken (by rw [hempty]; rfl)

/-- A reference of at least one character that stands in a text ends after it starts. -/
theorem Reference.StandsIn.start_lt_stop {reference : Reference} {text : String}
    (h : reference.StandsIn text) (hne : reference.token ≠ "") :
    reference.span.start < reference.span.stop := by
  obtain ⟨before, after, _, hstart, hstop, _⟩ := h
  have hpos : reference.token.utf8ByteSize ≠ 0 :=
    fun hzero => hne (String.utf8ByteSize_eq_zero_iff.mp hzero)
  rw [hstart, hstop, String.utf8ByteSize_append]
  omega

/-- A reference that stands in a text ends within it. -/
theorem Reference.StandsIn.stop_le {reference : Reference} {text : String}
    (h : reference.StandsIn text) :
    reference.span.stop ≤ text.utf8ByteSize := by
  obtain ⟨before, after, rfl, _, hstop, _⟩ := h
  rw [hstop, String.utf8ByteSize_append (t := after)]
  exact Nat.le_add_right _ _

/-- **The references of a text are placed exactly.** Each has a token of at least one character,
which stands in the text at its span and on its line, within the text. Along the list, a reference
starts where the one before it has ended or later, and no token is there twice. Every token that the
text mentions is there. -/
theorem Language.extract_placed (language : Language) (text : String) :
    (∀ reference ∈ language.extract text, reference.token ≠ "" ∧ reference.StandsIn text ∧
      reference.span.stop ≤ text.utf8ByteSize) ∧
    (language.extract text).Pairwise (fun a b => a.span.start < b.span.start ∧
      a.span.stop ≤ b.span.start) ∧
    ((language.extract text).map Reference.token).Nodup ∧
    ∀ mention ∈ language.mentions text, ∃ reference ∈ language.extract text,
      reference.token = mention.token := by
  obtain ⟨lexemes, htext, hfilled, hmentions⟩ := language.mentions_eq_locate text
  have hsub : (language.extract text).Sublist (Scan.locate .start lexemes) := by
    rw [← hmentions]
    exact firstsBy_sublist _
  have hstands : ∀ reference ∈ language.extract text, reference.StandsIn text := fun reference h =>
    Reference.standsIn_of_mem_locate htext (hsub.mem h)
  have hne : ∀ reference ∈ language.extract text, reference.token ≠ "" := fun reference h =>
    Reference.token_ne_empty_of_mem_locate hfilled (hsub.mem h)
  refine ⟨fun reference h => ⟨hne reference h, hstands reference h, (hstands reference h).stop_le⟩,
    ?_, ?_, fun mention h => exists_mem_firstsBy h⟩
  · refine ((Scan.pairwise_locate _ lexemes).sublist hsub).imp_of_mem
      fun {a b} ha _ hle => ⟨?_, hle⟩
    exact Nat.lt_of_lt_of_le ((hstands a ha).start_lt_stop (hne a ha)) hle
  · exact List.pairwise_map.mpr (firstsBy_pairwise _)

end ImportChart
