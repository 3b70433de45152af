/-!
# Patterns of text

A `Pattern` describes what a text may start with: single characters, fixed words, and sequences,
ordered choices and repetitions of smaller patterns. `Pattern.consume` reads the start of a text by
a pattern. A choice commits to its first branch that matches, and a repetition takes as many as
match, so a pattern reads a text in at most one way.

What a pattern reads is a list of lexemes: characters passed over, and tokens, the parts that
`Pattern.token` marks. The lexemes hold the whole text read (`Match.text`, and
`Pattern.text_append_rest` in `ImportChart.Pattern.Laws`), so a place in the text can be given to
every token afterwards and the pattern itself knows of no places.
-/

namespace ImportChart

/-- A piece of a text read by a pattern. -/
inductive Lexeme where
  /-- A character passed over. -/
  | plain (c : Char)
  /-- A part marked by `Pattern.token`. -/
  | token (text : List Char)
  deriving DecidableEq, Repr

/-- The text of a lexeme. -/
def Lexeme.text : Lexeme → List Char
  | .plain c => [c]
  | .token text => text

/-- The start of a text as read by a pattern, and the text after it. -/
structure Match where
  lexemes : List Lexeme
  rest : List Char
  deriving DecidableEq, Repr

/-- The text of a list of lexemes. -/
def textOf (lexemes : List Lexeme) : List Char :=
  lexemes.flatMap Lexeme.text

/-- The text that was read. -/
def Match.text (m : Match) : List Char :=
  textOf m.lexemes

/-- What a text may start with. -/
inductive Pattern where
  /-- The empty text. -/
  | nothing
  /-- One character of a class. -/
  | char (p : Char → Bool)
  /-- A fixed text. -/
  | word (text : List Char)
  /-- The empty text, where a fixed text does not follow. -/
  | notBefore (text : List Char)
  /-- One pattern and then another. -/
  | seq (p q : Pattern)
  /-- The first pattern, or the second where the first does not match. -/
  | either (p q : Pattern)
  /-- A pattern as often as it matches. -/
  | many (p : Pattern)
  /-- A pattern whose text is a token. -/
  | token (p : Pattern)

/-- Reads by `step` until it fails, at most once for each character of `bound`. -/
def readRepeatedly (step : List Char → Option Match) : List Char → List Char → Match
  | [], input => ⟨[], input⟩
  | _ :: bound, input =>
    match step input with
    | none => ⟨[], input⟩
    | some first =>
      let more := readRepeatedly step bound first.rest
      ⟨first.lexemes ++ more.lexemes, more.rest⟩

namespace Pattern

instance : Append Pattern := ⟨seq⟩

instance : OrElse Pattern := ⟨fun p q => either p (q ())⟩

/-- Reads the start of a text. A repetition ends with the text at the latest, as no pattern that is
repeated here reads the empty text. -/
def consume : Pattern → List Char → Option Match
  | nothing, input => some ⟨[], input⟩
  | char _, [] => none
  | char p, c :: rest => if p c then some ⟨[.plain c], rest⟩ else none
  | word text, input =>
    if text.isPrefixOf input then some ⟨text.map .plain, input.drop text.length⟩ else none
  | notBefore text, input => if text.isPrefixOf input then none else some ⟨[], input⟩
  | seq p q, input =>
    match p.consume input with
    | none => none
    | some first =>
      match q.consume first.rest with
      | none => none
      | some second => some ⟨first.lexemes ++ second.lexemes, second.rest⟩
  | either p q, input =>
    match p.consume input with
    | none => q.consume input
    | some m => some m
  | many p, input => some (readRepeatedly p.consume input input)
  | token p, input =>
    match p.consume input with
    | none => none
    | some m => some ⟨[.token m.text], m.rest⟩

/-- A pattern, or the empty text. -/
def optional (p : Pattern) : Pattern :=
  either p nothing

/-- A pattern at least once and as often as it matches. -/
def atLeastOnce (p : Pattern) : Pattern :=
  seq p (many p)

/-- The characters of a class, as many as follow. -/
def chars (p : Char → Bool) : Pattern :=
  many (char p)

/-- The characters of a class, at least one and as many as follow. -/
def someChars (p : Char → Bool) : Pattern :=
  atLeastOnce (char p)

/-- One given character. -/
def only (c : Char) : Pattern :=
  char (fun d => decide (d = c))

/-- A word given as a string. -/
def keyword (text : String) : Pattern :=
  word text.toList

/-- Any text up to the first occurrence of a fixed text, or up to the end. -/
def upTo (text : String) : Pattern :=
  many (notBefore text.toList ++ char fun _ => true)

/-- Whether a pattern reads at least one character whenever it matches. The test follows the form of
the pattern. -/
def isProductive : Pattern → Bool
  | nothing => false
  | char _ => true
  | word text => !text.isEmpty
  | notBefore _ => false
  | seq p q => p.isProductive || q.isProductive
  | either p q => p.isProductive && q.isProductive
  | many _ => false
  | token p => p.isProductive

/-- Whether every repetition in a pattern is of a productive pattern. -/
def hasProductiveLoops : Pattern → Bool
  | nothing | char _ | word _ | notBefore _ => true
  | seq p q | either p q => p.hasProductiveLoops && q.hasProductiveLoops
  | many p => p.isProductive && p.hasProductiveLoops
  | token p => p.hasProductiveLoops

end Pattern

end ImportChart
