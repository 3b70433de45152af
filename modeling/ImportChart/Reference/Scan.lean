import ImportChart.Language.Profile
import ImportChart.Ordered.Distinct
import ImportChart.Reference

/-!
# Scanning a text for references

A scan walks a text from its start. Where it stops it reads, in this order of preference, text that
hides statements, a statement that may start there, or one character of code (`Scan.advance`). The
references are the tokens of the statements read.

In a language with templates, a backtick of code opens a template, whose text hides statements too,
and whose interpolations are code again. A scan counts the braces open in each interpolation that it
is inside of, to know which closing brace leads back to template text. Template text that neither
ends nor opens an interpolation is read as code.

`Scan.stops` is the whole walk: each place with what was read there. Each stop leaves a shorter
text, so the length of the text bounds the walk, and what is read at the stops is the whole text
(`Scan.rest_length_lt` and `Scan.text_stops` in `ImportChart.Reference.Scan.Laws`).
-/

namespace ImportChart

namespace Scan

/-- Where a scan stands. -/
structure State where
  position : Position
  /-- The braces open in each interpolation around the place, innermost first. -/
  interpolations : List Nat
  deriving DecidableEq, Repr

/-- The start of a text, outside of any template. -/
def State.start : State :=
  { position := .start, interpolations := [] }

/-- What a scan reads at one stop. -/
structure Advance where
  lexemes : List Lexeme
  /-- The text after it. -/
  rest : List Char
  /-- The interpolations around what follows. -/
  interpolations : List Nat
  deriving DecidableEq, Repr

/-- The text that was read. -/
def Advance.text (advance : Advance) : List Char :=
  textOf advance.lexemes

/-- The state after a stop. -/
def State.after (state : State) (advance : Advance) : State :=
  { position := state.position.afterText advance.text, interpolations := advance.interpolations }

/-- Reads template text up to the end of the template or into its next interpolation. -/
def readTemplate (interpolations : List Nat) (input : List Char) : Advance :=
  match Pattern.templateEnd.consume input with
  | some m => { m with interpolations := interpolations }
  | none =>
    match Pattern.templateInterpolation.consume input with
    | some m => { m with interpolations := 0 :: interpolations }
    | none => { lexemes := [], rest := input, interpolations := interpolations }

/-- A character before what is read after it. -/
def Advance.behind (c : Char) (advance : Advance) : Advance :=
  { advance with lexemes := .plain c :: advance.lexemes }

/-- Reads one character of code, and the template text that it leads into. -/
def readCode (templates : Bool) (interpolations : List Nat) (c : Char)
    (rest : List Char) : Advance :=
  if !templates then { lexemes := [.plain c], rest, interpolations }
  else if c = backtick then (readTemplate interpolations rest).behind c
  else if c = '{' then
    { lexemes := [.plain c], rest
      interpolations :=
        match interpolations with
        | [] => []
        | braces :: outer => (braces + 1) :: outer }
  else if c = '}' then
    match interpolations with
    | [] => { lexemes := [.plain c], rest, interpolations := [] }
    | 0 :: outer => (readTemplate outer rest).behind c
    | (braces + 1) :: outer => { lexemes := [.plain c], rest, interpolations := braces :: outer }
  else { lexemes := [.plain c], rest, interpolations }

/-- Reads the first statement that may start at a position and matches there. -/
def readStatement (rules : List Rule) (position : Position) (input : List Char) : Option Match :=
  rules.findSome? fun rule =>
    if rule.anchor.admits position then rule.statement.consume input else none

/-- Reads on from a place. -/
def advance (profile : Profile) (state : State) (c : Char) (rest : List Char) : Advance :=
  match profile.hidden.consume (c :: rest) with
  | some m => { m with interpolations := state.interpolations }
  | none =>
    match readStatement profile.rules state.position (c :: rest) with
    | some m => { m with interpolations := state.interpolations }
    | none => readCode profile.templates state.interpolations c rest

/-- A place where a scan stopped, and what it read there. -/
structure Stop where
  state : State
  read : Advance
  deriving DecidableEq, Repr

/-- The stops of a scan, at most `limit` of them. -/
def walk (profile : Profile) : Nat → State → List Char → List Stop
  | 0, _, _ => []
  | _ + 1, _, [] => []
  | limit + 1, state, c :: rest =>
    let read := advance profile state c rest
    { state, read } :: walk profile limit (state.after read) read.rest

/-- The stops of the scan of a text from a state. -/
def stopsFrom (profile : Profile) (state : State) (input : List Char) : List Stop :=
  walk profile input.length state input

/-- The stops of the scan of a text. -/
def stops (profile : Profile) (input : List Char) : List Stop :=
  stopsFrom profile .start input

/-- The state in which a scan ends. -/
def finalState (stops : List Stop) (start : State) : State :=
  stops.foldl (fun _ stop => stop.state.after stop.read) start

/-- The tokens among the lexemes read from a position, with their places. -/
def locate (position : Position) : List Lexeme → List Reference
  | [] => []
  | .plain c :: rest => locate (position.after c) rest
  | .token text :: rest =>
    { token := String.ofList text
      span := ⟨position.offset, position.offset + byteSize text⟩
      line := position.line } :: locate (position.afterText text) rest

/-- The references read at a stop. -/
def Stop.references (stop : Stop) : List Reference :=
  locate stop.state.position stop.read.lexemes

end Scan

/-- Every reference of a text, repeated ones included. -/
def Language.mentions (language : Language) (text : String) : List Reference :=
  (Scan.stops language.profile text.toList).flatMap Scan.Stop.references

/-- The references of a text, each token where it first occurs. -/
def Language.extract (language : Language) (text : String) : List Reference :=
  firstsBy Reference.token (language.mentions text)

end ImportChart
