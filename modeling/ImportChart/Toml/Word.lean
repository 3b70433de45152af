import ImportChart.Document
import ImportChart.Toml.Quoted

/-!
# Words of a TOML text

The values that are not in any marks: truth values, integers, floats, dates and times. `word?` reads
a whole word. No setting is a date or a time, so these stand in a document as a table of their own,
which holds them as they were written.
-/

namespace ImportChart.Toml

/-! ## Integers -/

/-- Digits in groups of at least one, with an underscore between them. -/
def groupedDigits? (isDigit : Char → Bool) (text : List Char) : Option (List Char) :=
  let groups := text.splitOn '_'
  if groups.all fun group => !group.isEmpty && group.all isDigit then some groups.flatten else none

/-- The number that digits of a base stand for. -/
def numberOf (base : Nat) (digits : List Char) : Nat :=
  digits.foldl (fun n c => n * base + (hexValue? c).getD 0) 0

/-- The digits of a base that stand in a text in groups. -/
def digitsOfBase? (base : Nat) : List Char → Option (List Char) :=
  groupedDigits? fun c => (hexValue? c).any fun value => decide (value < base)

/-- A number in a base. -/
def numberOfBase? (base : Nat) (text : List Char) : Option Nat :=
  (digitsOfBase? base text).map (numberOf base)

/-- The digits of a decimal number without a leading zero. -/
def wholeDigits? (text : List Char) : Option (List Char) :=
  match text with
  | '0' :: _ :: _ => none
  | _ => digitsOfBase? 10 text

/-- Whether a number is negative, and the number after its sign. -/
def signed : List Char → Bool × List Char
  | '-' :: rest => (true, rest)
  | '+' :: rest => (false, rest)
  | text => (false, text)

/-- A number with the sign in front of it. -/
def withSign (negative : Bool) (n : Nat) : Int :=
  if negative then -Int.ofNat n else Int.ofNat n

/-- An integer. Beyond 128 bits there is none. -/
def integer? (text : List Char) : Option Int :=
  let value : Option Int :=
    match text with
    | '0' :: 'x' :: digits => (numberOfBase? 16 digits).map Int.ofNat
    | '0' :: 'o' :: digits => (numberOfBase? 8 digits).map Int.ofNat
    | '0' :: 'b' :: digits => (numberOfBase? 2 digits).map Int.ofNat
    | _ =>
      let (negative, digits) := signed text
      (wholeDigits? digits).map fun digits => withSign negative (numberOf 10 digits)
  value.filter fun n => decide (-Int.pow 2 127 ≤ n ∧ n < Int.pow 2 128)

/-! ## Floats -/

/-- The number `digits * 10 ^ exponent`. -/
structure Scientific where
  digits : Nat
  exponent : Int
  deriving DecidableEq, Repr

/-- Whether a number is too large for a double: at least half way from the largest double to the
power of two after it. The number of its decimal places settles all but a narrow range. -/
def Scientific.overflows (number : Scientific) : Bool :=
  let places : Int := (Nat.toDigits 10 number.digits).length + number.exponent
  let bound := (Nat.pow 2 54 - 1) * Nat.pow 2 970
  if number.digits = 0 ∨ places ≤ 308 then false
  else if 310 ≤ places then true
  else
    decide (bound * Nat.pow 10 (-number.exponent).toNat ≤
      number.digits * Nat.pow 10 number.exponent.toNat)

/-- A number without a sign that has a fraction or an exponent. -/
def scientific? (text : List Char) : Option Scientific := do
  let mantissa := text.takeWhile fun c => c != 'e' && c != 'E'
  let exponent := text.drop mantissa.length
  let whole := mantissa.takeWhile (· != '.')
  let fraction := mantissa.drop whole.length
  if exponent.isEmpty && fraction.isEmpty then none
  else
    let whole ← wholeDigits? whole
    let fraction ← if fraction.isEmpty then some [] else digitsOfBase? 10 (fraction.drop 1)
    let (negative, exponent) := signed (exponent.drop 1)
    let exponent ← if text.length = mantissa.length then some 0 else numberOfBase? 10 exponent
    some ⟨numberOf 10 (whole ++ fraction), withSign negative exponent - fraction.length⟩

/-- Whether a text is a float. -/
def isFloat (text : List Char) : Bool :=
  let magnitude := (signed text).2
  magnitude = "inf".toList || magnitude = "nan".toList ||
    (scientific? magnitude).any fun number => !number.overflows

/-! ## Dates and times -/

/-- A number in a count of decimal digits. -/
def counted (count : Nat) : Reader Nat := fun input =>
  let digits := input.take count
  if digits.length = count ∧ digits.all Char.isDigit then
    some (numberOf 10 digits, input.drop count)
  else none

/-- A given character. -/
def expect (c : Char) (input : List Char) : Option (List Char) :=
  match input with
  | d :: rest => if d = c then some rest else none
  | [] => none

/-- The number of days in a month of a year. -/
def daysIn (year month : Nat) : Nat :=
  if month = 2 then
    if year % 4 = 0 ∧ (year % 100 ≠ 0 ∨ year % 400 = 0) then 29 else 28
  else if month = 4 ∨ month = 6 ∨ month = 9 ∨ month = 11 then 30
  else 31

/-- The text after a date. -/
def afterDate? (input : List Char) : Option (List Char) := do
  let (year, rest) ← counted 4 input
  let (month, rest) ← counted 2 (← expect '-' rest)
  let (day, rest) ← counted 2 (← expect '-' rest)
  if 1 ≤ month ∧ month ≤ 12 ∧ 1 ≤ day ∧ day ≤ daysIn year month then some rest else none

/-- The text after an hour and a minute. -/
def afterMinute? (input : List Char) : Option (List Char) := do
  let (hour, rest) ← counted 2 input
  let (minute, rest) ← counted 2 (← expect ':' rest)
  if hour ≤ 23 ∧ minute ≤ 59 then some rest else none

/-- The text after the fraction of a second, if there is one. -/
def afterFraction? : List Char → Option (List Char)
  | '.' :: rest => if rest.head?.any Char.isDigit then some (rest.dropWhile Char.isDigit) else none
  | rest => some rest

/-- The text after a time, whose seconds may be left out. -/
def afterTime? (input : List Char) : Option (List Char) := do
  match ← afterMinute? input with
  | ':' :: rest =>
    let (second, rest) ← counted 2 rest
    if second ≤ 60 then afterFraction? rest else none
  | rest => some rest

/-- Whether a text is a difference from universal time, or empty. -/
def isOffset : List Char → Bool
  | [] => true
  | [c] => c = 'Z' || c = 'z'
  | sign :: rest => (sign = '+' || sign = '-') && afterMinute? rest = some []

/-- Whether a text is a date, a time, or both. -/
def isDateTime (text : List Char) : Bool :=
  afterTime? text = some [] ||
    match afterDate? text with
    | some [] => true
    | some (mark :: rest) =>
      (mark = 'T' || mark = 't' || mark = ' ') && (afterTime? rest).any isOffset
    | none => false

/-! ## Words -/

/-- The value that a word stands for. -/
def word? (text : List Char) : Option Document :=
  if text = "true".toList then some (.flag true)
  else if text = "false".toList then some (.flag false)
  else
    match integer? text with
    | some n => some (.integer n)
    | none =>
      if isFloat text then some (.decimal (String.ofList text))
      else if isDateTime text then some (.table [("date-time", .text (String.ofList text))])
      else none

/-- A character of a word. -/
def isWord (c : Char) : Bool :=
  isBareName c || c = '+' || c = '.' || c = ':'

/-- The word at the start of a text. A date takes the time with it that follows after one space. -/
def wordAt (input : List Char) : List Char :=
  let word := input.takeWhile isWord
  match afterDate? word, input.drop word.length with
  | some [], ' ' :: c :: rest =>
    if c.isDigit then word ++ ' ' :: (c :: rest).takeWhile isWord else word
  | _, _ => word

end ImportChart.Toml
