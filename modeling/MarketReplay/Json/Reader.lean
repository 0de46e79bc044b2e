/-
Reading JSON text.

The reader follows the grammar to the letter: no leading zeros or plus signs,
no trailing commas, no control characters inside strings, and nothing but
blanks around the one value. `bound` counts down along a text; twice its
length is more than any value in it needs.
-/
import MarketReplay.Json.Value
import MarketReplay.Text.Hex

namespace MarketReplay.Json

/-- What a reader makes of the start of a text, and the rest of the text. -/
abbrev Parse (α : Type) := List Char → Option (α × List Char)

-- ================================================================== blanks

/-- Is the character a blank of the grammar? -/
def isSpace (c : Char) : Bool := c == ' ' || c == '\n' || c == '\t' || c == '\r'

/-- A text without the blanks at its start. -/
def skipSpace (text : List Char) : List Char := text.dropWhile isSpace

-- ================================================================= strings

/-- A string literal that is being read. -/
structure Literal where
  /-- The characters so far, the last first. -/
  chars : List Char
  /-- The first half of a surrogate pair, if it was just read. -/
  half : Option Nat
  /-- Does the literal spell a text so far? -/
  sound : Bool

namespace Literal

/-- The literal before its first character. -/
def empty : Literal := ⟨[], none, true⟩

/-- The literal with one more character. -/
def push (literal : Literal) (c : Char) : Literal :=
  ⟨c :: literal.chars, none, literal.sound && literal.half.isNone⟩

/-- The literal with one more escaped code unit. -/
def pushUnit (literal : Literal) (unit : Nat) : Literal :=
  if 0xD800 ≤ unit ∧ unit < 0xDC00 then
    ⟨literal.chars, some unit, literal.sound && literal.half.isNone⟩
  else if 0xDC00 ≤ unit ∧ unit < 0xE000 then
    match literal.half with
    | some half =>
        let code := 0x10000 + (half - 0xD800) * 0x400 + (unit - 0xDC00)
        ⟨Char.ofNat code :: literal.chars, none, literal.sound⟩
    | none => ⟨literal.chars, none, false⟩
  else literal.push (Char.ofNat unit)

/-- The text that the literal spells, if it spells one. -/
def content (literal : Literal) : Option String :=
  if literal.sound && literal.half.isNone then some (String.ofList literal.chars.reverse)
  else none

end Literal

/-- The character that a letter after a backslash stands for. -/
def unescape? : Char → Option Char
  | '"' => some '"'
  | '\\' => some '\\'
  | '/' => some '/'
  | 'b' => some '\x08'
  | 'f' => some '\x0c'
  | 'n' => some '\n'
  | 'r' => some '\r'
  | 't' => some '\t'
  | _ => none

/-- The code unit that four hexadecimal digits spell. -/
def codeUnit? (a b c d : Char) : Option Nat := do
  return ((← Hex.value? a) * 16 + (← Hex.value? b)) * 256 +
    ((← Hex.value? c) * 16 + (← Hex.value? d))

/-- The rest of a string literal, up to its closing quote. -/
def closeLiteral (literal : Literal) : Parse (Option String)
  | [] => none
  | '"' :: rest => some (literal.content, rest)
  | '\\' :: 'u' :: a :: b :: c :: d :: rest =>
      match codeUnit? a b c d with
      | some unit => closeLiteral (literal.pushUnit unit) rest
      | none => none
  | '\\' :: c :: rest =>
      match unescape? c with
      | some c => closeLiteral (literal.push c) rest
      | none => none
  | c :: rest => if c.toNat < 32 then none else closeLiteral (literal.push c) rest

-- ================================================================= numbers

/-- One digit or more. -/
def takeDigits : Parse (List Char) := fun text =>
  let digits := text.takeWhile Char.isDigit
  if digits.isEmpty then none else some (digits, text.dropWhile Char.isDigit)

/-- The digits before the point: a zero alone, or digits that do not start
with one. -/
def takeWhole : Parse (List Char) := fun text => do
  let (digits, rest) ← takeDigits text
  if digits.head? == some '0' && digits.length != 1 then none else return (digits, rest)

/-- The digits after the point, none without one. -/
def takeFraction : Parse (List Char)
  | '.' :: rest => takeDigits rest
  | text => some ([], text)

/-- The sign and digits of an exponent, if there is one. -/
def takeExponent : Parse (Option (Bool × List Char)) := fun text =>
  let signed : Parse (Bool × List Char) := fun
    | '+' :: rest => do let (digits, rest) ← takeDigits rest; return ((false, digits), rest)
    | '-' :: rest => do let (digits, rest) ← takeDigits rest; return ((true, digits), rest)
    | rest => do let (digits, rest) ← takeDigits rest; return ((false, digits), rest)
  match text with
  | 'e' :: rest => do let (exponent, rest) ← signed rest; return (some exponent, rest)
  | 'E' :: rest => do let (exponent, rest) ← signed rest; return (some exponent, rest)
  | text => some (none, text)

/-- A number without its sign. -/
def takeUnsigned (negative : Bool) : Parse Value := fun text => do
  let (whole, rest) ← takeWhole text
  let (fraction, rest) ← takeFraction rest
  let (exponent, rest) ← takeExponent rest
  return (.number ⟨negative, whole, fraction, exponent⟩, rest)

/-- A number. -/
def takeNumber : Parse Value
  | '-' :: rest => takeUnsigned true rest
  | text => takeUnsigned false text

-- ================================================================== values

/-- One of the words of the grammar. -/
def takeWord : Parse Value
  | 'n' :: 'u' :: 'l' :: 'l' :: rest => some (.null, rest)
  | 't' :: 'r' :: 'u' :: 'e' :: rest => some (.bool true, rest)
  | 'f' :: 'a' :: 'l' :: 's' :: 'e' :: rest => some (.bool false, rest)
  | _ => none

mutual

/-- A value, with blanks before it. -/
def takeValue : Nat → Parse Value
  | 0, _ => none
  | bound + 1, text =>
      match skipSpace text with
      | '"' :: rest => do
          let (content, rest) ← closeLiteral .empty rest
          return (.text content, rest)
      | '[' :: rest =>
          match skipSpace rest with
          | ']' :: rest => some (.array [], rest)
          | rest => do
              let (items, rest) ← takeItems bound rest
              return (.array items, rest)
      | '\x7b' :: rest =>
          match skipSpace rest with
          | '\x7d' :: rest => some (.object [], rest)
          | rest => do
              let (members, rest) ← takeMembers bound rest
              return (.object members, rest)
      | c :: rest =>
          if c == '-' || c.isDigit then takeNumber (c :: rest) else takeWord (c :: rest)
      | [] => none

/-- The items of an array, at least one, up to its closing bracket. -/
def takeItems : Nat → Parse (List Value)
  | 0, _ => none
  | bound + 1, text => do
      let (item, rest) ← takeValue bound text
      match skipSpace rest with
      | ',' :: rest =>
          let (items, rest) ← takeItems bound rest
          return (item :: items, rest)
      | ']' :: rest => return ([item], rest)
      | _ => none

/-- The members of an object, at least one, up to its closing brace. -/
def takeMembers : Nat → Parse (List (Option String × Value))
  | 0, _ => none
  | bound + 1, text => do
      match skipSpace text with
      | '"' :: rest =>
          let (name, rest) ← closeLiteral .empty rest
          match skipSpace rest with
          | ':' :: rest =>
              let (value, rest) ← takeValue bound rest
              match skipSpace rest with
              | ',' :: rest =>
                  let (members, rest) ← takeMembers bound rest
                  return ((name, value) :: members, rest)
              | '\x7d' :: rest => return ([(name, value)], rest)
              | _ => none
          | _ => none
      | _ => none

end

/-- The value that a text spells, if it spells exactly one. -/
def parse? (text : String) : Option Value := do
  let chars := text.toList
  let (value, rest) ← takeValue (2 * chars.length + 2) chars
  if (skipSpace rest).isEmpty then return value else none

end MarketReplay.Json
