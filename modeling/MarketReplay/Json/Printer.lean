/-
Printing JSON values: on one line without spaces, or indented by two spaces a
level. Only quotes, backslashes and control characters are escaped.
-/
import MarketReplay.Json.Value
import MarketReplay.Text.Hex

namespace MarketReplay.Json

-- ============================================================ single tokens

/-- A character as it stands in a string literal. -/
def escape (c : Char) : String :=
  match c with
  | '"' => "\\\""
  | '\\' => "\\\\"
  | '\x08' => "\\b"
  | '\x0c' => "\\f"
  | '\n' => "\\n"
  | '\r' => "\\r"
  | '\t' => "\\t"
  | c =>
      if c.toNat < 32 then "\\u00" ++ Hex.encode [UInt8.ofNat c.toNat]
      else String.singleton c

/-- A text as a string literal. -/
def quote (text : String) : String :=
  "\"" ++ String.join (text.toList.map escape) ++ "\""

/-- A string literal; half a surrogate pair is written as the replacement
character. -/
def literal (content : Option String) : String :=
  quote (content.getD "\uFFFD")

/-- A number in digits. -/
def Numeral.print (numeral : Numeral) : String :=
  let sign := if numeral.negative then "-" else ""
  let fraction :=
    if numeral.fraction.isEmpty then "" else "." ++ String.ofList numeral.fraction
  let exponent := match numeral.exponent with
    | some (negative, digits) =>
        (if negative then "e-" else "e") ++ String.ofList digits
    | none => ""
  sign ++ String.ofList numeral.whole ++ fraction ++ exponent

-- ================================================================ one line

mutual

/-- A value on one line. -/
def Value.compact : Value → String
  | .null => "null"
  | .bool value => if value then "true" else "false"
  | .number numeral => numeral.print
  | .text content => literal content
  | .array items => "[" ++ ",".intercalate (compactItems items) ++ "]"
  | .object members => "\x7b" ++ ",".intercalate (compactMembers members) ++ "\x7d"

/-- The items of an array, each on one line. -/
def compactItems : List Value → List String
  | [] => []
  | item :: rest => item.compact :: compactItems rest

/-- The members of an object, each on one line. -/
def compactMembers : List (Option String × Value) → List String
  | [] => []
  | (name, value) :: rest => (literal name ++ ":" ++ value.compact) :: compactMembers rest

end

-- ================================================================ indented

/-- The start of a line, some levels deep. -/
def indent (level : Nat) : String :=
  "\n" ++ String.ofList (List.replicate (2 * level) ' ')

mutual

/-- A value over several lines, some levels deep. -/
def Value.indented (level : Nat) : Value → String
  | .null => "null"
  | .bool value => if value then "true" else "false"
  | .number numeral => numeral.print
  | .text content => literal content
  | .array [] => "[]"
  | .array (item :: rest) =>
      "[" ++ ",".intercalate (indentedItems (level + 1) (item :: rest)) ++ indent level ++ "]"
  | .object [] => "\x7b\x7d"
  | .object (member :: rest) =>
      "\x7b" ++ ",".intercalate (indentedMembers (level + 1) (member :: rest)) ++
        indent level ++ "\x7d"

/-- The items of an array, each on lines of its own. -/
def indentedItems (level : Nat) : List Value → List String
  | [] => []
  | item :: rest => (indent level ++ item.indented level) :: indentedItems level rest

/-- The members of an object, each on lines of its own. -/
def indentedMembers (level : Nat) : List (Option String × Value) → List String
  | [] => []
  | (name, value) :: rest =>
      (indent level ++ literal name ++ ": " ++ value.indented level) ::
        indentedMembers level rest

end

/-- A value over several lines. -/
def Value.pretty (value : Value) : String := value.indented 0

end MarketReplay.Json
