import BoundSql.Json.Number

/-!
# Tokens of JSON text

Splits JSON text into tokens, one character at a time.
-/

namespace BoundSql.Json

/-- A token of JSON text. -/
inductive Token where
  | openArray
  | closeArray
  | openObject
  | closeObject
  | comma
  | colon
  /-- A string; none if it holds half of a surrogate pair. -/
  | string (s : Option String)
  /-- A number or one of the words. -/
  | scalar (j : Json)

namespace Token

/-- What a character or an escape in a string stands for. -/
inductive CodeUnit where
  | char (c : Char)
  /-- Half of a surrogate pair. -/
  | half (code : Nat)

/-- The text of code units. The halves of a pair have to follow one another, high before low. -/
def joinUnits : List CodeUnit → Option (List Char)
  | [] => some []
  | .char c :: rest => (joinUnits rest).map (c :: ·)
  | .half high :: .half low :: rest =>
    if high < 0xDC00 ∧ 0xDC00 ≤ low then
      let code := 0x10000 + (high - 0xD800) * 0x400 + (low - 0xDC00)
      (joinUnits rest).map (Char.ofNat code :: ·)
    else none
  | .half _ :: _ => none

/-- Where in the text of a token the reader is. -/
inductive Mode where
  | between
  /-- In a number or a word, with its characters so far, last first. -/
  | bare (chars : List Char)
  /-- In a string, with its units so far, last first. -/
  | string (units : List CodeUnit)
  /-- Behind a backslash. -/
  | escape (units : List CodeUnit)
  /-- In an escaped code, with the number of its digits and their value so far. -/
  | code (units : List CodeUnit) (count value : Nat)

/-- The reader between two characters: the tokens so far, last first, and where it is. -/
structure State where
  tokens : List Token
  mode : Mode

/-- Whether the character can stand in a number or a word. -/
def isBare (c : Char) : Bool :=
  c.isAlphanum || c == '+' || c == '-' || c == '.'

/-- The token of the characters of a number or a word. -/
def ofBare? (chars : List Char) : Option Token :=
  match String.ofList chars with
  | "null" => some (.scalar .null)
  | "true" => some (.scalar (.boolean true))
  | "false" => some (.scalar (.boolean false))
  | _ => (NumberText.ofChars? chars).map fun t => .scalar t.toJson

/-- The value of a hexadecimal digit. -/
def hexDigit? (c : Char) : Option Nat :=
  if '0' ≤ c ∧ c ≤ '9' then some (c.toNat - '0'.toNat)
  else if 'a' ≤ c ∧ c ≤ 'f' then some (c.toNat - 'a'.toNat + 10)
  else if 'A' ≤ c ∧ c ≤ 'F' then some (c.toNat - 'A'.toNat + 10)
  else none

/-- The character that a one-letter escape stands for. -/
def escaped? : Char → Option Char
  | '"' => some '"'
  | '\\' => some '\\'
  | '/' => some '/'
  | 'b' => some (Char.ofNat 8)
  | 'f' => some (Char.ofNat 12)
  | 'n' => some '\n'
  | 'r' => some '\r'
  | 't' => some '\t'
  | _ => none

/-- Reads a character between two tokens. -/
def stepBetween (tokens : List Token) (c : Char) : Option State :=
  match c with
  | ' ' | '\n' | '\r' | '\t' => some ⟨tokens, .between⟩
  | '[' => some ⟨.openArray :: tokens, .between⟩
  | ']' => some ⟨.closeArray :: tokens, .between⟩
  | '{' => some ⟨.openObject :: tokens, .between⟩
  | '}' => some ⟨.closeObject :: tokens, .between⟩
  | ',' => some ⟨.comma :: tokens, .between⟩
  | ':' => some ⟨.colon :: tokens, .between⟩
  | '"' => some ⟨tokens, .string []⟩
  | c => if isBare c then some ⟨tokens, .bare [c]⟩ else none

/-- Reads a character. -/
def step : State → Char → Option State
  | ⟨tokens, .between⟩, c => stepBetween tokens c
  | ⟨tokens, .bare chars⟩, c =>
    if isBare c then some ⟨tokens, .bare (c :: chars)⟩
    else do stepBetween ((← ofBare? chars.reverse) :: tokens) c
  | ⟨tokens, .string units⟩, c =>
    if c = '"' then
      some ⟨.string ((joinUnits units.reverse).map String.ofList) :: tokens, .between⟩
    else if c = '\\' then some ⟨tokens, .escape units⟩
    else if c.toNat < 0x20 then none
    else some ⟨tokens, .string (.char c :: units)⟩
  | ⟨tokens, .escape units⟩, c =>
    if c = 'u' then some ⟨tokens, .code units 0 0⟩
    else do return ⟨tokens, .string (.char (← escaped? c) :: units)⟩
  | ⟨tokens, .code units count value⟩, c => do
    let value := value * 16 + (← hexDigit? c)
    if count < 3 then return ⟨tokens, .code units (count + 1) value⟩
    else
      let unit := if 0xD800 ≤ value ∧ value < 0xE000 then .half value else .char (Char.ofNat value)
      return ⟨tokens, .string (unit :: units)⟩

/-- The tokens of a text. -/
def ofString? (text : String) : Option (List Token) := do
  let state ← text.toList.foldlM step ⟨[], .between⟩
  match state.mode with
  | .between => return state.tokens.reverse
  | .bare chars => return ((← ofBare? chars.reverse) :: state.tokens).reverse
  | _ => none

end Token

end BoundSql.Json
