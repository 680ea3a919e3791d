/-!
# Control sequences

Text for a terminal holds control sequences, which say how it looks. A message emphasises what it
names with them, and what it names may hold others. Where no terminal reads the message all of them
are removed, as are single control characters other than the blank ones.

What is shown of emphasised text does not hang on what stands before it, nor what follows on it: it
ends every sequence at both its ends.
-/

namespace BoundSql.CommandLine

/-- What has been read of a control sequence. -/
inductive ControlSequence where
  /-- The escape character alone. -/
  | escape
  /-- An escape sequence that lacks its last character. -/
  | intermediate
  /-- A sequence with parameters that lacks its last character. -/
  | parameters
  /-- The opening of a device control string. -/
  | deviceOpening
  /-- A device control string up to some of its parameters. -/
  | deviceParameters
  /-- A device control string that lacks only the last character of its head. -/
  | deviceIntermediate
  /-- A string for the device, a program or nobody, up to the string terminator. -/
  | string
  /-- A command for the operating system, which a bell ends. -/
  | command
deriving DecidableEq, Repr

namespace ControlSequence

/-- Whether blank control characters are shown inside the sequence. -/
def showsBlanks : ControlSequence → Bool
  | .escape | .intermediate | .parameters => true
  | _ => false

/-- Whether the byte of the string terminator is in the UTF-8 form of the character. -/
def holdsTerminator (c : Char) : Bool :=
  (String.utf8EncodeChar c).contains 0x9C

/-- The sequence with one more character, or none if that ends it. A character that has no place in
the sequence changes nothing. -/
def next? (s : ControlSequence) (c : Char) : Option ControlSequence :=
  match s with
  | .escape =>
    match c with
    | '[' => some .parameters
    | ']' => some .command
    | 'P' => some .deviceOpening
    | 'X' | '^' | '_' => some .string
    | c =>
      if ' ' ≤ c ∧ c ≤ '/' then some .intermediate
      else if '0' ≤ c ∧ c ≤ '~' then none
      else some .escape
  | .intermediate => if '0' ≤ c ∧ c ≤ '~' then none else some .intermediate
  | .parameters => if '@' ≤ c ∧ c ≤ '~' then none else some .parameters
  | .deviceOpening =>
    if ' ' ≤ c ∧ c ≤ '/' then some .deviceIntermediate
    else if '0' ≤ c ∧ c ≤ '?' then some .deviceParameters
    else if '@' ≤ c ∧ c ≤ '~' then some .string
    else some .deviceOpening
  | .deviceParameters =>
    if ' ' ≤ c ∧ c ≤ '/' then some .deviceIntermediate
    else if '<' ≤ c ∧ c ≤ '~' then some .string
    else some .deviceParameters
  | .deviceIntermediate => if '0' ≤ c ∧ c ≤ '~' then some .string else some .deviceIntermediate
  | .string => if holdsTerminator c then none else some .string
  | .command => if c = '\x07' then none else some .command

end ControlSequence

/-- Where in its text a message is being read. -/
inductive Position where
  | text
  | inside (s : ControlSequence)
  /-- In text that a blank inside a sequence has begun. The next control character goes on with the
  sequence. -/
  | suspended (s : ControlSequence)
deriving DecidableEq, Repr

/-- Whether the character is a control character that stands for blank space. -/
def isBlankControl (c : Char) : Bool :=
  c == '\t' || c == '\n' || c == '\x0c' || c == '\r'

/-- Whether the character is shown when it stands in text. -/
def isVisible (c : Char) : Bool :=
  isBlankControl c || (' ' ≤ c && c != '\x7f')

/-- Whether a character is shown at a position, and the position behind it. The escape character
begins a sequence and the two cancelling characters end one, wherever they stand. -/
def Position.step (p : Position) (c : Char) : Bool × Position :=
  if c = '\x1b' then (false, .inside .escape)
  else if c = '\x18' ∨ c = '\x1a' then (false, .text)
  else match p with
  | .text => (isVisible c, .text)
  | .inside s =>
    if s.showsBlanks && isBlankControl c then (true, .suspended s)
    else match s.next? c with
    | some s => (false, .inside s)
    | none => (false, .text)
  | .suspended s =>
    if c.toNat ≥ 0x80 then (true, .text)
    else if isVisible c then (true, .suspended s)
    else (false, .inside s)

/-- The characters that are shown, from a position on. -/
def visibleFrom : Position → List Char → List Char
  | _, [] => []
  | p, c :: rest =>
    match p.step c with
    | (true, p) => c :: visibleFrom p rest
    | (false, p) => visibleFrom p rest

/-- The text without its control sequences. -/
def visible (text : String) : String :=
  String.ofList (visibleFrom .text text.toList)

/-- The characters of text that a terminal emphasises. -/
def emphasisedChars (text : List Char) : List Char :=
  ['\x1b', '[', '1', 'm'] ++ text ++ ['\x1b', '[', '0', 'm']

/-- The text as a terminal emphasises it. -/
def emphasised (text : String) : String :=
  String.ofList (emphasisedChars text.toList)

end BoundSql.CommandLine
