import AccessTokens.Text.Decimal
import AccessTokens.Text.Hex
import AccessTokens.Text.Reader

/-!
# JSON values

`Value.read?` reads a JSON text to its end. Numbers are told apart only as far as records need it: a
number without fraction and exponent is an `integer`, any other one is `real`, and so is `-0`, which no
integer is written as.

A quoted text may hold escapes of 16-bit units that do not pair up to characters. Such a text has no
value (`text none`), but it is still JSON: whoever does not look at it need not refuse it.
-/

namespace AccessTokens.Json

open Text (Reader)

/-- A JSON value. Members of an object keep their order, and their keys may repeat. -/
inductive Value
  | null
  | bool (b : Bool)
  | integer (n : Int)
  /-- A number with a fraction or an exponent, or `-0`. -/
  | real
  /-- A quoted text, or `none` if its escapes do not pair up to characters. -/
  | text (s : Option String)
  | array (items : List Value)
  | object (members : List (Option String × Value))

/-! ### Quoted texts -/

/-- What a quoted text holds: a character, or a 16-bit unit that was escaped. -/
inductive Piece
  | char (c : Char)
  | unit (n : Nat)

/-- The number of four hexadecimal digits. -/
def unitOfDigits? (a b c d : Char) : Option Nat := do
  let w ← Hex.digitValue? a
  let x ← Hex.digitValue? b
  let y ← Hex.digitValue? c
  let z ← Hex.digitValue? d
  return ((w * 16 + x) * 16 + y) * 16 + z

/-- The characters that an escape of one letter stands for. -/
def escaped? : Char → Option Char
  | '"' => some '"'
  | '\\' => some '\\'
  | '/' => some '/'
  | 'b' => some '\x08'
  | 'f' => some '\x0c'
  | 'n' => some '\n'
  | 'r' => some '\r'
  | 't' => some '\t'
  | _ => none

/-- Takes the pieces of a quoted text and its closing quote. Control characters must be escaped. -/
def pieces : List Char → Option (List Piece × List Char)
  | [] => none
  | '"' :: rest => some ([], rest)
  | '\\' :: 'u' :: a :: b :: c :: d :: rest => do
    let n ← unitOfDigits? a b c d
    let (ps, rest) ← pieces rest
    return (.unit n :: ps, rest)
  | '\\' :: e :: rest => do
    let c ← escaped? e
    let (ps, rest) ← pieces rest
    return (.char c :: ps, rest)
  | c :: rest =>
    if c < ' ' then none
    else do
      let (ps, rest) ← pieces rest
      return (.char c :: ps, rest)

/-- A unit that begins a pair. -/
def isHighUnit (n : Nat) : Bool := 0xD800 ≤ n && n < 0xDC00

/-- A unit that ends a pair. -/
def isLowUnit (n : Nat) : Bool := 0xDC00 ≤ n && n < 0xE000

/-- The characters of a list of pieces. A unit that begins a pair must be followed by one that ends
it, and no other unit may end one. -/
def assemble : List Piece → Option (List Char)
  | [] => some []
  | .char c :: ps => (assemble ps).map (c :: ·)
  | .unit n :: ps =>
    if isHighUnit n then
      -- Two units of ten bits each make up the code point above the first 65536.
      match ps with
      | .unit m :: rest =>
        if isLowUnit m then
          (assemble rest).map (Char.ofNat (0x10000 + (n - 0xD800) * 0x400 + (m - 0xDC00)) :: ·)
        else none
      | _ => none
    else if isLowUnit n then none
    else (assemble ps).map (Char.ofNat n :: ·)

/-- Takes a quoted text. -/
def readText : Reader (Option String) := do
  Reader.char '"'
  let ps ← pieces
  return (assemble ps).map String.ofList

/-! ### Values -/

/-- Takes the white space that may stand between the parts of a JSON text. -/
def skipSpaces : Reader Unit := do
  let _ ← Reader.run fun c => [' ', '\n', '\t', '\r'].contains c

/-- Takes one or more digits. -/
def someDigits : Reader (List Char) := do
  let ds ← Reader.run Char.isDigit
  if ds = [] then Reader.refuse else return ds

/-- Takes one character if it is one of those given. -/
def takes (cs : List Char) : Reader Bool := do
  match ← Reader.peek with
  | none => return false
  | some c => if cs.contains c then Reader.char c; return true else return false

/-- Takes a number. Only the number zero begins with the digit zero. -/
def readNumber : Reader Value := do
  let negative ← takes ['-']
  let ds ← someDigits
  if ds.head? = some '0' ∧ ds ≠ ['0'] then
    Reader.refuse
  let fraction ← takes ['.']
  if fraction then
    let _ ← someDigits
  let exponent ← takes ['e', 'E']
  if exponent then
    let _ ← takes ['+', '-']
    let _ ← someDigits
  if fraction || exponent || negative && ds == ['0'] then
    return .real
  else
    return .integer (if negative then -(Decimal.value ds : Int) else Decimal.value ds)

/-- Takes one or more items with commas between them, and the closing character. -/
def itemsUntil {α : Type} (item : Reader α) (closing : Char) : Nat → Reader (List α)
  | 0 => Reader.refuse
  | fuel + 1 => do
    let x ← item
    skipSpaces
    if ← takes [','] then
      return x :: (← itemsUntil item closing fuel)
    else
      Reader.char closing
      return [x]

/-- Takes any number of items with commas between them, and the closing character. -/
def listUntil {α : Type} (item : Reader α) (closing : Char) (fuel : Nat) : Reader (List α) := do
  skipSpaces
  if ← takes [closing] then return [] else itemsUntil item closing fuel

/-- Takes a key, a colon and a value. -/
def readMember (value : Reader Value) : Reader (Option String × Value) := do
  skipSpaces
  let key ← readText
  skipSpaces
  Reader.char ':'
  return (key, ← value)

/-- Takes a value, with white space before it. The fuel bounds the depth and the number of items. -/
def readValue : Nat → Reader Value
  | 0 => Reader.refuse
  | fuel + 1 => do
    skipSpaces
    match ← Reader.peek with
    | some '"' => return .text (← readText)
    | some '[' =>
      Reader.char '['
      return .array (← listUntil (readValue fuel) ']' fuel)
    | some '{' =>
      Reader.char '{'
      return .object (← listUntil (readMember (readValue fuel)) '}' fuel)
    | some 'n' =>
      Reader.text "null".toList
      return .null
    | some 't' =>
      Reader.text "true".toList
      return .bool true
    | some 'f' =>
      Reader.text "false".toList
      return .bool false
    | _ => readNumber

/-- Reads a JSON text to its end. Every level and every item takes a character, so that the length of
the text is fuel enough. -/
def Value.read? (s : String) : Option Value :=
  let whole : Reader Value := do
    let v ← readValue (s.length + 1)
    skipSpaces
    return v
  whole.whole? s.toList

/-! ### Writing -/

/-- A character in a quoted text: the quote, the backslash and control characters are escaped. -/
def quotedChar (c : Char) : List Char :=
  if c = '"' then ['\\', '"']
  else if c = '\\' then ['\\', '\\']
  else if c = '\x08' then ['\\', 'b']
  else if c = '\x0c' then ['\\', 'f']
  else if c = '\n' then ['\\', 'n']
  else if c = '\r' then ['\\', 'r']
  else if c = '\t' then ['\\', 't']
  else if c < ' ' then '\\' :: 'u' :: Text.fixedDigits 16 4 c.toNat
  else [c]

/-- A text in quotes. -/
def quoted (s : String) : List Char := '"' :: (s.toList.flatMap quotedChar ++ ['"'])

/-- The text of an absent value. -/
def nullText : List Char := ['n', 'u', 'l', 'l']

/-- An object of members whose values are already text, without white space. -/
def objectText (members : List (String × List Char)) : List Char :=
  '{' :: ([','].intercalate (members.map fun m => quoted m.1 ++ ':' :: m.2) ++ ['}'])

end AccessTokens.Json
