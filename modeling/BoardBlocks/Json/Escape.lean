/-
# The contents of JSON strings

What stands between the double quotes of a JSON string.  Written by this library, a text escapes the
double quote, the backslash and the characters below U+0020:

| character | written |
| --- | --- |
| `"`, `\` | `\"`, `\\` |
| U+0008, U+0009, U+000A, U+000C, U+000D | `\b`, `\t`, `\n`, `\f`, `\r` |
| other characters below U+0020 | `\u00` and two lower-case hexadecimal digits |

Read, the contents may also use `\/` and `\u` with any four hexadecimal digits, which name a UTF-16
code unit.  A high surrogate followed by a low one is one character; any other surrogate has no
meaning, so contents that hold one are no text.
-/

namespace BoardBlocks
namespace Json

/-- The lower-case hexadecimal digit of a number below 16. -/
def hexDigit (n : Nat) : Char :=
  if n < 10 then Char.ofNat ('0'.toNat + n) else Char.ofNat ('a'.toNat + n - 10)

/-- The value of a hexadecimal digit, in either case. -/
def hexValue? (c : Char) : Option Nat :=
  if '0' ≤ c ∧ c ≤ '9' then some (c.toNat - '0'.toNat)
  else if 'a' ≤ c ∧ c ≤ 'f' then some (c.toNat - 'a'.toNat + 10)
  else if 'A' ≤ c ∧ c ≤ 'F' then some (c.toNat - 'A'.toNat + 10)
  else none

/-- How one character is written inside a JSON string. -/
def escapeChar (c : Char) : List Char :=
  if c = '"' then ['\\', '"']
  else if c = '\\' then ['\\', '\\']
  else if c = '\x08' then ['\\', 'b']
  else if c = '\t' then ['\\', 't']
  else if c = '\n' then ['\\', 'n']
  else if c = '\x0c' then ['\\', 'f']
  else if c = '\r' then ['\\', 'r']
  else if c.toNat < 0x20 then
    ['\\', 'u', '0', '0', hexDigit (c.toNat / 16), hexDigit (c.toNat % 16)]
  else [c]

/-- The contents of the JSON string for a text, as characters. -/
def encodeChars (cs : List Char) : List Char :=
  cs.flatMap escapeChar

/-- The contents of the JSON string for a text. -/
def encode (s : String) : String :=
  String.ofList (encodeChars s.toList)

/-- What one written element of a JSON string stands for. -/
inductive Piece where
  | char (c : Char)
  | unit (code : Nat)
deriving DecidableEq, Repr

/-- The character behind a one-letter escape. -/
def shortEscape? (c : Char) : Option Char :=
  if c = '"' ∨ c = '\\' ∨ c = '/' then some c
  else if c = 'b' then some '\x08'
  else if c = 't' then some '\t'
  else if c = 'n' then some '\n'
  else if c = 'f' then some '\x0c'
  else if c = 'r' then some '\r'
  else none

/-- The code unit that four hexadecimal digits name. -/
def unitOf? (a b c d : Char) : Option Nat := do
  return 4096 * (← hexValue? a) + 256 * (← hexValue? b) + 16 * (← hexValue? c) + (← hexValue? d)

/-- The elements of the contents of a JSON string. -/
def pieces? : List Char → Option (List Piece)
  | [] => some []
  | '\\' :: 'u' :: a :: b :: c :: d :: cs => do
    let code ← unitOf? a b c d
    return .unit code :: (← pieces? cs)
  | '\\' :: e :: cs => do
    let c ← shortEscape? e
    return .char c :: (← pieces? cs)
  | c :: cs => if c = '\\' then none else (.char c :: ·) <$> pieces? cs

/-- Whether a code unit is the first half of a surrogate pair. -/
def isHigh (code : Nat) : Bool := 0xD800 ≤ code && code < 0xDC00

/-- Whether a code unit is the second half of a surrogate pair. -/
def isLow (code : Nat) : Bool := 0xDC00 ≤ code && code < 0xE000

/-- The text of a list of elements; surrogates have to come in pairs. -/
def joinPieces? : List Piece → Option (List Char)
  | [] => some []
  | .char c :: ps => (c :: ·) <$> joinPieces? ps
  | .unit high :: .unit low :: ps =>
    if isHigh high then
      if isLow low then
        (Char.ofNat (0x10000 + 0x400 * (high - 0xD800) + (low - 0xDC00)) :: ·) <$> joinPieces? ps
      else none
    else if isLow high then none
    else (Char.ofNat high :: ·) <$> joinPieces? (.unit low :: ps)
  | .unit code :: ps =>
    if isHigh code || isLow code then none else (Char.ofNat code :: ·) <$> joinPieces? ps

/-- The text that the contents of a JSON string stand for. -/
def decode? (written : String) : Option String := do
  String.ofList <$> (← joinPieces? (← pieces? written.toList))

end Json
end BoardBlocks
