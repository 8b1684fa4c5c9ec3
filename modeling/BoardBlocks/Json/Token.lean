/-
# The tokens of a JSON document

A document is a sequence of brackets, separators, words, numerals and strings, with spaces, tabs,
line feeds and carriage returns between them.  Numerals and strings are kept as they are written:
whether a string is a text and which double a numeral names is asked only where one is used.

A string runs to the next double quote that no backslash escapes.  It holds no character below
U+0020, and a backslash starts one of the escapes of `BoardBlocks.Json.Escape`.
-/

import BoardBlocks.Decimal.Numeral
import BoardBlocks.Json.Escape

namespace BoardBlocks
namespace Json

/-- One token of a document. -/
inductive Token where
  | openArray
  | closeArray
  | openObject
  | closeObject
  | comma
  | colon
  | null
  | bool (value : Bool)
  | number (written : String)
  | string (written : String)
deriving DecidableEq, Repr

/-- Whether a character may stand between two tokens. -/
def isSpace (c : Char) : Bool :=
  c = ' ' || c = '\t' || c = '\n' || c = '\r'

/-- The contents of a string and what follows its closing quote. -/
def spanString : List Char → Option (List Char × List Char)
  | [] => none
  | '"' :: rest => some ([], rest)
  | '\\' :: 'u' :: a :: b :: c :: d :: rest => do
    let _ ← unitOf? a b c d
    let (written, rest) ← spanString rest
    return ('\\' :: 'u' :: a :: b :: c :: d :: written, rest)
  | '\\' :: e :: rest => do
    let _ ← shortEscape? e
    let (written, rest) ← spanString rest
    return ('\\' :: e :: written, rest)
  | c :: rest =>
    if c.toNat < 0x20 then none
    else do
      let (written, rest) ← spanString rest
      return (c :: written, rest)

/-- The text after a word, if the text starts with it. -/
def dropWord? (word : String) (cs : List Char) : Option (List Char) :=
  word.toList.isPrefixOf? cs

/-- The token at the head of a text and what follows it. -/
def Token.next? : List Char → Option (Token × List Char)
  | [] => none
  | '[' :: cs => some (.openArray, cs)
  | ']' :: cs => some (.closeArray, cs)
  | '\x7b' :: cs => some (.openObject, cs)
  | '\x7d' :: cs => some (.closeObject, cs)
  | ',' :: cs => some (.comma, cs)
  | ':' :: cs => some (.colon, cs)
  | 'n' :: cs => (.null, ·) <$> dropWord? "ull" cs
  | 't' :: cs => (.bool true, ·) <$> dropWord? "rue" cs
  | 'f' :: cs => (.bool false, ·) <$> dropWord? "alse" cs
  | '"' :: cs => do
    let (written, rest) ← spanString cs
    return (.string (String.ofList written), rest)
  | c :: cs => do
    let (n, rest) ← Decimal.Numeral.scan (c :: cs)
    return (.number (String.ofList n.chars), rest)

/-- The tokens of a text; no more than `count` are read. -/
def Token.scan : (count : Nat) → List Char → Option (List Token)
  | count, cs =>
    match count, cs.dropWhile isSpace with
    | _, [] => some []
    | 0, _ => none
    | count + 1, c :: cs => do
      let (token, rest) ← Token.next? (c :: cs)
      return token :: (← Token.scan count rest)

/-- The tokens of a document; a text has no more tokens than characters. -/
def tokens? (s : String) : Option (List Token) :=
  Token.scan s.toList.length s.toList

end Json
end BoardBlocks
