/-
# String literals of the generated source

Both targets read a double-quoted literal with the same five escapes:

| character | written |
| --- | --- |
| backslash | `\\` |
| double quote | `\"` |
| line feed | `\n` |
| carriage return | `\r` |
| tab | `\t` |

Everything else, other control characters and non-ASCII included, stands for itself.
-/

namespace BoardBlocks
namespace Text

/-- How one character is written inside a literal. -/
def escapeChar (c : Char) : List Char :=
  if c = '\\' then ['\\', '\\']
  else if c = '"' then ['\\', '"']
  else if c = '\n' then ['\\', 'n']
  else if c = '\r' then ['\\', 'r']
  else if c = '\t' then ['\\', 't']
  else [c]

/-- A text between double quotes, as characters. -/
def quoted (cs : List Char) : List Char :=
  '"' :: (cs.flatMap escapeChar ++ ['"'])

/-- A text as a string literal of the generated source. -/
def quote (s : String) : String :=
  String.ofList (quoted s.toList)

@[simp] theorem toList_quote (s : String) : (quote s).toList = quoted s.toList := by
  simp [quote]

end Text
end BoardBlocks
