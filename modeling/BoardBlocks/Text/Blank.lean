/-
# White space

The 25 characters with the Unicode property `White_Space`, and what is trimmed and what counts as
blank because of them.  The separators U+001C–U+001F, the zero width space U+200B, the byte order
mark U+FEFF and the Mongolian vowel separator U+180E are not white space.

| range | characters |
| --- | --- |
| U+0009–U+000D | tab, line feed, vertical tab, form feed, carriage return |
| U+0020, U+0085, U+00A0 | space, next line, no-break space |
| U+1680, U+2000–U+200A | ogham space mark, the typographic spaces |
| U+2028, U+2029 | line separator, paragraph separator |
| U+202F, U+205F, U+3000 | narrow no-break, mathematical and ideographic space |
-/

namespace BoardBlocks
namespace Text

/-- The code points with the property `White_Space`, as closed ranges. -/
def blankRanges : List (Nat × Nat) :=
  [(0x09, 0x0D), (0x20, 0x20), (0x85, 0x85), (0xA0, 0xA0), (0x1680, 0x1680), (0x2000, 0x200A),
    (0x2028, 0x2029), (0x202F, 0x202F), (0x205F, 0x205F), (0x3000, 0x3000)]

/-- Whether a character is white space. -/
def isBlank (c : Char) : Bool :=
  blankRanges.any fun r => r.1 ≤ c.toNat && c.toNat ≤ r.2

/-- The text without its leading white space. -/
def dropBlankStart (cs : List Char) : List Char :=
  cs.dropWhile isBlank

/-- The text without its trailing white space. -/
def dropBlankEnd (cs : List Char) : List Char :=
  (cs.reverse.dropWhile isBlank).reverse

/-- The text without the white space at its two ends. -/
def stripBlank (cs : List Char) : List Char :=
  dropBlankEnd (dropBlankStart cs)

/-- `stripBlank` on a string. -/
def trim (s : String) : String :=
  String.ofList (stripBlank s.toList)

@[simp] theorem toList_trim (s : String) : (trim s).toList = stripBlank s.toList := by
  simp [trim]

/-- `dropBlankEnd` on a string. -/
def trimEnd (s : String) : String :=
  String.ofList (dropBlankEnd s.toList)

@[simp] theorem toList_trimEnd (s : String) : (trimEnd s).toList = dropBlankEnd s.toList := by
  simp [trimEnd]

/-- A text is blank if it holds nothing but white space. -/
def blank (s : String) : Bool :=
  s.toList.all isBlank

end Text
end BoardBlocks
