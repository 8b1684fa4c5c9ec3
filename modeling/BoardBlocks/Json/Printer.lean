/-
# Writing JSON documents

Two layouts.  The compact one has no white space.  The indented one puts every item and member on a
line of its own, two spaces deeper than the bracket around it, with a space after the colon; empty
arrays and objects stay on one line in both.
-/

import BoardBlocks.Json.Basic

namespace BoardBlocks
namespace Json

/-- A string between its quotes. -/
def quotedChars (written : String) : List Char :=
  '"' :: (written.toList ++ ['"'])

mutual
/-- The compact layout, as characters. -/
def compactChars : Json → List Char
  | .null => "null".toList
  | .bool true => "true".toList
  | .bool false => "false".toList
  | .number written => written.toList
  | .string written => quotedChars written
  | .array [] => "[]".toList
  | .array (v :: vs) => '[' :: (compactChars v ++ compactItems vs ++ [']'])
  | .object [] => "\x7b\x7d".toList
  | .object ((k, v) :: ms) =>
    '\x7b' :: (quotedChars k ++ ':' :: (compactChars v ++ compactMembers ms ++ ['\x7d']))
termination_by structural j => j
/-- Further items, each after a comma. -/
def compactItems : List Json → List Char
  | [] => []
  | v :: vs => ',' :: (compactChars v ++ compactItems vs)
termination_by structural vs => vs
/-- Further members, each after a comma. -/
def compactMembers : List (String × Json) → List Char
  | [] => []
  | (k, v) :: ms => ',' :: (quotedChars k ++ ':' :: (compactChars v ++ compactMembers ms))
termination_by structural ms => ms
end

/-- The document without white space. -/
def compact (j : Json) : String :=
  String.ofList (compactChars j)

/-- A new line at a nesting level. -/
def newLine (level : Nat) : List Char :=
  '\n' :: List.replicate (2 * level) ' '

mutual
/-- The indented layout at a nesting level, as characters. -/
def indentedChars : Json → (level : Nat) → List Char
  | .null => fun _ => "null".toList
  | .bool true => fun _ => "true".toList
  | .bool false => fun _ => "false".toList
  | .number written => fun _ => written.toList
  | .string written => fun _ => quotedChars written
  | .array [] => fun _ => "[]".toList
  | .array (v :: vs) => fun level =>
    '[' :: (newLine (level + 1) ++ indentedChars v (level + 1) ++ indentedItems vs (level + 1) ++
      newLine level ++ [']'])
  | .object [] => fun _ => "\x7b\x7d".toList
  | .object ((k, v) :: ms) => fun level =>
    '\x7b' :: (newLine (level + 1) ++ quotedChars k ++ ": ".toList ++
      indentedChars v (level + 1) ++ indentedMembers ms (level + 1) ++ newLine level ++ ['\x7d'])
termination_by structural j => j
/-- Further items on lines of their own. -/
def indentedItems : List Json → (level : Nat) → List Char
  | [] => fun _ => []
  | v :: vs => fun level =>
    ',' :: (newLine level ++ indentedChars v level ++ indentedItems vs level)
termination_by structural vs => vs
/-- Further members on lines of their own. -/
def indentedMembers : List (String × Json) → (level : Nat) → List Char
  | [] => fun _ => []
  | (k, v) :: ms => fun level =>
    ',' :: (newLine level ++ quotedChars k ++ ": ".toList ++ indentedChars v level ++
      indentedMembers ms level)
termination_by structural ms => ms
end

/-- The document with one item or member a line. -/
def indented (j : Json) : String :=
  String.ofList (indentedChars j 0)

end Json
end BoardBlocks
