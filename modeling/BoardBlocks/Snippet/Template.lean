/-
# Templates

A template is source text with placeholders.  A placeholder is `[NAME]`, where the name is an ASCII
upper-case letter followed by ASCII upper-case letters, digits and underscores.  Any other bracket
is text: in `buf[0]`, `[lower]` and `a[B` there is no placeholder.

Filling a template replaces every placeholder by the text that a lookup gives for its name, from
left to right; the replacement is not searched for placeholders.
-/

namespace BoardBlocks
namespace Snippet

/-- One element of a template. -/
inductive Part where
  | char (c : Char)
  | slot (name : List Char)
deriving DecidableEq, Repr

/-- Whether a character may stand in the name of a placeholder. -/
def isNameChar (c : Char) : Bool :=
  c.isUpper || c.isDigit || c = '_'

/-- The name of the placeholder whose opening bracket stands just before the text. -/
def slotName? (cs : List Char) : Option (List Char) :=
  let name := cs.takeWhile isNameChar
  if (name.head?.any Char.isUpper) && (cs.dropWhile isNameChar).head? = some ']' then some name
  else none

/-- The elements of a template, where the first `skip` characters belong to the element before. -/
def partsFrom : (skip : Nat) → List Char → List Part
  | _, [] => []
  | skip + 1, _ :: cs => partsFrom skip cs
  | 0, c :: cs =>
    if c = '[' then
      match slotName? cs with
      | some name => .slot name :: partsFrom (name.length + 1) cs
      | none => .char c :: partsFrom 0 cs
    else .char c :: partsFrom 0 cs

/-- The elements of a template. -/
def parts (template : String) : List Part :=
  partsFrom 0 template.toList

/-- The names of the placeholders, in order and with repetitions. -/
def slots (template : String) : List String :=
  (parts template).filterMap fun
    | .char _ => none
    | .slot name => some (String.ofList name)

/-- What stands in the filled template for one element. -/
def fillPart {m : Type → Type} [Monad m] (lookup : String → m String) : Part → m String
  | .char c => pure (String.singleton c)
  | .slot name => lookup (String.ofList name)

/-- The template with its placeholders replaced. -/
def fill {m : Type → Type} [Monad m] (template : String) (lookup : String → m String) : m String :=
  String.join <$> (parts template).mapM (fillPart lookup)

end Snippet
end BoardBlocks
