/-
# JSON documents

A document as a tree.  Scalars are kept as they are written, and an object keeps all its members in
order, also those that repeat a key: what a repeated key means is for the reader of the object to
say.
-/

import BoardBlocks.Decimal.Numeral
import BoardBlocks.Decimal.Style
import BoardBlocks.Json.Escape

namespace BoardBlocks

/-- A JSON document. -/
inductive Json where
  | null
  | bool (value : Bool)
  | number (written : String)
  | string (written : String)
  | array (items : List Json)
  | object (members : List (String × Json))

namespace Json

instance : Inhabited Json := ⟨.null⟩

/-- The string for a text. -/
def ofString (s : String) : Json := .string (encode s)

/-- The numeral for a natural number. -/
def ofNat (n : Nat) : Json := .number (toString n)

/-- The numeral for a double; infinities and the like are `null`. -/
def ofFloat (n : Float) : Json :=
  match Decimal.document? n with
  | some written => .number written
  | none => .null

/-- An object from its fields. -/
def ofFields (fields : List (String × Json)) : Json :=
  .object (fields.map fun f => (encode f.1, f.2))

mutual
/-- How deep arrays and objects nest. -/
def depth : Json → Nat
  | .array items => depthItems items + 1
  | .object members => depthMembers members + 1
  | _ => 0
termination_by structural j => j
/-- The depth of the deepest item. -/
def depthItems : List Json → Nat
  | [] => 0
  | v :: vs => max (depth v) (depthItems vs)
termination_by structural vs => vs
/-- The depth of the deepest member. -/
def depthMembers : List (String × Json) → Nat
  | [] => 0
  | (_, v) :: ms => max (depth v) (depthMembers ms)
termination_by structural ms => ms
end

mutual
/-- Whether all strings are texts and all numerals name a double. -/
def sound : Json → Bool
  | .number written => ((Decimal.Numeral.ofString? written).bind (·.toFloat?)).isSome
  | .string written => (decode? written).isSome
  | .array items => soundItems items
  | .object members => soundMembers members
  | _ => true
termination_by structural j => j
/-- Whether all items are sound. -/
def soundItems : List Json → Bool
  | [] => true
  | v :: vs => sound v && soundItems vs
termination_by structural vs => vs
/-- Whether all members are sound, with keys that are texts. -/
def soundMembers : List (String × Json) → Bool
  | [] => true
  | (k, v) :: ms => (decode? k).isSome && sound v && soundMembers ms
termination_by structural ms => ms
end

end Json
end BoardBlocks
