/-
# Reading JSON documents

The tree of a document from its tokens.  Nothing but white space may stand after the document, and
there is no comma before a closing bracket.  Nesting is not limited here: how deep a part may nest
depends on what it is used for.
-/

import BoardBlocks.Json.Basic
import BoardBlocks.Json.Token

namespace BoardBlocks
namespace Json

mutual
/-- The value at the head of a list of tokens and what follows it. -/
def readValue : (fuel : Nat) → List Token → Option (Json × List Token)
  | 0, _ => none
  | fuel + 1, ts =>
    match ts with
    | .null :: ts => some (.null, ts)
    | .bool b :: ts => some (.bool b, ts)
    | .number written :: ts => some (.number written, ts)
    | .string written :: ts => some (.string written, ts)
    | .openArray :: .closeArray :: ts => some (.array [], ts)
    | .openArray :: ts => do
      let (items, ts) ← readItems fuel ts
      return (.array items, ts)
    | .openObject :: .closeObject :: ts => some (.object [], ts)
    | .openObject :: ts => do
      let (members, ts) ← readMembers fuel ts
      return (.object members, ts)
    | _ => none
/-- The items of an array up to its closing bracket, at least one. -/
def readItems : (fuel : Nat) → List Token → Option (List Json × List Token)
  | 0, _ => none
  | fuel + 1, ts => do
    let (item, ts) ← readValue fuel ts
    match ts with
    | .comma :: ts =>
      let (items, ts) ← readItems fuel ts
      return (item :: items, ts)
    | .closeArray :: ts => return ([item], ts)
    | _ => none
/-- The members of an object up to its closing brace, at least one. -/
def readMembers : (fuel : Nat) → List Token → Option (List (String × Json) × List Token)
  | 0, _ => none
  | fuel + 1, ts =>
    match ts with
    | .string key :: .colon :: ts => do
      let (value, ts) ← readValue fuel ts
      match ts with
      | .comma :: ts =>
        let (members, ts) ← readMembers fuel ts
        return ((key, value) :: members, ts)
      | .closeObject :: ts => return ([(key, value)], ts)
      | _ => none
    | _ => none
end

/-- The document that a text is.  Two steps for each token are enough. -/
def read? (s : String) : Option Json := do
  let ts ← tokens? s
  match readValue (2 * ts.length + 1) ts with
  | some (document, []) => some document
  | _ => none

end Json
end BoardBlocks
