/-
# Palette documents

The JSON form of the palette, as the block editor reads it.
-/

import BoardBlocks.Json.Printer
import BoardBlocks.Palette.Basic

namespace BoardBlocks
namespace Palette

/-- The document of an argument. -/
def Argument.toJson (a : Argument) : Json :=
  Json.ofFields ([("type", Json.ofString "string"), ("defaultValue", Json.ofString a.default)] ++
    match a.menu with
    | some menu => [("menu", Json.ofString menu)]
    | none => [])

/-- The document of a block. -/
def Entry.toJson (e : Entry) : Json :=
  Json.ofFields [("opcode", Json.ofString e.opcode.name),
    ("blockType", Json.ofString e.opcode.shape.name),
    ("text", Json.ofString e.text),
    ("arguments", Json.ofFields (e.arguments.map fun a => (a.1, a.2.toJson))),
    ("func", Json.ofString e.function),
    ("targets", .array (e.targets.map fun t => Json.ofString t.name))]

/-- The document of the palette; its three colors are numbered from 1. -/
def Descriptor.toJson (d : Descriptor) : Json :=
  Json.ofFields ([("id", Json.ofString d.id), ("name", Json.ofString d.name)] ++
    d.colors.mapIdx (fun i color => ("color" ++ toString (i + 1), Json.ofString color)) ++
    [("blocks", .array (d.entries.map Entry.toJson)),
      ("menus", Json.ofFields (d.menus.map fun m => (m.1, .array (m.2.map Json.ofString))))])

end Palette
end BoardBlocks
