/-
# Devices

What a path can reach outside the folder in which the tool runs.  From the root there are devices
and links; a link stands for the place that it leads to, so `..` after it leaves that place.

| device | read | written |
| --- | --- | --- |
| `/dev/null` | empty | lost |
| `/dev/zero`, `/dev/random`, `/dev/urandom` | without end | lost |
| `/proc/self/fd/0` | standard input | lost |
| `/proc/self/fd/1` | never | printed |
| `/proc/self/fd/2` | never | lost |

| link | leads to |
| --- | --- |
| `/dev/stdin`, `/dev/stdout`, `/dev/stderr` | `/proc/self/fd/0`, `…/1`, `…/2` |
| `/dev/fd` | `/proc/self/fd` |
| `/proc/self/root` | the root |
| `/proc/self/cwd` | the folder in which the tool runs |

The folder in which the tool runs lies in `/tmp`, and `..` at the root stays there.  So enough steps
back lead from any place to the root.
-/

import BoardBlocks.CommandLine.Path

namespace BoardBlocks
namespace CommandLine

/-- A place below the folder in which the tool runs, or one below the root. -/
inductive Spot where
  | inside (trail : Trail)
  | system (trail : Trail)
deriving DecidableEq, Repr

/-- The place where a path starts. -/
def Spot.start (path : String) : Spot :=
  if isAbsolute path then .system [] else .inside []

/-- The folder around the one in which the tool runs, as a trail from the root. -/
def surroundings : Trail := trailOf "tmp"

/-- The folder around a place; the root is around itself. -/
def Spot.parent : Spot → Spot
  | .inside [] => .system surroundings
  | .inside trail => .inside trail.dropLast
  | .system trail => .system trail.dropLast

/-- What can be reached outside the folder. -/
inductive Device where
  | null
  | endless
  | input
  | output
  | errors
deriving DecidableEq, Repr

namespace Device

/-- The devices with the trails to them from the root. -/
def trails : List (Trail × Device) :=
  [("dev/null", null), ("dev/zero", endless), ("dev/random", endless), ("dev/urandom", endless),
    ("proc/self/fd/0", input), ("proc/self/fd/1", output), ("proc/self/fd/2", errors)].map
    fun p => (trailOf p.1, p.2)

/-- The device at the end of a trail from the root. -/
def ofTrail? (trail : Trail) : Option Device :=
  trails.lookup trail

end Device

/-- Whether a trail from the root leads to a folder: the one around the tool's, or one with devices
in it or below. -/
def isSystemFolder (trail : Trail) : Bool :=
  trail = surroundings || Device.trails.any fun d => leadsTo trail d.1

/-- The links with the trails to them from the root. -/
def links : List (Trail × Spot) :=
  [("dev/fd", .system (trailOf "proc/self/fd")), ("dev/stdin", .system (trailOf "proc/self/fd/0")),
    ("dev/stdout", .system (trailOf "proc/self/fd/1")),
    ("dev/stderr", .system (trailOf "proc/self/fd/2")),
    ("proc/self/root", .system []), ("proc/self/cwd", .inside [])].map
    fun p => (trailOf p.1, p.2)

/-- Where a name in a folder leads; a link is taken to its end. -/
def Spot.child (here : Spot) (name : List Char) : Spot :=
  match here with
  | .inside trail => .inside (trail ++ [name])
  | .system trail => (links.lookup (trail ++ [name])).getD (.system (trail ++ [name]))

end CommandLine
end BoardBlocks
