/-
# Running in a folder

A folder holds files with text, some of them in folders below it.  Running the tool in a folder
gives an exit status, what is printed, and the folder afterwards.

Outside the folder only devices can be reached.  Standard input is used up by the first reading; a
further one finds it empty.  A device that has no end, or that only takes text, gives none.
-/

import BoardBlocks.CommandLine.Device
import BoardBlocks.CommandLine.Run
import BoardBlocks.Keyed
import BoardBlocks.Text.Lines

namespace BoardBlocks
namespace CommandLine

/-- Files with their texts. -/
structure Folder where
  files : List (String × String) := []
deriving DecidableEq, Repr

namespace Folder

/-- The file at the end of a trail. -/
def fileAt? (f : Folder) (trail : Trail) : Option (String × String) :=
  f.files.find? fun e => trailOf e.1 = trail

/-- Whether a trail leads to a folder: the folder itself, or one with a file below it. -/
def hasFolder (f : Folder) (trail : Trail) : Bool :=
  trail.isEmpty || f.files.any fun e => leadsTo trail (trailOf e.1)

/-- The places that paths lead to. -/
def tree (f : Folder) : Tree Spot where
  isFolder
    | .inside trail => f.hasFolder trail
    | .system trail => isSystemFolder trail
  parent := Spot.parent
  child := Spot.child

/-- The place that a path leads to, where something may be or not. -/
def spot? (f : Folder) (path : String) : Option Spot := do
  f.tree.follow (.start path) (← stepsOf? path)

/-- Reads what is left of standard input and uses it up. -/
def takeInput : StateM String (Option String) :=
  modifyGet fun input => (some input, "")

/-- Reads from a device; the state is what is left of standard input. -/
def readDevice : Device → StateM String (Option String)
  | .null => return some ""
  | .input => takeInput
  | .endless | .output | .errors => return none

/-- Reads a text; the state is what is left of standard input. -/
def read (f : Folder) : Source → StateM String (Option String)
  | .input => takeInput
  | .file path =>
    match f.spot? path with
    | some (.inside trail) => return (f.fileAt? trail).map (·.2)
    | some (.system trail) =>
      match Device.ofTrail? trail with
      | some d => readDevice d
      | none => return none
    | none => return none

/-- The folder with a text at the end of a trail. -/
def withFile (f : Folder) (trail : Trail) (text : String) : Folder :=
  let name := match f.fileAt? trail with
    | some e => e.1
    | none => "/".intercalate (trail.map String.ofList)
  ⟨Keyed.put name text f.files⟩

/-- The folder after writing a text at the end of a path, and what is printed by that; `none` if the
text cannot be written. -/
def write? (f : Folder) (path text : String) : Option (Folder × String) :=
  match f.spot? path with
  | some (.inside trail) => if f.hasFolder trail then none else some (f.withFile trail text, "")
  | some (.system trail) =>
    (Device.ofTrail? trail).map fun d => (f, if d = .output then text else "")
  | none => none

/-- The files of a folder that were not there before with the same text. -/
def changedSince (f before : Folder) : List (String × String) :=
  f.files.filter fun e => !before.files.contains e

end Folder

/-- What a run of the tool shows; of a failure the first line is told. -/
structure Report where
  status : Nat
  printed : String := ""
  message : Option String := none
deriving DecidableEq, Repr

/-- The report of a failure. -/
def Report.failure (message : String) : Report :=
  { status := 1, message := some (Text.firstLine message) }

/-- Runs the tool in a folder: what it shows and the folder after it. -/
def runIn (folder : Folder) (words : List String) (input : String) : Report × Folder :=
  match Invocation.parse words with
  | .error .usage => ({ status := 2 }, folder)
  | .error .version => ({ status := 0, printed := versionText }, folder)
  | .ok invocation =>
    match ((invocation.run folder.read).run input).1 with
    | .printed text => ({ status := 0, printed := text }, folder)
    | .failed message => (.failure message, folder)
    | .toFile path text =>
      match folder.write? path text with
      | some (folder, printed) => ({ status := 0, printed }, folder)
      | none => (.failure (writeFailure path), folder)

end CommandLine
end BoardBlocks
