/-
# The command line tool

Reads what an invocation needs, runs it and writes what it comes to.
-/

import BoardBlocks.CommandLine.Run

open BoardBlocks.CommandLine

/-- The text of a file or of standard input, if it can be read. -/
def readSource (source : Source) : IO (Option String) := do
  try
    match source with
    | .file path => return some (← IO.FS.readFile path)
    | .input => return some (← (← IO.getStdin).readToEnd)
  catch _ =>
    return none

/-- Ends with a message. -/
def failWith (message : String) : IO UInt32 := do
  IO.eprintln ("Error: " ++ message)
  return 1

/-- Carries out what an invocation comes to. -/
def finishWith : Outcome → IO UInt32
  | .printed text => do
    IO.print text
    return 0
  | .failed message => failWith message
  | .toFile path text => do
    try
      IO.FS.writeFile path text
      return 0
    catch _ => failWith (writeFailure path)

def main (words : List String) : IO UInt32 := do
  match Invocation.parse words with
  | .error .version =>
    IO.print versionText
    return 0
  | .error .usage =>
    IO.eprintln "usage: iotblocks [-c FILE] generate | describe | encode ..."
    return 2
  | .ok invocation => finishWith (← invocation.run readSource)
