/-
# Running an invocation

What an invocation does, given a way to read texts.  The settings are loaded first, then the
program; after a failure nothing more is read.  The program `-` is standard input.  A failure is
told by what was being done; a failure of the generation is told by its own text.
-/

import BoardBlocks.Block.Document
import BoardBlocks.CommandLine.Invocation
import BoardBlocks.Failure
import BoardBlocks.Generation.Program
import BoardBlocks.Palette.Document
import BoardBlocks.Settings.Document

namespace BoardBlocks
namespace CommandLine

/-- Where a text is read from. -/
inductive Source where
  | file (path : String)
  | input
deriving DecidableEq, Repr

/-- A step that reads in `m` and can fail with a message. -/
abbrev Reads (m : Type → Type) := ExceptT String m

variable {m : Type → Type} [Monad m]

/-- Reads a text with `read`; a text that cannot be read fails with `message`. -/
def readText (read : Source → m (Option String)) (source : Source) (message : String) :
    Reads m String := do
  match ← read source with
  | some text => return text
  | none => throw message

/-- What an invocation comes to. -/
inductive Outcome where
  | printed (text : String)
  /-- The text has yet to be written to the file. -/
  | toFile (path text : String)
  | failed (message : String)
deriving DecidableEq, Repr

/-- What is said if a file cannot be written. -/
def writeFailure (path : String) : String := "writing " ++ path

/-- Loads the settings from a file, or takes the defaults. -/
def loadSettings (read : Source → m (Option String)) : Option String → Reads m Settings
  | none => return {}
  | some path => do
    match Settings.ofString (← readText read (.file path) ("reading " ++ path)) with
    | .ok settings => return settings
    | .error _ => throw ("loading " ++ path)

/-- Reads the text of a program. -/
def readProgramText (read : Source → m (Option String)) (path : String) : Reads m String :=
  if path = "-" then readText read .input "reading program from stdin"
  else readText read (.file path) ("reading " ++ path)

/-- Reads a program. -/
def readProgram (read : Source → m (Option String)) (path : String) : Reads m Program := do
  match Program.ofString? (← readProgramText read path) with
  | some program => return program
  | none => throw "parsing program JSON"

/-- Generates the source of a program.  Strictly, no block may have failed. -/
def generateSource (settings : Settings) (target : Target) (strict : Bool) (program : Program) :
    Except String String := do
  match Generation.generate target settings.code program with
  | .error e => throw (Failure.generation e).message
  | .ok generated =>
    let failures := generated.diagnostics.length
    if strict && failures ≠ 0 then
      throw (toString failures ++ " block(s) could not be translated")
    return generated.source

/-- Carries out a task under settings. -/
def Task.run (read : Source → m (Option String)) (settings : Settings) : Task → Reads m Outcome
  | .generate target path output strict => do
    let source ← generateSource settings target strict (← readProgram read path)
    match output with
    | some path => return .toFile path source
    | none => return .printed source
  | .describe => return .printed ((Palette.descriptor settings.palette).toJson.indented ++ "\n")
  | .encode command => return .printed command.encode

/-- Carries out an invocation. -/
def Invocation.run (read : Source → m (Option String)) (i : Invocation) : m Outcome := do
  match ← ExceptT.run (do i.task.run read (← loadSettings read i.config)) with
  | .ok outcome => return outcome
  | .error message => return .failed message

end CommandLine
end BoardBlocks
