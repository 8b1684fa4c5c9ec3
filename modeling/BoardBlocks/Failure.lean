/-
# Failures

Every way in which the tool can fail, with the text that names the part that failed first.
-/

import BoardBlocks.Generation.Error
import BoardBlocks.Link.Session
import BoardBlocks.Settings.Basic
import BoardBlocks.Wire.Frame

namespace BoardBlocks

/-- A failure of one of the parts. -/
inductive Failure where
  | generation (error : GenerationError)
  | frame (error : Wire.FrameError)
  | session (error : Link.SessionError)
  | settings (error : SettingsError)
deriving DecidableEq, Repr

/-- The text of a failure. -/
def Failure.message : Failure → String
  | .generation error => "codegen: " ++ error.message
  | .frame error => "protocol: " ++ error.message
  | .session error => "session: " ++ error.message
  | .settings error => "config: " ++ error.message

end BoardBlocks
