import SecureChannel.Command.Arguments
import SecureChannel.Error
import SecureChannel.Report

/-!
# How a program ends

A program ends well, or with a report of what failed, or because its command line is not understood.
Each has an exit code of its own.
-/

namespace SecureChannel

/-- The report of an error: its wording, and the errors that it has come from. -/
def ChannelError.report (e : ChannelError) : Report := ⟨e.message, e.causes⟩

namespace Command

inductive Exit
  | success
  | failure (report : Report)
  | usage (fault : UsageFault)
deriving DecidableEq

namespace Exit

def code : Exit → Nat
  | success => 0
  | failure _ => 1
  | usage _ => 2

def complaint : Exit → String
  | success => ""
  | failure report => report.block
  | usage fault => s!"error: {fault.message}\n"

/-- The end of a program that has run. -/
def ofRun {α : Type} : Except Report α → Exit
  | .ok _ => success
  | .error report => failure report

end Exit

/-- Passes on an error as a report. -/
def reporting {m : Type → Type} [Monad m] {α : Type} : Except ChannelError α → ExceptT Report m α
  | .ok a => return a
  | .error e => throw e.report

end Command

end SecureChannel
