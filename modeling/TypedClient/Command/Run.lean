import TypedClient.Command.Libraries
import TypedClient.Command.ListOperations
import TypedClient.Command.Usage

/-!
# Runs of the program

A run reads the command line, does what it asks for with the libraries that the program is
linked with, and ends in one of three ways.
-/

namespace TypedClient.Command

/-- How a run ended. -/
inductive Outcome where
  | done
  | unusable (error : UsageError)
  | failed (failure : Failure)
  deriving DecidableEq, Repr

variable {m : Type → Type} [Monad m]

def perform (host : Host m) (palette : Palette) : Request → ExceptT Failure m Unit
  | .list arguments => listOperations host arguments
  | .generate arguments => do
      generate host palette (← ExceptT.mk (pure (Configuration.ofArguments arguments)))

/-- Runs the program with the words of a command line. -/
def run (host : Host m) (surroundings : Surroundings) (arguments : List String) :
    m Outcome := do
  match Invocation.ofArguments arguments with
  | .error error => return .unusable error
  | .ok invocation =>
      let palette := Palette.ofModes surroundings invocation.color invocation.theme
      match ← (perform host palette invocation.request).run with
      | .ok () => return .done
      | .error failure => return .failed failure

/-- The number that a run ends with for the system. -/
def Outcome.exitCode : Outcome → UInt32
  | .done => 0
  | .unusable error => if error.isAnswer then 0 else 2
  | .failed _ => 1

/-- Tells the user how a run ended. -/
def Outcome.report (host : Host m) : Outcome → m Unit
  | .done => pure ()
  | .unusable error =>
      if error.isAnswer then host.printLine error.message
      else host.printErrorLine error.message
  | .failed failure => host.printErrorLine failure.report

/-- Runs the program and tells how it ended. -/
def runAndReport (host : Host m) (surroundings : Surroundings) (arguments : List String) :
    m UInt32 := do
  let outcome ← run host surroundings arguments
  outcome.report host
  return outcome.exitCode

end TypedClient.Command
