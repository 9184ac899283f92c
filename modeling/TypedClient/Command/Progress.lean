import TypedClient.Command.Palette
import TypedClient.Generation

/-!
# Messages about the progress of a run

The lines that tell what is being done and what came of it.
-/

namespace TypedClient.Command

namespace Palette

/-- A line that starts with the time. -/
def timedLine (palette : Palette) (role : Role) (timestamp message : String) : String :=
  palette.paint .timestamp timestamp ++ " " ++ palette.paint role message

/-- A count, below the text of the lines that start with the time. -/
def countLine (palette : Palette) (label value : String) : String :=
  "            " ++ palette.paint .label label ++ " " ++ palette.paint .value value

/-- A line that belongs to the line above it. -/
def detailLine (text : String) : String :=
  "              " ++ text

def cycleLine (palette : Palette) (cycle : List String × Nat) : String :=
  detailLine (palette.paint .accent ("Cycle " ++ toString (cycle.2 + 1)) ++ ": " ++
    palette.paint .info (String.intercalate " -> " cycle.1))

/-- The cycles among the declarations; the user may want to see each of them. -/
def cycleLines (palette : Palette) (verbose : Bool) (cycles : List (List String)) :
    List String :=
  if cycles.isEmpty then
    []
  else
    palette.countLine "Cycles:" (toString cycles.length) ::
      if verbose then cycles.zipIdx.map palette.cycleLine else []

/-- The counts of a client. Counts of what went wrong appear only if there are any. -/
def statisticsLines (palette : Palette) (verbose : Bool) (stats : GenerationStats) :
    List String :=
  [palette.countLine "Operations loaded:" (toString stats.operationsLoaded),
    palette.countLine "Tags generated:" (toString stats.tagsGenerated),
    palette.countLine "Methods generated:" (toString stats.methodsGenerated),
    palette.countLine "Dto declarations:" (toString stats.dtoDeclarations),
    palette.countLine "" (toString stats.dtoInlined ++ " inlined across tags"),
    palette.countLine "" (toString stats.localDeclarations ++ " operation-local")] ++
  (if stats.skipped = 0 then [] else [palette.countLine "Skipped:" (toString stats.skipped)]) ++
  (if stats.warnings.isEmpty then []
    else [palette.countLine "Warnings:" (toString stats.warnings.length)]) ++
  palette.cycleLines verbose stats.cycles

def warningLine (palette : Palette) (warning : Warning) : String :=
  palette.paint .accent (if warning.isSkippedItem then "Skipped:" else "Warning:") ++ " " ++
    palette.paint .primary warning.message

/-- The path of a file that was written. -/
def writtenLine (palette : Palette) (path : String) : String :=
  detailLine (palette.paint .info path)

end Palette

def loadingMessage (source : String) : String :=
  "Loading OpenAPI document from: " ++ source

def generatingMessage (title : String) : String :=
  if title.isEmpty then
    "Generating TypeScript client modules..."
  else
    "Generating TypeScript client modules for " ++ title ++ "..."

def writingMessage (directory : String) : String :=
  "Writing to: " ++ directory

def successMessage : String :=
  "Successfully generated TypeScript client modules"

end TypedClient.Command
