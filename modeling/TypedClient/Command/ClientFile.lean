import TypedClient.Command.Formatting

/-!
# The files of a client

One file per module, the index, and two support files. The support files belong to the
user once they exist, so they are never written again.
-/

namespace TypedClient.Command

/-- A file with its path below the output directory. -/
structure ClientFile where
  path : String
  contents : String
  isWrittenOnce : Bool
  deriving DecidableEq, Repr

def GeneratedModule.file (module : GeneratedModule) : ClientFile :=
  ⟨FilePath.join modulesDirectory (module.fileStem ++ ".ts"), module.code, false⟩

def indexFile (text : String) : ClientFile :=
  ⟨"index.ts", text, false⟩

def supportFiles : List ClientFile :=
  [⟨"http.ts", transportStub, true⟩, ⟨"responseType.ts", responseStub, true⟩]

/-- The files of a client, not yet formatted. -/
def filesOf (client : GeneratedClient) : List ClientFile :=
  client.modules.map GeneratedModule.file ++ indexFile client.index :: supportFiles

variable {m : Type → Type} [Monad m]

/-- A service of the host whose refusal ends the run. -/
def orFail {ε α : Type} (failure : ε → Failure) (service : m (Except ε α)) :
    ExceptT Failure m α :=
  ExceptT.mk do
    match ← service with
    | .ok result => pure (.ok result)
    | .error error => pure (.error (failure error))

/-- The file with its contents formatted. -/
def formatFile (host : Host m) (configuration : Configuration) (file : ClientFile) :
    ExceptT Failure m ClientFile :=
  ExceptT.mk do
    match ← configuration.formatter.format host configuration.lineEnding file.contents with
    | .ok contents => pure (.ok { file with contents })
    | .error fault => pure (.error (.formatting file.path fault))

/-- Writes a file and tells its path, unless it is present and written only once. -/
def writeFile? (host : Host m) (directory : String) (file : ClientFile) :
    ExceptT Failure m (Option String) := do
  let path := FilePath.join directory file.path
  if file.isWrittenOnce then
    if ← orFail (.presenceUnknown path) (host.isPresent path) then
      return none
  orFail (.fileNotWritten path) (host.writeFile path file.contents)
  return some path

/-- Writes the files into a directory, which is created first, and tells the paths of
those written. -/
def writeFiles (host : Host m) (directory : String) (files : List ClientFile) :
    ExceptT Failure m (List String) := do
  let modules := FilePath.join directory modulesDirectory
  orFail (.directoryNotCreated modules) (host.createDirectories modules)
  let written ← files.mapM (writeFile? host directory)
  return written.filterMap id

end TypedClient.Command
