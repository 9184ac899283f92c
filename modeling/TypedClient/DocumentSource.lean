import TypedClient.MediaType
import TypedClient.Text.Blank
import TypedClient.Text.Split

/-!
# Where a document comes from

An input that starts with `http://` or `https://` is a URL; anything else is the
path of a file, whose extension tells the document's format.
-/

namespace TypedClient

open Text

inductive DocumentSource where
  | url (address : String)
  | file (path : String)
  deriving DecidableEq, Repr

namespace FilePath

/-- The parts of a path that are not empty and not a dot. -/
def parts (path : String) : List (List Char) :=
  (splitAtChar '/' path.toList).filter fun part => !part.isEmpty && part != ['.']

/-- The last part of a path, unless it leads to the parent directory. -/
def fileName? (path : String) : Option (List Char) :=
  match (parts path).getLast? with
  | none => none
  | some name => if name == ['.', '.'] then none else some name

/-- The text after the last dot of the file name, unless the name only starts
with that dot. -/
def extension? (path : String) : Option String := do
  let name ← fileName? path
  let (after, before) ← cutAtChar? '.' name.reverse
  if before.isEmpty then none else some (String.ofList after.reverse)

/-- A path below a directory. An absolute path stands on its own. -/
def join (directory path : String) : String :=
  if beginsWith "/" path || directory.isEmpty then
    path
  else if directory.toList.getLast? == some '/' then
    directory ++ path
  else
    directory ++ "/" ++ path

end FilePath

namespace DocumentFormat

/-- `yaml` and `yml` files are YAML, all others JSON. -/
def ofPath (path : String) : DocumentFormat :=
  match FilePath.extension? path with
  | some "yaml" => .yaml
  | some "yml" => .yaml
  | _ => .json

end DocumentFormat

namespace DocumentSource

def ofInput (input : String) : DocumentSource :=
  let trimmed := trim input
  if beginsWith "http://" trimmed || beginsWith "https://" trimmed then
    .url trimmed
  else
    .file trimmed

/-- The source as it appears in messages. -/
def shown : DocumentSource → String
  | .url address => address
  | .file path => path

end DocumentSource

end TypedClient
