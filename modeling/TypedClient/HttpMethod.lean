/-!
# HTTP methods

The methods a path item can describe. Their names are written in lower case and
read in any mixture of cases.
-/

namespace TypedClient

inductive HttpMethod where
  | get
  | put
  | post
  | delete
  | options
  | head
  | patch
  | trace
  deriving DecidableEq, Repr

namespace HttpMethod

/-- The lower-case name of a method. -/
def name : HttpMethod → String
  | get => "get"
  | put => "put"
  | post => "post"
  | delete => "delete"
  | options => "options"
  | head => "head"
  | patch => "patch"
  | trace => "trace"

def all : List HttpMethod :=
  [get, put, post, delete, options, head, patch, trace]

/-- The method a key of a path item names, whatever the case of its letters. -/
def ofName? (text : String) : Option HttpMethod :=
  let lowered := String.ofList (text.toList.map Char.toLower)
  all.find? fun method => method.name == lowered

/-- The upper-case name, as it appears in messages. -/
def upperName (method : HttpMethod) : String :=
  String.ofList (method.name.toList.map Char.toUpper)

end HttpMethod

end TypedClient
