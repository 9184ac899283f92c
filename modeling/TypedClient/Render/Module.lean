import TypedClient.Render.Declaration
import TypedClient.Render.Method
import TypedClient.Tag.Module

/-!
# Tag modules as text

A module holds a header, its imports, the declarations it needs, the class with
its methods and an instance of the class. Of two declarations that are written
under one name the first is kept and a warning tells of the other.
-/

namespace TypedClient

open Text

/-- What all modules of a client share. -/
structure ModuleContext where
  title : String
  version : String
  transportModule : String
  responseModule : String
  deriving DecidableEq, Repr

def linterNotice : String :=
  "/* eslint-disable @typescript-eslint/no-explicit-any */"

def generatedNotice : String :=
  "AUTO-GENERATED by oas3-tsgen. DO NOT EDIT!"

namespace ModuleContext

/-- The title and the version of the document, blank ones left out. -/
def heading (context : ModuleContext) : String :=
  let parts := [trim context.title, trim context.version].filter fun part => !part.isEmpty
  String.ofList (Comment.neutralize (String.intercalate " " parts).toList)

/-- The comment at the top of a module. -/
def banner (context : ModuleContext) : String :=
  if context.heading.isEmpty then
    "/**\n * " ++ generatedNotice ++ "\n */"
  else
    "/**\n * " ++ generatedNotice ++ "\n * " ++ context.heading ++ "\n */"

def imports (context : ModuleContext) : String :=
  "import \x7b $http \x7d from '" ++ context.transportModule ++
    "'\nimport \x7b ResponseType, AxiosRequestConfig \x7d from '" ++ context.responseModule ++ "'"

end ModuleContext

variable [Conversions]

/-- The text of the declarations of a module, with the warnings of leaving some
out. The warnings stand even if a later declaration cannot be written. -/
def declarationBlocks (table : NameTable) (tag : String) (seen : List String) :
    List Declaration → Except UnboundOperation (List String) × List Warning
  | [] => (.ok [], [])
  | declaration :: rest =>
      match declaration.name.render table with
      | .error error => (.error error, [])
      | .ok name =>
          if seen.contains name then
            let (blocks, warnings) := declarationBlocks table tag seen rest
            (blocks, .declarationCollision tag name :: warnings)
          else
            match declaration.render table with
            | .error error => (.error error, [])
            | .ok block =>
                let (blocks, warnings) := declarationBlocks table tag (name :: seen) rest
                (blocks.map (block :: ·), warnings)

namespace TagModule

/-- The class of a module with the texts of its methods. -/
def classText (module : TagModule) (methods : List String) : String :=
  if methods.isEmpty then
    "export class " ++ module.names.className ++ " \x7b\x7d"
  else
    "export class " ++ module.names.className ++ " \x7b\n" ++ String.intercalate "\n\n" methods ++
      "\n\x7d"

def instanceText (module : TagModule) : String :=
  "export const " ++ module.names.instanceName ++ " = new " ++ module.names.className ++ "()"

/-- The code of a module with the given declarations of the component pool, and
the warnings of writing it. -/
def render (module : TagModule) (dtos : List Declaration) (context : ModuleContext) :
    Except UnboundOperation String × List Warning :=
  let (blocks, warnings) :=
    declarationBlocks module.table module.tag [] (dtos ++ module.declarations.declarations)
  let code := do
    let blocks ← blocks
    let methods ← module.methods.mapM (ClientMethod.render module.table)
    return String.intercalate "\n\n"
      ([linterNotice ++ "\n" ++ context.banner, context.imports] ++ blocks ++
        [module.classText methods, module.instanceText]) ++ "\n"
  (code, warnings)

end TagModule

end TypedClient
