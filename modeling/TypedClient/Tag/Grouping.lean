import TypedClient.Keyed
import TypedClient.Numbering
import TypedClient.Tag.Module

/-!
# Grouping operations by tag

Every operation is compiled once and added to the module of each of its tags.
Modules come in the order in which their tags are first met.
-/

namespace TypedClient

/-- The modules so far, the clash keys they occupy with the tag that holds each
key, and the warnings. -/
structure Grouping where
  modules : List TagModule
  claims : List (String × String)
  warnings : List Warning

namespace Grouping

variable [Text.Conversions]

def empty : Grouping :=
  ⟨[], [], []⟩

def module? (grouping : Grouping) (tag : String) : Option TagModule :=
  grouping.modules.find? fun module => module.tag = tag

/-- The first numbered names whose clash key is free. -/
def numberedNames (claims : List (String × String)) (preferred : TagNames) : TagNames :=
  preferred.numbered
    (freeNumber (fun number => (preferred.numbered number).clashKey) (claims.map Prod.fst))

/-- The names of a new tag. They are numbered if the clash key of the preferred
names is held by another tag. -/
def namesFor (claims : List (String × String)) (tag : String) : TagNames × List Warning :=
  let preferred := TagNames.ofTag tag
  match claims.lookup preferred.clashKey with
  | none => (preferred, [])
  | some existing =>
      let names := numberedNames claims preferred
      (names, [.tagRenamed tag preferred.className existing names.className])

/-- The grouping with a module for a tag. -/
def opened (grouping : Grouping) (renamed : List (DeclarationName × String)) (tag : String) :
    TagModule × Grouping :=
  match grouping.module? tag with
  | some module => (module, grouping)
  | none =>
      let (names, warnings) := namesFor grouping.claims tag
      let module := TagModule.new tag names renamed
      (module,
        { modules := grouping.modules ++ [module]
          claims := grouping.claims ++ [(names.clashKey, tag)]
          warnings := grouping.warnings ++ warnings })

/-- Adds a compiled operation to the module of a tag. -/
def place (renamed : List (DeclarationName × String)) (label : String)
    (compiled : CompiledOperation) (grouping : Grouping) (tag : String) : Grouping :=
  let (module, grouping) := grouping.opened renamed tag
  match module.absorb? compiled with
  | some extended =>
      { grouping with modules := Keyed.put TagModule.tag extended grouping.modules }
  | none =>
      { grouping with
        warnings :=
          grouping.warnings ++ [.duplicateFunctionName tag label compiled.method.functionName] }

/-- Compiles an operation and adds it to the modules of its tags. -/
def add (known : List String) (defaultTag : String) (renamed : List (DeclarationName × String))
    (grouping : Grouping) (operation : Operation) : Grouping :=
  let (compiled, warnings) := operation.compile known
  (operation.effectiveTags defaultTag).foldl (place renamed operation.label compiled)
    { grouping with warnings := grouping.warnings ++ warnings }

/-- The modules of a list of operations, given the names of the component schemas,
the default tag and the identifiers that are not the default ones. -/
def ofOperations (known : List String) (defaultTag : String)
    (renamed : List (DeclarationName × String)) (operations : List Operation) : Grouping :=
  operations.foldl (add known defaultTag renamed) empty

end Grouping

end TypedClient
