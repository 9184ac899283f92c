import TypedClient.Declaration.Basic

/-!
# Name tables

A name table knows the method names of the operations of one tag and the
identifiers of the names that do not get their default one. With it every
declaration name of the tag can be written.
-/

namespace TypedClient

variable [Text.Conversions]

/-- The reason for which a name cannot be written: its operation has no method
name in the table. -/
structure UnboundOperation where
  key : Nat
  deriving DecidableEq, Repr

def UnboundOperation.message (error : UnboundOperation) : String :=
  "operation #" ++ toString error.key ++ " has no bound function name"

structure NameTable where
  functions : List (Nat × String)
  renamed : List (DeclarationName × String)
  deriving DecidableEq, Repr

namespace NameTable

/-- A table without operations. -/
def ofRenamed (renamed : List (DeclarationName × String)) : NameTable :=
  ⟨[], renamed⟩

def function? (table : NameTable) (key : Nat) : Option String :=
  table.functions.lookup key

/-- Gives an operation its method name, unless the operation has one or the method
name belongs to another operation. -/
def bind? (table : NameTable) (key : Nat) (function : String) : Option NameTable :=
  if (table.functions.map Prod.fst).contains key ||
      (table.functions.map Prod.snd).contains function then
    none
  else
    some { table with functions := table.functions ++ [(key, function)] }

end NameTable

/-- The identifier of a name. -/
def DeclarationName.render (table : NameTable) (name : DeclarationName) :
    Except UnboundOperation String :=
  match table.renamed.lookup name with
  | some identifier => .ok identifier
  | none =>
      match name.owner with
      | .schema schema => .ok (name.identifierFor (Identifier.fragment schema))
      | .operation key =>
          match table.function? key with
          | some function => .ok (name.identifierFor function)
          | none => .error ⟨key⟩

/-- The type as it is written in TypeScript. -/
def TypeExpr.render (table : NameTable) : TypeExpr → Except UnboundOperation String
  | primitive kind => .ok kind.keyword
  | any => .ok "any"
  | array item => (item.render table).map fun text => text ++ "[]"
  | named name => name.render table

end TypedClient
