import TypedClient.Declaration.Basic

/-!
# Declaration buffers

Declarations in order of registration. A name is declared once: registering it
again changes nothing.
-/

namespace TypedClient

structure DeclarationBuffer where
  declarations : List Declaration
  distinct : (declarations.map Declaration.name).Nodup

namespace DeclarationBuffer

def empty : DeclarationBuffer :=
  ⟨[], List.nodup_nil⟩

def names (buffer : DeclarationBuffer) : List DeclarationName :=
  buffer.declarations.map Declaration.name

def size (buffer : DeclarationBuffer) : Nat :=
  buffer.declarations.length

def contains (buffer : DeclarationBuffer) (name : DeclarationName) : Bool :=
  buffer.names.contains name

theorem contains_iff {buffer : DeclarationBuffer} {name : DeclarationName} :
    buffer.contains name = true ↔ name ∈ buffer.names := by
  simp [contains]

theorem nodup_append_name {declarations : List Declaration} {declaration : Declaration}
    (distinct : (declarations.map Declaration.name).Nodup)
    (fresh : declaration.name ∉ declarations.map Declaration.name) :
    ((declarations ++ [declaration]).map Declaration.name).Nodup := by
  rw [List.map_append]
  refine List.nodup_append.2 ⟨distinct, by simp, ?_⟩
  intro name member other isNew equal
  have isName : other = declaration.name := by simpa using isNew
  exact fresh (isName ▸ equal ▸ member)

/-- Adds a declaration whose name is not declared yet. -/
def register (buffer : DeclarationBuffer) (declaration : Declaration) : DeclarationBuffer :=
  if known : declaration.name ∈ buffer.declarations.map Declaration.name then
    buffer
  else
    ⟨buffer.declarations ++ [declaration], nodup_append_name buffer.distinct known⟩

/-- Adds the declarations whose names are not declared yet. -/
def registerAll (buffer : DeclarationBuffer) (declarations : List Declaration) :
    DeclarationBuffer :=
  declarations.foldl register buffer

end DeclarationBuffer

end TypedClient
