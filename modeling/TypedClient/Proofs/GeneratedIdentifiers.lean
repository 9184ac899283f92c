import TypedClient.Proofs.IdentifierScheme
import TypedClient.Proofs.IdentifierValidity
import TypedClient.Proofs.WrittenModules

/-!
# The identifiers of a client

Every identifier that a client holds is valid, whatever the texts of its document and
whatever the conversions make of them. A fragment keeps only characters that an identifier
can hold, and it stands behind the word of a family. A method name starts with its HTTP
method. An argument or a tag is guarded after everything else is done to it, and numbers
are put at the end.
-/

namespace TypedClient

theorem mem_toList_intercalate {separator : String} {items : List String} {c : Char}
    (member : c ∈ (String.intercalate separator items).toList) :
    c ∈ separator.toList ∨ ∃ item ∈ items, c ∈ item.toList := by
  induction items with
  | nil => exact absurd member (by simp)
  | cons item rest ih =>
      cases rest with
      | nil =>
          rw [String.intercalate_singleton] at member
          exact Or.inr ⟨item, List.mem_cons_self, member⟩
      | cons next others =>
          rw [String.intercalate_cons_of_ne_nil (List.cons_ne_nil _ _), String.toList_append,
            String.toList_append, List.mem_append, List.mem_append] at member
          rcases member with (inItem | inSeparator) | inRest
          · exact Or.inr ⟨item, List.mem_cons_self, inItem⟩
          · exact Or.inl inSeparator
          · rcases ih inRest with inSeparator | ⟨other, otherMem, inOther⟩
            · exact Or.inl inSeparator
            · exact Or.inr ⟨other, List.mem_cons_of_mem _ otherMem, inOther⟩

namespace Identifier

theorem isStart_toUpper {c : Char} (start : isStart c = true) :
    isStart c.toUpper = true := by
  by_cases lower : c.isLower = true
  · have isLetter : c.toUpper.isAlpha = true := by
      rw [Char.isAlpha_toUpper_eq_isAlpha, Char.isAlpha, lower, Bool.or_true]
    simp [isStart, isLetter]
  · rwa [Char.toUpper_eq_of_not_isLower lower]

theorem isPart_of_isAlphanum {c : Char} (alphanum : c.isAlphanum = true) : isPart c = true := by
  simp [isPart, alphanum]

theorem isPart_of_mem_underscore {c : Char} (member : c ∈ ("_" : String).toList) :
    isPart c = true := by
  have allParts : ("_" : String).toList.all isPart = true := by decide
  exact List.all_eq_true.mp allParts c member

theorem isPart_of_mem_fragmentOfAscii {text : List Char} {c : Char}
    (member : c ∈ fragmentOfAscii text) : isPart c = true := by
  unfold fragmentOfAscii at member
  split at member
  · rw [List.mem_singleton.mp member]
    decide
  · obtain ⟨original, _, rfl⟩ := List.mem_map.mp member
    split
    · assumption
    · decide

variable [Text.Conversions]

theorem isPart_of_mem_fragment {text : String} {c : Char} (member : c ∈ (fragment text).toList) :
    isPart c = true := by
  rw [fragment, String.toList_ofList] at member
  exact isPart_of_mem_fragmentOfAscii member

end Identifier

namespace Disambiguation

theorem isValid_numberedIdentifier {identifier : String}
    (valid : Identifier.isValid identifier = true) (number : Nat) :
    Identifier.isValid (numberedIdentifier identifier number) = true := by
  rw [numberedIdentifier, String.append_assoc]
  refine Identifier.isValid_append valid fun c member => ?_
  rw [String.toList_append, List.mem_append] at member
  rcases member with isUnderscore | isDigit
  · exact Identifier.isPart_of_mem_underscore isUnderscore
  · exact Identifier.isPart_of_mem_toString isDigit

/-- Settling claims of valid identifiers hands out valid ones. -/
theorem isValid_foldl_settle {reserved : List String} {claims : List Claim}
    {assignment : Assignment}
    (valid : ∀ claim ∈ claims, Identifier.isValid claim.identifier = true)
    (validSoFar : ∀ entry ∈ assignment.renamed, Identifier.isValid entry.2 = true) :
    ∀ entry ∈ (claims.foldl (Assignment.settle reserved) assignment).renamed,
      Identifier.isValid entry.2 = true := by
  refine List.foldlRecOn (motive := fun assignment : Assignment =>
    ∀ entry ∈ assignment.renamed, Identifier.isValid entry.2 = true) claims _ validSoFar ?_
  intro assignment holds claim claimMem entry member
  unfold Assignment.settle at member
  split at member
  · rcases Keyed.mem_put member with rfl | old
    · exact isValid_numberedIdentifier (valid claim claimMem) _
    · exact holds entry old
  · exact holds entry member

end Disambiguation

section Names

variable [Text.Conversions] {name : DeclarationName} {identifier : String}

/-- Behind the word of a family, any owner and any keys make a valid identifier. -/
theorem DeclarationName.isValid_identifierFor {owner : String}
    (parts : ∀ c ∈ owner.toList, Identifier.isPart c = true) :
    Identifier.isValid (name.identifierFor owner) = true := by
  have wordValid : Identifier.isValid name.family.word = true := by
    cases name.family <;> decide
  rw [identifierFor, String.intercalate_cons_of_ne_nil (List.cons_ne_nil _ _), String.append_assoc]
  refine Identifier.isValid_append wordValid fun c member => ?_
  rw [String.toList_append, List.mem_append] at member
  rcases member with inSeparator | inRest
  · exact Identifier.isPart_of_mem_underscore inSeparator
  · rcases mem_toList_intercalate inRest with inSeparator | ⟨item, itemMem, inItem⟩
    · exact Identifier.isPart_of_mem_underscore inSeparator
    · rcases List.mem_cons.mp itemMem with rfl | isKey
      · exact parts c inItem
      · obtain ⟨key, _, rfl⟩ := List.mem_map.mp isKey
        exact Identifier.isPart_of_mem_fragment inItem

theorem DeclarationName.isValid_of_defaultIdentifier?
    (isDefault : name.defaultIdentifier? = some identifier) :
    Identifier.isValid identifier = true := by
  unfold defaultIdentifier? at isDefault
  split at isDefault
  · rw [← Option.some.inj isDefault]
    exact isValid_identifierFor fun c => Identifier.isPart_of_mem_fragment
  · contradiction

theorem Disambiguation.isValid_of_mem_renamed {names : List DeclarationName}
    {entry : DeclarationName × String} (member : entry ∈ renamed names) :
    Identifier.isValid entry.2 = true := by
  have valid : ∀ claim ∈ claimsOf names, Identifier.isValid claim.identifier = true :=
    fun claim claimMem => DeclarationName.isValid_of_defaultIdentifier?
      (defaultIdentifier?_of_mem_claimsOf claimMem)
  have noneYet : ∀ entry ∈ (⟨[], []⟩ : Assignment).renamed, Identifier.isValid entry.2 = true :=
    fun _ absent => absurd absent List.not_mem_nil
  exact isValid_foldl_settle valid noneYet entry member

/-- A table with valid method names and valid changed identifiers. -/
structure NameTable.IsValid (table : NameTable) : Prop where
  functions : ∀ binding ∈ table.functions, Identifier.isValid binding.2 = true
  renamed : ∀ entry ∈ table.renamed, Identifier.isValid entry.2 = true

/-- With a valid table, every name that can be written is written as a valid identifier. -/
theorem NameTable.IsValid.isValid_of_render {table : NameTable} (valid : table.IsValid)
    (rendered : name.render table = .ok identifier) : Identifier.isValid identifier = true := by
  unfold DeclarationName.render at rendered
  split at rendered
  · rename_i assigned found
    obtain ⟨_, _, split, -⟩ := List.lookup_eq_some_iff.mp found
    rw [← Except.ok.inj rendered]
    exact valid.renamed (name, assigned) (split ▸ List.mem_append_right _ List.mem_cons_self)
  · split at rendered
    · rw [← Except.ok.inj rendered]
      exact DeclarationName.isValid_identifierFor fun c => Identifier.isPart_of_mem_fragment
    · split at rendered
      · rename_i key _ _ function bound
        obtain ⟨_, _, split, -⟩ := List.lookup_eq_some_iff.mp bound
        have functionValid :=
          valid.functions (key, function) (split ▸ List.mem_append_right _ List.mem_cons_self)
        rw [← Except.ok.inj rendered]
        exact DeclarationName.isValid_identifierFor fun c =>
          Identifier.isPart_of_mem functionValid
      · contradiction

/-- A method name starts with the name of its HTTP method. -/
theorem Path.isValid_functionName (method : HttpMethod) (path : String) :
    Identifier.isValid (functionName method path) = true := by
  have methodValid : Identifier.validChars method.name.toList = true := by
    cases method <;> decide
  rw [Identifier.isValid, functionName, String.toList_ofList]
  refine Identifier.validChars_append methodValid fun c member => ?_
  have inName : c ∈ (functionName method path).toList := by
    rw [functionName, String.toList_ofList]
    exact List.mem_append_right _ member
  exact Identifier.isPart_of_isAlphanum (isAlphanum_of_mem_functionName inName)

end Names

namespace Identifier

/-- A text that the guard leaves as it is. -/
structure IsGuarded (text : List Char) : Prop where
  noDigit : text.head?.any Char.isDigit = false
  notReserved : String.ofList text ∉ reservedWords

theorem guardChars_eq_self {text : List Char} (guarded : IsGuarded text) :
    guardChars text = text := by
  rw [guardChars, if_neg]
  simp [guarded.noDigit, guarded.notReserved]

/-- No reserved word starts with an underscore, so one guard is enough. -/
theorem isGuarded_guardChars (text : List Char) : IsGuarded (guardChars text) := by
  unfold guardChars
  split
  · refine ⟨by simp, fun reserved => ?_⟩
    have noUnderscore : ∀ word ∈ reservedWords, word.toList.head? ≠ some '_' := by decide
    exact noUnderscore _ reserved (by simp)
  · rename_i unguarded
    simp only [Bool.or_eq_true, not_or, List.contains_iff_mem, Bool.not_eq_true] at unguarded
    exact ⟨unguarded.1, unguarded.2⟩

variable [Text.Conversions]

/-- The text of an argument is valid and guarded, whatever it is made from. -/
theorem argumentNameChars_spec (name : List Char) :
    validChars (argumentNameChars name) = true ∧ IsGuarded (argumentNameChars name) := by
  unfold argumentNameChars
  split
  · rename_i valid
    have notEmpty : name ≠ [] := by
      rintro rfl
      exact absurd valid (by decide)
    exact ⟨validChars_guardChars notEmpty fun c => isPart_of_mem valid, isGuarded_guardChars name⟩
  · split
    · exact ⟨by decide, by decide, by decide⟩
    · rename_i cleaned notEmpty
      refine ⟨validChars_guardChars notEmpty fun c member => ?_, isGuarded_guardChars _⟩
      exact (List.mem_filter.mp member).2

/-- A name that can stand for an argument, and that making one from it does not change. -/
structure IsArgument (name : String) : Prop where
  valid : isValid name = true
  notReserved : name ∉ reservedWords
  kept : argumentName name = name

theorem isArgument_argumentName (name : String) : IsArgument (argumentName name) := by
  obtain ⟨valid, guarded⟩ := argumentNameChars_spec name.toList
  refine ⟨?_, guarded.notReserved, ?_⟩
  · rwa [isValid, argumentName, String.toList_ofList]
  · have again : argumentNameChars (argumentNameChars name.toList) =
        argumentNameChars name.toList := by
      rw [argumentNameChars.eq_def (argumentNameChars name.toList), if_pos valid,
        guardChars_eq_self guarded]
    rw [argumentName, argumentName, String.toList_ofList, again]

end Identifier

namespace TagNames

variable {names : TagNames}

theorem isValid_className (valid : Identifier.isValid names.base = true) :
    Identifier.isValid names.className = true := by
  unfold Identifier.isValid at valid
  unfold className
  split
  · rename_i empty
    rw [empty] at valid
    contradiction
  · rename_i first rest characters
    rw [characters, Identifier.validChars, Bool.and_eq_true] at valid
    rw [Identifier.isValid, String.toList_ofList, Identifier.validChars,
      Identifier.isStart_toUpper valid.1, valid.2]
    rfl

theorem isValid_instanceName (valid : Identifier.isValid names.base = true) :
    Identifier.isValid names.instanceName = true := by
  have suffix : instanceSuffix.toList.all Identifier.isPart = true := by decide
  exact Identifier.isValid_append valid (List.all_eq_true.mp suffix)

end TagNames

section Modules

variable [Text.Conversions]

/-- All that a module is named with, and all that it names, is a valid identifier. -/
structure TagModule.HasValidNames (module : TagModule) : Prop where
  base : Identifier.isValid module.names.base = true
  table : module.table.IsValid
  methods : ∀ method ∈ module.methods, Identifier.isValid method.functionName = true
  arguments : ∀ method ∈ module.methods, ∀ argument ∈ method.pathArguments,
    Identifier.IsArgument argument.name

namespace TagModule.HasValidNames

variable {module extended : TagModule} {known : List String}

theorem new {tag : String} {names : TagNames} {renamed : List (DeclarationName × String)}
    (base : Identifier.isValid names.base = true)
    (renamedValid : ∀ entry ∈ renamed, Identifier.isValid entry.2 = true) :
    (TagModule.new tag names renamed).HasValidNames where
  base := base
  table := ⟨fun _ member => absurd member List.not_mem_nil, renamedValid⟩
  methods := fun _ member => absurd member List.not_mem_nil
  arguments := fun _ member => absurd member List.not_mem_nil

theorem absorb (valid : module.HasValidNames) (operation : Operation)
    (absorbed : module.absorb? (operation.compile known).1 = some extended) :
    extended.HasValidNames := by
  have functionValid :
      Identifier.isValid (operation.compile known).1.method.functionName = true :=
    Path.isValid_functionName operation.method operation.path
  obtain ⟨-, -, rfl⟩ := absorb?_eq_some_iff.mp absorbed
  refine ⟨valid.base, ⟨?_, valid.table.renamed⟩, ?_, ?_⟩
  · intro binding member
    rcases List.mem_append.mp member with old | new
    · exact valid.table.functions binding old
    · rw [List.mem_singleton.mp new]
      exact functionValid
  · intro method member
    rcases List.mem_append.mp member with old | new
    · exact valid.methods method old
    · rw [List.mem_singleton.mp new]
      exact functionValid
  · intro method member argument isArgument
    rcases List.mem_append.mp member with old | new
    · exact valid.arguments method old argument isArgument
    · rw [List.mem_singleton.mp new] at isArgument
      obtain ⟨placeholder, _, rfl⟩ := List.mem_map.mp isArgument
      exact Identifier.isArgument_argumentName placeholder

end TagModule.HasValidNames

theorem Grouping.hasValidNames_of_mem_modules {known : List String} {defaultTag : String}
    {renamed : List (DeclarationName × String)} {operations : List Operation} {module : TagModule}
    (renamedValid : ∀ entry ∈ renamed, Identifier.isValid entry.2 = true)
    (member : module ∈ (ofOperations known defaultTag renamed operations).modules) :
    module.HasValidNames :=
  forall_modules_ofOperations
    (fun claims tag => .new (isValid_namesFor claims tag) renamedValid)
    (fun operation _ _ _ valid absorbed => valid.absorb operation absorbed) module member

/-- The identifiers that a module is written with are valid. Its arguments are no reserved
words, and they are what an argument made from them is called. -/
structure ModulePlan.HasValidIdentifiers (plan : ModulePlan) : Prop where
  declared : ∀ name ∈ plan.names, ∃ identifier, name.render plan.module.table = .ok identifier ∧
    Identifier.isValid identifier = true
  written : ∀ (name : DeclarationName) identifier, name.render plan.module.table = .ok identifier →
    Identifier.isValid identifier = true
  methods : ∀ method ∈ plan.module.methods, Identifier.isValid method.functionName = true
  arguments : ∀ method ∈ plan.module.methods, ∀ argument ∈ method.pathArguments,
    Identifier.isValid argument.name = true ∧ argument.name ∉ Identifier.reservedWords ∧
      Identifier.argumentName argument.name = argument.name
  className : Identifier.isValid plan.module.names.className = true
  instanceName : Identifier.isValid plan.module.names.instanceName = true

theorem ModulePlan.CanRender.hasValidIdentifiers {plan : ModulePlan} (canRender : plan.CanRender)
    (valid : plan.module.HasValidNames) : plan.HasValidIdentifiers where
  declared := by
    intro name member
    obtain ⟨declaration, declared, rfl⟩ := List.mem_map.mp member
    obtain ⟨identifier, rendered⟩ :=
      DeclarationName.exists_render_eq_ok (canRender.declarations declaration declared).1
    exact ⟨identifier, rendered, valid.table.isValid_of_render rendered⟩
  written := fun _ _ => valid.table.isValid_of_render
  methods := valid.methods
  arguments := fun method member argument isArgument =>
    let holds := valid.arguments method member argument isArgument
    ⟨holds.valid, holds.notReserved, holds.kept⟩
  className := TagNames.isValid_className valid.base
  instanceName := TagNames.isValid_instanceName valid.base

namespace ApiDocument

variable {document : ApiDocument} {options : GenerationOptions}

theorem hasValidIdentifiers_of_mem_plans {plan : ModulePlan}
    (member : plan ∈ document.plans options) : plan.HasValidIdentifiers := by
  refine (canRender_of_mem_plans member).hasValidIdentifiers ?_
  obtain ⟨module, moduleMem, rfl⟩ := List.mem_map.mp member
  exact Grouping.hasValidNames_of_mem_modules
    (fun _ => Disambiguation.isValid_of_mem_renamed) moduleMem

theorem isValid_of_mem_cycleNames {cycle : List String} {identifier : String}
    (isCycle : cycle ∈ document.cycleNames) (member : identifier ∈ cycle) :
    Identifier.isValid identifier = true := by
  obtain ⟨names, isNames, rfl⟩ := List.mem_map.mp isCycle
  obtain ⟨name, nameMem, rfl⟩ := List.mem_map.mp member
  have canRender := DtoRegistry.canRender_of_mem_pool
    (.ofRenamed (DtoRegistry.ofSchemas document.schemas).1.renamed)
    (mem_names_of_mem_cycles isNames nameMem)
  have valid : (NameTable.ofRenamed (DtoRegistry.ofSchemas document.schemas).1.renamed).IsValid :=
    ⟨fun _ absent => absurd absent List.not_mem_nil,
      fun _ => Disambiguation.isValid_of_mem_renamed⟩
  exact valid.isValid_of_render (DeclarationName.render_eq_identifierIn canRender)

/-- With any conversions, every document has a client, and all identifiers in it are valid:
those of the declarations, the methods, the arguments, the classes and their instances in
each module, and those of the cycles. -/
theorem generate_validIdentifiers (document : ApiDocument) (options : GenerationOptions) :
    ∃ client, document.generate options = .ok client ∧
      List.Forall₂ (fun plan generated =>
        (∃ blocks, plan.IsWrittenAs (document.context options) generated blocks) ∧
          plan.HasValidIdentifiers) (document.plans options) client.modules ∧
      ∀ cycle ∈ client.stats.cycles, ∀ identifier ∈ cycle,
        Identifier.isValid identifier = true := by
  obtain ⟨cycles, modules, generated, -, written⟩ := document.exists_written_client options
  refine ⟨_, generated, ?_, ?_⟩
  · have valid : ∀ plan ∈ document.plans options, plan.HasValidIdentifiers := fun plan =>
      hasValidIdentifiers_of_mem_plans
    exact ((List.forall₂_and_left _ _).mpr ⟨valid, written⟩).imp fun _ _ holds => holds.symm
  · rw [cycles_of_generate generated]
    exact fun cycle isCycle identifier => isValid_of_mem_cycleNames isCycle

end ApiDocument

end Modules

end TypedClient
