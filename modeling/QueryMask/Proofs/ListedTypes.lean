import QueryMask.CommandLine.Program
import QueryMask.Proofs.DeclaredTypes
import QueryMask.Proofs.UnknownTypes
import Mathlib

/-! Types that a schema lists, and types that paths can be built on: they are the same. So the command that prints
paths knows every type that the command for types prints. -/

namespace QueryMask

namespace Schema

variable {definitions : List SchemaDefinition} {name object : Name}

theorem mem_objectTypes_iff :
    name ∈ (ofDefinitions definitions).objectTypes ↔ (ofDefinitions definitions).kind? name = some .object := by
  constructor
  · intro hmem
    rw [objectTypes_ofDefinitions] at hmem
    simpa using (List.mem_filter.mp hmem).2
  · exact mem_objectTypes

theorem nodup_objectTypes (definitions : List SchemaDefinition) :
    (ofDefinitions definitions).objectTypes.Nodup := by
  rw [objectTypes_ofDefinitions]
  exact (nodup_eraseDups _).filter _

theorem kind_of_possible (hobject : object ∈ (ofDefinitions definitions).possibleTypes name) :
    (ofDefinitions definitions).kind? object = some .object :=
  (kinds_of_mem_possibleTypes (nodup_keys_ofDefinitions definitions) hobject).2

theorem possibleTypes_sublist (hkind : (ofDefinitions definitions).kind? name = some .interface) :
    ((ofDefinitions definitions).possibleTypes name).Sublist (ofDefinitions definitions).objectTypes := by
  rw [possibleTypes_of_interface hkind, objectTypes_ofDefinitions]
  apply List.monotone_filter_right
  intro object hlists
  simp only [decide_eq_true_eq] at hlists ⊢
  exact hlists.1

/-- A name without a kind is no built-in scalar, and no definition is about it. -/
theorem not_mem_of_kind?_eq_none (h : (ofDefinitions definitions).kind? name = none) :
    name ∉ builtinScalars ++ typeNames definitions := by
  rw [kind?_ofDefinitions] at h
  split_ifs at h with hscalar
  intro hmem
  rcases List.mem_append.mp hmem with hbuiltin | hdefined
  · exact hscalar hbuiltin
  · obtain ⟨definition, hdefinition, hname⟩ := List.mem_filterMap.mp hdefined
    cases definition with
    | roots definition => cases hname
    | directive definition => cases hname
    | type definition =>
      have hbody : definition.body ∈ bodiesOf definitions name :=
        mem_bodiesOf_iff.mpr ⟨definition, hdefinition, Option.some.inj hname, rfl⟩
      cases hbodies : bodiesOf definitions name with
      | nil => simp [hbodies] at hbody
      | cons first rest => simp [hbodies] at h

theorem read_eq_ok {reader : TextReader (List SchemaDefinition)} {text : String} (h : reader text = .ok definitions) :
    read reader text = .ok (ofDefinitions definitions) := by
  rw [read, h]

end Schema

/-! Messages that begin in different ways are different. -/

section Messages

theorem append_ne_append {first second front later : String} (count : Nat)
    (hfront : count ≤ first.toList.length) (hlater : count ≤ second.toList.length)
    (h : first.toList.take count ≠ second.toList.take count) : first ++ front ≠ second ++ later := by
  intro heq
  have hchars := congrArg (fun text : String => text.toList.take count) heq
  simp only [String.toList_append, List.take_append_of_le_length hfront,
    List.take_append_of_le_length hlater] at hchars
  exact h hchars

theorem MaskError.eq_unknownType_of_message {error : MaskError} {name : Name}
    (h : error.message = "Unknown object type: " ++ name) : error = .unknownType name := by
  unfold MaskError.message at h
  cases error with
  | unknownType other => rw [(String.append_right_inj _).mp h]
  | unknownField type field =>
    simp only [String.append_assoc] at h
    exact absurd h (append_ne_append 1 (by decide) (by decide) (by decide))
  | unknownFragment other => exact absurd h (append_ne_append 9 (by decide) (by decide) (by decide))
  | fragmentCycle other =>
    simp only [String.append_assoc] at h
    exact absurd h (append_ne_append 1 (by decide) (by decide) (by decide))
  | invalidSchema fault => exact absurd h (append_ne_append 1 (by decide) (by decide) (by decide))
  | invalidQuery fault => exact absurd h (append_ne_append 1 (by decide) (by decide) (by decide))
  | fieldNotFound path => exact absurd h (append_ne_append 1 (by decide) (by decide) (by decide))
  | invalidSettings fault => exact absurd h (append_ne_append 1 (by decide) (by decide) (by decide))
  | endlessSelection =>
    have hpadded : "The selection has no end" ++ "" = "Unknown object type: " ++ name := by
      rw [String.append_empty]
      exact h
    exact absurd hpadded (append_ne_append 1 (by decide) (by decide) (by decide))

end Messages

theorem mapError_eq_error_iff {ε δ α : Type} {outcome : Except ε α} {f : ε → δ} {fault : δ} :
    outcome.mapError f = .error fault ↔ ∃ cause, outcome = .error cause ∧ fault = f cause := by
  cases outcome <;> simp [Except.mapError, eq_comm]

theorem mapError_eq_ok_iff {ε δ α : Type} {outcome : Except ε α} {f : ε → δ} {result : α} :
    outcome.mapError f = .ok result ↔ outcome = .ok result := by
  cases outcome <;> simp [Except.mapError]

theorem Document.fault_of_read {reader : TextReader Document} {text : String} {error : MaskError}
    (h : Document.read reader text = .error error) : ∃ fault, error = .invalidQuery fault := by
  unfold Document.read at h
  cases hdocument : reader text with
  | ok document => simp [hdocument] at h
  | error reason => exact ⟨.stated reason, by simpa [hdocument] using h.symm⟩

theorem Document.fault_of_selectionsAt {document : Document} {operation? : Option Name} {path : Path}
    {error : MaskError} (h : document.selectionsAt operation? path = .error error) :
    (∃ fault, error = .invalidQuery fault) ∨ error = .fieldNotFound path := by
  unfold Document.selectionsAt at h
  rcases bind_eq_error_iff.mp h with hroot | ⟨root, -, hfollow⟩
  · unfold Document.rootSelections at hroot
    cases hselect : document.operations.select operation? with
    | ok operation => simp [hselect] at hroot
    | error fault => exact .inl ⟨fault, by simpa [hselect] using hroot.symm⟩
  · right
    cases hfound : follow? document.fragments path.segments [root] with
    | none => simpa [hfound, throw, throwThe, MonadExceptOf.throw] using hfollow.symm
    | some found =>
      simp only [hfound] at hfollow
      cases hfollow

/-- Settings give one of the policies that expand nothing, or each possible type under its name. -/
theorem Settings.exists_policy (settings : Settings) :
    ∃ discriminator?, settings.policy = .perType settings.naming? discriminator? := by
  unfold Settings.policy Policy.perType
  cases settings.abstractTypes with
  | leaveOut => exact ⟨none, rfl⟩
  | perPossibleType => exact ⟨some AbstractExpansion.typeName, rfl⟩

theorem Settings.paths_eq_error_iff {settings : Settings} {system : TypeSystem} {fragments : Fragments}
    {selections : SelectionSet} {type : Name} {error : MaskError} :
    settings.paths system fragments selections type = .error error ↔
      selectedPaths system fragments settings.policy selections type = .error error := by
  unfold Settings.paths
  cases selectedPaths system fragments settings.policy selections type <;> simp [Except.map]

namespace CommandLine

/-- A file that the command names cannot be read, or its text is refused. -/
def Failure.IsOfFile : Failure → Prop
  | .unreadable _ _ | .settings _ _ | .schema _ _ => True
  | .mask _ | .notComposite _ | .unknownType _ => False

theorem Failure.eq_unknownType_of_message {error : MaskError} {name : Name}
    (h : (Failure.mask error).message = "Unknown object type: " ++ name) : error = .unknownType name :=
  MaskError.eq_unknownType_of_message h

theorem Failure.IsOfFile.message_ne {failure : Failure} (h : failure.IsOfFile) (name : Name) :
    failure.message ≠ "Unknown object type: " ++ name := by
  unfold Failure.message
  cases failure with
  | unreadable file fault =>
    simp only [String.append_assoc]
    exact append_ne_append 1 (by decide) (by decide) (by decide)
  | settings file error =>
    simp only [String.append_assoc]
    exact append_ne_append 1 (by decide) (by decide) (by decide)
  | schema file error =>
    simp only [String.append_assoc]
    exact append_ne_append 1 (by decide) (by decide) (by decide)
  | mask error => exact h.elim
  | notComposite type => exact h.elim
  | unknownType type => exact h.elim

section Files

variable {libraries : Libraries} {files : Files} {file : String} {failure : Failure} {name : Name}

theorem isOfFile_of_readFile (h : readFile files file = .error failure) : failure.IsOfFile := by
  obtain ⟨fault, -, rfl⟩ := mapError_eq_error_iff.mp h
  trivial

theorem isOfFile_of_loadSchema (h : libraries.loadSchema files file = .error failure) : failure.IsOfFile := by
  rcases bind_eq_error_iff.mp h with hread | ⟨text, -, htext⟩
  · exact isOfFile_of_readFile hread
  · obtain ⟨error, -, rfl⟩ := mapError_eq_error_iff.mp htext
    trivial

theorem isOfFile_of_loadSettings {file? : Option String} (h : libraries.loadSettings files file? = .error failure) :
    failure.IsOfFile := by
  cases file? with
  | none => cases h
  | some file =>
    rcases bind_eq_error_iff.mp h with hread | ⟨text, -, htext⟩
    · exact isOfFile_of_readFile hread
    · obtain ⟨error, -, rfl⟩ := mapError_eq_error_iff.mp htext
      trivial

theorem loadSchema_of_read {text : String} {definitions : List SchemaDefinition} (hfile : files file = .ok text)
    (htext : libraries.schema text = .ok definitions) :
    libraries.loadSchema files file = .ok (.ofDefinitions definitions) := by
  have hread : readFile files file = .ok text := mapError_eq_ok_iff.mpr hfile
  exact bind_eq_ok_iff.mpr ⟨text, hread, mapError_eq_ok_iff.mpr (Schema.read_eq_ok htext)⟩

/-- The command for paths complains of an unknown object type only if paths on some selections of it do. -/
theorem PathsCommand.exists_selectedPaths {command : PathsCommand} (h : command.paths libraries files = .error failure)
    (hmessage : failure.message = "Unknown object type: " ++ name) :
    ∃ schema fragments naming? discriminator? selections, libraries.loadSchema files command.schema = .ok schema ∧
      selectedPaths schema.typeSystem fragments (.perType naming? discriminator?) selections command.type =
        .error (.unknownType name) := by
  unfold PathsCommand.paths at h
  -- All steps before the last one fail with messages of their own.
  rcases bind_eq_error_iff.mp h with hsettings | ⟨settings, -, h⟩
  · exact absurd hmessage ((isOfFile_of_loadSettings hsettings).message_ne name)
  rcases bind_eq_error_iff.mp h with hschema | ⟨schema, hschema, h⟩
  · exact absurd hmessage ((isOfFile_of_loadSchema hschema).message_ne name)
  rcases bind_eq_error_iff.mp h with hquery | ⟨text, -, h⟩
  · exact absurd hmessage ((isOfFile_of_readFile hquery).message_ne name)
  rcases bind_eq_error_iff.mp h with hdocument | ⟨document, -, h⟩
  · obtain ⟨error, herror, rfl⟩ := mapError_eq_error_iff.mp hdocument
    obtain ⟨fault, rfl⟩ := Document.fault_of_read herror
    cases Failure.eq_unknownType_of_message hmessage
  rcases bind_eq_error_iff.mp h with hselections | ⟨selections, -, h⟩
  · obtain ⟨error, herror, rfl⟩ := mapError_eq_error_iff.mp hselections
    rcases Document.fault_of_selectionsAt herror with ⟨fault, rfl⟩ | rfl
    · cases Failure.eq_unknownType_of_message hmessage
    · cases Failure.eq_unknownType_of_message hmessage
  · obtain ⟨error, herror, rfl⟩ := mapError_eq_error_iff.mp h
    rw [Failure.eq_unknownType_of_message hmessage, Settings.paths_eq_error_iff] at herror
    obtain ⟨discriminator?, hpolicy⟩ := (command.adjust settings).exists_policy
    exact ⟨schema, document.fragments, _, discriminator?, selections, hschema, hpolicy ▸ herror⟩

/-- The command for types prints object types only. -/
theorem TypesCommand.subset_objectTypes {command : TypesCommand} {definitions : List SchemaDefinition}
    {names : List Name} (hschema : libraries.loadSchema files command.schema = .ok (.ofDefinitions definitions))
    (h : command.types libraries files = .ok names) : names ⊆ (Schema.ofDefinitions definitions).objectTypes := by
  intro name hname
  unfold TypesCommand.types at h
  obtain ⟨schema, hloaded, h⟩ := bind_eq_ok_iff.mp h
  obtain rfl := Except.ok.inj (hschema.symm.trans hloaded)
  cases htype : command.type? with
  | none =>
    simp only [htype] at h
    obtain rfl := Except.ok.inj h
    exact hname
  | some type =>
    simp only [htype] at h
    cases hkind : (Schema.ofDefinitions definitions).kind? type with
    | none =>
      simp only [hkind] at h
      cases h
    | some kind =>
      cases kind with
      | object =>
        simp only [hkind] at h
        obtain rfl := Except.ok.inj h
        rw [List.mem_singleton.mp hname]
        exact Schema.mem_objectTypes hkind
      | interface | union =>
        simp only [hkind] at h
        obtain rfl := Except.ok.inj h
        exact Schema.mem_objectTypes (Schema.kind_of_possible hname)
      | leaf | inputObject =>
        simp only [hkind] at h
        cases h

end Files

end CommandLine

/-- The types that the schema of some definitions lists are those that it accepts as targets of selections. -/
structure Schema.Accepts (definitions : List SchemaDefinition) (schema : Schema) : Prop where
  loaded : ∀ (reader : TextReader (List SchemaDefinition)) text, reader text = .ok definitions →
    Schema.read reader text = .ok schema
  collected : ∀ fragments selections type,
    appliedFields schema.typeSystem fragments type selections = .error (.unknownType type) ↔
      type ∉ schema.objectTypes
  selected : ∀ fragments naming? discriminator? selections type,
    selectedPaths schema.typeSystem fragments (.perType naming? discriminator?) selections type =
      .error (.unknownType type) ↔ type ∉ schema.objectTypes
  distinct : schema.objectTypes.Nodup
  possible : ∀ name, schema.possibleTypes name ⊆ schema.objectTypes
  interface : ∀ name, schema.kind? name = some .interface →
    (schema.possibleTypes name).Sublist schema.objectTypes ∧ (schema.possibleTypes name).Nodup
  /-- Runs on possible types, at any depth, do not fail for want of that type. -/
  expanded : ∀ fragments naming? discriminator? depth selections abstract,
    ∀ object ∈ schema.possibleTypes abstract,
      (pathsWithin schema.typeSystem fragments (.perType naming? discriminator?) depth selections
        object).outcome ≠ .error (.unknownType object)
  /-- Other unknown types are return types that no definition declares. -/
  missed : ∀ fragments naming? discriminator? selections, ∀ type ∈ schema.objectTypes, ∀ name,
    selectedPaths schema.typeSystem fragments (.perType naming? discriminator?) selections type =
      .error (.unknownType name) →
    Visit.Misses schema.typeSystem fragments naming? discriminator? ⟨selections, type⟩ name ∧
      name ∉ builtinScalars ++ typeNames definitions
  /-- A run for paths does not complain of a type that a run for types prints, whatever the libraries. -/
  printed : ∀ (libraries : CommandLine.Libraries) (text : String), libraries.schema text = .ok definitions →
    ∀ (listing : CommandLine.TypesCommand) (files : CommandLine.Files) names,
      files listing.schema = .ok text → listing.types libraries files = .ok names →
    ∀ (arguments : List String) (command : CommandLine.PathsCommand) (later : CommandLine.Files),
      libraries.arguments arguments = .ok (.paths command) → later command.schema = .ok text →
      command.type ∈ names →
      (libraries.run later arguments).complaint? ≠ some ("✗ Unknown object type: " ++ command.type)

namespace CommandLine

variable {libraries : Libraries} {files : Files} {arguments : List String} {command : PathsCommand}

theorem Libraries.run_of_paths (h : libraries.arguments arguments = .ok (.paths command)) :
    libraries.run files arguments = .ofList libraries.json command.format (command.paths libraries files) := by
  rw [Libraries.run, h]
  rfl

theorem PathsCommand.complaint_ne_unknownType {definitions : List SchemaDefinition}
    (harguments : libraries.arguments arguments = .ok (.paths command))
    (hschema : libraries.loadSchema files command.schema = .ok (.ofDefinitions definitions))
    (htype : command.type ∈ (Schema.ofDefinitions definitions).objectTypes) :
    (libraries.run files arguments).complaint? ≠ some ("✗ Unknown object type: " ++ command.type) := by
  intro hcomplaint
  rw [Libraries.run_of_paths harguments] at hcomplaint
  cases hpaths : command.paths libraries files with
  | ok paths => simp [hpaths, Report.ofList, Report.printed] at hcomplaint
  | error failure =>
    simp only [hpaths, Report.ofList, Option.some.injEq] at hcomplaint
    have hmessage : failure.message = "Unknown object type: " ++ command.type := by
      apply (String.append_right_inj "✗ ").mp
      rw [hcomplaint, ← String.append_assoc]
      rfl
    obtain ⟨schema, _, _, _, _, hloaded, hunknown⟩ := PathsCommand.exists_selectedPaths hpaths hmessage
    obtain rfl := Except.ok.inj (hschema.symm.trans hloaded)
    exact (selectedPaths_unknownType_iff fun _ _ => Schema.kind_of_possible).mp hunknown
      (Schema.mem_objectTypes_iff.mp htype)

end CommandLine

/--
A type is an unknown one, as the target of selections, if and only if the schema does not list it. The types that the
schema expands an abstract type to are listed, so unknown types below a listed one are return types of selected fields
that no definition declares, and what the command for types prints is never unknown to the command for paths.
-/
theorem Schema.accepts_ofDefinitions (definitions : List SchemaDefinition) :
    (ofDefinitions definitions).Accepts definitions := by
  have hpossible : ∀ abstract, ∀ object ∈ (ofDefinitions definitions).possibleTypes abstract,
      (ofDefinitions definitions).kind? object = some .object := fun _ _ => kind_of_possible
  constructor
  case loaded => exact fun _ _ => read_eq_ok
  case collected =>
    intro fragments selections type
    rw [mem_objectTypes_iff]
    exact appliedFields_unknownType_iff
  case selected =>
    intro fragments naming? discriminator? selections type
    rw [mem_objectTypes_iff]
    exact selectedPaths_unknownType_iff hpossible
  case distinct => exact nodup_objectTypes definitions
  case possible => exact fun name object hobject => mem_objectTypes (hpossible name object hobject)
  case interface =>
    intro name hkind
    have hsublist := possibleTypes_sublist hkind
    exact ⟨hsublist, hsublist.nodup (nodup_objectTypes definitions)⟩
  case expanded =>
    intro fragments naming? discriminator? depth selections abstract object hobject hfault
    have hkind := hpossible abstract object hobject
    have hroot : (ofDefinitions definitions).typeSystem.kind? (Visit.mk selections object).type =
        some .object := hkind
    obtain ⟨_, _, _, _, -, -, -, -, hnone⟩ := misses_of_pathsWithin hpossible hroot hfault
    cases hkind.symm.trans hnone
  case missed =>
    intro fragments naming? discriminator? selections type htype name hfault
    have hroot : (ofDefinitions definitions).typeSystem.kind? (Visit.mk selections type).type =
        some .object := mem_objectTypes_iff.mp htype
    have hmisses := misses_of_pathsWithin hpossible hroot hfault
    obtain ⟨_, _, _, _, -, -, -, -, hnone⟩ := id hmisses
    exact ⟨hmisses, not_mem_of_kind?_eq_none hnone⟩
  case printed =>
    intro libraries text htext listing files names hlisting hnames arguments command later hcommand hlater htype
    have hlisted := CommandLine.TypesCommand.subset_objectTypes
      (CommandLine.loadSchema_of_read hlisting htext) hnames htype
    exact CommandLine.PathsCommand.complaint_ne_unknownType hcommand
      (CommandLine.loadSchema_of_read hlater htext) hlisted

/-! Owners and dogs, which have a robot that nothing declares. -/

namespace Robots

def definitions : List SchemaDefinition :=
  [Pets.typeOf "Owner" (.object [] [Pets.fieldOf "pet" "Animal"]),
   Pets.typeOf "Animal" (.interface [] [Pets.fieldOf "toy" "Robot"]),
   Pets.typeOf "Dog" (.object ["Animal"] [Pets.fieldOf "toy" "Robot"])]

def schema : Schema := .ofDefinitions definitions

def selections : SelectionSet := [.field none "pet" [] [] [.field none "toy" [] [] [Pets.leaf "name"]]]

theorem accepts_definitions :
    schema.Accepts definitions ∧ schema.objectTypes = ["Owner", "Dog"] ∧ schema.possibleTypes "Animal" = ["Dog"] ∧
      selectedPaths schema.typeSystem [] (.perType none none) selections "Owner" = .ok [] ∧
      selectedPaths schema.typeSystem [] (.perType none (some some)) selections "Owner" =
        .error (.unknownType "Robot") ∧
      selectedPaths schema.typeSystem [] (.perType none none) selections "Animal" =
        .error (.unknownType "Animal") := by
  refine ⟨Schema.accepts_ofDefinitions definitions, ?_, ?_, ?_, ?_, ?_⟩ <;> cbv

end Robots

end QueryMask
