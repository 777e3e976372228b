import QueryMask.CommandLine.Report
import QueryMask.Proofs.Arguments
import QueryMask.Proofs.DeclaredTypes
import QueryMask.Proofs.ListedTypes
import Mathlib

/-! What the flags of the command for paths do to a run, next to the settings in a file. -/

namespace QueryMask

section Distinct

variable {α : Type} [BEq α] [LawfulBEq α]

theorem eraseDups_sublist (items : List α) : items.eraseDups.Sublist items := by
  induction items using List.reverseRecOn with
  | nil => exact .slnil
  | append_singleton items item ih =>
    rw [eraseDups_concat]
    split_ifs
    · exact ih.trans (List.sublist_append_left items [item])
    · exact ih.append (.refl [item])

/-- What is kept stands in the order of the first occurrences. -/
theorem eraseDups_pairwise_idxOf (items : List α) :
    items.eraseDups.Pairwise fun item later => items.idxOf item < items.idxOf later := by
  induction items using List.reverseRecOn with
  | nil => exact .nil
  | append_singleton items item ih =>
    have hkeeps : ∀ kept ∈ items.eraseDups, (items ++ [item]).idxOf kept = items.idxOf kept := fun kept hkept =>
      List.idxOf_append_of_mem (List.mem_eraseDups.mp hkept)
    have hordered : items.eraseDups.Pairwise fun kept later =>
        (items ++ [item]).idxOf kept < (items ++ [item]).idxOf later :=
      ih.imp_of_mem fun hkept hlater hlt => by rwa [hkeeps _ hkept, hkeeps _ hlater]
    rw [eraseDups_concat]
    split_ifs with hmem
    · exact hordered
    · refine List.pairwise_append.mpr ⟨hordered, List.pairwise_singleton _ _, fun kept hkept later hlater => ?_⟩
      obtain rfl := List.mem_singleton.mp hlater
      rw [hkeeps kept hkept, List.idxOf_append_of_notMem (by simpa using hmem)]
      exact Nat.lt_add_right _ (List.idxOf_lt_length_of_mem (List.mem_eraseDups.mp hkept))

/-- The first occurrences are the only list without repeats that holds all items in that order. -/
theorem eq_eraseDups_iff {items kept : List α} :
    kept = items.eraseDups ↔ kept.Nodup ∧ (∀ item, item ∈ kept ↔ item ∈ items) ∧
      kept.Pairwise fun item later => items.idxOf item < items.idxOf later := by
  constructor
  · rintro rfl
    exact ⟨nodup_eraseDups items, fun item => List.mem_eraseDups, eraseDups_pairwise_idxOf items⟩
  · rintro ⟨hnodup, hmem, hordered⟩
    have hperm : kept.Perm items.eraseDups :=
      (List.perm_ext_iff_of_nodup hnodup (nodup_eraseDups items)).mpr fun item => by
        rw [hmem, List.mem_eraseDups]
    exact hperm.eq_of_pairwise (fun item later _ _ hlt hgt => absurd hgt (Nat.lt_asymm hlt)) hordered
      (eraseDups_pairwise_idxOf items)

theorem eraseDups_of_nodup {items : List α} (h : items.Nodup) : items.eraseDups = items := by
  induction items using List.reverseRecOn with
  | nil => rfl
  | append_singleton items item ih =>
    obtain ⟨hitems, -, hnew⟩ := List.nodup_append.mp h
    have hcontains : items.contains item = false := by
      simpa using fun hmem => hnew item hmem item (List.mem_singleton_self item) rfl
    rw [eraseDups_concat, hcontains, ih hitems]
    rfl

end Distinct

theorem Path.distinct_distinct (paths : List Path) : distinct (distinct paths) = distinct paths :=
  eraseDups_of_nodup (nodup_eraseDups paths)

theorem Settings.paths_dedup (settings : Settings) (system : TypeSystem) (fragments : Fragments)
    (selections : SelectionSet) (type : Name) :
    ({ settings with dedup := true } : Settings).paths system fragments selections type =
      (settings.paths system fragments selections type).map Path.distinct := by
  obtain ⟨nameDirective, honorNameDirective, abstractTypes, dedup⟩ := settings
  unfold Settings.paths
  have hpolicy : (Settings.mk nameDirective honorNameDirective abstractTypes true).policy =
      (Settings.mk nameDirective honorNameDirective abstractTypes dedup).policy := rfl
  rw [hpolicy]
  cases selectedPaths system fragments (Settings.mk nameDirective honorNameDirective abstractTypes dedup).policy
    selections type with
  | error fault => rfl
  | ok paths => cases dedup <;> simp [Except.map, Path.distinct_distinct]

namespace CommandLine

section Prints

variable {json : List String → String} {format : ListFormat} {items : List String} {text : String}

/-- A text shows a list: in JSON as the library writes it, or with each item on a line of its own. -/
inductive ListFormat.Shows (json : List String → String) : ListFormat → List String → String → Prop
  | json (items : List String) : Shows json .json items (json items ++ "\n")
  | noLines : Shows json .lines [] ""
  | line {items : List String} {text : String} (item : String) (h : Shows json .lines items text) :
      Shows json .lines (item :: items) (item ++ "\n" ++ text)

theorem ListFormat.shows_iff : format.Shows json items text ↔ text = format.print json items := by
  constructor
  · intro h
    induction h with
    | json items => rfl
    | noLines => rfl
    | line item _ ih => rw [ih, print, print, List.map_cons, String.join_cons]
  · rintro rfl
    cases format with
    | json => exact .json items
    | lines =>
      induction items with
      | nil => exact .noLines
      | cons item items ih =>
        rw [print, List.map_cons, String.join_cons, ← print]
        exact .line item ih

/-- Between the line ends stand the items, unless one goes over several lines. -/
theorem ListFormat.Shows.pieces (h : ListFormat.lines.Shows json items text)
    (hitems : ∀ item ∈ items, '\n' ∉ item.toList) : piecesOf '\n' text = items ++ [""] := by
  generalize hformat : ListFormat.lines = format at h
  induction h with
  | json items => cases hformat
  | noLines => rfl
  | @line items text item _ ih =>
    rw [List.forall_mem_cons] at hitems
    have hrest := ih hitems.2 rfl
    have hchars : (item ++ "\n" ++ text).toList = item.toList ++ '\n' :: text.toList := by simp
    unfold piecesOf at hrest ⊢
    rw [hchars, pieces_append_cons, pieces_of_not_mem hitems.1, List.map_append, hrest, List.map_singleton,
      String.ofList_toList]
    rfl

end Prints

section Runs

variable {libraries : Libraries} {files later : Files} {arguments without : List String} {command : PathsCommand}
  {settings : Settings}

/-- What a run for paths reads, and the list that it makes of it. -/
structure PathsCommand.Computes (command : PathsCommand) (libraries : Libraries) (files : Files)
    (settings : Settings) (paths : List Path) : Prop where
  loaded : libraries.loadSettings files command.config? = .ok settings
  computed : ∃ schema text document selections, libraries.loadSchema files command.schema = .ok schema ∧
    readFile files command.query = .ok text ∧ Document.read libraries.query text = .ok document ∧
    document.selectionsAt command.operation? command.field = .ok selections ∧
    (command.adjust settings).paths schema.typeSystem document.fragments selections command.type = .ok paths

theorem PathsCommand.paths_eq_ok_iff {paths : List Path} :
    command.paths libraries files = .ok paths ↔ ∃ settings, command.Computes libraries files settings paths := by
  unfold PathsCommand.paths
  simp only [bind_eq_ok_iff, mapError_eq_ok_iff]
  constructor
  · rintro ⟨settings, hsettings, schema, hschema, text, htext, document, hdocument, selections, hselections, h⟩
    exact ⟨settings, hsettings, schema, text, document, selections, hschema, htext, hdocument, hselections, h⟩
  · rintro ⟨settings, hsettings, schema, text, document, selections, hschema, htext, hdocument, hselections, h⟩
    exact ⟨settings, hsettings, schema, hschema, text, htext, document, hdocument, selections, hselections, h⟩

/-- The rest of a run for paths behind the settings. -/
def PathsCommand.pathsUnder (command : PathsCommand) (libraries : Libraries) (files : Files)
    (settings : Settings) : Except Failure (List Path) := do
  let schema ← libraries.loadSchema files command.schema
  let text ← readFile files command.query
  let document ← (Document.read libraries.query text).mapError .mask
  let selections ← (document.selectionsAt command.operation? command.field).mapError .mask
  (settings.paths schema.typeSystem document.fragments selections command.type).mapError .mask

theorem PathsCommand.paths_eq_bind (command : PathsCommand) (libraries : Libraries) (files : Files) :
    command.paths libraries files = libraries.loadSettings files command.config? >>= fun settings =>
      command.pathsUnder libraries files (command.adjust settings) := rfl

theorem PathsCommand.paths_of_settings (h : libraries.loadSettings files command.config? = .ok settings) :
    command.paths libraries files = command.pathsUnder libraries files (command.adjust settings) := by
  rw [PathsCommand.paths_eq_bind, h]
  rfl

theorem PathsCommand.paths_of_fault {failure : Failure}
    (h : libraries.loadSettings files command.config? = .error failure) :
    command.paths libraries files = .error failure := by
  rw [PathsCommand.paths_eq_bind, h]
  rfl

theorem PathsCommand.pathsUnder_dedup (command : PathsCommand) (libraries : Libraries) (files : Files)
    (settings : Settings) :
    command.pathsUnder libraries files { settings with dedup := true } =
      Path.distinct <$> command.pathsUnder libraries files settings := by
  unfold PathsCommand.pathsUnder
  simp only [map_bind, Settings.paths_dedup]
  refine bind_congr fun schema => bind_congr fun text => bind_congr fun document => ?_
  refine bind_congr fun selections => ?_
  cases settings.paths schema.typeSystem document.fragments selections command.type <;> rfl

/-- The flag drops the repeats from the list of the run without it. -/
theorem PathsCommand.paths_dedup (libraries : Libraries) (files : Files) (hdedup : command.dedup = true) :
    command.paths libraries files =
      Path.distinct <$> PathsCommand.paths { command with dedup := false } libraries files := by
  rw [PathsCommand.paths_eq_bind, PathsCommand.paths_eq_bind, map_bind]
  refine bind_congr fun settings => ?_
  have hadjust : command.adjust settings =
      { PathsCommand.adjust { command with dedup := false } settings with dedup := true } := by
    simp [PathsCommand.adjust, hdedup]
  rw [hadjust, PathsCommand.pathsUnder_dedup]
  rfl

theorem run_of_ok {paths : List Path} (h : libraries.arguments arguments = .ok (.paths command))
    (hpaths : command.paths libraries files = .ok paths) :
    libraries.run files arguments = ⟨0, command.format.print libraries.json paths, none⟩ := by
  rw [Libraries.run_of_paths h, hpaths]
  rfl

theorem run_of_error {failure : Failure} (h : libraries.arguments arguments = .ok (.paths command))
    (hpaths : command.paths libraries files = .error failure) :
    libraries.run files arguments = ⟨1, "", some ("✗ " ++ failure.message)⟩ := by
  rw [Libraries.run_of_paths h, hpaths]
  rfl

/--
What the flag against repeats does, next to a run without it on the same files: both end in the same way, and if the
run without it makes a list, the run with the flag makes the list of the first occurrences in it. Settings that ask
for this already leave nothing to the flag.
-/
structure PathsCommand.DropsRepeats (command : PathsCommand) (libraries : Libraries) (files : Files)
    (arguments without : List String) : Prop where
  status : (libraries.run files arguments).status = (libraries.run files without).status
  complaint : (libraries.run files arguments).complaint? = (libraries.run files without).complaint?
  list : ∀ all, PathsCommand.paths { command with dedup := false } libraries files = .ok all →
    ∃ kept output shorter, command.paths libraries files = .ok kept ∧
      command.format.Shows libraries.json all output ∧ libraries.run files without = ⟨0, output, none⟩ ∧
      command.format.Shows libraries.json kept shorter ∧ libraries.run files arguments = ⟨0, shorter, none⟩ ∧
      (∀ paths : List Path, paths = kept ↔ paths.Nodup ∧ (∀ path, path ∈ paths ↔ path ∈ all) ∧
        paths.Pairwise fun path later => all.idxOf path < all.idxOf later) ∧
      kept.Sublist all ∧ Path.distinct kept = kept
  configured : ∀ settings, libraries.loadSettings files command.config? = .ok settings → settings.dedup = true →
    libraries.run files arguments = libraries.run files without

theorem PathsCommand.dropsRepeats (h : libraries.arguments arguments = .ok (.paths command))
    (hdedup : command.dedup = true)
    (hwithout : libraries.arguments without = .ok (.paths { command with dedup := false })) :
    command.DropsRepeats libraries files arguments without := by
  have hpaths := PathsCommand.paths_dedup libraries files hdedup
  constructor
  case status =>
    rw [Libraries.run_of_paths h, Libraries.run_of_paths hwithout, hpaths]
    cases PathsCommand.paths { command with dedup := false } libraries files <;> rfl
  case complaint =>
    rw [Libraries.run_of_paths h, Libraries.run_of_paths hwithout, hpaths]
    cases PathsCommand.paths { command with dedup := false } libraries files <;> rfl
  case list =>
    intro all hall
    rw [hall] at hpaths
    have hkept : command.paths libraries files = .ok (Path.distinct all) := hpaths
    have hlong := run_of_ok hwithout hall
    have hshort := run_of_ok h hkept
    exact ⟨Path.distinct all, _, _, hkept, ListFormat.shows_iff.mpr rfl, hlong, ListFormat.shows_iff.mpr rfl, hshort,
      fun paths => eq_eraseDups_iff, eraseDups_sublist all, Path.distinct_distinct all⟩
  case configured =>
    intro settings hsettings hrepeats
    have hadjust : command.adjust settings = PathsCommand.adjust { command with dedup := false } settings := by
      simp [PathsCommand.adjust, hrepeats]
    have hplain : libraries.loadSettings files ({ command with dedup := false } : PathsCommand).config? =
        .ok settings := hsettings
    rw [Libraries.run_of_paths h, Libraries.run_of_paths hwithout, PathsCommand.paths_of_settings hsettings,
      PathsCommand.paths_of_settings hplain, hadjust]
    rfl

/--
A command that says what abstract types contribute goes as one that leaves this to its settings, where these differ
from the given ones in that they say the same. The schema and the query are the same.
-/
theorem PathsCommand.run_of_abstractTypes {handling : AbstractHandling} {config? : Option String}
    {others : List String} (h : libraries.arguments arguments = .ok (.paths command))
    (hhandling : command.abstractTypes? = some handling)
    (hsettings : libraries.loadSettings files command.config? = .ok settings)
    (hschema : later command.schema = files command.schema) (hquery : later command.query = files command.query)
    (hlater : libraries.loadSettings later config? = .ok { settings with abstractTypes := handling })
    (hothers : libraries.arguments others = .ok (.paths { command with abstractTypes? := none, config? })) :
    libraries.run files arguments = libraries.run later others := by
  have hadjust : PathsCommand.adjust { command with abstractTypes? := none, config? }
      { settings with abstractTypes := handling } = command.adjust settings := by
    simp [PathsCommand.adjust, hhandling]
  have hunder : PathsCommand.pathsUnder { command with abstractTypes? := none, config? } libraries later =
      command.pathsUnder libraries files := by
    funext settings
    simp only [PathsCommand.pathsUnder, Libraries.loadSchema, readFile, hschema, hquery]
  have hconfig : libraries.loadSettings later
      ({ command with abstractTypes? := none, config? } : PathsCommand).config? =
        .ok { settings with abstractTypes := handling } := hlater
  rw [Libraries.run_of_paths h, Libraries.run_of_paths hothers, PathsCommand.paths_of_settings hsettings,
    PathsCommand.paths_of_settings hconfig, hadjust, hunder]

/-- What the flags in the arguments of a command for paths do, and how a run on some files ends. -/
structure PathsCommand.ActsOn (command : PathsCommand) (libraries : Libraries) (files : Files)
    (arguments : List String) : Prop where
  dedup : command.dedup = true → ∀ without,
    libraries.arguments without = .ok (.paths { command with dedup := false }) →
    command.DropsRepeats libraries files arguments without
  abstractTypes : ∀ handling settings, command.abstractTypes? = some handling →
    libraries.loadSettings files command.config? = .ok settings → ∀ (later : Files) config? others,
    later command.schema = files command.schema → later command.query = files command.query →
    libraries.loadSettings later config? = .ok { settings with abstractTypes := handling } →
    libraries.arguments others = .ok (.paths { command with abstractTypes? := none, config? }) →
    libraries.run files arguments = libraries.run later others
  refused : ∀ failure, libraries.loadSettings files command.config? = .error failure →
    ∀ others (other : PathsCommand), libraries.arguments others = .ok (.paths other) →
    other.config? = command.config? →
    libraries.run files others = ⟨1, "", some ("✗ " ++ failure.message)⟩
  ends : (∃ settings paths output, command.Computes libraries files settings paths ∧
      command.format.Shows libraries.json paths output ∧ libraries.run files arguments = ⟨0, output, none⟩) ∨
    ∃ failure, command.paths libraries files = .error failure ∧
      libraries.run files arguments = ⟨1, "", some ("✗ " ++ failure.message)⟩

/--
The flags of the command for paths act independently of one another and of the settings in a file, on all files
and for all arguments that are accepted. Settings that cannot be loaded fail the run whatever the flags. Every
run prints the whole list that it computes, or fails with one message and prints nothing.
-/
theorem PathsCommand.actsOn (libraries : Libraries) (files : Files) {arguments : List String}
    {command : PathsCommand} (h : libraries.arguments arguments = .ok (.paths command)) :
    command.ActsOn libraries files arguments := by
  constructor
  case dedup => exact fun hdedup without hwithout => PathsCommand.dropsRepeats h hdedup hwithout
  case abstractTypes =>
    intro handling settings hhandling hsettings later config? others hschema hquery hlater hothers
    exact PathsCommand.run_of_abstractTypes h hhandling hsettings hschema hquery hlater hothers
  case refused =>
    intro failure hfailure others other hothers hconfig
    rw [← hconfig] at hfailure
    exact run_of_error hothers (PathsCommand.paths_of_fault hfailure)
  case ends =>
    cases hpaths : command.paths libraries files with
    | ok paths =>
      obtain ⟨settings, hcomputes⟩ := PathsCommand.paths_eq_ok_iff.mp hpaths
      exact .inl ⟨settings, paths, _, hcomputes, ListFormat.shows_iff.mpr rfl, run_of_ok h hpaths⟩
    | error failure => exact .inr ⟨failure, rfl, run_of_error h hpaths⟩

end Runs

/-! Owners with dogs, and a query about both, with settings that leave out abstract fields or expand them. -/

namespace Kennel

def definitions : List SchemaDefinition :=
  [Pets.typeOf "Query" (.object [] [Pets.fieldOf "owner" "Owner"]),
   Pets.typeOf "Owner" (.object [] [Pets.fieldOf "pet" "Animal"]),
   Pets.typeOf "Animal" (.interface [] [Pets.fieldOf "name" "String"]),
   Pets.typeOf "Dog" (.object ["Animal"] [Pets.fieldOf "name" "String"])]

def selections : SelectionSet := [.field none "pet" [] [] [Pets.leaf "name", Pets.leaf "name"]]

def document : Document := ⟨.anonymous ⟨.query, [], [], [.field none "owner" [] [] selections]⟩, []⟩

def schemaText : String :=
  "type Query{owner:Owner}type Owner{pet:Animal}interface Animal{name:String}" ++
    "type Dog implements Animal{name:String}"

def queryText : String := "{owner{pet{name name}}}"

/-- Readers that know the texts of the schema and the query, with the grammars of settings and arguments. -/
def libraries : Libraries where
  schema text := if text = schemaText then .ok definitions else .error "unknown schema"
  query text := if text = queryText then .ok document else .error "unknown query"
  settings := Settings.reader
  arguments := Command.ofArguments
  json := Json.listText

def files (settings : String) : Files :=
  Folder.files <| .ofTexts [("schema", schemaText), ("query", queryText), ("settings", settings)]

/-- Settings that leave out abstract fields, and settings that expand them. -/
def omitting : Files := files "abstract_types=\"omit\""

def expanding : Files := files "abstract_types=\"per_possible_type\""

def arguments (flags : List String) : List String :=
  ["paths", "--schema", "schema", "--query", "query", "--field", "owner", "--type", "Owner", "--config",
   "settings"] ++ flags

def command (abstractTypes? : Option AbstractHandling) (dedup : Bool) : PathsCommand where
  schema := "schema"
  query := "query"
  field := "owner"
  type := "Owner"
  operation? := none
  config? := some "settings"
  abstractTypes?
  dedup
  format := .json

theorem computes_paths : (command (some .perPossibleType) false).Computes libraries omitting {}
    ["pet.Dog.name", "pet.Dog.name"] where
  loaded := by decide +kernel
  computed := by
    have hschema : omitting "schema" = .ok schemaText := by decide +kernel
    have hquery : readFile omitting "query" = .ok queryText := by decide +kernel
    have hread : Document.read libraries.query queryText = .ok document := by simp [Document.read, libraries]
    have hselections : document.selectionsAt none "owner" = .ok selections := by cbv
    have hpaths : ({ abstractTypes := .perPossibleType } : Settings).paths
        (Schema.ofDefinitions definitions).typeSystem [] selections "Owner" =
          .ok ["pet.Dog.name", "pet.Dog.name"] := by cbv
    exact ⟨_, _, _, _, loadSchema_of_read hschema (by simp [libraries]), hquery, hread, hselections, hpaths⟩

theorem actsOn_files :
    (command (some .perPossibleType) true).ActsOn libraries omitting
        (arguments ["--abstract-types", "per-possible-type", "--dedup"]) ∧
      libraries.run omitting (arguments ["--abstract-types", "per-possible-type", "--dedup"]) =
        ⟨0, "[\n  \"pet.Dog.name\"\n]\n", none⟩ ∧
      libraries.run expanding (arguments ["--dedup"]) = ⟨0, "[\n  \"pet.Dog.name\"\n]\n", none⟩ ∧
      libraries.run omitting (arguments ["--abstract-types", "per-possible-type"]) =
        ⟨0, "[\n  \"pet.Dog.name\",\n  \"pet.Dog.name\"\n]\n", none⟩ := by
  have hgiven : libraries.arguments (arguments ["--abstract-types", "per-possible-type", "--dedup"]) =
      .ok (.paths (command (some .perPossibleType) true)) := by decide +kernel
  have hacts := PathsCommand.actsOn libraries omitting hgiven
  -- Without the flag against repeats, the path stands twice.
  have hrepeats : libraries.arguments (arguments ["--abstract-types", "per-possible-type"]) =
      .ok (.paths (command (some .perPossibleType) false)) :=
    (Command.without_dedup (arguments ["--abstract-types", "per-possible-type"]) [] hgiven).2
  obtain ⟨kept, output, shorter, -, hshows, hlong, hshorter, hshort, hfirst, -, -⟩ :=
    (hacts.dedup rfl _ hrepeats).list _ (PathsCommand.paths_eq_ok_iff.mpr ⟨_, computes_paths⟩)
  obtain rfl : ["pet.Dog.name"] = kept := (hfirst _).mpr ⟨by simp, by simp, by simp⟩
  rw [ListFormat.shows_iff] at hshows hshorter
  -- Settings that say the same take the place of the other flag.
  have hflag : ["--abstract-types", "per-possible-type"] ∈ abstractTypesFlags "per-possible-type" :=
    List.mem_cons_self
  have hdedup : libraries.arguments (arguments ["--dedup"]) = .ok (.paths (command none true)) :=
    (Command.without_abstractTypes (arguments []) ["--dedup"] hflag hgiven).2
  have hschema : expanding "schema" = omitting "schema" := by decide +kernel
  have hquery : expanding "query" = omitting "query" := by decide +kernel
  have hlater : libraries.loadSettings expanding (some "settings") = .ok { abstractTypes := .perPossibleType } := by
    decide +kernel
  have hsame : libraries.run omitting (arguments ["--abstract-types", "per-possible-type", "--dedup"]) =
      libraries.run expanding (arguments ["--dedup"]) :=
    hacts.abstractTypes _ _ rfl computes_paths.loaded _ _ _ hschema hquery hlater hdedup
  have hone : shorter = "[\n  \"pet.Dog.name\"\n]\n" := hshorter.trans (by decide +kernel)
  have htwo : output = "[\n  \"pet.Dog.name\",\n  \"pet.Dog.name\"\n]\n" := hshows.trans (by decide +kernel)
  rw [hone] at hshort
  rw [htwo] at hlong
  exact ⟨hacts, hshort, hsame ▸ hshort, hlong⟩

end Kennel

end CommandLine

end QueryMask
