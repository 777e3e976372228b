import QueryMask.CommandLine.Arguments
import QueryMask.Proofs.Options
import Mathlib

/-! Commands for paths are read from arguments with a flag and from those without it: they differ in what it says. -/

namespace QueryMask

namespace CommandLine

section Commands

variable {front back arguments : List String} {command : PathsCommand} {given plain : Given}

theorem isFlag_dedup : IsFlag pathsOptions "dedup" "" ["--dedup"] := by
  have htext : Argument.ofText pathsOptions "--dedup" = .option ⟨"dedup", none, false, false⟩ none := by decide
  exact .switch (by decide) htext rfl rfl

/-- The two ways to give the handling of abstract types. -/
def abstractTypesFlags (text : String) : List (List String) :=
  [["--abstract-types", text], ["--abstract-types=" ++ text]]

theorem Argument.ofText_abstractTypes {specs : List OptionSpec} {found? : Option OptionSpec}
    (hfind : specs.find? (·.name == "abstract-types") = found?) (text : String) :
    Argument.ofText specs ("--abstract-types=" ++ text) =
      found?.elim .unknown fun spec => .option spec (some text) := by
  have hchars : ("--abstract-types=" ++ text).toList =
      '-' :: '-' :: ("abstract-types".toList ++ '=' :: text.toList) := by simp
  cases found? with
  | none => simp [Argument.ofText, hchars, hfind]
  | some spec => simp [Argument.ofText, hchars, hfind, attachedToName?]

theorem isFlag_abstractTypes {text : String} {flag : List String} (h : flag ∈ abstractTypesFlags text) :
    IsFlag pathsOptions "abstract-types" text flag := by
  rcases List.mem_pair.mp h with rfl | rfl
  · have htext : Argument.ofText pathsOptions "--abstract-types" = .option (valued "abstract-types") none := by
      decide
    exact .separate (by decide) htext rfl text
  · have hfind : pathsOptions.find? (·.name == "abstract-types") = some (valued "abstract-types") := by decide
    have hne : "--abstract-types=" ++ text ≠ "-" := fun heq => by
      have hchars := congrArg String.toList heq
      simp at hchars
    exact .attached (by simp [looksLikeOption, hne]) (Argument.ofText_abstractTypes hfind text)

/-- The options that a command is made of. -/
structure PathsCommand.MadeOf (command : PathsCommand) (given : Given) : Prop where
  schema : (given.lookup "schema").bind fileName? = some command.schema
  query : (given.lookup "query").bind fileName? = some command.query
  field : given.lookup "field" = some command.field
  type : given.lookup "type" = some command.type
  operation : given.lookup "operation" = command.operation?
  config : readIfGiven? given "config" fileName? = some command.config?
  abstractTypes : readIfGiven? given "abstract-types" handlingOfText? = some command.abstractTypes?
  dedup : (given.lookup "dedup").isSome = command.dedup
  format : givenFormat? given = some command.format

theorem PathsCommand.ofArguments?_eq_some_iff :
    PathsCommand.ofArguments? arguments = some command ↔
      ∃ given, Reads pathsOptions none [] arguments given [] ∧ command.MadeOf given := by
  have hgiven : ∀ given, commandOptions? pathsOptions arguments = some given ↔
      Reads pathsOptions none [] arguments given [] := fun given => by
    rw [← readOptions?_eq_some_iff, commandOptions?]
    split <;> simp_all
  unfold PathsCommand.ofArguments?
  simp only [Option.bind_eq_bind, Option.bind_eq_some_iff, hgiven]
  constructor
  · rintro ⟨given, hread, schema, hschema, query, hquery, field, hfield, type, htype, config?, hconfig,
      abstractTypes?, habstract, format, hformat, hcommand⟩
    obtain rfl := Option.some.inj hcommand
    exact ⟨given, hread, Option.bind_eq_some_iff.mpr hschema, Option.bind_eq_some_iff.mpr hquery, hfield,
      htype, rfl, hconfig, habstract, rfl, hformat⟩
  · rintro ⟨given, hread, h⟩
    refine ⟨given, hread, _, Option.bind_eq_some_iff.mp h.schema, _, Option.bind_eq_some_iff.mp h.query,
      _, h.field, _, h.type, _, h.config, _, h.abstractTypes, _, h.format, ?_⟩
    rw [h.operation, h.dedup]
    rfl

theorem Command.ofRest?_eq_paths_iff :
    Command.ofRest? arguments = some (.paths command) ↔
      ∃ rest, arguments = "paths" :: rest ∧ PathsCommand.ofArguments? rest = some command := by
  constructor
  · intro h
    unfold Command.ofRest? at h
    split at h
    · next rest =>
      obtain ⟨made, hmade, hcommand⟩ := Option.map_eq_some_iff.mp h
      obtain rfl := Command.paths.inj hcommand
      exact ⟨rest, rfl, hmade⟩
    · obtain ⟨made, -, hcommand⟩ := Option.map_eq_some_iff.mp h
      cases hcommand
    · cases h
  · rintro ⟨rest, rfl, hcommand⟩
    simp [Command.ofRest?, hcommand]

theorem Command.ofArguments_eq_paths_iff :
    Command.ofArguments arguments = .ok (.paths command) ↔
      ∃ given rest, Reads programOptions none [] arguments given ("paths" :: rest) ∧
        given.lookup "version" = none ∧ PathsCommand.ofArguments? rest = some command := by
  unfold Command.ofArguments
  simp only [← readOptions?_eq_some_iff]
  constructor
  · intro h
    cases hread : readOptions? programOptions none [] arguments with
    | none => simp [hread] at h
    | some read =>
      obtain ⟨given, last⟩ := read
      simp only [hread] at h
      split_ifs at h with hversion
      cases hcommand : Command.ofRest? last with
      | none => simp [hcommand] at h
      | some found =>
        obtain rfl : found = .paths command := by simpa [hcommand] using h
        obtain ⟨rest, rfl, hrest⟩ := Command.ofRest?_eq_paths_iff.mp hcommand
        exact ⟨given, rest, rfl, Option.not_isSome_iff_eq_none.mp hversion, hrest⟩
  · rintro ⟨given, rest, hread, hversion, hcommand⟩
    simp [hread, hversion, Command.ofRest?_eq_paths_iff.mpr ⟨rest, rfl, hcommand⟩]

theorem readIfGiven?_congr {α : Type} {name : String} (read? : String → Option α)
    (h : given.lookup name = plain.lookup name) :
    readIfGiven? given name read? = readIfGiven? plain name read? := by
  rw [readIfGiven?, readIfGiven?, h]

/-- Options that differ in two of them make commands that differ in these two. -/
theorem PathsCommand.MadeOf.replace (h : command.MadeOf given)
    (hothers : ∀ other, other ≠ "abstract-types" → other ≠ "dedup" → given.lookup other = plain.lookup other)
    {abstractTypes? : Option AbstractHandling} {dedup : Bool}
    (habstract : readIfGiven? plain "abstract-types" handlingOfText? = some abstractTypes?)
    (hdedup : (plain.lookup "dedup").isSome = dedup) :
    PathsCommand.MadeOf { command with abstractTypes?, dedup } plain where
  schema := by rw [← hothers "schema" (by decide) (by decide), h.schema]
  query := by rw [← hothers "query" (by decide) (by decide), h.query]
  field := by rw [← hothers "field" (by decide) (by decide), h.field]
  type := by rw [← hothers "type" (by decide) (by decide), h.type]
  operation := by rw [← hothers "operation" (by decide) (by decide), h.operation]
  config := by rw [← readIfGiven?_congr _ (hothers "config" (by decide) (by decide)), h.config]
  abstractTypes := habstract
  dedup := hdedup
  format := by
    rw [givenFormat?, ← readIfGiven?_congr _ (hothers "format" (by decide) (by decide)), ← givenFormat?,
      h.format]

/-- Arguments with a flag of the command for paths are still accepted without it. -/
theorem Command.ofArguments_without {name value : String} {flag : List String}
    (hflag : IsFlag pathsOptions name value flag)
    (hunknown : ∀ first ∈ flag.head?, Argument.ofText programOptions first = .unknown)
    (h : Command.ofArguments (front ++ flag ++ back) = .ok (.paths command)) :
    ∃ given plain, command.MadeOf given ∧ Adds name value given plain ∧ ∀ other : PathsCommand,
      other.MadeOf plain → Command.ofArguments (front ++ back) = .ok (.paths other) := by
  obtain ⟨program, rest, hprogram, hversion, hcommand⟩ := Command.ofArguments_eq_paths_iff.mp h
  obtain ⟨given, hread, hmade⟩ := PathsCommand.ofArguments?_eq_some_iff.mp hcommand
  obtain ⟨first, others, hfirst, hlooks⟩ := hflag.begins
  have hstop := hunknown first (by simp [hfirst])
  rw [hfirst, List.append_assoc, List.cons_append] at hprogram
  obtain ⟨middle, rfl, hother⟩ := hprogram.before hstop hlooks
  rw [← List.cons_append, ← hfirst, ← List.append_assoc] at hread
  obtain ⟨plain, hplain, hadds⟩ := hflag.remove (by decide) hread
  refine ⟨given, plain, hmade, hadds, fun other hother' => ?_⟩
  exact Command.ofArguments_eq_paths_iff.mpr ⟨program, _, hother back, hversion,
    PathsCommand.ofArguments?_eq_some_iff.mpr ⟨plain, hplain, hother'⟩⟩

theorem Command.without_dedup (front back : List String)
    (h : Command.ofArguments (front ++ ["--dedup"] ++ back) = .ok (.paths command)) :
    command.dedup = true ∧
      Command.ofArguments (front ++ back) = .ok (.paths { command with dedup := false }) := by
  obtain ⟨given, plain, hmade, hadds, hplain⟩ := Command.ofArguments_without isFlag_dedup (by decide) h
  have habstract := readIfGiven?_congr handlingOfText? (hadds.others "abstract-types" (by decide))
  refine ⟨?_, hplain _ (hmade.replace (fun other _ hother => hadds.others other hother)
    (habstract.symm.trans hmade.abstractTypes) ?_)⟩
  · rw [← hmade.dedup, hadds.here, Option.isSome_some]
  · rw [hadds.absent, Option.isSome_none]

theorem Command.without_abstractTypes (front back : List String) {text : String} {flag : List String}
    (hflag : flag ∈ abstractTypesFlags text)
    (h : Command.ofArguments (front ++ flag ++ back) = .ok (.paths command)) :
    (∃ handling, handlingOfText? text = some handling ∧ command.abstractTypes? = some handling) ∧
      Command.ofArguments (front ++ back) = .ok (.paths { command with abstractTypes? := none }) := by
  have hunknown : ∀ first ∈ flag.head?, Argument.ofText programOptions first = .unknown := by
    rcases List.mem_pair.mp hflag with rfl | rfl
    · have htext : Argument.ofText programOptions "--abstract-types" = .unknown := by decide
      simpa using htext
    · have hfind : programOptions.find? (·.name == "abstract-types") = none := by decide
      simpa using Argument.ofText_abstractTypes hfind text
  obtain ⟨given, plain, hmade, hadds, hplain⟩ :=
    Command.ofArguments_without (isFlag_abstractTypes hflag) hunknown h
  have hnone : readIfGiven? plain "abstract-types" handlingOfText? = some none := by
    rw [readIfGiven?, hadds.absent]
  refine ⟨?_, hplain _ (hmade.replace (fun other hother _ => hadds.others other hother) hnone ?_)⟩
  · have habstract := hmade.abstractTypes
    rw [readIfGiven?, hadds.here] at habstract
    obtain ⟨handling, hhandling, hcommand⟩ := Option.map_eq_some_iff.mp habstract
    exact ⟨handling, hhandling, hcommand.symm⟩
  · rw [← hadds.others "dedup" (by decide), hmade.dedup]

end Commands

end CommandLine

end QueryMask
