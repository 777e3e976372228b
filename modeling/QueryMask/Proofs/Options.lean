import QueryMask.CommandLine.Options
import Mathlib

/-! How options are read from arguments, and what is read from them without a flag. -/

namespace QueryMask

namespace CommandLine

/--
How options are read: behind those given so far, with an option that still waits for its value, some arguments
give all the options and leave the last arguments.
-/
inductive Reads (specs : List OptionSpec) :
    Option OptionSpec → Given → List String → Given → List String → Prop where
  | nil {given} : Reads specs none given [] given []
  | value {spec given text rest found last} (hplain : looksLikeOption text = false)
      (hrest : Reads specs none (given ++ [(spec.name, text)]) rest found last) :
      Reads specs (some spec) given (text :: rest) found last
  | positional {given text rest} (htext : Argument.ofText specs text = .positional) :
      Reads specs none given (text :: rest) given (text :: rest)
  | terminator {given text} (htext : Argument.ofText specs text = .terminator) :
      Reads specs none given [text] given []
  | attached {spec value given text rest found last}
      (htext : Argument.ofText specs text = .option spec (some value)) (hnew : given.lookup spec.name = none)
      (htakes : spec.takesValue = true)
      (hrest : Reads specs none (given ++ [(spec.name, value)]) rest found last) :
      Reads specs none given (text :: rest) found last
  | separate {spec given text rest found last}
      (htext : Argument.ofText specs text = .option spec none) (hnew : given.lookup spec.name = none)
      (htakes : spec.takesValue = true) (hrest : Reads specs (some spec) given rest found last) :
      Reads specs none given (text :: rest) found last
  | flag {spec given text rest found last}
      (htext : Argument.ofText specs text = .option spec none) (hnew : given.lookup spec.name = none)
      (htakes : spec.takesValue = false) (hfinal : spec.isFinal = false)
      (hrest : Reads specs none (given ++ [(spec.name, "")]) rest found last) :
      Reads specs none given (text :: rest) found last
  | final {spec given text rest}
      (htext : Argument.ofText specs text = .option spec none) (hnew : given.lookup spec.name = none)
      (htakes : spec.takesValue = false) (hfinal : spec.isFinal = true) :
      Reads specs none given (text :: rest) (given ++ [(spec.name, "")]) []

section Options

variable {specs : List OptionSpec} {name value : String} {given plain found rest : Given}

/-- The first options are the second ones and one more. -/
structure Adds (name value : String) (given plain : Given) : Prop where
  here : given.lookup name = some value
  absent : plain.lookup name = none
  others : ∀ other, other ≠ name → given.lookup other = plain.lookup other

theorem Adds.append (h : Adds name value given plain) {entry : String × String} (hne : entry.1 ≠ name) :
    Adds name value (given ++ [entry]) (plain ++ [entry]) where
  here := by rw [List.lookup_append, h.here, Option.some_or]
  absent := by
    rw [List.lookup_append, h.absent, Option.none_or]
    simp [hne.symm]
  others other hother := by rw [List.lookup_append, List.lookup_append, h.others other hother]

theorem Adds.concat (h : given.lookup name = none) (value : String) :
    Adds name value (given ++ [(name, value)]) given where
  here := by simp [List.lookup_append, h]
  absent := h
  others other hother := by simp [List.lookup_append, List.lookup_cons, beq_false_of_ne hother]

theorem readOptions?_eq_some_iff {pending? : Option OptionSpec} {arguments last : List String} :
    readOptions? specs pending? given arguments = some (found, last) ↔
      Reads specs pending? given arguments found last := by
  constructor
  · intro h
    induction arguments generalizing pending? given with
    | nil =>
      unfold readOptions? at h
      split_ifs at h with hpending
      obtain rfl : pending? = none := by simpa using hpending
      obtain ⟨rfl, rfl⟩ := Prod.mk.inj (Option.some.inj h)
      exact .nil
    | cons text rest ih =>
      unfold readOptions? at h
      cases pending? with
      | some spec =>
        dsimp only at h
        split_ifs at h with hplain
        exact .value (by simpa using hplain) (ih h)
      | none =>
        cases htext : Argument.ofText specs text with
        | unknown => simp [htext] at h
        | positional =>
          simp only [htext] at h
          obtain ⟨rfl, rfl⟩ := Prod.mk.inj (Option.some.inj h)
          exact .positional htext
        | terminator =>
          simp only [htext] at h
          split_ifs at h with hrest
          obtain rfl : rest = [] := by simpa using hrest
          obtain ⟨rfl, rfl⟩ := Prod.mk.inj (Option.some.inj h)
          exact .terminator htext
        | option spec attached? =>
          simp only [htext] at h
          by_cases hgiven : (given.lookup spec.name).isSome = true
          · simp [hgiven] at h
          have hnew := Option.not_isSome_iff_eq_none.mp hgiven
          rw [if_neg hgiven] at h
          cases htakes : spec.takesValue with
          | true =>
            cases attached? with
            | some value =>
              simp only [htakes] at h
              exact .attached htext hnew htakes (ih h)
            | none =>
              simp only [htakes] at h
              exact .separate htext hnew htakes (ih h)
          | false =>
            cases attached? with
            | some value => simp [htakes] at h
            | none =>
              simp only [htakes] at h
              split_ifs at h with hfinal
              · obtain ⟨rfl, rfl⟩ := Prod.mk.inj (Option.some.inj h)
                exact .final htext hnew htakes hfinal
              · exact .flag htext hnew htakes (by simpa using hfinal) (ih h)
  · intro h
    induction h with
    | nil => rfl
    | value hplain _ ih => simp [readOptions?, hplain, ih]
    | positional htext => simp [readOptions?, htext]
    | terminator htext => simp [readOptions?, htext]
    | attached htext hnew htakes _ ih => simp [readOptions?, htext, hnew, htakes, ih]
    | separate htext hnew htakes _ ih => simp [readOptions?, htext, hnew, htakes, ih]
    | flag htext hnew htakes hfinal _ ih => simp [readOptions?, htext, hnew, htakes, hfinal, ih]
    | final htext hnew htakes hfinal => simp [readOptions?, htext, hnew, htakes, hfinal]

/-- What is read behind one more option is read without it as well. -/
theorem Adds.read {pending? : Option OptionSpec} {arguments last : List String}
    (h : Adds name value given plain) (hpending : ∀ spec, pending? = some spec → spec.name ≠ name)
    (hread : Reads specs pending? given arguments found last) :
    ∃ others, Reads specs pending? plain arguments others last ∧ Adds name value found others := by
  have hne : ∀ {given plain : Given} {spec : OptionSpec}, Adds name value given plain →
      given.lookup spec.name = none → spec.name ≠ name := fun h hnew hname => by
    simp [hname, h.here] at hnew
  induction hread generalizing plain with
  | nil => exact ⟨plain, .nil, h⟩
  | value hplain _ ih =>
    obtain ⟨others, hothers, hadds⟩ := ih (h.append (hpending _ rfl)) nofun
    exact ⟨others, .value hplain hothers, hadds⟩
  | positional htext => exact ⟨plain, .positional htext, h⟩
  | terminator htext => exact ⟨plain, .terminator htext, h⟩
  | attached htext hnew htakes _ ih =>
    obtain ⟨others, hothers, hadds⟩ := ih (h.append (hne h hnew)) nofun
    exact ⟨others, .attached htext ((h.others _ (hne h hnew)).symm.trans hnew) htakes hothers, hadds⟩
  | separate htext hnew htakes _ ih =>
    obtain ⟨others, hothers, hadds⟩ := ih h fun spec hspec => Option.some.inj hspec ▸ hne h hnew
    exact ⟨others, .separate htext ((h.others _ (hne h hnew)).symm.trans hnew) htakes hothers, hadds⟩
  | flag htext hnew htakes hfinal _ ih =>
    obtain ⟨others, hothers, hadds⟩ := ih (h.append (hne h hnew)) nofun
    exact ⟨others, .flag htext ((h.others _ (hne h hnew)).symm.trans hnew) htakes hfinal hothers, hadds⟩
  | final htext hnew htakes hfinal =>
    exact ⟨_, .final htext ((h.others _ (hne h hnew)).symm.trans hnew) htakes hfinal, h.append (hne h hnew)⟩

/-- Arguments that, wherever they are read, give one option. No option takes the first one for its value. -/
structure IsFlag (specs : List OptionSpec) (name value : String) (flag : List String) : Prop where
  begins : ∃ first others, flag = first :: others ∧ looksLikeOption first = true
  gives : ∀ {given back found last}, Reads specs none given (flag ++ back) found last →
    given.lookup name = none ∧ Reads specs none (given ++ [(name, value)]) back found last

theorem Argument.mem_of_ofText {text : String} {spec : OptionSpec} {attached? : Option String}
    (h : Argument.ofText specs text = .option spec attached?) : spec ∈ specs := by
  simp only [Argument.ofText] at h
  split at h
  case h_1 => cases h
  case h_4 => cases h
  all_goals
    split at h
    case h_2 => cases h
    case h_1 found hfind =>
      obtain ⟨rfl, -⟩ := Argument.option.inj h
      exact List.mem_of_find?_eq_some hfind

theorem IsFlag.switch {text : String} {spec : OptionSpec} (hlooks : looksLikeOption text = true)
    (htext : Argument.ofText specs text = .option spec none) (htakes : spec.takesValue = false)
    (hfinal : spec.isFinal = false) : IsFlag specs spec.name "" [text] where
  begins := ⟨text, [], rfl, hlooks⟩
  gives h := by
    rw [List.singleton_append] at h
    cases h with
    | positional hother => cases htext.symm.trans hother
    | terminator hother => cases htext.symm.trans hother
    | attached hother => cases htext.symm.trans hother
    | separate hother _ hvalue =>
      obtain ⟨rfl, -⟩ := Argument.option.inj (htext.symm.trans hother)
      cases htakes.symm.trans hvalue
    | flag hother hnew _ _ hrest =>
      obtain ⟨rfl, -⟩ := Argument.option.inj (htext.symm.trans hother)
      exact ⟨hnew, hrest⟩
    | final hother _ _ hends =>
      obtain ⟨rfl, -⟩ := Argument.option.inj (htext.symm.trans hother)
      cases hfinal.symm.trans hends

theorem IsFlag.attached {text : String} {spec : OptionSpec} (hlooks : looksLikeOption text = true)
    (htext : Argument.ofText specs text = .option spec (some value)) : IsFlag specs spec.name value [text] where
  begins := ⟨text, [], rfl, hlooks⟩
  gives h := by
    rw [List.singleton_append] at h
    cases h with
    | positional hother => cases htext.symm.trans hother
    | terminator hother => cases htext.symm.trans hother
    | attached hother hnew _ hrest =>
      obtain ⟨rfl, hvalue⟩ := Argument.option.inj (htext.symm.trans hother)
      obtain rfl := Option.some.inj hvalue
      exact ⟨hnew, hrest⟩
    | separate hother => cases htext.symm.trans hother
    | flag hother => cases htext.symm.trans hother
    | final hother => cases htext.symm.trans hother

theorem IsFlag.separate {text : String} {spec : OptionSpec} (hlooks : looksLikeOption text = true)
    (htext : Argument.ofText specs text = .option spec none) (htakes : spec.takesValue = true)
    (value : String) : IsFlag specs spec.name value [text, value] where
  begins := ⟨text, [value], rfl, hlooks⟩
  gives h := by
    rw [List.cons_append, List.singleton_append] at h
    cases h with
    | positional hother => cases htext.symm.trans hother
    | attached hother => cases htext.symm.trans hother
    | separate hother hnew _ hrest =>
      obtain ⟨rfl, -⟩ := Argument.option.inj (htext.symm.trans hother)
      cases hrest with
      | value _ hrest => exact ⟨hnew, hrest⟩
    | flag hother _ hvalue =>
      obtain ⟨rfl, -⟩ := Argument.option.inj (htext.symm.trans hother)
      cases htakes.symm.trans hvalue
    | final hother _ hvalue =>
      obtain ⟨rfl, -⟩ := Argument.option.inj (htext.symm.trans hother)
      cases htakes.symm.trans hvalue

/-- Arguments that are read to their end are still read without a flag, which takes away what it gives. -/
theorem IsFlag.remove {flag front back : List String} (hflag : IsFlag specs name value flag)
    (hfinals : ∀ spec ∈ specs, spec.isFinal = false) {pending? : Option OptionSpec}
    (hread : Reads specs pending? given (front ++ flag ++ back) found []) :
    ∃ others, Reads specs pending? given (front ++ back) others [] ∧ Adds name value found others := by
  obtain ⟨first, others, rfl, hlooks⟩ := hflag.begins
  induction front generalizing pending? given with
  | nil =>
    cases pending? with
    | some spec =>
      rw [List.nil_append, List.cons_append] at hread
      cases hread with
      | value hplain => cases hlooks.symm.trans hplain
    | none =>
      obtain ⟨hnew, hread⟩ := hflag.gives hread
      exact (Adds.concat hnew value).read nofun hread
  | cons text front ih =>
    rw [List.cons_append, List.cons_append] at hread
    rw [List.cons_append]
    generalize hall : front ++ first :: others ++ back = all at hread
    cases hread with
    | value hplain hrest =>
      obtain ⟨others, hothers, hadds⟩ := ih (hall ▸ hrest)
      exact ⟨others, .value hplain hothers, hadds⟩
    | terminator => simp at hall
    | attached htext hnew htakes hrest =>
      obtain ⟨others, hothers, hadds⟩ := ih (hall ▸ hrest)
      exact ⟨others, .attached htext hnew htakes hothers, hadds⟩
    | separate htext hnew htakes hrest =>
      obtain ⟨others, hothers, hadds⟩ := ih (hall ▸ hrest)
      exact ⟨others, .separate htext hnew htakes hothers, hadds⟩
    | flag htext hnew htakes hfinal hrest =>
      obtain ⟨others, hothers, hadds⟩ := ih (hall ▸ hrest)
      exact ⟨others, .flag htext hnew htakes hfinal hothers, hadds⟩
    | final htext _ _ hfinal =>
      rw [hfinals _ (Argument.mem_of_ofText htext)] at hfinal
      cases hfinal

/-- Reading that leaves arguments does not get to an argument that is no option, nor a value. -/
theorem Reads.before {front rest : List String} {stop word : String} {tail : List String}
    (hunknown : Argument.ofText specs stop = .unknown) (hlooks : looksLikeOption stop = true)
    {pending? : Option OptionSpec}
    (hread : Reads specs pending? given (front ++ stop :: tail) found (word :: rest)) :
    ∃ middle, rest = middle ++ stop :: tail ∧
      ∀ other, Reads specs pending? given (front ++ other) found (word :: middle ++ other) := by
  induction front generalizing pending? given with
  | nil =>
    rw [List.nil_append] at hread
    cases hread <;> simp_all
  | cons text front ih =>
    rw [List.cons_append] at hread
    generalize hall : front ++ stop :: tail = all at hread
    cases hread with
    | value hplain hrest =>
      obtain ⟨middle, hmiddle, hother⟩ := ih (hall ▸ hrest)
      exact ⟨middle, hmiddle, fun other => .value hplain (hother other)⟩
    | positional htext => exact ⟨front, hall.symm, fun other => .positional htext⟩
    | attached htext hnew htakes hrest =>
      obtain ⟨middle, hmiddle, hother⟩ := ih (hall ▸ hrest)
      exact ⟨middle, hmiddle, fun other => .attached htext hnew htakes (hother other)⟩
    | separate htext hnew htakes hrest =>
      obtain ⟨middle, hmiddle, hother⟩ := ih (hall ▸ hrest)
      exact ⟨middle, hmiddle, fun other => .separate htext hnew htakes (hother other)⟩
    | flag htext hnew htakes hfinal hrest =>
      obtain ⟨middle, hmiddle, hother⟩ := ih (hall ▸ hrest)
      exact ⟨middle, hmiddle, fun other => .flag htext hnew htakes hfinal (hother other)⟩

end Options

end CommandLine

end QueryMask
