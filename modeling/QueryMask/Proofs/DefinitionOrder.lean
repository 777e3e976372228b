import QueryMask.Mask.Naming
import QueryMask.Proofs.DeclaredTypes
import QueryMask.Proofs.Reordering
import Mathlib

/-! The order of the definitions of a schema: it only shows in the order of possible types and of paths. -/

namespace QueryMask

section Permutations

variable {α β : Type}

/-- Parts come in the same order when at most one of them has items. -/
theorem flatMap_eq_of_perm {f : α → List β} {items others : List α} (hperm : items.Perm others)
    (hapart : items.Pairwise fun item other => f item = [] ∨ f other = []) :
    items.flatMap f = others.flatMap f := by
  have hsymm : ∀ {item other : α}, f item = [] ∨ f other = [] → f other = [] ∨ f item = [] := Or.symm
  induction hperm with
  | nil => rfl
  | cons item _ ih =>
    rw [List.flatMap_cons, List.flatMap_cons, ih (List.pairwise_cons.mp hapart).2]
  | swap first second rest =>
    have hfirst := (List.pairwise_cons.mp hapart).1 first List.mem_cons_self
    rcases hfirst with hnone | hnone <;> simp [hnone]
  | trans hleft _ ihleft ihright =>
    rw [ihleft hapart, ihright ((hleft.pairwise_iff hsymm).mp hapart)]

theorem perm_eraseDups [BEq α] [LawfulBEq α] {items others : List α} (hperm : items.Perm others) :
    items.eraseDups.Perm others.eraseDups := by
  refine (List.perm_ext_iff_of_nodup (nodup_eraseDups items) (nodup_eraseDups others)).mpr fun item => ?_
  rw [List.mem_eraseDups, List.mem_eraseDups, hperm.mem_iff]

end Permutations

namespace Schema

/-- Definitions and extensions that agree on the kind of a name and declare different fields for it. -/
structure Consistent (definitions : List SchemaDefinition) : Prop where
  one_kind : ∀ name, ∀ body ∈ bodiesOf definitions name, ∀ other ∈ bodiesOf definitions name,
    body.kind = other.kind
  fields_apart : ∀ name, (bodiesOf definitions name).Pairwise fun body other =>
    ∀ field ∈ body.fields, ∀ later ∈ other.fields, field.name ≠ later.name

theorem bodiesOf_eq_nil {definitions : List SchemaDefinition} {name : Name}
    (h : name ∉ typeNames definitions) : bodiesOf definitions name = [] := by
  refine List.eq_nil_iff_forall_not_mem.mpr fun body hbody => ?_
  obtain ⟨definition, hmem, rfl, -⟩ := mem_bodiesOf_iff.mp hbody
  exact h (List.mem_filterMap.mpr ⟨_, hmem, rfl⟩)

/-- Only the names of the definitions need to be looked at. -/
theorem consistent_iff {definitions : List SchemaDefinition} :
    Consistent definitions ↔ ∀ name ∈ typeNames definitions,
      (∀ body ∈ bodiesOf definitions name, ∀ other ∈ bodiesOf definitions name,
        body.kind = other.kind) ∧
      (bodiesOf definitions name).Pairwise fun body other =>
        ∀ field ∈ body.fields, ∀ later ∈ other.fields, field.name ≠ later.name := by
  constructor
  · exact fun h name _ => ⟨h.one_kind name, h.fields_apart name⟩
  · intro h
    refine ⟨fun name => ?_, fun name => ?_⟩ <;> by_cases hname : name ∈ typeNames definitions
    · exact (h name hname).1
    · simp [bodiesOf_eq_nil hname]
    · exact (h name hname).2
    · simp [bodiesOf_eq_nil hname]

instance (definitions : List SchemaDefinition) : Decidable (Consistent definitions) :=
  decidable_of_iff _ consistent_iff.symm

section Order

variable {definitions others : List SchemaDefinition}

theorem perm_bodiesOf (hperm : definitions.Perm others) (name : Name) :
    (bodiesOf definitions name).Perm (bodiesOf others name) :=
  hperm.filterMap _

theorem kind?_eq_of_perm (hperm : definitions.Perm others) (hconsistent : Consistent definitions)
    (name : Name) : (ofDefinitions definitions).kind? name = (ofDefinitions others).kind? name := by
  have hbodies := perm_bodiesOf hperm name
  have hkinds := hconsistent.one_kind name
  have hfirst : (bodiesOf definitions name).head?.map TypeBody.kind =
      (bodiesOf others name).head?.map TypeBody.kind := by
    cases hleft : bodiesOf definitions name with
    | nil =>
      rw [hleft] at hbodies
      rw [hbodies.nil_eq]
    | cons first rest =>
      cases hright : bodiesOf others name with
      | nil =>
        rw [hleft, hright] at hbodies
        exact absurd hbodies.eq_nil (List.cons_ne_nil _ _)
      | cons first' rest' =>
        have hmem : first' ∈ bodiesOf definitions name :=
          hbodies.mem_iff.mpr (hright ▸ List.mem_cons_self)
        have hmem' : first ∈ bodiesOf definitions name := hleft ▸ List.mem_cons_self
        exact congrArg some (hkinds first hmem' first' hmem)
  rw [kind?_ofDefinitions, kind?_ofDefinitions, hfirst]

theorem field?_eq_of_perm (hperm : definitions.Perm others) (hconsistent : Consistent definitions)
    (type field : Name) :
    (ofDefinitions definitions).field? type field = (ofDefinitions others).field? type field := by
  have hapart : (bodiesOf definitions type).Pairwise fun body other =>
      body.fields.filter (·.name == field) = [] ∨ other.fields.filter (·.name == field) = [] := by
    refine (hconsistent.fields_apart type).imp fun {body other} hdiffer => ?_
    by_contra hboth
    obtain ⟨hbody, hother⟩ := not_or.mp hboth
    obtain ⟨first, hfirst⟩ := List.exists_mem_of_ne_nil _ hbody
    obtain ⟨second, hsecond⟩ := List.exists_mem_of_ne_nil _ hother
    rw [List.mem_filter, beq_iff_eq] at hfirst hsecond
    exact hdiffer first hfirst.1 second hsecond.1 (hfirst.2.trans hsecond.2.symm)
  rw [field?_ofDefinitions, field?_ofDefinitions, List.filter_flatMap, List.filter_flatMap,
    flatMap_eq_of_perm (perm_bodiesOf hperm type) hapart]

theorem perm_objectTypes (hperm : definitions.Perm others) (hconsistent : Consistent definitions) :
    (ofDefinitions definitions).objectTypes.Perm (ofDefinitions others).objectTypes := by
  have hnames : (typeNames definitions).Perm (typeNames others) := hperm.filterMap _
  rw [objectTypes_ofDefinitions, objectTypes_ofDefinitions]
  simp only [kind?_eq_of_perm hperm hconsistent]
  exact (perm_eraseDups hnames).filter _

theorem perm_possibleTypes (hperm : definitions.Perm others) (hconsistent : Consistent definitions)
    (name : Name) :
    ((ofDefinitions definitions).possibleTypes name).Perm ((ofDefinitions others).possibleTypes name) := by
  have hkinds := kind?_eq_of_perm hperm hconsistent
  have hbodies := perm_bodiesOf hperm
  cases hkind : (ofDefinitions definitions).kind? name with
  | none =>
    have hother : (ofDefinitions others).kind? name = none := hkinds name ▸ hkind
    rw [possibleTypes_of_other (by rw [hkind]; rfl), possibleTypes_of_other (by rw [hother]; rfl)]
  | some kind =>
    have hother : (ofDefinitions others).kind? name = some kind := hkinds name ▸ hkind
    cases kind with
    | union =>
      rw [possibleTypes_of_union hkind, possibleTypes_of_union hother]
      simp only [hkinds]
      exact ((hbodies name).flatMap_right _).filter _
    | interface =>
      have hnames : (typeNames definitions).Perm (typeNames others) := hperm.filterMap _
      rw [possibleTypes_of_interface hkind, possibleTypes_of_interface hother]
      simp only [hkinds, (hbodies _).mem_iff]
      exact (perm_eraseDups hnames).filter _
    | object | leaf | inputObject =>
      rw [possibleTypes_of_other (by rw [hkind]; rfl), possibleTypes_of_other (by rw [hother]; rfl)]

theorem reordered_of_perm (hperm : definitions.Perm others) (hconsistent : Consistent definitions) :
    (ofDefinitions definitions).typeSystem.Reordered (ofDefinitions others).typeSystem where
  kind := kind?_eq_of_perm hperm hconsistent
  field := field?_eq_of_perm hperm hconsistent
  possible := perm_possibleTypes hperm hconsistent
  objects := perm_objectTypes hperm hconsistent

end Order

/--
The order of definitions and extensions does not matter: all lookups give the same answers, types are
listed in another order, and so are the paths. Without expansion the paths, or the error, are the same.
-/
theorem answers_of_perm {definitions others : List SchemaDefinition} (hperm : definitions.Perm others)
    (hconsistent : Consistent definitions) :
    (∀ name, (ofDefinitions definitions).typeSystem.kind? name =
      (ofDefinitions others).typeSystem.kind? name) ∧
    (∀ type field, (ofDefinitions definitions).typeSystem.field? type field =
      (ofDefinitions others).typeSystem.field? type field) ∧
    (∀ abstract object, (ofDefinitions definitions).typeSystem.isPossible abstract object =
      (ofDefinitions others).typeSystem.isPossible abstract object) ∧
    (∀ condition object, (ofDefinitions definitions).typeSystem.satisfies condition object =
      (ofDefinitions others).typeSystem.satisfies condition object) ∧
    (ofDefinitions definitions).objectTypes.Perm (ofDefinitions others).objectTypes ∧
    (∀ name, ((ofDefinitions definitions).possibleTypes name).Perm
      ((ofDefinitions others).possibleTypes name)) ∧
    ∀ (fragments : Fragments) (selections : SelectionSet) (type : Name) (naming? : Option FieldNaming),
      (∀ naming ∈ naming?, naming.IgnoresSystem) →
      selectedPaths (ofDefinitions definitions).typeSystem fragments (.perType naming? none) selections
          type =
        selectedPaths (ofDefinitions others).typeSystem fragments (.perType naming? none) selections
          type ∧
      ∀ discriminator : Name → Option String,
        ((∃ paths, selectedPaths (ofDefinitions definitions).typeSystem fragments
            (.perType naming? (some discriminator)) selections type = .ok paths) ↔
          ∃ paths, selectedPaths (ofDefinitions others).typeSystem fragments
            (.perType naming? (some discriminator)) selections type = .ok paths) ∧
        ∀ paths found,
          selectedPaths (ofDefinitions definitions).typeSystem fragments
            (.perType naming? (some discriminator)) selections type = .ok paths →
          selectedPaths (ofDefinitions others).typeSystem fragments
            (.perType naming? (some discriminator)) selections type = .ok found →
          paths.Perm found := by
  have hreordered := reordered_of_perm hperm hconsistent
  refine ⟨hreordered.kind, hreordered.field, hreordered.isPossible_eq, hreordered.satisfies_eq,
    hreordered.objects, hreordered.possible, ?_⟩
  intro fragments selections type naming? hnaming
  refine ⟨hreordered.selectedPaths_unexpanded hnaming selections type, fun discriminator => ⟨?_, ?_⟩⟩
  · constructor
    · rintro ⟨paths, hpaths⟩
      obtain ⟨found, hfound, -⟩ := hreordered.exists_selectedPaths hnaming hpaths
      exact ⟨found, hfound⟩
    · rintro ⟨found, hfound⟩
      obtain ⟨paths, hpaths, -⟩ := hreordered.symm.exists_selectedPaths hnaming hfound
      exact ⟨paths, hpaths⟩
  · intro paths found hpaths hfound
    obtain ⟨results, hresults, hsame⟩ := hreordered.exists_selectedPaths hnaming hpaths
    rw [hfound] at hresults
    obtain rfl := Except.ok.inj hresults
    exact hsame

end Schema

namespace FieldNaming

theorem byDirective_ignoresSystem (directive : Name) : (byDirective directive).IgnoresSystem :=
  fun _ _ _ _ => rfl

end FieldNaming

namespace Pets

def ageOfCats : SchemaDefinition := .type ⟨true, none, "Cat", [], .object [] [fieldOf "age" "Int"]⟩

theorem paths_of_perm :
    (definitions ++ [ageOfCats]).Perm (ageOfCats :: definitions) ∧
      Schema.Consistent (definitions ++ [ageOfCats]) ∧
      (FieldNaming.byDirective "fieldMask").IgnoresSystem ∧
      selectedPaths (Schema.ofDefinitions (definitions ++ [ageOfCats])).typeSystem fragments
          (.perType (some (.byDirective "fieldMask")) (some some)) selections "Owner" =
        .ok ["id", "pet.Dog.name", "pet.Dog.breed", "pet.Cat.name"] ∧
      selectedPaths (Schema.ofDefinitions (ageOfCats :: definitions)).typeSystem fragments
          (.perType (some (.byDirective "fieldMask")) (some some)) selections "Owner" =
        .ok ["id", "pet.Cat.name", "pet.Dog.name", "pet.Dog.breed"] ∧
      List.Perm ["id", "pet.Dog.name", "pet.Dog.breed", "pet.Cat.name"]
        ["id", "pet.Cat.name", "pet.Dog.name", "pet.Dog.breed"] := by
  have hperm : (definitions ++ [ageOfCats]).Perm (ageOfCats :: definitions) :=
    List.perm_append_singleton _ _
  have hconsistent : Schema.Consistent (definitions ++ [ageOfCats]) := by decide
  have hnaming := FieldNaming.byDirective_ignoresSystem "fieldMask"
  have hpaths : selectedPaths (Schema.ofDefinitions (definitions ++ [ageOfCats])).typeSystem fragments
      (.perType (some (.byDirective "fieldMask")) (some some)) selections "Owner" =
        .ok ["id", "pet.Dog.name", "pet.Dog.breed", "pet.Cat.name"] := by cbv
  have hfound : selectedPaths (Schema.ofDefinitions (ageOfCats :: definitions)).typeSystem fragments
      (.perType (some (.byDirective "fieldMask")) (some some)) selections "Owner" =
        .ok ["id", "pet.Cat.name", "pet.Dog.name", "pet.Dog.breed"] := by cbv
  obtain ⟨-, -, -, -, -, -, hruns⟩ := Schema.answers_of_perm hperm hconsistent
  have hpolicy := (hruns fragments selections "Owner" (some (.byDirective "fieldMask"))
    (by simpa using hnaming)).2 some
  exact ⟨hperm, hconsistent, hnaming, hpaths, hfound, hpolicy.2 _ _ hpaths hfound⟩

end Pets

end QueryMask
