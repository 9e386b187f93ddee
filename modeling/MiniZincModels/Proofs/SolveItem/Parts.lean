import MiniZincModels.Proofs.Model.Building
import MiniZincModels.Proofs.SolveItem.Search

/-!
# The parts of a search

A branching is checked when it is created, and so is a sequence that goes through
`Search.inSequence`.  A sequence can also be formed without any check, and a model takes
every search as it is.  So in a search that a program has given to a model all branchings
are well-formed, however deep they stand, and an empty sequence is the only part that may
not be.
-/

namespace MiniZincModels

/-- The branching has variables, all of its own kind.  Sets are tried from one of their
ends, and the domains of floats are split. -/
structure Branching.IsWellFormed (single : Branching) : Prop where
  vars : single.vars ≠ []
  kinds : ∀ declared ∈ single.vars, declared.kind = single.sort.kind
  setChoice : single.sort = .set →
    single.valueChoice = .indomainMin ∨ single.valueChoice = .indomainMax
  floatChoice : ∀ precision, single.sort = .float precision →
    single.valueChoice = .indomainSplit ∨ single.valueChoice = .indomainReverseSplit

theorem Branching.isWellFormed_of_create {sort : SearchKind} {vars : List Variable}
    {variableChoice : VariableChoice} {valueChoice : ValueChoice} {single : Branching}
    (hcreated : create sort vars variableChoice valueChoice = .ok single) :
    single.IsWellFormed := by
  obtain ⟨⟨-, hvars, hkinds, hsuits⟩, rfl⟩ := create_eq_ok.mp hcreated
  refine ⟨hvars, hkinds, ?_, ?_⟩
  · rintro rfl
    simpa [ValueChoice.suits, SearchKind.kind] using hsuits
  · rintro precision rfl
    simpa [ValueChoice.suits, SearchKind.kind] using hsuits

namespace Search

mutual

/-- The search itself and all searches inside it. -/
def parts : Search → List Search
  | branching single => [branching single]
  | sequence searches => sequence searches :: allParts searches

def allParts : List Search → List Search
  | [] => []
  | first :: rest => first.parts ++ allParts rest

end

theorem allParts_eq_flatMap (searches : List Search) :
    allParts searches = searches.flatMap parts := by
  induction searches with
  | nil => rfl
  | cons first rest ih => rw [allParts, ih, List.flatMap_cons]

theorem mem_parts_sequence {searches : List Search} {part : Search} :
    part ∈ (sequence searches).parts ↔
      part = sequence searches ∨ ∃ search ∈ searches, part ∈ search.parts := by
  rw [parts, allParts_eq_flatMap, List.mem_cons, List.mem_flatMap]

/-- Well-formed as it stands: a sequence has to hold a search. -/
def HasForm : Search → Prop
  | branching single => single.IsWellFormed
  | sequence searches => searches ≠ []

/-- Well-formed at every depth. -/
def IsWellFormed (search : Search) : Prop :=
  ∀ part ∈ search.parts, part.HasForm

section Built

variable {vocabulary : Vocabulary} {search : Search}

/-- Whatever is built is built of built parts. -/
theorem BuiltFrom.of_mem_parts (hbuilt : search.BuiltFrom vocabulary) {part : Search}
    (hpart : part ∈ search.parts) : part.BuiltFrom vocabulary := by
  induction hbuilt with
  | branching hvars hcreated =>
    obtain rfl := List.mem_singleton.mp hpart
    exact .branching hvars hcreated
  | sequence hsearches ih =>
    rcases mem_parts_sequence.mp hpart with rfl | ⟨inner, hinner, hpart⟩
    · exact .sequence hsearches
    · exact ih inner hinner hpart

theorem BuiltFrom.branching_isWellFormed (hbuilt : search.BuiltFrom vocabulary)
    {single : Branching} (hpart : Search.branching single ∈ search.parts) :
    single.IsWellFormed := by
  cases hbuilt.of_mem_parts hpart with
  | branching hvars hcreated => exact Branching.isWellFormed_of_create hcreated

theorem BuiltFrom.isWellFormed_iff (hbuilt : search.BuiltFrom vocabulary) :
    search.IsWellFormed ↔ Search.sequence [] ∉ search.parts := by
  constructor
  · intro h hempty
    exact h (Search.sequence []) hempty rfl
  · intro hempty part hpart
    cases part with
    | branching single => exact hbuilt.branching_isWellFormed hpart
    | sequence searches =>
      rintro rfl
      exact hempty hpart

end Built

end Search

namespace Model

variable {vocabulary : Vocabulary} {model : Model}

/-- The searches which a step gives to the model are formed from variables of the vocabulary. -/
def SearchesBuiltFrom (vocabulary : Vocabulary) : Step → Prop
  | .operation (.setSearch search) => search.BuiltFrom vocabulary
  | _ => True

/-- The search of the model is formed from variables of the vocabulary. -/
def HasBuiltSearch (vocabulary : Vocabulary) (model : Model) : Prop :=
  ∀ search ∈ model.search, search.BuiltFrom vocabulary

theorem hasBuiltSearch_empty : HasBuiltSearch vocabulary empty := by
  rintro search ⟨⟩

theorem HasBuiltSearch.effect {after : Model} {step : Step}
    (h : HasBuiltSearch vocabulary model) (hallowed : SearchesBuiltFrom vocabulary step)
    (heffect : Effect model step after) : HasBuiltSearch vocabulary after := by
  cases heffect with
  | setSearch search =>
    rintro given ⟨⟩
    exact hallowed
  | _ => exact h

theorem ReachableBy.hasBuiltSearch
    (reached : ReachableBy (fun _ step => SearchesBuiltFrom vocabulary step) model) :
    HasBuiltSearch vocabulary model :=
  reached.invariant hasBuiltSearch_empty fun _ _ _ h hallowed heffect => h.effect hallowed heffect

/-- In the search of a model every branching at every depth is well-formed, whatever searches
the program has formed.  The whole search is well-formed exactly if no sequence in it is
empty. -/
theorem stored_search_wellFormed_iff
    (reached : ReachableBy (fun _ step => SearchesBuiltFrom vocabulary step) model) :
    ∀ search ∈ model.search,
      (∀ single, .branching single ∈ search.parts → single.IsWellFormed) ∧
      (search.IsWellFormed ↔ .sequence [] ∉ search.parts) := by
  intro search hsearch
  have hbuilt := reached.hasBuiltSearch search hsearch
  exact ⟨fun single => hbuilt.branching_isWellFormed, hbuilt.isWellFormed_iff⟩

/-- A set search inside two sequences. -/
theorem search_wellFormed_of_nested_sequences :
    let chosen : Variable := ⟨"s", .intSet (.interval 1 5)⟩
    let single : Branching := ⟨.set, [chosen], .firstFail, .indomainMax⟩
    let search := Search.sequence [.sequence [.branching single]]
    let model := empty.run [.setSearch search]
    ReachableBy (fun _ step => SearchesBuiltFrom Vocabulary.withoutRaw step) model ∧
      search ∈ model.search ∧ search.IsWellFormed := by
  intro chosen single search model
  have hchosen : Vocabulary.withoutRaw.HasVariable chosen :=
    Vocabulary.hasVariable_withoutRaw.mpr (by decide)
  have hcreated : Branching.create .set [chosen] .firstFail .indomainMax = .ok single := rfl
  have hsingle : Search.BuiltFrom Vocabulary.withoutRaw (.branching single) :=
    .branching (List.forall_mem_singleton.mpr hchosen) hcreated
  have hsearch : search.BuiltFrom Vocabulary.withoutRaw :=
    .sequence (List.forall_mem_singleton.mpr (.sequence (List.forall_mem_singleton.mpr hsingle)))
  have hreached : ReachableBy (fun _ step => SearchesBuiltFrom Vocabulary.withoutRaw step) model :=
    ReachableBy.run .empty (List.forall_mem_singleton.mpr fun _ => hsearch)
  have hstored : search ∈ model.search := rfl
  refine ⟨hreached, hstored, (stored_search_wellFormed_iff hreached search hstored).2.mpr ?_⟩
  simp [search, Search.parts, Search.allParts]

/-- A sequence without searches is taken up inside another one and gets into the text. -/
theorem empty_sequence_reaches_text :
    let search := Search.sequence [.sequence []]
    let model := empty.run [.setSearch search, .satisfy]
    ReachableBy (fun _ step => SearchesBuiltFrom Vocabulary.withoutRaw step) model ∧
      search ∈ model.search ∧ ¬ search.IsWellFormed ∧
      model.render = .ok "solve :: seq_search([seq_search([])]) satisfy;\n" := by
  intro search model
  have hsearch : search.BuiltFrom Vocabulary.withoutRaw :=
    .sequence (List.forall_mem_singleton.mpr (.sequence (List.forall_mem_nil _)))
  have hempty : Search.sequence [] ∈ search.parts := by
    simp [search, Search.parts, Search.allParts]
  refine ⟨ReachableBy.run .empty ?_, rfl, fun h => h _ hempty rfl, ?_⟩
  · exact List.forall_mem_cons.mpr
      ⟨fun _ => hsearch, List.forall_mem_singleton.mpr fun _ => trivial⟩
  · have hobjective : model.objective = some ⟨.satisfy, none⟩ := rfl
    rw [render, hobjective]
    exact congrArg Except.ok (by decide +kernel)

end Model

end MiniZincModels
