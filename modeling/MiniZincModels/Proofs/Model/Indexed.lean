import Mathlib.Data.List.Nodup
import MiniZincModels.Proofs.Declaration.Collection
import MiniZincModels.Proofs.Declaration.IndexKey
import MiniZincModels.Proofs.Model.Scope

/-!
# Collections of variables in a model

Variables for keys are declared together or not at all.  They are declared exactly if the base is
valid, each definition has a domain, and the names of the keys are new and pairwise different.
Then each key has a variable of its own: a key that is given twice, or two keys with one name, are
refused before anything is replaced.
-/

namespace MiniZincModels

theorem Variable.define_eq_ok {name : String} {definition : Definition} {declared : Variable} :
    Variable.define name definition = .ok declared ↔
      declared.name = name ∧ definition.resolve = .ok declared.domain := by
  obtain ⟨declaredName, domain⟩ := declared
  rw [Variable.define]
  cases definition.resolve with
  | ok resolved => simp [eq_comm]
  | error fault => simp

namespace Model

variable {model : Model} {base name : String} {definitions : List (IndexKey × Definition)}

/-! ## Defining the variables -/

/-- The names for the keys. -/
def indexedNames (base : String) (definitions : List (IndexKey × Definition)) : List String :=
  definitions.map fun asked => asked.1.variableName base

/-- An entry holds the variable which a key and a definition ask for. -/
structure Stores (base : String) (asked : IndexKey × Definition) (entry : IndexKey × Variable) :
    Prop where
  key : entry.1 = asked.1
  name : entry.2.name = asked.1.variableName base
  domain : asked.2.resolve = .ok entry.2.domain

theorem defineIndexed_eq_ok_iff (hbase : Identifier.isValid base = true) {taken : List String}
    {key : IndexKey} {definition : Definition} {declared : Variable} :
    model.defineIndexed base taken key definition = .ok declared ↔
      key.variableName base ∉ model.identifiers ∧ key.variableName base ∉ taken ∧
        Stores base (key, definition) (key, declared) := by
  have hcheck : ∀ passed, model.checkIdentifier (key.variableName base) = .ok passed ↔
      key.variableName base ∉ model.identifiers ∧ passed = () := by
    intro passed
    rw [checkIdentifier_eq_ok, IndexKey.isValid_variableName hbase]
    simp
  rw [defineIndexed, Outcome.check_bind_eq_ok hcheck]
  by_cases htaken : key.variableName base ∈ taken
  · simp [htaken]
  · simp only [List.contains_iff_mem, htaken, if_false, Variable.define_eq_ok, true_and,
      not_false_eq_true]
    exact and_congr_right fun _ => ⟨fun h => ⟨rfl, h.1, h.2⟩, fun h => ⟨h.name, h.domain⟩⟩

/-- Definitions are accepted exactly if each has a domain and the names are new; then the variables
are added in the order of the keys. -/
theorem defineAll_eq_ok_iff (hbase : Identifier.isValid base = true)
    {collection result : Collection} (hfresh : FreshNames model base collection) :
    model.defineAll base definitions collection = .ok result ↔
      (∃ added, List.Forall₂ (Stores base) definitions added ∧
        result = collection.insertAll added) ∧
      (collection.vars.map Variable.name ++ indexedNames base definitions).Nodup ∧
      ∀ name ∈ indexedNames base definitions, name ∉ model.identifiers := by
  induction definitions generalizing collection with
  | nil =>
    simp [defineAll, indexedNames, hfresh.nodup, Collection.insertAll, eq_comm]
  | cons first rest ih =>
    obtain ⟨key, definition⟩ := first
    have hnames : indexedNames base ((key, definition) :: rest) =
        key.variableName base :: indexedNames base rest := rfl
    rw [hnames, List.forall_mem_cons]
    constructor
    · intro h
      obtain ⟨declared, hfirst, hrest⟩ := Outcome.bind_eq_ok.mp h
      obtain ⟨hfree, -, hstores⟩ := (defineIndexed_eq_ok_iff hbase).mp hfirst
      obtain ⟨⟨added, hadded, hresult⟩, hnodup, hothers⟩ := (ih (hfresh.insert hfirst)).mp hrest
      refine ⟨⟨(key, declared) :: added, .cons hstores hadded, hresult⟩, ?_, hfree, hothers⟩
      rw [hfresh.sound.vars_insert declared (hfresh.not_mem_keys hfirst), List.map_append,
        List.append_assoc, List.map_singleton, hstores.name] at hnodup
      exact hnodup
    · rintro ⟨⟨added, hadded, hresult⟩, hnodup, hfree, hothers⟩
      cases hadded with
      | @cons _ entry _ added hstores hadded =>
        obtain ⟨storedKey, declared⟩ := entry
        obtain rfl : storedKey = key := hstores.key
        have htaken : storedKey.variableName base ∉ collection.vars.map Variable.name := by
          rw [List.nodup_middle, List.nodup_cons, List.mem_append, not_or] at hnodup
          exact hnodup.1.1
        have hfirst : model.defineIndexed base (collection.vars.map Variable.name) storedKey
            definition = .ok declared :=
          (defineIndexed_eq_ok_iff hbase).mpr ⟨hfree, htaken, hstores⟩
        refine Outcome.bind_eq_ok.mpr ⟨declared, hfirst, (ih (hfresh.insert hfirst)).mpr ?_⟩
        refine ⟨⟨added, hadded, hresult⟩, ?_, hothers⟩
        rw [hfresh.sound.vars_insert declared (hfresh.not_mem_keys hfirst), List.map_append,
          List.append_assoc, List.map_singleton, hstores.name]
        exact hnodup

/-- What is asked for can be stored exactly if each definition has a domain. -/
theorem exists_stores_iff :
    (∃ added, List.Forall₂ (Stores base) definitions added) ↔
      ∀ asked ∈ definitions, ∃ domain, asked.2.resolve = .ok domain := by
  induction definitions with
  | nil => simp
  | cons first rest ih =>
    rw [List.forall_mem_cons, ← ih]
    constructor
    · rintro ⟨_, hadded⟩
      cases hadded with
      | cons hstores hothers => exact ⟨⟨_, hstores.domain⟩, _, hothers⟩
    · rintro ⟨⟨domain, hdomain⟩, added, hadded⟩
      exact ⟨(first.1, ⟨first.1.variableName base, domain⟩) :: added,
        .cons ⟨rfl, rfl, hdomain⟩ hadded⟩

/-- The variables are declared exactly if the base is valid, each definition has a domain and the
names are new. -/
theorem exists_addVariablesWith_iff :
    (∃ result, model.addVariablesWith base definitions = .ok result) ↔
      Identifier.isValid base = true ∧
      (∀ asked ∈ definitions, ∃ domain, asked.2.resolve = .ok domain) ∧
      (indexedNames base definitions).Nodup ∧
      ∀ name ∈ indexedNames base definitions, name ∉ model.identifiers := by
  by_cases hbase : Identifier.isValid base = true
  · have hdefined (collection : Collection) :
        model.defineAll base definitions .empty = .ok collection ↔
          (∃ added, List.Forall₂ (Stores base) definitions added ∧
            collection = Collection.empty.insertAll added) ∧
          (indexedNames base definitions).Nodup ∧
          ∀ name ∈ indexedNames base definitions, name ∉ model.identifiers :=
      defineAll_eq_ok_iff hbase (freshNames_empty model base)
    have hstored : (∃ added, List.Forall₂ (Stores base) definitions added) ↔
        ∀ asked ∈ definitions, ∃ domain, asked.2.resolve = .ok domain := exists_stores_iff
    rw [addVariablesWith, if_pos hbase, ← hstored]
    constructor
    · rintro ⟨result, h⟩
      obtain ⟨collection, hcollection, -⟩ := Outcome.bind_eq_ok.mp h
      obtain ⟨⟨added, hadded, -⟩, hnames⟩ := (hdefined collection).mp hcollection
      exact ⟨hbase, ⟨added, hadded⟩, hnames⟩
    · rintro ⟨-, ⟨added, hadded⟩, hnames⟩
      have hcollection := (hdefined _).mpr ⟨⟨added, hadded, rfl⟩, hnames⟩
      exact ⟨_, Outcome.bind_eq_ok.mpr ⟨_, hcollection, rfl⟩⟩
  · simp [addVariablesWith, hbase]

section Stored

variable {collection : Collection} {entries : List (IndexKey × Variable)}

theorem keys_of_stores (hstored : List.Forall₂ (Stores base) definitions entries) :
    entries.map Prod.fst = definitions.map Prod.fst := by
  rw [eq_comm, ← List.forall₂_eq_eq_eq, List.forall₂_map_left_iff, List.forall₂_map_right_iff]
  exact hstored.imp fun _ _ hstores => hstores.key.symm

theorem names_of_stores (hstored : List.Forall₂ (Stores base) definitions collection.entries) :
    collection.vars.map Variable.name = indexedNames base definitions := by
  rw [eq_comm, Collection.vars, indexedNames, List.map_map, ← List.forall₂_eq_eq_eq,
    List.forall₂_map_left_iff, List.forall₂_map_right_iff]
  exact hstored.imp fun _ _ hstores => hstores.name.symm

/-- A key of which there is one name has one entry. -/
theorem nodup_keys_of_nodup_names (hnodup : (indexedNames base definitions).Nodup) :
    (definitions.map Prod.fst).Nodup := by
  apply List.Nodup.of_map (IndexKey.variableName base)
  rwa [List.map_map]

/-- What is declared is stored in the order in which it was asked for. -/
theorem stores_of_addVariablesWith {after : Model}
    (h : model.addVariablesWith base definitions = .ok (collection, after)) :
    collection.IsSound ∧ List.Forall₂ (Stores base) definitions collection.entries ∧
      after.constants = model.constants ∧ after.vars = model.vars ++ collection.vars := by
  rw [addVariablesWith] at h
  split at h
  · rename_i hbase
    obtain ⟨defined, hdefined, h⟩ := Outcome.bind_eq_ok.mp h
    cases h
    obtain ⟨⟨added, hadded, rfl⟩, hnodup, -⟩ :=
      (defineAll_eq_ok_iff hbase (freshNames_empty model base)).mp hdefined
    have hkeys : (added.map Prod.fst).Nodup :=
      keys_of_stores hadded ▸ nodup_keys_of_nodup_names hnodup
    have hentries : (Collection.empty.insertAll added).entries = added :=
      Collection.isSound_empty.entries_insertAll hkeys
    exact ⟨Collection.isSound_empty.insertAll added, hentries.symm ▸ hadded, rfl, rfl⟩
  · cases h

theorem exists_entry_of_stores (hstored : List.Forall₂ (Stores base) definitions entries)
    {asked : IndexKey × Definition} (hmem : asked ∈ definitions) :
    ∃ entry ∈ entries, Stores base asked entry := by
  induction hstored with
  | nil => cases hmem
  | cons hstores hothers ih =>
    rcases List.mem_cons.mp hmem with rfl | hmem
    · exact ⟨_, List.mem_cons_self, hstores⟩
    · obtain ⟨entry, hentry, hfound⟩ := ih hmem
      exact ⟨entry, List.mem_cons_of_mem _ hentry, hfound⟩

/-- Each key that was asked for is found with the variable that has its name and its domain. -/
theorem get?_of_stores (hstored : List.Forall₂ (Stores base) definitions collection.entries)
    (hsound : collection.IsSound) {asked : IndexKey × Definition} (hmem : asked ∈ definitions) :
    ∃ domain, asked.2.resolve = .ok domain ∧
      collection.get? asked.1 = some ⟨asked.1.variableName base, domain⟩ := by
  obtain ⟨⟨key, name, domain⟩, hentry, hkey, hname, hdomain⟩ := exists_entry_of_stores hstored hmem
  obtain rfl : key = asked.1 := hkey
  obtain rfl : name = asked.1.variableName base := hname
  exact ⟨domain, hdomain, hsound.get?_eq_some_iff.mpr hentry⟩

end Stored

/-! ## Refused names -/

/-- A name is refused as a duplicate if the model or the collection has it. -/
theorem mem_of_defineIndexed_duplicate {taken : List String} {key : IndexKey}
    {definition : Definition}
    (h : model.defineIndexed base taken key definition = .error (.duplicateIdentifier name)) :
    name = key.variableName base ∧ (name ∈ model.identifiers ∨ name ∈ taken) := by
  rcases Outcome.bind_eq_error.mp h with hcheck | ⟨_, -, hdefine⟩
  · rw [checkIdentifier] at hcheck
    split at hcheck
    · split at hcheck
      · rename_i hmem
        cases hcheck
        exact ⟨rfl, .inl (List.contains_iff_mem.mp hmem)⟩
      · cases hcheck
    · cases hcheck
  · split at hdefine
    · rename_i hmem
      cases hdefine
      exact ⟨rfl, .inr (List.contains_iff_mem.mp hmem)⟩
    · rw [Variable.define] at hdefine
      split at hdefine <;> cases hdefine

/-- Names that are pairwise different are refused as duplicates only if the model has them. -/
theorem mem_of_defineAll_duplicate {collection : Collection}
    (hfresh : FreshNames model base collection)
    (hnodup : (collection.vars.map Variable.name ++ indexedNames base definitions).Nodup)
    (h : model.defineAll base definitions collection = .error (.duplicateIdentifier name)) :
    name ∈ model.identifiers := by
  induction definitions generalizing collection with
  | nil => cases h
  | cons first rest ih =>
    obtain ⟨key, definition⟩ := first
    have hnames : indexedNames base ((key, definition) :: rest) =
        key.variableName base :: indexedNames base rest := rfl
    rw [hnames] at hnodup
    rcases Outcome.bind_eq_error.mp h with hfirst | ⟨declared, hfirst, hrest⟩
    · obtain ⟨rfl, hmem | htaken⟩ := mem_of_defineIndexed_duplicate hfirst
      · exact hmem
      · rw [List.nodup_middle, List.nodup_cons, List.mem_append, not_or] at hnodup
        exact absurd htaken hnodup.1.1
    · refine ih (hfresh.insert hfirst) ?_ hrest
      rw [hfresh.sound.vars_insert declared (hfresh.not_mem_keys hfirst), List.map_append,
        List.map_singleton, (defineIndexed_eq_ok hfirst).1, List.append_assoc]
      exact hnodup

theorem mem_of_addVariablesWith_duplicate (hnodup : (indexedNames base definitions).Nodup)
    (h : model.addVariablesWith base definitions = .error (.duplicateIdentifier name)) :
    name ∈ model.identifiers := by
  rw [addVariablesWith] at h
  split at h
  · rcases Outcome.bind_eq_error.mp h with hdefined | ⟨_, -, hdone⟩
    · exact mem_of_defineAll_duplicate (freshNames_empty model base) hnodup hdefined
    · cases hdone
  · cases h

/-- Different keys of one integer type have different names. -/
theorem nodup_names_of_hasType {type : IndexKey.IntegerType}
    (hnodup : (definitions.map Prod.fst).Nodup)
    (htypes : ∀ key ∈ definitions.map Prod.fst, key.HasType type) :
    (indexedNames base definitions).Nodup := by
  have hmapped : ((definitions.map Prod.fst).map (IndexKey.variableName base)).Nodup :=
    hnodup.map_on fun left hleft right hright =>
      IndexKey.eq_of_variableName (htypes left hleft) (htypes right hright)
  rwa [List.map_map] at hmapped

/-! ## Results -/

/-- In a reachable model the variables for a list of keys are declared exactly if the base is valid,
each definition has a domain, and the names of the keys are pairwise different and none of them is
declared.  Then the collection holds just these keys in their order, each with the variable of its
own name and domain, the variables are added to those of the model in the same order, and no two
declarations of the model share a name. -/
theorem indexed_variables_exact (reached : Reachable model) (base : String)
    (definitions : List (IndexKey × Definition)) :
    ((∃ result, model.addVariablesWith base definitions = .ok result) ↔
      Identifier.isValid base = true ∧
      (∀ asked ∈ definitions, ∃ domain, asked.2.resolve = .ok domain) ∧
      (definitions.map fun asked => asked.1.variableName base).Nodup ∧
      ∀ asked ∈ definitions, asked.1.variableName base ∉ model.declaredNames) ∧
    ∀ collection after, model.addVariablesWith base definitions = .ok (collection, after) →
      collection.keys = definitions.map Prod.fst ∧ collection.keys.Nodup ∧
      (∀ asked ∈ definitions, ∃ domain, asked.2.resolve = .ok domain ∧
        collection.get? asked.1 = some ⟨asked.1.variableName base, domain⟩) ∧
      (∀ key, key ∉ definitions.map Prod.fst → collection.get? key = none) ∧
      collection.vars.map Variable.name =
        (definitions.map fun asked => asked.1.variableName base) ∧
      after.vars = model.vars ++ collection.vars ∧ after.declaredNames.Nodup := by
  have hdeclared : ∀ name, name ∈ model.declaredNames ↔ name ∈ model.identifiers := fun name =>
    reached.namesAgree.declared.mem_iff
  constructor
  · rw [exists_addVariablesWith_iff, indexedNames, List.forall_mem_map]
    simp only [hdeclared]
  · intro collection after h
    obtain ⟨hsound, hstored, hconstants, hvars⟩ := stores_of_addVariablesWith h
    obtain ⟨-, -, hnodup, hfree⟩ := exists_addVariablesWith_iff.mp ⟨_, h⟩
    have hkeys : collection.keys = definitions.map Prod.fst := keys_of_stores hstored
    have hnames := names_of_stores hstored
    refine ⟨hkeys, hsound.nodup, fun _ hmem => get?_of_stores hstored hsound hmem, ?_, hnames,
      hvars, ?_⟩
    · intro key hkey
      exact hsound.get?_eq_none (hkeys ▸ hkey)
    · have hall : after.declaredNames = model.declaredNames ++ indexedNames base definitions := by
        rw [declaredNames, hconstants, hvars, List.map_append, hnames, ← List.append_assoc]
        rfl
      have hbefore : model.declaredNames.Nodup :=
        reached.namesAgree.declared.nodup_iff.mpr reached.namesAgree.nodup
      rw [hall]
      exact hbefore.append hnodup fun name hmem hnew => hfree name hnew ((hdeclared name).mp hmem)

/-- Keys of several shapes behind a name that is declared already; a key that is given twice, and
two keys whose names are sanitized to the same one, are refused. -/
theorem indexed_variables_of_mixed_keys :
    let model := empty.run [.addVariable "x_0" (.ofKind .bool)]
    let definitions := [(IndexKey.text "a b", Definition.ofKind .bool),
      (.tuple [.number (-1), .character 'é'], .ofInterval 2 5), (.number 3, .ofInterval 0 9)]
    let collision := [(IndexKey.text "a b", Definition.ofKind .bool), (.text "a-b", .ofKind .bool)]
    Reachable model ∧
      (∃ collection after, model.addVariablesWith "x" definitions = .ok (collection, after) ∧
        collection.get? (.tuple [.number (-1), .character 'é']) =
          some ⟨"x__1__", .int (.interval 2 5)⟩ ∧
        collection.get? (.number (-1)) = none ∧
        after.vars.map Variable.name = ["x_0", "x_a_b", "x__1__", "x_3"]) ∧
      (¬ ∃ result, model.addVariablesWith "x" collision = .ok result) ∧
      ¬ ∃ result, model.addVariablesWith "x" (definitions ++ definitions) = .ok result := by
  intro model definitions collision
  have hreached : Reachable model := ReachableBy.run .empty fun _ _ _ => trivial
  have hresolved : ∀ asked ∈ definitions, ∃ domain, asked.2.resolve = .ok domain := by
    simp only [definitions, List.forall_mem_cons, List.not_mem_nil, false_implies, implies_true,
      and_true]
    exact ⟨⟨_, rfl⟩, ⟨_, rfl⟩, ⟨_, rfl⟩⟩
  obtain ⟨hexists, hexact⟩ := indexed_variables_exact hreached "x" definitions
  obtain ⟨⟨collection, after⟩, h⟩ :=
    hexists.mpr ⟨by decide, hresolved, by decide, by decide⟩
  obtain ⟨-, -, hfound, hmissing, hnames, hvars, -⟩ := hexact collection after h
  refine ⟨hreached, ⟨collection, after, h, ?_, hmissing _ (by decide), ?_⟩, ?_, ?_⟩
  · obtain ⟨domain, hdomain, hget⟩ := hfound _ (List.mem_cons_of_mem _ List.mem_cons_self)
    cases hdomain
    exact hget
  · rw [hvars, List.map_append, hnames]
    decide
  · intro hcollision
    exact absurd ((indexed_variables_exact hreached "x" collision).1.mp hcollision).2.2.1
      (by decide)
  · intro hrepeated
    have hnodup := ((indexed_variables_exact hreached "x" (definitions ++ definitions)).1.mp
      hrepeated).2.2.1
    exact absurd hnodup (by decide)

/-- Behind a valid base every key has a valid name, and lists of integers have different names.  So
variables for pairwise different keys of one type, integers or tuples and arrays of integers, are
never refused because of each other: only a name that the model has already is a duplicate, and
without one they are declared as soon as each definition has a domain. -/
theorem integer_keys_never_collide {base : String} (hbase : Identifier.isValid base = true) :
    (∀ key : IndexKey, Identifier.isValid (key.variableName base) = true) ∧
    (Function.Injective fun values : List Int =>
      (IndexKey.tuple (values.map .number)).variableName base) ∧
    ∀ model : Model, Reachable model →
      ∀ (type : IndexKey.IntegerType) (definitions : List (IndexKey × Definition)),
        (definitions.map Prod.fst).Nodup → (∀ key ∈ definitions.map Prod.fst, key.HasType type) →
        (∀ name, model.addVariablesWith base definitions = .error (.duplicateIdentifier name) →
          name ∈ model.declaredNames) ∧
        ((∃ result, model.addVariablesWith base definitions = .ok result) ↔
          (∀ asked ∈ definitions, ∃ domain, asked.2.resolve = .ok domain) ∧
          ∀ asked ∈ definitions, asked.1.variableName base ∉ model.declaredNames) := by
  refine ⟨IndexKey.isValid_variableName hbase, IndexKey.variableName_injective base, ?_⟩
  intro model hreached type definitions hnodup htypes
  have hdeclared : ∀ name, name ∈ model.declaredNames ↔ name ∈ model.identifiers := fun name =>
    hreached.namesAgree.declared.mem_iff
  have hnames : (indexedNames base definitions).Nodup := nodup_names_of_hasType hnodup htypes
  constructor
  · intro name hrefused
    exact (hdeclared name).mpr (mem_of_addVariablesWith_duplicate hnames hrefused)
  · rw [exists_addVariablesWith_iff, and_iff_right hbase, and_iff_right hnames, indexedNames,
      List.forall_mem_map]
    simp only [hdeclared]

/-- Pairs of integers that differ in a sign or in the place of a digit only. -/
theorem signed_pairs_never_collide :
    let pair := fun first second : Int => IndexKey.tuple [.number first, .number second]
    let definitions := [pair 1 1, pair 1 (-1), pair (-1) 1, pair 11 1, pair 1 11].map
      fun key => (key, Definition.ofKind .bool)
    Identifier.isValid "x" = true ∧ (definitions.map Prod.fst).Nodup ∧
      (∀ key ∈ definitions.map Prod.fst, key.HasType (.tuple [.integer, .integer])) ∧
      (∃ result, empty.addVariablesWith "x" definitions = .ok result) ∧
      (IndexKey.tuple ([-1, 0, 2].map .number)).variableName "x" ≠
        (IndexKey.tuple ([1, 0, 2].map .number)).variableName "x" ∧
      Identifier.isValid ((IndexKey.text "; é").variableName "x") = true := by
  intro pair definitions
  have hbase : Identifier.isValid "x" = true := by decide
  have hnodup : (definitions.map Prod.fst).Nodup := by decide
  have hpair : ∀ first second, (pair first second).HasType (.tuple [.integer, .integer]) :=
    fun _ _ => ⟨trivial, trivial, trivial⟩
  have htypes : ∀ key ∈ definitions.map Prod.fst, key.HasType (.tuple [.integer, .integer]) := by
    simp only [definitions, List.forall_mem_map, List.forall_mem_cons]
    exact ⟨hpair _ _, hpair _ _, hpair _ _, hpair _ _, hpair _ _, List.forall_mem_nil _⟩
  have hresolved : ∀ asked ∈ definitions, ∃ domain, asked.2.resolve = .ok domain := by
    intro asked hmem
    obtain ⟨key, -, rfl⟩ := List.mem_map.mp hmem
    exact ⟨_, rfl⟩
  obtain ⟨hvalid, hinjective, hmodels⟩ := integer_keys_never_collide hbase
  obtain ⟨-, hexists⟩ := hmodels empty .empty _ definitions hnodup htypes
  refine ⟨hbase, hnodup, htypes, hexists.mpr ⟨hresolved, ?_⟩, ?_, hvalid _⟩
  · simp [declaredNames, empty]
  · exact hinjective.ne (by decide)

end Model

end MiniZincModels
