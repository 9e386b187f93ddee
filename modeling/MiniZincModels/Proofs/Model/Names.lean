import Mathlib.Data.List.Nodup
import MiniZincModels.Proofs.Declaration.Collection
import MiniZincModels.Proofs.Model.Reachable

/-!
# Declared names

The names of the constants and variables of a model are valid and pairwise
different, and they are the names which the model remembers.  The variables of a
collection are declared together, so the same is shown first for the collection
that is being put together.
-/

namespace MiniZincModels

theorem Variable.name_of_define {name : String} {definition : Definition} {declared : Variable}
    (h : Variable.define name definition = .ok declared) : declared.name = name := by
  rw [Variable.define] at h
  cases hdomain : definition.resolve with
  | ok domain =>
    rw [hdomain] at h
    cases h
    rfl
  | error fault =>
    rw [hdomain] at h
    cases h

theorem Constant.name_of_define {name : String} {value : ConstantValue} {constant : Constant}
    (h : Constant.define name value = .ok constant) : constant.name = name := by
  rw [Constant.define] at h
  repeat' split at h
  all_goals cases h
  rfl

namespace Model

variable {model : Model} {base name : String}

theorem checkIdentifier_eq_ok {passed : Unit} :
    model.checkIdentifier name = .ok passed ↔
      Identifier.isValid name = true ∧ name ∉ model.identifiers := by
  rw [checkIdentifier]
  by_cases hvalid : Identifier.isValid name = true
  · by_cases hmem : name ∈ model.identifiers <;> simp [hvalid, hmem]
  · simp [hvalid]

/-! ## The names of a collection -/

/-- The variables of a collection have the names of their keys, which are pairwise
different and can be declared. -/
structure FreshNames (model : Model) (base : String) (collection : Collection) : Prop where
  sound : collection.IsSound
  named : ∀ entry ∈ collection.entries, entry.2.name = entry.1.variableName base
  nodup : (collection.vars.map Variable.name).Nodup
  valid : ∀ name ∈ collection.vars.map Variable.name, Identifier.isValid name = true
  free : ∀ name ∈ collection.vars.map Variable.name, name ∉ model.identifiers

theorem freshNames_empty (model : Model) (base : String) :
    FreshNames model base Collection.empty := by
  refine ⟨Collection.isSound_empty, ?_, ?_, ?_, ?_⟩ <;> simp [Collection.empty, Collection.vars]

theorem defineIndexed_eq_ok {taken : List String} {key : IndexKey} {definition : Definition}
    {declared : Variable} (h : model.defineIndexed base taken key definition = .ok declared) :
    declared.name = key.variableName base ∧ declared.name ∉ taken ∧
      Identifier.isValid declared.name = true ∧ declared.name ∉ model.identifiers := by
  obtain ⟨_, hcheck, h⟩ := Outcome.bind_eq_ok.mp h
  obtain ⟨hvalid, hfree⟩ := checkIdentifier_eq_ok.mp hcheck
  by_cases htaken : taken.contains (key.variableName base) = true
  · rw [if_pos htaken] at h
    cases h
  · rw [if_neg htaken] at h
    rw [List.contains_iff_mem] at htaken
    rw [Variable.name_of_define h]
    exact ⟨rfl, htaken, hvalid, hfree⟩

/-- A variable whose name is not taken has a key that is not there yet. -/
theorem FreshNames.not_mem_keys {collection : Collection} {key : IndexKey}
    {definition : Definition} {declared : Variable} (h : FreshNames model base collection)
    (hdefined : model.defineIndexed base (collection.vars.map Variable.name) key definition =
      .ok declared) : key ∉ collection.keys := by
  obtain ⟨hname, htaken, -, -⟩ := defineIndexed_eq_ok hdefined
  intro hmem
  obtain ⟨entry, hentry, rfl⟩ := List.mem_map.mp hmem
  apply htaken
  rw [hname, ← h.named entry hentry]
  exact List.mem_map_of_mem (List.mem_map_of_mem hentry)

/-- A variable with a new key is added behind the others. -/
theorem FreshNames.insert {collection : Collection} {key : IndexKey} {definition : Definition}
    {declared : Variable} (h : FreshNames model base collection)
    (hdefined : model.defineIndexed base (collection.vars.map Variable.name) key definition =
      .ok declared) : FreshNames model base (collection.insert key declared) := by
  have hkey := h.not_mem_keys hdefined
  obtain ⟨hname, htaken, hvalid, hfree⟩ := defineIndexed_eq_ok hdefined
  have hnames : (collection.insert key declared).vars.map Variable.name =
      collection.vars.map Variable.name ++ [declared.name] := by
    rw [h.sound.vars_insert declared hkey, List.map_append, List.map_singleton]
  constructor
  · exact h.sound.insert key declared
  · rw [h.sound.entries_insert declared hkey, List.forall_mem_append]
    exact ⟨h.named, by simpa using hname⟩
  · rw [hnames]
    exact h.nodup.append (by simp) (by simpa using htaken)
  · rw [hnames, List.forall_mem_append]
    exact ⟨h.valid, by simpa using hvalid⟩
  · rw [hnames, List.forall_mem_append]
    exact ⟨h.free, by simpa using hfree⟩

theorem FreshNames.defineAll {definitions : List (IndexKey × Definition)}
    {collection result : Collection} (h : FreshNames model base collection)
    (hdefined : model.defineAll base definitions collection = .ok result) :
    FreshNames model base result := by
  induction definitions generalizing collection with
  | nil =>
    cases hdefined
    exact h
  | cons first rest ih =>
    obtain ⟨declared, hfirst, hrest⟩ := Outcome.bind_eq_ok.mp hdefined
    exact ih (h.insert hfirst) hrest

/-! ## The names of a model -/

/-- The names which the model remembers are valid, pairwise different, and the names of
its constants and variables. -/
structure NamesAgree (model : Model) : Prop where
  valid : ∀ name ∈ model.identifiers, Identifier.isValid name = true
  nodup : model.identifiers.Nodup
  declared :
    (model.constants.map Constant.name ++ model.vars.map Variable.name).Perm model.identifiers

theorem namesAgree_empty : NamesAgree empty := by
  constructor <;> simp [empty]

/-- Names which are new are added to those of the model. -/
theorem NamesAgree.extend (h : model.NamesAgree) (names : List String)
    (hvalid : ∀ name ∈ names, Identifier.isValid name = true) (hnodup : names.Nodup)
    (hfree : ∀ name ∈ names, name ∉ model.identifiers) {after : Model}
    (hidentifiers : after.identifiers = model.identifiers ++ names)
    (hdeclared : (after.constants.map Constant.name ++ after.vars.map Variable.name).Perm
      (model.constants.map Constant.name ++ model.vars.map Variable.name ++ names)) :
    after.NamesAgree := by
  constructor
  · rw [hidentifiers, List.forall_mem_append]
    exact ⟨h.valid, hvalid⟩
  · rw [hidentifiers]
    exact h.nodup.append hnodup fun name hmem hnew => hfree name hnew hmem
  · rw [hidentifiers]
    exact hdeclared.trans (h.declared.append_right names)

theorem NamesAgree.effect {step : Step} {after : Model} (h : model.NamesAgree)
    (heffect : Effect model step after) : after.NamesAgree := by
  cases heffect with
  | unchanged | textKept | post | setCriteria | setSearch | setRestart =>
    exact ⟨h.valid, h.nodup, h.declared⟩
  | @addConstant name value constant free defined =>
    obtain ⟨hvalid, hfree⟩ := checkIdentifier_eq_ok.mp free
    refine h.extend [name] (by simpa using hvalid) (by simp) (by simpa using hfree) rfl ?_
    rw [List.map_append, List.map_singleton, Constant.name_of_define defined, List.append_assoc,
      List.append_assoc]
    exact List.Perm.append_left _ List.perm_append_comm
  | @addVariable name definition declared free defined =>
    obtain ⟨hvalid, hfree⟩ := checkIdentifier_eq_ok.mp free
    refine h.extend [name] (by simpa using hvalid) (by simp) (by simpa using hfree) rfl ?_
    rw [List.map_append, List.map_singleton, Variable.name_of_define defined, List.append_assoc]
  | @addVariables base definitions collection valid defined =>
    have hfresh := (freshNames_empty model base).defineAll defined
    refine h.extend _ hfresh.valid hfresh.nodup hfresh.free rfl ?_
    rw [List.map_append, List.append_assoc]

theorem Reachable.namesAgree (reached : Reachable model) : model.NamesAgree := by
  apply ReachableBy.invariant namesAgree_empty _ reached
  intro before step after h _ heffect
  exact h.effect heffect

/-- The variables of a reachable model have valid names. -/
theorem Reachable.isValid_of_mem_vars (reached : Reachable model) {declared : Variable}
    (hmem : declared ∈ model.vars) : Identifier.isValid declared.name = true := by
  have hnames := reached.namesAgree
  apply hnames.valid
  apply hnames.declared.subset
  exact List.mem_append_right _ (List.mem_map_of_mem hmem)

theorem Reachable.nodup_vars (reached : Reachable model) :
    (model.vars.map Variable.name).Nodup := by
  have hnames := reached.namesAgree
  exact (List.nodup_append.mp (hnames.declared.nodup_iff.mpr hnames.nodup)).2.1

end Model

end MiniZincModels
