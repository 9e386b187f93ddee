import MiniZincModels.Proofs.Model.Items
import MiniZincModels.Proofs.Model.Names

/-!
# What a model remembers twice

A model keeps the names of its declarations and the global constraints of its items
beside the declarations and items themselves.  In every reachable model the two
records agree, so the text includes each definition that is needed exactly once.
-/

namespace MiniZincModels

/-- The order of texts by their bytes. -/
def ByteOrder (left right : String) : Prop :=
  left.toByteArray.data.toList < right.toByteArray.data.toList

instance (left right : String) : Decidable (ByteOrder left right) :=
  inferInstanceAs (Decidable (left.toByteArray.data.toList < right.toByteArray.data.toList))

/-- The order of the global constraints is that of their files. -/
theorem Global.ascending_includeFile : (Global.all.map Global.includeFile).Pairwise ByteOrder := by
  decide

namespace Model

variable {model : Model} {globals : List Global} {global : Global} {items : List Constraint}

/-! ## The used global constraints -/

theorem mem_noteGlobal {noted : Option Global} :
    global ∈ noteGlobal globals noted ↔ global ∈ globals ∨ noted = some global := by
  cases noted with
  | none => simp [noteGlobal]
  | some other =>
    rw [noteGlobal]
    split
    · rename_i hmem
      rw [List.contains_iff_mem] at hmem
      constructor
      · exact .inl
      · rintro (hold | hnew)
        · exact hold
        · cases hnew
          exact hmem
    · simp [eq_comm]

theorem mem_foldl_noteGlobal :
    global ∈ items.foldl (fun globals item => noteGlobal globals item.global) globals ↔
      global ∈ globals ∨ ∃ item ∈ items, item.global = some global := by
  induction items generalizing globals with
  | nil => simp
  | cons item items ih =>
    rw [List.foldl_cons, ih, mem_noteGlobal]
    simp only [List.mem_cons, exists_eq_or_imp, or_assoc]

/-- The global constraints which a model remembers are those of its constraint items. -/
def GlobalsAgree (model : Model) : Prop :=
  ∀ global, global ∈ model.globals ↔
    ∃ constraint ∈ model.constraints, constraint.global = some global

theorem globalsAgree_empty : GlobalsAgree empty := by
  simp [GlobalsAgree, empty]

theorem GlobalsAgree.register (h : model.GlobalsAgree) (items : List Constraint) :
    (model.register items).GlobalsAgree := by
  intro global
  rw [Model.register, mem_foldl_noteGlobal, h global]
  simp only [List.mem_append, or_and_right, exists_or]

theorem GlobalsAgree.effect {step : Step} {after : Model} (h : model.GlobalsAgree)
    (heffect : Effect model step after) : after.GlobalsAgree := by
  cases heffect with
  | post => exact h.register _
  | unchanged | textKept | addConstant | addVariable | addVariables | setCriteria | setSearch
  | setRestart => exact h

theorem Reachable.globalsAgree (reached : Reachable model) : model.GlobalsAgree :=
  reached.invariant globalsAgree_empty fun _ _ _ h _ heffect => h.effect heffect

/-! ## The includes -/

/-- The files which the include items name. -/
def includedFiles (model : Model) : List String :=
  model.requiredIncludes.map Global.includeFile

/-- Whatever the order in which the constraints were posted, the files are in one order. -/
theorem ascending_includedFiles (model : Model) : model.includedFiles.Pairwise ByteOrder :=
  Global.ascending_includeFile.sublist (List.filter_sublist.map Global.includeFile)

theorem mem_requiredIncludes : global ∈ model.requiredIncludes ↔ global ∈ model.globals := by
  simp [requiredIncludes, Global.mem_all]

theorem GlobalsAgree.mem_includedFiles (h : model.GlobalsAgree) {file : String} :
    file ∈ model.includedFiles ↔
      ∃ constraint ∈ model.constraints, ∃ global,
        constraint.global = some global ∧ global.includeFile = file := by
  rw [includedFiles, List.mem_map]
  constructor
  · rintro ⟨global, hglobal, rfl⟩
    obtain ⟨constraint, hconstraint, hnoted⟩ := (h global).mp (mem_requiredIncludes.mp hglobal)
    exact ⟨constraint, hconstraint, global, hnoted, rfl⟩
  · rintro ⟨constraint, hconstraint, global, hnoted, rfl⟩
    have hglobal := (h global).mpr ⟨constraint, hconstraint, hnoted⟩
    exact ⟨global, mem_requiredIncludes.mpr hglobal, rfl⟩

/-- The include items stand in front, and no other item is one. -/
theorem render_includes {objective : Objective} (hobjective : model.objective = some objective) :
    ∃ rest, model.render = .ok (joinLines
        (model.includedFiles.map (fun file => "include \"" ++ file ++ "\";") ++ rest)) ∧
      ∀ item ∈ rest, ¬ "include".toList <+: item.toList := by
  refine ⟨model.innerItems ++ [model.solveItem objective], ?_, ?_⟩
  · rw [render, hobjective]
    simp only
    rw [items_eq, includedFiles, List.map_map, List.append_assoc]
    rfl
  · rw [List.forall_mem_append]
    constructor
    · intro item hitem
      exact not_prefix_of_mem_innerItems hitem (by decide)
    · rw [List.forall_mem_singleton]
      exact not_prefix_of_opening (solve_prefix_solveItem model objective) (by decide)

end Model

end MiniZincModels
