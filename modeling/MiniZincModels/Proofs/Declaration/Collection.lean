import Mathlib.Data.List.Nodup
import MiniZincModels.Declaration.Collection

/-!
# Collections put together

Entries and places of a collection are changed side by side.  Whatever is inserted and merged,
the keys stay pairwise different and each is noted with the place where it stands.  So two
collections with the same keys in the same order and the same variables under them are equal,
and the laws of merging follow from what it does to the keys and to the variable of each key.
-/

namespace MiniZincModels.Collection

section Lookup

variable {α : Type} {key : IndexKey} {value : α} {entries : List (IndexKey × α)}

/-- Under a key that occurs once its own value is found. -/
theorem lookup_eq_some_iff (hnodup : (entries.map Prod.fst).Nodup) :
    entries.lookup key = some value ↔ (key, value) ∈ entries := by
  rw [List.lookup_eq_some_iff]
  constructor
  · rintro ⟨before, behind, rfl, -⟩
    simp
  · intro hmem
    obtain ⟨before, behind, rfl⟩ := List.append_of_mem hmem
    refine ⟨before, behind, rfl, fun entry hentry => ?_⟩
    rw [List.map_append, List.map_cons, List.nodup_middle, List.nodup_cons] at hnodup
    have hne : key ≠ entry.1 := by
      intro heq
      have hmem : entry.1 ∈ before.map Prod.fst := List.mem_map_of_mem hentry
      exact hnodup.1 (List.mem_append_left _ (heq ▸ hmem))
    simpa using hne

end Lookup

/-- The keys are pairwise different, and each is noted with the place where it stands. -/
structure IsSound (collection : Collection) : Prop where
  nodup : collection.keys.Nodup
  places : collection.places = collection.keys.zipIdx

section Sound

variable {collection left right : Collection} {key other : IndexKey} {declared : Variable}
variable {place : Nat}

theorem isSound_empty : empty.IsSound := ⟨List.nodup_nil, rfl⟩

/-- Exactly the keys have places, and these are their own. -/
theorem IsSound.position?_eq_some_iff (h : collection.IsSound) :
    collection.position? key = some place ↔ collection.keys[place]? = some key := by
  have hnodup : (collection.keys.zipIdx.map Prod.fst).Nodup := by
    rw [List.zipIdx_map_fst]
    exact h.nodup
  rw [position?, h.places, lookup_eq_some_iff hnodup, List.mem_zipIdx_iff_getElem?]

theorem IsSound.position?_eq_none (h : collection.IsSound) (hkey : key ∉ collection.keys) :
    collection.position? key = none := by
  rw [Option.eq_none_iff_forall_ne_some]
  intro place hplace
  exact hkey (List.mem_of_getElem? (h.position?_eq_some_iff.mp hplace))

theorem IsSound.exists_position? (h : collection.IsSound) (hkey : key ∈ collection.keys) :
    ∃ place, collection.position? key = some place := by
  obtain ⟨place, hplace⟩ := List.mem_iff_getElem?.mp hkey
  exact ⟨place, h.position?_eq_some_iff.mpr hplace⟩

/-- What is found under a key is what is stored with it. -/
theorem IsSound.get?_eq_some_iff (h : collection.IsSound) :
    collection.get? key = some declared ↔ (key, declared) ∈ collection.entries := by
  rw [get?, Option.bind_eq_some_iff, List.mem_iff_getElem?]
  refine exists_congr fun place => ?_
  rw [h.position?_eq_some_iff, keys, List.getElem?_map, Option.map_eq_some_iff,
    Option.map_eq_some_iff]
  constructor
  · rintro ⟨⟨entry, hentry, rfl⟩, ⟨found, hfound, rfl⟩⟩
    obtain rfl : entry = found := Option.some.inj (hentry.symm.trans hfound)
    exact hentry
  · intro hentry
    exact ⟨⟨_, hentry, rfl⟩, ⟨_, hentry, rfl⟩⟩

theorem IsSound.get?_eq_none (h : collection.IsSound) (hkey : key ∉ collection.keys) :
    collection.get? key = none := by
  rw [get?, h.position?_eq_none hkey, Option.bind_none]

/-- A collection is known by its keys and by what is found under them. -/
theorem IsSound.ext (hleft : left.IsSound) (hright : right.IsSound) (hkeys : left.keys = right.keys)
    (hget : ∀ key, left.get? key = right.get? key) : left = right := by
  have hplaces : left.places = right.places := by rw [hleft.places, hright.places, hkeys]
  have hentries : left.entries = right.entries := by
    have hlength : left.entries.length = right.entries.length := by
      simpa [keys] using congrArg List.length hkeys
    refine List.ext_getElem hlength fun place hplace hother => ?_
    have hkey : left.entries[place].1 = right.entries[place].1 := by
      simpa [keys] using List.getElem_of_eq hkeys (by simpa [keys] using hplace)
    have hvalue : left.entries[place].2 = right.entries[place].2 := by
      have hfound : left.get? left.entries[place].1 = some left.entries[place].2 :=
        hleft.get?_eq_some_iff.mpr (List.getElem_mem hplace)
      have hstored : right.get? right.entries[place].1 = some right.entries[place].2 :=
        hright.get?_eq_some_iff.mpr (List.getElem_mem hother)
      rw [hget, hkey] at hfound
      exact Option.some.inj (hfound.symm.trans hstored)
    exact Prod.ext hkey hvalue
  cases left
  cases right
  exact congrArg₂ Collection.mk hentries hplaces

end Sound

/-! ## Inserting -/

section Insert

variable {collection : Collection} {key other : IndexKey} {declared added : Variable}

/-- A key that is new gets its entry at the end. -/
theorem IsSound.insert_of_not_mem (h : collection.IsSound) (declared : Variable)
    (hkey : key ∉ collection.keys) :
    collection.insert key declared =
      ⟨collection.entries ++ [(key, declared)], collection.places ++ [(key, collection.size)]⟩ := by
  rw [insert, h.position?_eq_none hkey]

theorem IsSound.entries_insert (h : collection.IsSound) (declared : Variable)
    (hkey : key ∉ collection.keys) :
    (collection.insert key declared).entries = collection.entries ++ [(key, declared)] := by
  rw [h.insert_of_not_mem declared hkey]

theorem IsSound.vars_insert (h : collection.IsSound) (declared : Variable)
    (hkey : key ∉ collection.keys) :
    (collection.insert key declared).vars = collection.vars ++ [declared] := by
  rw [vars, h.entries_insert declared hkey, List.map_append]
  rfl

/-- A key that is there keeps its place, and all keys stay. -/
theorem IsSound.keys_insert (h : collection.IsSound) (key : IndexKey) (declared : Variable) :
    (collection.insert key declared).keys =
      if key ∈ collection.keys then collection.keys else collection.keys ++ [key] := by
  by_cases hkey : key ∈ collection.keys
  · obtain ⟨place, hplace⟩ := h.exists_position? hkey
    rw [if_pos hkey, insert, hplace]
    refine List.ext_getElem? fun index => ?_
    rw [keys, keys, List.getElem?_map, List.getElem?_map, List.getElem?_modify]
    cases collection.entries[index]? with
    | none => rfl
    | some entry => by_cases hindex : place = index <;> simp [hindex]
  · rw [if_neg hkey, keys, h.entries_insert declared hkey, List.map_append]
    rfl

/-- Inserting keeps the keys different and notes a new place for a new key only. -/
theorem IsSound.insert (h : collection.IsSound) (key : IndexKey) (declared : Variable) :
    (collection.insert key declared).IsSound := by
  have hkeys := h.keys_insert key declared
  by_cases hkey : key ∈ collection.keys
  · rw [if_pos hkey] at hkeys
    refine ⟨hkeys ▸ h.nodup, ?_⟩
    obtain ⟨place, hplace⟩ := h.exists_position? hkey
    rw [hkeys, ← h.places, Collection.insert, hplace]
  · rw [if_neg hkey] at hkeys
    constructor
    · rw [hkeys]
      exact h.nodup.append (by simp) (by simpa using hkey)
    · rw [hkeys, h.insert_of_not_mem declared hkey, List.zipIdx_append, ← h.places]
      simp [keys, size]

/-- The variable is found under its key, and all other keys keep theirs. -/
theorem IsSound.get?_insert (h : collection.IsSound) (key other : IndexKey) (declared : Variable) :
    (collection.insert key declared).get? other =
      if key = other then some declared else collection.get? other := by
  by_cases hkey : key ∈ collection.keys
  · obtain ⟨place, hplace⟩ := h.exists_position? hkey
    have hposition :
        (collection.insert key declared).position? other = collection.position? other := by
      rw [Collection.insert, hplace]
      rfl
    rw [get?, get?, hposition, Collection.insert, hplace]
    by_cases hother : key = other
    · have hstored := h.position?_eq_some_iff.mp hplace
      obtain ⟨entry, hentry, -⟩ := Option.map_eq_some_iff.mp (List.getElem?_map .. ▸ hstored)
      simp [← hother, hplace, List.getElem?_modify, hentry]
    · rw [if_neg hother]
      refine Option.bind_congr fun found hfound => ?_
      have hne : place ≠ found := by
        rintro rfl
        exact hother (Option.some.inj ((h.position?_eq_some_iff.mp hplace).symm.trans
          (h.position?_eq_some_iff.mp hfound)))
      simp [hne]
  · refine Option.ext fun found => ?_
    rw [(h.insert key declared).get?_eq_some_iff, h.entries_insert declared hkey, List.mem_append,
      List.mem_singleton, Prod.mk.injEq, ← h.get?_eq_some_iff]
    by_cases hother : key = other
    · subst hother
      simp [h.get?_eq_none hkey, eq_comm]
    · simp [hother, Ne.symm hother]

end Insert

/-! ## Merging -/

section Merge

variable {collection left middle right : Collection} {added : List (IndexKey × Variable)}

theorem IsSound.insertAll (h : collection.IsSound) (added : List (IndexKey × Variable)) :
    (collection.insertAll added).IsSound := by
  induction added generalizing collection with
  | nil => exact h
  | cons entry rest ih => exact ih (h.insert entry.1 entry.2)

/-- Entries under new keys are put behind the others as they are. -/
theorem IsSound.entries_insertAll (h : collection.IsSound)
    (hnodup : (collection.keys ++ added.map Prod.fst).Nodup) :
    (collection.insertAll added).entries = collection.entries ++ added := by
  induction added generalizing collection with
  | nil => exact (List.append_nil _).symm
  | cons entry rest ih =>
    have hkey : entry.1 ∉ collection.keys := fun hmem =>
      List.disjoint_of_nodup_append hnodup hmem List.mem_cons_self
    have hkeys : (collection.insert entry.1 entry.2).keys = collection.keys ++ [entry.1] := by
      rw [h.keys_insert, if_neg hkey]
    have hrest := ih (h.insert entry.1 entry.2) (by
      rw [hkeys, List.append_assoc]
      exact hnodup)
    rw [h.entries_insert entry.2 hkey, List.append_assoc] at hrest
    exact hrest

/-- Behind the keys that are there stand the new ones, in their own order. -/
theorem IsSound.keys_insertAll (h : collection.IsSound) (hnodup : (added.map Prod.fst).Nodup) :
    (collection.insertAll added).keys =
      collection.keys ++ (added.map Prod.fst).filter (· ∉ collection.keys) := by
  induction added generalizing collection with
  | nil => exact (List.append_nil _).symm
  | cons entry rest ih =>
    rw [List.map_cons, List.nodup_cons] at hnodup
    have hrest := ih (h.insert entry.1 entry.2) hnodup.2
    rw [h.keys_insert] at hrest
    rw [Collection.insertAll, List.foldl_cons, ← Collection.insertAll, hrest, List.map_cons]
    by_cases hkey : entry.1 ∈ collection.keys
    · simp [hkey]
    · have hothers : (rest.map Prod.fst).filter (· ∉ collection.keys ++ [entry.1]) =
          (rest.map Prod.fst).filter (· ∉ collection.keys) := by
        refine List.filter_congr fun key hmem => ?_
        have hne : key ≠ entry.1 := fun heq => hnodup.1 (heq ▸ hmem)
        simp [hne]
      rw [if_neg hkey, hothers, List.filter_cons_of_pos (by simpa using hkey), List.append_assoc]
      rfl

/-- What was added last under a key is found there, and else what was there before. -/
theorem IsSound.get?_insertAll (h : collection.IsSound) (hnodup : (added.map Prod.fst).Nodup)
    (key : IndexKey) :
    (collection.insertAll added).get? key = (added.lookup key).or (collection.get? key) := by
  induction added generalizing collection with
  | nil => rfl
  | cons entry rest ih =>
    rw [List.map_cons, List.nodup_cons] at hnodup
    have hrest := ih (h.insert entry.1 entry.2) hnodup.2
    rw [Collection.insertAll, List.foldl_cons, ← Collection.insertAll, hrest, h.get?_insert,
      List.lookup_cons]
    by_cases hkey : entry.1 = key
    · have hnone : rest.lookup key = none := by
        rw [List.lookup_eq_none_iff]
        intro other hother
        have hne : key ≠ other.1 := fun heq =>
          hnodup.1 (hkey ▸ heq ▸ List.mem_map_of_mem hother)
        simpa using hne
      simp [hkey, hnone]
    · have hother : (key == entry.1) = false := by simpa using Ne.symm hkey
      simp [hkey, hother]

/-- The entries know what is found under a key. -/
theorem IsSound.lookup_entries (h : collection.IsSound) (key : IndexKey) :
    collection.entries.lookup key = collection.get? key := by
  refine Option.ext fun found => ?_
  rw [lookup_eq_some_iff h.nodup, h.get?_eq_some_iff]

theorem IsSound.merge (hleft : left.IsSound) (right : Collection) : (left.merge right).IsSound :=
  hleft.insertAll right.entries

theorem IsSound.keys_merge (hleft : left.IsSound) (hright : right.IsSound) :
    (left.merge right).keys = left.keys ++ right.keys.filter (· ∉ left.keys) :=
  hleft.keys_insertAll hright.nodup

theorem IsSound.get?_merge (hleft : left.IsSound) (hright : right.IsSound) (key : IndexKey) :
    (left.merge right).get? key = (right.get? key).or (left.get? key) := by
  rw [Collection.merge, hleft.get?_insertAll hright.nodup, hright.lookup_entries]

theorem IsSound.merge_assoc (hleft : left.IsSound) (hmiddle : middle.IsSound)
    (hright : right.IsSound) :
    (left.merge middle).merge right = left.merge (middle.merge right) := by
  have hfirst := hleft.merge middle
  have hsecond := hmiddle.merge right
  refine (hfirst.merge right).ext (hleft.merge (middle.merge right)) ?_ fun key => ?_
  · rw [hfirst.keys_merge hright, hleft.keys_merge hmiddle, hleft.keys_merge hsecond,
      hmiddle.keys_merge hright, List.filter_append, List.filter_filter, List.append_assoc]
    congr 2
    refine List.filter_congr fun key _ => ?_
    by_cases hkey : key ∈ left.keys <;> simp [hkey]
  · rw [hfirst.get?_merge hright, hleft.get?_merge hmiddle, hleft.get?_merge hsecond,
      hmiddle.get?_merge hright, Option.or_assoc]

theorem IsSound.empty_merge (hright : right.IsSound) : empty.merge right = right := by
  refine (isSound_empty.merge right).ext hright ?_ fun key => ?_
  · rw [isSound_empty.keys_merge hright]
    simp [empty, keys]
  · rw [isSound_empty.get?_merge hright]
    exact Option.or_none

theorem merge_empty (left : Collection) : left.merge empty = left := rfl

theorem IsSound.merge_self (h : collection.IsSound) : collection.merge collection = collection := by
  refine (h.merge collection).ext h ?_ fun key => ?_
  · rw [h.keys_merge h, List.filter_eq_nil_iff.mpr (by simp), List.append_nil]
  · rw [h.get?_merge h, Option.or_self]

end Merge

/-! ## All collections -/

/-- The collections that come of inserting and merging. -/
inductive Built : Collection → Prop
  | empty : Built .empty
  | insert {collection : Collection} (before : Built collection) (key : IndexKey)
      (declared : Variable) : Built (collection.insert key declared)
  | merge {left right : Collection} (before : Built left) (added : Built right) :
      Built (left.merge right)

theorem Built.isSound {collection : Collection} (built : Built collection) :
    collection.IsSound := by
  induction built with
  | empty => exact isSound_empty
  | insert _ key declared ih => exact ih.insert key declared
  | merge _ _ ihleft _ => exact ihleft.merge _

/-- However a collection was put together, its keys are pairwise different, exactly they have
places, and these are their own; the variable found under a key is the one that stands at its
place.  Merging prefers the right collection, keeps the keys of the left one where they are, and
puts the other keys of the right one behind them in their order.  It is associative up to the order
of the entries, the empty collection changes nothing on either side, and a collection that is
merged with itself stays as it is. -/
theorem merge_laws :
    (∀ collection, Built collection →
      collection.keys.Nodup ∧
      (∀ key place, collection.position? key = some place ↔ collection.keys[place]? = some key) ∧
      ∀ key declared, collection.get? key = some declared ↔ (key, declared) ∈ collection.entries) ∧
    (∀ left right, Built left → Built right →
      (∀ key, (left.merge right).get? key =
        match right.get? key with
        | some declared => some declared
        | none => left.get? key) ∧
      (left.merge right).keys = left.keys ++ right.keys.filter (· ∉ left.keys)) ∧
    (∀ left middle right, Built left → Built middle → Built right →
      (left.merge middle).merge right = left.merge (middle.merge right)) ∧
    ∀ collection, Built collection →
      empty.merge collection = collection ∧ collection.merge empty = collection ∧
      collection.merge collection = collection := by
  refine ⟨fun collection built => ?_, fun left right hleft hright => ⟨fun key => ?_, ?_⟩, ?_, ?_⟩
  · have hsound := built.isSound
    exact ⟨hsound.nodup, fun _ _ => hsound.position?_eq_some_iff,
      fun _ _ => hsound.get?_eq_some_iff⟩
  · rw [hleft.isSound.get?_merge hright.isSound]
    cases right.get? key <;> rfl
  · exact hleft.isSound.keys_merge hright.isSound
  · intro left middle right hleft hmiddle hright
    exact hleft.isSound.merge_assoc hmiddle.isSound hright.isSound
  · intro collection built
    exact ⟨built.isSound.empty_merge, merge_empty collection, built.isSound.merge_self⟩

/-- Three collections of which each shares a key with the next, the last one also with the first. -/
theorem merge_laws_of_overlapping_collections :
    let switch := fun name : String => (⟨name, .bool⟩ : Variable)
    let left := (Collection.empty.insert (.number 0) (switch "a")).insert (.number 1) (switch "b")
    let middle := (Collection.empty.insert (.text "k") (switch "c")).insert (.number 1) (switch "d")
    let right := (Collection.empty.insert (.number 0) (switch "e")).insert (.text "k") (switch "f")
    let merged := (left.merge middle).merge right
    Built left ∧ Built middle ∧ Built right ∧
      merged = left.merge (middle.merge right) ∧ merged.merge merged = merged ∧
      merged.keys = [.number 0, .number 1, .text "k"] ∧
      merged.get? (.number 0) = some (switch "e") ∧ merged.get? (.number 1) = some (switch "d") ∧
      merged.position? (.text "k") = some 2 := by
  intro switch left middle right merged
  have hleft : Built left := (Built.empty.insert _ _).insert _ _
  have hmiddle : Built middle := (Built.empty.insert _ _).insert _ _
  have hright : Built right := (Built.empty.insert _ _).insert _ _
  have hmerged : Built merged := (hleft.merge hmiddle).merge hright
  obtain ⟨hplaces, hmerge, hassoc, hsame⟩ := merge_laws
  obtain ⟨hget, hkeys⟩ := hmerge (left.merge middle) right (hleft.merge hmiddle) hright
  have hall : merged.keys = [.number 0, .number 1, .text "k"] := by
    rw [hkeys, (hmerge left middle hleft hmiddle).2]
    decide
  refine ⟨hleft, hmiddle, hright, hassoc left middle right hleft hmiddle hright,
    (hsame merged hmerged).2.2, hall, ?_, ?_, ?_⟩
  · rw [hget]
    rfl
  · rw [hget, (hmerge left middle hleft hmiddle).1]
    rfl
  · rw [(hplaces merged hmerged).2.1, hall]
    rfl

end MiniZincModels.Collection
