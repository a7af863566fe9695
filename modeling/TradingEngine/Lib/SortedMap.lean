/-
Maps kept as lists in the order of their keys.

What is put into a map by and by does not depend on the order in which that happens, as long as
the keys are different.
-/
import Mathlib.Data.List.Induction
import Mathlib.Data.List.Sort

namespace TradingEngine.Lib.SortedMap

variable {κ ν : Type} [LinearOrder κ]

/-- The value of a key is set. -/
def assign (key : κ) (value : ν) : List (κ × ν) → List (κ × ν)
  | [] => [(key, value)]
  | entry :: entries =>
    if key < entry.1 then (key, value) :: entry :: entries
    else if key = entry.1 then (key, value) :: entries
    else entry :: assign key value entries

/-- One entry after the other. -/
def ofList (entries : List (κ × ν)) : List (κ × ν) :=
  entries.foldl (fun map entry => assign entry.1 entry.2 map) []

/-- The keys increase. -/
def Sorted (map : List (κ × ν)) : Prop := map.Pairwise fun a b => a.1 < b.1

lemma mem_of_mem_assign {key : κ} {value : ν} {map : List (κ × ν)} {entry : κ × ν}
    (h : entry ∈ assign key value map) : entry = (key, value) ∨ entry ∈ map := by
  induction map with
  | nil => exact .inl (List.mem_singleton.1 h)
  | cons first map ih =>
    simp only [assign] at h
    split_ifs at h with hlt heq
    · exact List.mem_cons.1 h
    · exact (List.mem_cons.1 h).imp_right (List.mem_cons_of_mem first)
    · rcases List.mem_cons.1 h with rfl | h
      · exact .inr List.mem_cons_self
      · exact (ih h).imp_right (List.mem_cons_of_mem first)

lemma Sorted.assign {map : List (κ × ν)} (h : Sorted map) (key : κ) (value : ν) :
    Sorted (assign key value map) := by
  induction map with
  | nil => exact List.pairwise_singleton _ _
  | cons first map ih =>
    obtain ⟨hfirst, hmap⟩ := List.pairwise_cons.1 h
    simp only [SortedMap.assign]
    split_ifs with hlt heq
    · refine List.pairwise_cons.2 ⟨fun entry hentry => ?_, h⟩
      rcases List.mem_cons.1 hentry with rfl | hentry
      · exact hlt
      · exact hlt.trans (hfirst entry hentry)
    · refine List.pairwise_cons.2 ⟨fun entry hentry => ?_, hmap⟩
      rw [heq]
      exact hfirst entry hentry
    · refine List.pairwise_cons.2 ⟨fun entry hentry => ?_, ih hmap⟩
      rcases mem_of_mem_assign hentry with rfl | hentry
      · exact lt_of_le_of_ne (not_lt.1 hlt) (Ne.symm heq)
      · exact hfirst entry hentry

/-- A new key gets a place of its own. -/
lemma assign_perm {key : κ} {map : List (κ × ν)} (value : ν) (h : ∀ entry ∈ map, entry.1 ≠ key) :
    (assign key value map).Perm ((key, value) :: map) := by
  induction map with
  | nil => exact .refl _
  | cons first map ih =>
    simp only [assign]
    split_ifs with hlt heq
    · exact .refl _
    · exact absurd heq.symm (h first List.mem_cons_self)
    · have hmap := ih fun entry hentry => h entry (List.mem_cons_of_mem first hentry)
      exact (hmap.cons first).trans (.swap ..)

lemma sorted_ofList (entries : List (κ × ν)) : Sorted (ofList entries) := by
  induction entries using List.reverseRecOn with
  | nil => exact .nil
  | append_singleton entries entry ih =>
    rw [ofList, List.foldl_append]
    exact ih.assign entry.1 entry.2

lemma ofList_perm {entries : List (κ × ν)} (h : (entries.map Prod.fst).Nodup) :
    (ofList entries).Perm entries := by
  induction entries using List.reverseRecOn with
  | nil => exact .refl _
  | append_singleton entries entry ih =>
    rw [List.map_append, List.nodup_append] at h
    obtain ⟨hentries, -, hdisjoint⟩ := h
    have hperm := ih hentries
    -- the last key has not been there, so its entry replaces none
    have hnew : ∀ other ∈ ofList entries, other.1 ≠ entry.1 := fun other hother =>
      hdisjoint other.1 (List.mem_map_of_mem (hperm.mem_iff.1 hother)) entry.1
        (List.mem_singleton_self _)
    have hlast : ofList (entries ++ [entry]) = assign entry.1 entry.2 (ofList entries) := by
      rw [ofList, List.foldl_append]
      rfl
    rw [hlast]
    exact (assign_perm entry.2 hnew).trans ((hperm.cons entry).trans
      (List.perm_append_singleton entry entries).symm)

lemma Sorted.nodup {map : List (κ × ν)} (h : Sorted map) : (map.map Prod.fst).Nodup :=
  List.pairwise_map.2 (h.imp fun hlt => hlt.ne)

/-- **The order in which the entries come does not matter.** -/
theorem ofList_eq_of_perm {entries map : List (κ × ν)} (h : entries.Perm map) (hmap : Sorted map) :
    ofList entries = map := by
  have hnodup : (entries.map Prod.fst).Nodup := (h.map Prod.fst).nodup_iff.2 hmap.nodup
  -- both have the same entries in strict order
  refine ((ofList_perm hnodup).trans h).eq_of_pairwise (fun a b _ _ hab hba => ?_)
    (sorted_ofList entries) hmap
  exact absurd hab hba.not_gt

end TradingEngine.Lib.SortedMap
