import Mathlib.Data.List.Pairwise
import Mathlib.Data.String.Basic
import Statechart.Json.Basic

/-!
# Objects as maps

The fields of an object are kept in the order of their names, each name once, and the ways in which
they are written keep it so.

* `Fields.Sorted`: the names of an object increase; `sorted_set`, `sorted_erase`, `sorted_merge`;
* `Fields.get?_eq_some_iff`: what is found under a name is the one field with this name;
* `Fields.get?_merge`: of two merged objects the second one counts;
* `Fields.get?_ofList`: if each name is given once, sorting the fields does not change what is found.
-/

namespace Statechart.Fields

/-- The names increase, so no name stands twice. -/
def Sorted (fields : Fields) : Prop := (fields.map Prod.fst).Pairwise (· < ·)

variable {fields base top : Fields} {pairs : List (String × Json)} {name : String} {v : Json}

theorem sorted_nil : Sorted [] := .nil

theorem Sorted.nodup (h : fields.Sorted) : (fields.map Prod.fst).Nodup := h.imp ne_of_lt

theorem mem_keys_set {value : Json} {k : String} :
    k ∈ (set fields name value).map Prod.fst ↔ k = name ∨ k ∈ fields.map Prod.fst := by
  induction fields with
  | nil => simp [set]
  | cons p rest ih =>
    unfold set
    split
    · next h => simp [h]
    · split
      · simp
      · rw [List.map_cons, List.map_cons, List.mem_cons, ih, List.mem_cons]
        tauto

theorem sorted_set (h : fields.Sorted) (name : String) (value : Json) :
    (set fields name value).Sorted := by
  induction fields with
  | nil => simp [set, Sorted]
  | cons p rest ih =>
    obtain ⟨hp, hrest⟩ := List.pairwise_cons.1 h
    unfold set
    split
    · next hk => exact hk ▸ h
    · next hk =>
      split
      · next hlt =>
        refine List.pairwise_cons.2 ⟨fun k hk' => ?_, h⟩
        rcases List.mem_cons.1 hk' with rfl | hk'
        · exact hlt
        · exact hlt.trans (hp k hk')
      · next hlt =>
        refine List.pairwise_cons.2 ⟨fun k hk' => ?_, ih hrest⟩
        rcases mem_keys_set.1 hk' with rfl | hk'
        · exact lt_of_le_of_ne (not_lt.1 hlt) hk
        · exact hp k hk'

theorem erase_sublist (fields : Fields) (name : String) : (erase fields name).Sublist fields := by
  induction fields with
  | nil => exact .slnil
  | cons p rest ih =>
    unfold erase
    split
    · exact ih.cons _
    · exact ih.cons_cons _

theorem sorted_erase (h : fields.Sorted) (name : String) : (erase fields name).Sorted :=
  List.Pairwise.sublist ((erase_sublist fields name).map Prod.fst) h

theorem sorted_merge (h : base.Sorted) (top : Fields) : (merge base top).Sorted := by
  unfold merge
  induction top generalizing base with
  | nil => exact h
  | cons p rest ih => exact ih (sorted_set h p.1 p.2)

theorem sorted_ofList (pairs : List (String × Json)) : (ofList pairs).Sorted :=
  sorted_merge sorted_nil pairs

/-! ### What is found -/

theorem get?_eq_none (h : name ∉ pairs.map Prod.fst) : get? pairs name = none := by
  induction pairs with
  | nil => rfl
  | cons p rest ih =>
    rw [List.map_cons, List.mem_cons, not_or] at h
    simp [get?, Ne.symm h.1, ih h.2]

theorem mem_of_get? (h : get? pairs name = some v) : (name, v) ∈ pairs := by
  induction pairs with
  | nil => cases h
  | cons p rest ih =>
    unfold get? at h
    split at h
    · next hp =>
      cases h
      exact hp ▸ List.mem_cons_self ..
    · exact List.mem_cons_of_mem _ (ih h)

/-- What is found under a name is the one field with this name. -/
theorem get?_eq_some_iff (h : (pairs.map Prod.fst).Nodup) :
    get? pairs name = some v ↔ (name, v) ∈ pairs := by
  refine ⟨mem_of_get?, fun hmem => ?_⟩
  induction pairs with
  | nil => cases hmem
  | cons p rest ih =>
    rw [List.map_cons, List.nodup_cons] at h
    rcases List.mem_cons.1 hmem with rfl | hmem
    · simp [get?]
    · have hne : p.1 ≠ name := fun heq => h.1 (heq ▸ List.mem_map_of_mem hmem)
      rw [get?, if_neg hne, ih h.2 hmem]

/-- Of two merged objects the second one counts. -/
theorem get?_merge (h : (top.map Prod.fst).Nodup) (base : Fields) (name : String) :
    get? (merge base top) name = (get? top name).or (get? base name) := by
  unfold merge
  induction top generalizing base with
  | nil => rfl
  | cons p rest ih =>
    rw [List.map_cons, List.nodup_cons] at h
    rw [List.foldl_cons, ih h.2, get?_set]
    by_cases hp : p.1 = name
    · rw [get?_eq_none (hp ▸ h.1)]
      simp [get?, hp]
    · simp [get?, hp, Ne.symm hp]

/-- If each name is given once, sorting the fields does not change what is found. -/
theorem get?_ofList (h : (pairs.map Prod.fst).Nodup) :
    get? (ofList pairs) name = get? pairs name :=
  (get?_merge h [] name).trans Option.or_none

end Statechart.Fields
