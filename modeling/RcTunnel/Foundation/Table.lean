import Mathlib.Data.List.AList

/-!
# Tables of running activities

A system keeps its running requests, sessions or connections in a table from
names to entries.  Starting one fills a slot with {lit}`Function.update`, ending
one empties it.  The rules invert a lookup in the table after either change.

A table with a bound on its size is a finite map, whose keys are counted.
-/

namespace RcTunnel
namespace Foundation

variable {Key : Type u} {Entry : Type v} [DecidableEq Key]

theorem lookup_started {table : Key -> Option Entry} {i j : Key} {x y : Entry}
    (h : Function.update table i (some x) j = some y) :
    (j = i ∧ y = x) ∨ (j ≠ i ∧ table j = some y) := by
  by_cases hji : j = i
  · subst hji
    rw [Function.update_self] at h
    exact Or.inl ⟨rfl, (Option.some.inj h).symm⟩
  · rw [Function.update_of_ne hji] at h
    exact Or.inr ⟨hji, h⟩

theorem lookup_ended {table : Key -> Option Entry} {i j : Key} {y : Entry}
    (h : Function.update table i none j = some y) :
    j ≠ i ∧ table j = some y := by
  by_cases hji : j = i
  · subst hji
    rw [Function.update_self] at h
    cases h
  · rw [Function.update_of_ne hji] at h
    exact ⟨hji, h⟩

/-!
# The size of a finite table
-/

section Finite

variable {Value : Key -> Type v}

theorem length_keys_erase_le (table : AList Value) (key : Key) :
    (table.erase key).keys.length ≤ table.keys.length := by
  rw [AList.keys_erase]
  exact List.length_erase_le

theorem length_keys_insert_le (table : AList Value) (key : Key) (value : Value key) :
    (table.insert key value).keys.length ≤ table.keys.length + 1 := by
  rw [AList.keys_insert]
  exact Nat.succ_le_succ List.length_erase_le

/-- A new value of a key that is there takes no place. -/
theorem length_keys_insert_of_mem {table : AList Value} {key : Key} (h : key ∈ table)
    (value : Value key) : (table.insert key value).keys.length = table.keys.length := by
  have hmem := AList.mem_keys.mp h
  rw [AList.keys_insert, List.length_cons, List.length_erase_of_mem hmem]
  exact Nat.sub_add_cancel (List.length_pos_of_mem hmem)

theorem length_keys_insert_of_not_mem {table : AList Value} {key : Key} (h : ¬ key ∈ table)
    (value : Value key) : (table.insert key value).keys.length = table.keys.length + 1 := by
  rw [AList.keys_insert, List.erase_of_not_mem fun hkey => h (AList.mem_keys.mpr hkey)]
  rfl

theorem length_keys_foldl_erase (entries : List (Sigma Value)) (table : AList Value) :
    (entries.foldl (fun table entry => table.erase entry.1) table).keys.length ≤
      table.keys.length := by
  induction entries generalizing table with
  | nil => exact Nat.le_refl _
  | cons entry rest ih => exact Nat.le_trans (ih _) (length_keys_erase_le table entry.1)

theorem lookup_foldl_erase (entries : List (Sigma Value)) (table : AList Value) (key : Key) :
    (entries.foldl (fun table entry => table.erase entry.1) table).lookup key =
      if key ∈ entries.keys then none else table.lookup key := by
  induction entries generalizing table with
  | nil => rfl
  | cons entry rest ih =>
      rw [List.foldl_cons, ih, List.keys_cons]
      by_cases hhead : key = entry.1
      · have hgone : (table.erase entry.1).lookup key = none := by
          rw [hhead, AList.lookup_erase]
        simp [hhead, hgone]
      · simp [hhead, AList.lookup_erase_ne hhead]

end Finite

end Foundation
end RcTunnel
