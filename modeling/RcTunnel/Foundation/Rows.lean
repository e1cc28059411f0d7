import Mathlib.Algebra.BigOperators.Group.List.Basic
import Mathlib.Algebra.Ring.Int.Defs
import Mathlib.Data.List.Nodup
import Mathlib.Data.List.Pairwise

/-!
# Tables of rows

A database table is a list of rows with a key.  A request appends a row, deletes
some, or rewrites the one with a given key.  A relation that any two rows of a
table satisfy is kept by deleting, by appending a row that satisfies it with all
others, and by rewriting a row to one that does.
-/

namespace RcTunnel
namespace Foundation

variable {Row : Type u} {key : Row -> Nat} {R : Row -> Row -> Prop}

/-- The row with the key, rewritten. -/
def rewriteRow (key : Row -> Nat) (id : Nat) (f : Row -> Row) (rows : List Row) :
    List Row :=
  rows.map fun r => if key r = id then f r else r

theorem mem_rewriteRow {id : Nat} {f : Row -> Row} {rows : List Row} {r : Row}
    (h : r ∈ rewriteRow key id f rows) :
    exists old, old ∈ rows ∧ ((key old = id ∧ r = f old) ∨ (key old ≠ id ∧ r = old)) := by
  rcases List.mem_map.mp h with ⟨old, hold, rfl⟩
  refine ⟨old, hold, ?_⟩
  by_cases hid : key old = id
  · exact Or.inl ⟨hid, if_pos hid⟩
  · exact Or.inr ⟨hid, if_neg hid⟩

theorem rewritten_mem {id : Nat} {f : Row -> Row} {rows : List Row} {r : Row}
    (h : r ∈ rows) (hid : key r = id) : f r ∈ rewriteRow key id f rows :=
  List.mem_map.mpr ⟨r, h, if_pos hid⟩

/-- Changing every row in place leaves each to be found by its key. -/
theorem find?_mapRow {id : Nat} {f : Row -> Row} {rows : List Row}
    (hkey : forall r, key (f r) = key r) :
    (rows.map f).find? (fun r => key r = id) = (rows.find? fun r => key r = id).map f := by
  have hsame : ((fun r => decide (key r = id)) ∘ f) = fun r => decide (key r = id) := by
    funext r
    simp only [Function.comp, hkey]
  rw [List.find?_map, hsame]

theorem find?_rewriteRow {id j : Nat} {f : Row -> Row} {rows : List Row}
    (hkey : forall r, key (f r) = key r) :
    (rewriteRow key id f rows).find? (fun r => key r = j) =
      (rows.find? fun r => key r = j).map fun r => if key r = id then f r else r := by
  apply find?_mapRow
  intro r
  split
  · exact hkey r
  · rfl

theorem key_of_find {rows : List Row} {id : Nat} {r : Row}
    (h : rows.find? (fun r => key r = id) = some r) : key r = id :=
  of_decide_eq_true (List.find?_some (p := fun r => decide (key r = id)) h)

/-- Deleting the row of a key leaves the others to be found. -/
theorem find?_deleted {rows : List Row} {deleted id : Nat} {r : Row}
    (h : (rows.filter fun r => key r ≠ deleted).find? (fun r => key r = id) = some r) :
    id ≠ deleted ∧ rows.find? (fun r => key r = id) = some r := by
  have hid := key_of_find h
  have hmem := List.mem_filter.mp (List.mem_of_find?_eq_some h)
  have hne : id ≠ deleted := hid ▸ of_decide_eq_true hmem.right
  rw [List.find?_filter] at h
  refine ⟨hne, Eq.trans (congrArg (rows.find? ·) ?_) h⟩
  funext r'
  by_cases hr' : key r' = id
  · simp [hr', hne]
  · simp [hr']

/-- An appended row is found by its key, if no other has it. -/
theorem find?_appended {rows : List Row} {new r : Row} {id : Nat}
    (h : (rows ++ [new]).find? (fun r => key r = id) = some r) :
    rows.find? (fun r => key r = id) = some r ∨ (key new = id ∧ r = new) := by
  rw [List.find?_append, Option.or_eq_some_iff] at h
  rcases h with hold | ⟨-, hnew⟩
  · exact Or.inl hold
  · have hmem := List.mem_singleton.mp (List.mem_of_find?_eq_some hnew)
    subst hmem
    exact Or.inr ⟨key_of_find hnew, rfl⟩

/-- The one row that satisfies a predicate is the row that is found. -/
theorem find?_of_unique {p : Row -> Bool} {rows : List Row}
    (hunique : forall r, r ∈ rows -> forall r', r' ∈ rows -> p r = true -> p r' = true -> r = r')
    (r : Row) : rows.find? p = some r <-> r ∈ rows ∧ p r = true := by
  constructor
  · intro h
    exact ⟨List.mem_of_find?_eq_some h, List.find?_some h⟩
  · rintro ⟨hmem, hr⟩
    cases hfind : rows.find? p with
    | none => exact absurd hr (List.find?_eq_none.mp hfind r hmem)
    | some r' =>
        rw [hunique r hmem r' (List.mem_of_find?_eq_some hfind) hr (List.find?_some hfind)]

/-- It is found from the end as well. -/
theorem find?_reverse_of_unique {p : Row -> Bool} {rows : List Row}
    (hunique : forall r, r ∈ rows -> forall r', r' ∈ rows -> p r = true -> p r' = true ->
      r = r') : rows.reverse.find? p = rows.find? p := by
  apply Option.ext
  intro r
  have hreverse : forall r, r ∈ rows.reverse -> forall r', r' ∈ rows.reverse ->
      p r = true -> p r' = true -> r = r' :=
    fun r hr r' hr' => hunique r (List.mem_reverse.mp hr) r' (List.mem_reverse.mp hr')
  rw [find?_of_unique hreverse, find?_of_unique hunique, List.mem_reverse]

theorem keys_rewriteRow {id : Nat} {f : Row -> Row} {rows : List Row}
    (hkey : forall r, key (f r) = key r) :
    (rewriteRow key id f rows).map key = rows.map key := by
  unfold rewriteRow
  rw [List.map_map]
  apply List.map_congr_left
  intro r _
  simp only [Function.comp]
  split
  · exact hkey r
  · rfl

theorem nodup_keys_rewriteRow {id : Nat} {f : Row -> Row} {rows : List Row}
    (h : (rows.map key).Nodup) (hkey : forall r, key (f r) = key r) :
    ((rewriteRow key id f rows).map key).Nodup := by
  rw [keys_rewriteRow hkey]
  exact h

theorem nodup_keys_append {rows : List Row} {r : Row} (h : (rows.map key).Nodup)
    (hfresh : rows.find? (fun r' => key r' = key r) = none) :
    ((rows ++ [r]).map key).Nodup := by
  rw [List.map_append, List.nodup_append]
  refine ⟨h, List.nodup_singleton _, ?_⟩
  intro k hk k' hk' heq
  rcases List.mem_map.mp hk with ⟨r', hr', rfl⟩
  rw [List.map_singleton, List.mem_singleton] at hk'
  have hne := List.find?_eq_none.mp hfresh r' hr'
  rw [decide_eq_true_eq] at hne
  exact hne (heq.trans hk')

theorem nodup_keys_filter {rows : List Row} {q : Row -> Bool} (h : (rows.map key).Nodup) :
    ((rows.filter q).map key).Nodup :=
  h.sublist (List.filter_sublist.map key)

/-!
# Sums down a table
-/

/-- The sum of a column. -/
def total (f : Row -> Int) (rows : List Row) : Int := (rows.map f).sum

theorem total_append (f : Row -> Int) (rows more : List Row) :
    total f (rows ++ more) = total f rows + total f more := by
  simp [total]

theorem total_mono {f g : Row -> Int} {rows : List Row}
    (h : forall r, r ∈ rows -> f r ≤ g r) : total f rows ≤ total g rows := by
  induction rows with
  | nil => exact Int.le_refl 0
  | cons r rest ih =>
      have hhead := h r List.mem_cons_self
      have htail := ih fun r' hr' => h r' (List.mem_cons_of_mem r hr')
      simp only [total, List.map_cons, List.sum_cons] at htail ⊢
      omega

theorem total_nonneg {f : Row -> Int} {rows : List Row}
    (h : forall r, r ∈ rows -> 0 ≤ f r) : 0 ≤ total f rows := by
  induction rows with
  | nil => exact Int.le_refl 0
  | cons r rest ih =>
      have hhead := h r List.mem_cons_self
      have htail := ih fun r' hr' => h r' (List.mem_cons_of_mem r hr')
      simp only [total, List.map_cons, List.sum_cons] at htail ⊢
      omega

/-- Rows that are removed do not lower the sum exactly when they add nothing to it. -/
theorem total_le_filter_iff {f : Row -> Int} {q : Row -> Bool} {rows : List Row}
    (h : forall r, r ∈ rows -> 0 ≤ f r) :
    (total f rows ≤ total f (rows.filter q)) <->
      forall r, r ∈ rows -> q r = false -> f r = 0 := by
  have hle : forall rest : List Row, (forall r, r ∈ rest -> 0 ≤ f r) ->
      total f (rest.filter q) ≤ total f rest := by
    intro rest hrest
    induction rest with
    | nil => exact Int.le_refl 0
    | cons r rest ih =>
        have hhead := hrest r List.mem_cons_self
        have htail := ih fun r' hr' => hrest r' (List.mem_cons_of_mem r hr')
        rw [List.filter_cons]
        split <;> simp only [total, List.map_cons, List.sum_cons] at htail ⊢ <;> omega
  induction rows with
  | nil => simp
  | cons r rest ih =>
      have hhead := h r List.mem_cons_self
      have hrest := fun r' hr' => h r' (List.mem_cons_of_mem r hr')
      have hsum := hle rest hrest
      have htail := ih hrest
      rw [List.filter_cons, List.forall_mem_cons]
      cases hq : q r with
      | true =>
          simp only [total, if_true, List.map_cons, List.sum_cons] at htail ⊢
          constructor
          · intro hcons
            exact ⟨fun hfalse => (by cases hfalse), htail.mp (by omega)⟩
          · intro hboth
            have hlast := htail.mpr hboth.right
            omega
      | false =>
          simp only [total, Bool.false_eq_true, if_false, List.map_cons, List.sum_cons]
            at hsum htail ⊢
          constructor
          · intro hcons
            exact ⟨fun _ => by omega, htail.mp (by omega)⟩
          · intro hboth
            have hzero := hboth.left trivial
            have hlast := htail.mpr hboth.right
            omega

/-!
# The part of a table that a change does not touch
-/

section Parts

variable {p : Row -> Bool}

theorem filter_rewriteRow {id : Nat} {f : Row -> Row} {rows : List Row}
    (h : forall r, r ∈ rows -> key r = id -> p r = false ∧ p (f r) = false) :
    (rewriteRow key id f rows).filter p = rows.filter p := by
  induction rows with
  | nil => rfl
  | cons r rest ih =>
      have hrest := ih fun r' hr' => h r' (List.mem_cons_of_mem r hr')
      unfold rewriteRow at hrest ⊢
      rw [List.map_cons]
      by_cases hid : key r = id
      · rcases h r List.mem_cons_self hid with ⟨hold, hnew⟩
        rw [if_pos hid, List.filter_cons_of_neg (by simp [hnew]),
          List.filter_cons_of_neg (by simp [hold]), hrest]
      · rw [if_neg hid, List.filter_cons, List.filter_cons, hrest]

theorem filter_removed {q : Row -> Bool} {rows : List Row}
    (h : forall r, r ∈ rows -> p r = true -> q r = true) :
    (rows.filter q).filter p = rows.filter p := by
  rw [List.filter_filter]
  apply List.filter_congr
  intro r hr
  cases hp : p r with
  | false => rfl
  | true => simp [h r hr hp]

theorem filter_appended {rows : List Row} {r : Row} (h : p r = false) :
    (rows ++ [r]).filter p = rows.filter p := by
  rw [List.filter_append, List.filter_cons_of_neg (by simp [h]), List.filter_nil,
    List.append_nil]

end Parts

/-- Rows with different keys, related both ways. -/
def Apart (key : Row -> Nat) (R : Row -> Row -> Prop) (r r' : Row) : Prop :=
  key r ≠ key r' ∧ R r r' ∧ R r' r

instance : Std.Symm (Apart key R) where
  symm _ _ h := ⟨h.left.symm, h.right.right, h.right.left⟩

/-- What holds of any two rows of a table. -/
theorem apart_of_mem {rows : List Row} (h : rows.Pairwise (Apart key R)) {r r' : Row}
    (hr : r ∈ rows) (hr' : r' ∈ rows) (hne : key r ≠ key r') : R r r' := by
  exact (h.forall hr hr' fun heq => hne (heq ▸ rfl)).right.left

theorem eq_of_key_eq {rows : List Row} (h : rows.Pairwise (Apart key R)) {r r' : Row}
    (hr : r ∈ rows) (hr' : r' ∈ rows) (heq : key r = key r') : r = r' := by
  by_contra hne
  exact (h.forall hr hr' hne).left heq

theorem pairwise_append_row {rows : List Row} {r : Row}
    (h : rows.Pairwise (Apart key R)) (hr : forall r', r' ∈ rows -> Apart key R r' r) :
    (rows ++ [r]).Pairwise (Apart key R) := by
  rw [List.pairwise_append]
  refine ⟨h, List.pairwise_singleton _ _, ?_⟩
  intro r' hr' last hlast
  rw [List.mem_singleton.mp hlast]
  exact hr r' hr'

theorem pairwise_rewriteRow {rows : List Row} {id : Nat} {f : Row -> Row}
    (h : rows.Pairwise (Apart key R)) (hkey : forall r, key (f r) = key r)
    (hf : forall r, r ∈ rows -> key r = id -> forall r', r' ∈ rows -> key r' ≠ id ->
      R (f r) r' ∧ R r' (f r)) :
    (rewriteRow key id f rows).Pairwise (Apart key R) := by
  unfold rewriteRow
  rw [List.pairwise_map]
  apply h.imp_of_mem
  intro r r' hr hr' hapart
  by_cases hid : key r = id
  · have hid' : key r' ≠ id := fun heq => hapart.left (hid.trans heq.symm)
    rw [if_pos hid, if_neg hid']
    exact ⟨by rw [hkey]; exact hapart.left, hf r hr hid r' hr' hid'⟩
  · rw [if_neg hid]
    by_cases hid' : key r' = id
    · rw [if_pos hid']
      exact ⟨by rw [hkey]; exact hapart.left, (hf r' hr' hid' r hr hid).symm⟩
    · rw [if_neg hid']
      exact hapart

/-- Rewriting that the relation does not see. -/
theorem pairwise_map_row {rows : List Row} {f : Row -> Row}
    (h : rows.Pairwise (Apart key R)) (hkey : forall r, key (f r) = key r)
    (hf : forall r r', R r r' -> R (f r) (f r')) :
    (rows.map f).Pairwise (Apart key R) := by
  rw [List.pairwise_map]
  apply h.imp
  intro r r' hapart
  exact ⟨by rw [hkey, hkey]; exact hapart.left, hf r r' hapart.right.left,
    hf r' r hapart.right.right⟩

/-- A row that is replaced is counted for what it is. -/
theorem countP_replaced {p : Row -> Bool} {rows : List Row} {i : Nat} {old new : Row}
    (h : rows[i]? = some old) :
    (rows.set i new).countP p + (if p old = true then 1 else 0) =
      rows.countP p + if p new = true then 1 else 0 := by
  rcases List.getElem?_eq_some_iff.mp h with ⟨hlt, hget⟩
  rw [List.countP_set hlt, hget]
  by_cases hold : p old = true
  · have hpos : 0 < rows.countP p :=
      List.countP_pos_iff.mpr ⟨old, List.mem_of_getElem? h, hold⟩
    rw [if_pos hold]
    omega
  · rw [if_neg hold]
    omega

end Foundation
end RcTunnel
