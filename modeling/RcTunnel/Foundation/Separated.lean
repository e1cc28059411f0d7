import Mathlib.Data.List.Basic

/-!
# Texts with separators

A text with a separator determines what stands before the first one.  Joining texts by a
separator forgets where one ends and the next begins: two lists are joined to the same text
exactly when cutting all their texts at the separator gives the same words.
-/

namespace RcTunnel
namespace Foundation

variable {α : Type u} {sep : α}

/-- When two texts with a separator each agree, the separators stand in the same place, or
one of them stands before the other. -/
theorem append_sep_cases {s t u v : List α} (h : s ++ sep :: u = t ++ sep :: v) :
    (s = t ∧ u = v) ∨ (exists z, t = s ++ sep :: z ∧ u = z ++ sep :: v) ∨
      exists z, s = t ++ sep :: z ∧ v = z ++ sep :: u := by
  rcases List.append_eq_append_iff.mp h with ⟨w, rfl, hrest⟩ | ⟨w, rfl, hrest⟩
  · cases w with
    | nil => exact Or.inl ⟨(List.append_nil s).symm, by simpa using hrest⟩
    | cons c z =>
        rw [List.cons_append, List.cons.injEq] at hrest
        exact Or.inr (Or.inl ⟨z, by rw [hrest.left], hrest.right⟩)
  · cases w with
    | nil => exact Or.inl ⟨List.append_nil t, by simpa using hrest.symm⟩
    | cons c z =>
        rw [List.cons_append, List.cons.injEq] at hrest
        exact Or.inr (Or.inr ⟨z, by rw [hrest.left], hrest.right⟩)

/-- The first separator of a text stands in the same place as one of the other, or before. -/
theorem first_sep_cases {s t u v : List α} (h : s ++ sep :: u = t ++ sep :: v)
    (hs : sep ∉ s) : (s = t ∧ u = v) ∨ exists z, t = s ++ sep :: z ∧ u = z ++ sep :: v := by
  rcases append_sep_cases h with hsame | hafter | ⟨z, rfl, -⟩
  · exact Or.inl hsame
  · exact Or.inr hafter
  · exact absurd (List.mem_append_right t List.mem_cons_self) hs

/-- Up to their first separators the texts agree, and after them. -/
theorem first_sep_inj {s t u v : List α} (h : s ++ sep :: u = t ++ sep :: v) (hs : sep ∉ s)
    (ht : sep ∉ t) : s = t ∧ u = v := by
  rcases first_sep_cases h hs with hsame | ⟨z, rfl, -⟩
  · exact hsame
  · exact absurd (List.mem_append_right s List.mem_cons_self) ht

/-- After their last separators the texts agree. -/
theorem last_sep_inj {s t u v : List α} (h : s ++ sep :: u = t ++ sep :: v) (hu : sep ∉ u)
    (hv : sep ∉ v) : u = v := by
  rcases append_sep_cases h with ⟨-, hsame⟩ | ⟨z, -, rfl⟩ | ⟨z, -, rfl⟩
  · exact hsame
  · exact absurd (List.mem_append_right z List.mem_cons_self) hu
  · exact absurd (List.mem_append_right z List.mem_cons_self) hv

/-!
# Joined texts
-/

theorem mem_joined {c : α} {texts : List (List α)} (h : c ∈ List.intercalate [sep] texts) :
    c = sep ∨ exists t, t ∈ texts ∧ c ∈ t := by
  induction texts with
  | nil => cases h
  | cons first rest ih =>
      cases rest with
      | nil =>
          have hc : c ∈ first := by simpa [List.intercalate] using h
          exact Or.inr ⟨first, List.mem_cons_self, hc⟩
      | cons second others =>
          rw [List.intercalate_cons_cons, List.mem_append, List.mem_append] at h
          rcases h with (hc | hsep) | hrest
          · exact Or.inr ⟨first, List.mem_cons_self, hc⟩
          · exact Or.inl (List.mem_singleton.mp hsep)
          · exact (ih hrest).imp_right fun ⟨t, ht, hc⟩ => ⟨t, List.mem_cons_of_mem _ ht, hc⟩

theorem mem_joined_of_mem {c : α} {texts : List (List α)} {t : List α} (ht : t ∈ texts)
    (hc : c ∈ t) : c ∈ List.intercalate [sep] texts := by
  induction texts with
  | nil => cases ht
  | cons first rest ih =>
      cases rest with
      | nil =>
          rw [List.mem_singleton.mp ht] at hc
          simpa using hc
      | cons second others =>
          rw [List.intercalate_cons_cons]
          rcases List.mem_cons.mp ht with rfl | hrest
          · simp [hc]
          · exact List.mem_append_right _ (ih hrest)

/-- Joined texts that are not empty are empty only if there are none. -/
theorem joined_ne_nil {texts : List (List α)} (hne : texts ≠ [])
    (htexts : forall t, t ∈ texts -> t ≠ []) : List.intercalate [sep] texts ≠ [] := by
  cases texts with
  | nil => exact absurd rfl hne
  | cons first rest =>
      have hfirst := htexts first List.mem_cons_self
      cases rest with
      | nil => simpa [List.intercalate] using hfirst
      | cons second others => simp [List.intercalate]

section Words

variable [DecidableEq α]

/-- The texts cut at the separator; no text at all is one empty word. -/
def wordsAt (sep : α) (texts : List (List α)) : List (List α) :=
  if texts = [] then [[]] else texts.flatMap fun t => t.splitOn sep

theorem splitOn_intercalate_eq_wordsAt (texts : List (List α)) :
    (List.intercalate [sep] texts).splitOn sep = wordsAt sep texts := by
  induction texts with
  | nil => simp [wordsAt]
  | cons t rest ih =>
      cases rest with
      | nil => simp [wordsAt]
      | cons t' rest =>
          rw [List.intercalate_cons_cons, List.append_assoc, List.singleton_append,
            List.splitOn_append_cons_self, ih]
          simp [wordsAt]

/-- Joining forgets nothing but the cuts. -/
theorem intercalate_inj_iff (xs ys : List (List α)) :
    List.intercalate [sep] xs = List.intercalate [sep] ys <-> wordsAt sep xs = wordsAt sep ys := by
  rw [← splitOn_intercalate_eq_wordsAt, ← splitOn_intercalate_eq_wordsAt]
  constructor
  · exact congrArg (List.splitOn sep)
  · intro h
    have hjoined := congrArg (List.intercalate [sep]) h
    rwa [List.intercalate_splitOn, List.intercalate_splitOn] at hjoined

end Words

end Foundation
end RcTunnel
