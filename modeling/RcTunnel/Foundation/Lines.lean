import Mathlib.Data.List.Basic

/-!
# The complete lines of a growing text

A line is complete when its separator is there.  The lines of a text are scanned with the
position where the current one begins and what it has so far, so that a text that grows
only gets more lines.
-/

namespace RcTunnel
namespace Foundation

variable {α : Type u} [DecidableEq α] {sep : α}

/-- The complete lines with their positions, after a line that begins earlier. -/
def linesFrom (sep : α) : Nat -> List α -> List α -> List (Nat × List α)
  | _, _, [] => []
  | start, begun, c :: rest =>
      if c = sep then
        (start, begun ++ [c]) :: linesFrom sep (start + begun.length + 1) [] rest
      else
        linesFrom sep start (begun ++ [c]) rest

/-- The position of the line that is not complete, and what it has. -/
def unfinished (sep : α) : Nat -> List α -> List α -> Nat × List α
  | start, begun, [] => (start, begun)
  | start, begun, c :: rest =>
      if c = sep then
        unfinished sep (start + begun.length + 1) [] rest
      else
        unfinished sep start (begun ++ [c]) rest

/-- A line up to its separator, or all there is. -/
def readline (sep : α) : List α -> List α
  | [] => []
  | c :: rest => if c = sep then [c] else c :: readline sep rest

/-- A line begins here. -/
def LineStart (sep : α) (t : List α) (offset : Nat) : Prop :=
  offset ≤ t.length ∧ (t.take offset = [] ∨ (t.take offset).getLast? = some sep)

instance (t : List α) (offset : Nat) : Decidable (LineStart sep t offset) :=
  inferInstanceAs (Decidable (_ ∧ (_ ∨ _)))

section Scan

variable {start : Nat} {begun t : List α}

theorem linesFrom_append (u : List α) :
    linesFrom sep start begun (t ++ u) = linesFrom sep start begun t ++
      linesFrom sep (unfinished sep start begun t).1 (unfinished sep start begun t).2 u := by
  induction t generalizing start begun with
  | nil => rfl
  | cons c rest ih =>
      rw [List.cons_append, linesFrom, linesFrom, unfinished]
      split
      · rw [ih, List.cons_append]
      · exact ih

theorem unfinished_append (u : List α) :
    unfinished sep start begun (t ++ u) =
      unfinished sep (unfinished sep start begun t).1 (unfinished sep start begun t).2 u := by
  induction t generalizing start begun with
  | nil => rfl
  | cons c rest ih =>
      rw [List.cons_append, unfinished, unfinished]
      split
      · exact ih
      · exact ih

theorem unfinished_end : (unfinished sep start begun t).1 +
    (unfinished sep start begun t).2.length = start + begun.length + t.length := by
  induction t generalizing start begun with
  | nil => rfl
  | cons c rest ih =>
      rw [unfinished]
      split
      · rw [ih, List.length_nil, List.length_cons]
        omega
      · rw [ih, List.length_append, List.length_singleton, List.length_cons]
        omega

/-- After a separator no line is begun. -/
theorem unfinished_concat : unfinished sep start begun (t ++ [sep]) =
    (start + begun.length + t.length + 1, []) := by
  have hend : (unfinished sep start begun t).1 + (unfinished sep start begun t).2.length =
      start + begun.length + t.length := unfinished_end
  rw [unfinished_append]
  simp [unfinished, hend]

/-- Where a line begins and ends. -/
theorem bounds_of_mem {line : Nat × List α} (h : line ∈ linesFrom sep start begun t) :
    start ≤ line.1 ∧ line.1 + line.2.length ≤ start + begun.length + t.length ∧
      sep ∈ line.2 := by
  induction t generalizing start begun with
  | nil => cases h
  | cons c rest ih =>
      rw [linesFrom] at h
      split at h
      · rename_i hsep
        rcases List.mem_cons.mp h with rfl | hrest
        · simp only [hsep, List.length_append, List.length_cons, List.length_nil,
            List.mem_append, List.mem_singleton, or_true, and_true]
          omega
        · rcases ih hrest with ⟨hstart, hend, hmem⟩
          simp only [List.length_nil, List.length_cons] at hend ⊢
          exact ⟨by omega, by omega, hmem⟩
      · rcases ih h with ⟨hstart, hend, hmem⟩
        simp only [List.length_append, List.length_cons, List.length_nil] at hend ⊢
        exact ⟨hstart, by omega, hmem⟩

/-- Each line begins where the one before it ends, or later. -/
theorem pairwise_linesFrom :
    (linesFrom sep start begun t).Pairwise fun a b => a.1 + a.2.length ≤ b.1 := by
  induction t generalizing start begun with
  | nil => exact List.Pairwise.nil
  | cons c rest ih =>
      rw [linesFrom]
      split
      · rw [List.pairwise_cons]
        constructor
        · intro line hline
          have hstart := (bounds_of_mem hline).left
          rw [List.length_append, List.length_singleton]
          exact hstart
        · exact ih
      · exact ih

/-- A line begins where the scan does, or after a separator. -/
theorem start_of_mem {line : Nat × List α} (h : line ∈ linesFrom sep start begun t) :
    line.1 = start ∨ exists before after, t = before ++ sep :: after ∧
      line.1 = start + begun.length + before.length + 1 := by
  induction t generalizing start begun with
  | nil => cases h
  | cons c rest ih =>
      rw [linesFrom] at h
      split at h
      · rename_i hsep
        rcases List.mem_cons.mp h with rfl | hrest
        · exact Or.inl rfl
        · right
          rcases ih hrest with hstart | ⟨before, after, rfl, hstart⟩
          · exact ⟨[], rest, by rw [hsep, List.nil_append], hstart⟩
          · refine ⟨c :: before, after, rfl, ?_⟩
            simp only [List.length_nil, List.length_cons] at hstart ⊢
            omega
      · rcases ih h with hstart | ⟨before, after, rfl, hstart⟩
        · exact Or.inl hstart
        · refine Or.inr ⟨c :: before, after, rfl, ?_⟩
          simp only [List.length_append, List.length_cons, List.length_nil] at hstart ⊢
          omega

/-- The next line is the one that is read. -/
theorem linesFrom_of_mem (h : sep ∈ t) :
    linesFrom sep start begun t = (start, begun ++ readline sep t) ::
      linesFrom sep (start + begun.length + (readline sep t).length) []
        (t.drop (readline sep t).length) := by
  induction t generalizing begun with
  | nil => cases h
  | cons c rest ih =>
      rw [linesFrom, readline]
      split
      · rfl
      · rename_i hsep
        have hrest : sep ∈ rest := (List.mem_cons.mp h).resolve_left (Ne.symm hsep)
        rw [ih hrest]
        simp [Nat.add_assoc, Nat.add_comm 1]

theorem readline_of_not_mem (h : sep ∉ t) : readline sep t = t := by
  induction t with
  | nil => rfl
  | cons c rest ih =>
      rw [List.mem_cons, not_or] at h
      rw [readline, if_neg (Ne.symm h.left), ih h.right]

/-- What is read ends with the separator. -/
theorem readline_of_mem (h : sep ∈ t) : exists before, readline sep t = before ++ [sep] ∧
    t = readline sep t ++ t.drop (readline sep t).length := by
  induction t with
  | nil => cases h
  | cons c rest ih =>
      rw [readline]
      split
      · rename_i hsep
        exact ⟨[], by rw [hsep, List.nil_append], rfl⟩
      · rename_i hsep
        rcases ih ((List.mem_cons.mp h).resolve_left (Ne.symm hsep)) with ⟨before, heq, hrest⟩
        refine ⟨c :: before, by rw [heq, List.cons_append], ?_⟩
        rw [List.length_cons, List.drop_succ_cons, List.cons_append, ← hrest]

theorem readline_ne_nil (h : t ≠ []) : readline sep t ≠ [] := by
  cases t with
  | nil => exact absurd rfl h
  | cons c rest =>
      rw [readline]
      split
      · exact List.cons_ne_nil _ _
      · exact List.cons_ne_nil _ _

theorem length_readline_le : (readline sep t).length ≤ t.length := by
  induction t with
  | nil => exact Nat.le_refl 0
  | cons c rest ih =>
      rw [readline]
      split
      · simp
      · simpa using ih

end Scan

/-!
# Positions in a text
-/

section Positions

variable {t : List α} {offset : Nat}

theorem lineStart_of_mem {line : Nat × List α} (h : line ∈ linesFrom sep 0 [] t) :
    LineStart sep t line.1 := by
  have hbounds := bounds_of_mem h
  simp only [List.length_nil] at hbounds
  refine ⟨by omega, ?_⟩
  rcases start_of_mem h with hstart | ⟨before, after, rfl, hstart⟩
  · left
    rw [hstart, List.take_zero]
  · right
    have hlength : line.1 = (before ++ [sep]).length := by
      rw [hstart]
      simp
    rw [hlength, List.append_cons before sep after, List.take_left, List.getLast?_concat]

theorem unfinished_of_lineStart (h : LineStart sep t offset) :
    unfinished sep 0 [] (t.take offset) = (offset, []) := by
  rcases h with ⟨hle, hnil | hlast⟩
  · have hlength := congrArg List.length hnil
    rw [List.length_take, Nat.min_eq_left hle] at hlength
    rw [hnil, hlength]
    rfl
  · rcases List.getLast?_eq_some_iff.mp hlast with ⟨before, heq⟩
    have hlength := congrArg List.length heq
    rw [List.length_take, Nat.min_eq_left hle, List.length_append, List.length_singleton]
      at hlength
    rw [heq, unfinished_concat, hlength]
    simp

/-- The lines from the beginning of a line on. -/
theorem filter_lines_of_lineStart (h : LineStart sep t offset) :
    (linesFrom sep 0 [] t).filter (fun line => offset ≤ line.1) =
      linesFrom sep offset [] (t.drop offset) := by
  have hsplit : linesFrom sep 0 [] (t.take offset ++ t.drop offset) = _ :=
    linesFrom_append (t.drop offset)
  rw [List.take_append_drop, unfinished_of_lineStart h] at hsplit
  rw [hsplit, List.filter_append]
  have hbefore : (linesFrom sep 0 [] (t.take offset)).filter (fun line => offset ≤ line.1) =
      [] := by
    rw [List.filter_eq_nil_iff]
    intro line hline
    have hbounds := bounds_of_mem hline
    have hpos : 0 < line.2.length := List.length_pos_of_mem hbounds.right.right
    have htake : (t.take offset).length ≤ offset := List.length_take_le _ _
    simp only [List.length_nil, decide_eq_true_eq] at hbounds ⊢
    omega
  have hafter : (linesFrom sep offset [] (t.drop offset)).filter
      (fun line => offset ≤ line.1) = linesFrom sep offset [] (t.drop offset) := by
    rw [List.filter_eq_self]
    intro line hline
    simpa using (bounds_of_mem hline).left
  rw [hbefore, hafter, List.nil_append]

/-- After the line that is read, another one begins. -/
theorem lineStart_readline (h : LineStart sep t offset) (hmem : sep ∈ t.drop offset) :
    LineStart sep t (offset + (readline sep (t.drop offset)).length) := by
  rcases readline_of_mem hmem with ⟨before, heq, hrest⟩
  have hle : (readline sep (t.drop offset)).length ≤ (t.drop offset).length :=
    length_readline_le
  rw [List.length_drop] at hle
  have hoffset := h.left
  refine ⟨by omega, Or.inr ?_⟩
  have htake : (t.drop offset).take (readline sep (t.drop offset)).length =
      readline sep (t.drop offset) :=
    (List.prefix_iff_eq_take.mp ⟨_, hrest.symm⟩).symm
  rw [List.take_add, htake, heq, ← List.append_assoc, List.getLast?_concat]

end Positions

end Foundation
end RcTunnel
