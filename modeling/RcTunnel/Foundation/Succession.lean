import Mathlib.Algebra.BigOperators.Group.Finset.Basic
import Mathlib.Algebra.Order.BigOperators.Group.Finset
import RcTunnel.Foundation.Meter

/-!
# Counters that succeed each other

Something is counted by one counter after another, and an earlier one may still count
when a later one has taken its place.  A reader reads each of them zero or more times,
never one that an already read one has succeeded, and what it reads may be old when it
adds it.  It is covered when its total is at most what the counters before the last one
that it has read count, and what it has read of that.
-/

namespace RcTunnel
namespace Foundation

/-- The counters before a number, together. -/
def countedBefore (worth : Nat -> Nat) (n : Nat) : Nat := Finset.sum (Finset.range n) worth

theorem countedBefore_succ (worth : Nat -> Nat) (n : Nat) :
    countedBefore worth (n + 1) = countedBefore worth n + worth n :=
  Finset.sum_range_succ worth n

theorem countedBefore_mono {worth worth' : Nat -> Nat} (h : forall g, worth g ≤ worth' g)
    (n : Nat) : countedBefore worth n ≤ countedBefore worth' n :=
  Finset.sum_le_sum fun g _ => h g

theorem countedBefore_le {worth : Nat -> Nat} {m n : Nat} (h : m ≤ n) :
    countedBefore worth m ≤ countedBefore worth n :=
  Finset.sum_le_sum_of_subset (Finset.range_mono h)

/-- A counter that counts more, of those before the number. -/
theorem countedBefore_update {worth worth' : Nat -> Nat} {g n more : Nat} (hg : g < n)
    (hself : worth' g = worth g + more) (hother : forall i, i ≠ g -> worth' i = worth i) :
    countedBefore worth' n = countedBefore worth n + more := by
  induction n with
  | zero => exact absurd hg (Nat.not_lt_zero g)
  | succ n ih =>
      rw [countedBefore_succ, countedBefore_succ]
      rcases Nat.lt_succ_iff_lt_or_eq.mp hg with hlt | rfl
      · rw [ih hlt, hother n (Nat.ne_of_gt hlt)]
        omega
      · have hsame : countedBefore worth' g = countedBefore worth g :=
          Finset.sum_congr rfl fun i hi => hother i (Nat.ne_of_lt (Finset.mem_range.mp hi))
        rw [hsame, hself, Nat.add_assoc]

/-- The last counter that was read, and what was read. -/
structure Mark where
  number : Nat
  value : Nat
deriving DecidableEq, Repr

/-- The reading may follow the mark. -/
def Mark.Precedes (mark reading : Mark) : Prop :=
  mark.number < reading.number ∨ mark.number = reading.number ∧ mark.value ≤ reading.value

structure Covered (worth : Nat -> Nat) (r : Reader) (mark : Mark) : Prop where
  last_nonneg : 0 ≤ r.last
  read : mark.value ≤ worth mark.number
  /-- nothing was read yet, or this was read last -/
  last : mark.value = 0 ∨ r.last = mark.value
  total : r.total ≤ (countedBefore worth mark.number : Nat) + mark.value

section Readings

variable {worth worth' : Nat -> Nat} {r : Reader} {mark : Mark}

theorem Covered.start (worth : Nat -> Nat) : Covered worth ⟨0, 0⟩ ⟨0, 0⟩ where
  last_nonneg := Int.le_refl 0
  read := Nat.zero_le _
  last := Or.inl rfl
  total := by simp [countedBefore]

theorem Covered.grow (h : Covered worth r mark) (hworth : forall g, worth g ≤ worth' g) :
    Covered worth' r mark where
  last_nonneg := h.last_nonneg
  read := Nat.le_trans h.read (hworth _)
  last := h.last
  total := by
    have hmono := countedBefore_mono hworth mark.number
    have htotal := h.total
    omega

/-- A reading is added, however old it is. -/
theorem Covered.advance {reading : Mark} (h : Covered worth r mark)
    (hfollows : mark.Precedes reading) (hread : reading.value ≤ worth reading.number) :
    Covered worth ⟨advance r.total r.last reading.value, reading.value⟩ reading := by
  have htotal := h.total
  have hnonneg := h.last_nonneg
  constructor
  · exact Int.natCast_nonneg _
  · exact hread
  · exact Or.inr rfl
  · show Foundation.advance r.total r.last reading.value ≤ _
    rcases hfollows with hlater | ⟨hsame, hvalue⟩
    · -- at most all of the later counter is added
      have hbefore : countedBefore worth (mark.number + 1) ≤
          countedBefore worth reading.number := countedBefore_le hlater
      have hmarked := h.read
      rw [countedBefore_succ] at hbefore
      unfold Foundation.advance
      split <;> omega
    · rw [← hsame]
      unfold Foundation.advance
      rcases h.last with hzero | hlast
      · split <;> omega
      · split <;> omega

/-- The total is at most what was counted. -/
theorem Covered.total_le (h : Covered worth r mark) {n : Nat}
    (hnone : forall g, n ≤ g -> worth g = 0) : r.total ≤ (countedBefore worth n : Nat) := by
  have hend : countedBefore worth (mark.number + 1) ≤ countedBefore worth n := by
    rcases Nat.lt_or_ge mark.number n with hlt | hge
    · exact countedBefore_le hlt
    · have hrest : countedBefore worth n = countedBefore worth (mark.number + 1) :=
        Finset.sum_subset (Finset.range_mono (Nat.le_succ_of_le hge)) fun g _ hg =>
          hnone g (Nat.le_of_not_lt fun hlt => hg (Finset.mem_range.mpr hlt))
      exact Nat.le_of_eq hrest.symm
  have htotal := h.total
  have hread := h.read
  rw [countedBefore_succ] at hend
  omega

end Readings

end Foundation
end RcTunnel
