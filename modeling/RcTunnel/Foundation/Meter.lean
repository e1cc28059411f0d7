import Mathlib.Algebra.BigOperators.Group.List.Basic
import Mathlib.Algebra.GroupWithZero.Nat

/-!
# Meters that are read now and then

A gauge counts up and may fall back to zero at any time; the time between two
falls is an epoch.  A reader sees the gauge at some moments only.  It keeps a
total and the last reading, and adds what the gauge has grown by, or all of it
when it reads less than before.

The total never exceeds what was counted, and it is the sum of the last readings
of the epochs when every fall shows, that is, when the first reading after it is
less than the last one before it.
-/

namespace RcTunnel
namespace Foundation

structure Gauge where
  value : Nat
  /-- counted in all the epochs -/
  counted : Nat
  /-- history: the readings of each epoch, the latest first -/
  log : List (List Nat)
deriving DecidableEq, Repr

structure Reader where
  total : Int
  last : Int
deriving DecidableEq, Repr

/-- The total after a reading. -/
def advance (total last value : Int) : Int :=
  if last ≤ value then total + (value - last) else total + value

theorem le_advance {value : Int} (total last : Int) (hvalue : 0 ≤ value) :
    total ≤ advance total last value := by
  unfold advance
  split <;> omega

namespace Gauge

/-- No reading was taken yet. -/
def Unread (g : Gauge) : Prop := g.value ≤ g.counted ∧ g.log = [[]]

def grow (n : Nat) (g : Gauge) : Gauge :=
  { g with value := g.value + n, counted := g.counted + n }

def reset (g : Gauge) : Gauge := { g with value := 0, log := [] :: g.log }

/-- A reading is taken. -/
def sample (g : Gauge) : Gauge :=
  match g.log with
  | [] => { g with log := [[g.value]] }
  | epoch :: older => { g with log := (g.value :: epoch) :: older }

end Gauge

/-!
# Logs
-/

/-- The last reading of all. -/
def lastReading (log : List (List Nat)) : Option Nat := log.flatten.head?

/-- The sum over the epochs of the last reading of each. -/
def lastReadings (log : List (List Nat)) : Nat :=
  (log.map fun epoch => epoch.head?.getD 0).sum

/-- The first reading of an epoch is less than the last one before the epoch. -/
def FallsShow : List (List Nat) -> Prop
  | [] => True
  | epoch :: older => FallsShow older ∧
      forall v, v ∈ epoch.getLast? -> forall l, l ∈ lastReading older -> v < l

instance FallsShow.decidable : forall log, Decidable (FallsShow log)
  | [] => isTrue trivial
  | _ :: older =>
      have := FallsShow.decidable older
      inferInstanceAs (Decidable (_ ∧ _))

@[simp] theorem lastReading_cons (v : Nat) (epoch : List Nat) (older : List (List Nat)) :
    lastReading ((v :: epoch) :: older) = some v := rfl

@[simp] theorem lastReading_nil_cons (older : List (List Nat)) :
    lastReading ([] :: older) = lastReading older := rfl

@[simp] theorem lastReadings_cons (epoch : List Nat) (older : List (List Nat)) :
    lastReadings (epoch :: older) = epoch.head?.getD 0 + lastReadings older := by
  simp [lastReadings]

/-- A reading that is not the first of its epoch says nothing about falls. -/
theorem fallsShow_cons (v w : Nat) (epoch : List Nat) (older : List (List Nat)) :
    FallsShow ((v :: w :: epoch) :: older) <-> FallsShow ((w :: epoch) :: older) := by
  simp [FallsShow, List.getLast?_cons_cons]

/-!
# What a reader knows
-/

/-- The reader is up to date with its readings, and has not added too much: with what
it would still add now, its total is at most what was counted. -/
structure Bounded (g : Gauge) (r : Reader) : Prop where
  last : r.last = ((lastReading g.log).getD 0 : Nat)
  epochs : g.log ≠ []
  /-- the gauge has not fallen below a reading of its epoch -/
  rising : forall v, v ∈ (g.log.headD []).head? -> v ≤ g.value
  room : r.total + g.value ≤ g.counted + ((g.log.headD []).head?.getD 0 : Nat)

/-- The total is the sum of the last readings, when every fall has shown. -/
def Exact (g : Gauge) (r : Reader) : Prop :=
  FallsShow g.log -> r.total = (lastReadings g.log : Nat)

section Readings

variable {g : Gauge} {r : Reader}

theorem Bounded.start (hg : g.Unread) : Bounded g ⟨0, 0⟩ := by
  rcases hg with ⟨hle, hlog⟩
  constructor
  · simp [hlog, lastReading]
  · simp [hlog]
  · simp [hlog]
  · simp [hlog]
    omega

theorem Exact.start (hg : g.Unread) : Exact g ⟨0, 0⟩ := by
  intro _
  simp [hg.right, lastReadings]

theorem Bounded.total_le (h : Bounded g r) : r.total ≤ g.counted := by
  have hroom := h.room
  cases hread : (g.log.headD []).head? with
  | none =>
      rw [hread] at hroom
      simp only [Option.getD_none] at hroom
      omega
  | some v =>
      have hle := h.rising v hread
      rw [hread] at hroom
      simp only [Option.getD_some] at hroom
      omega

theorem Bounded.grow (h : Bounded g r) (n : Nat) : Bounded (g.grow n) r := by
  constructor
  · exact h.last
  · exact h.epochs
  · intro v hv
    exact Nat.le_add_right_of_le (h.rising v hv)
  · have hroom := h.room
    simp only [Gauge.grow]
    omega

theorem Bounded.reset (h : Bounded g r) : Bounded g.reset r := by
  constructor
  · exact h.last
  · simp [Gauge.reset]
  · simp [Gauge.reset]
  · have hle := h.total_le
    simp only [Gauge.reset, List.headD_cons, List.head?_nil, Option.getD_none]
    omega

theorem Bounded.sample (h : Bounded g r) :
    Bounded g.sample ⟨advance r.total r.last g.value, g.value⟩ := by
  cases hlog : g.log with
  | nil => exact absurd hlog h.epochs
  | cons epoch older =>
      have hlast := h.last
      have hrising := h.rising
      have hroom := h.room
      simp only [hlog, List.headD_cons] at hlast hrising hroom
      constructor
      · simp [Gauge.sample, hlog]
      · simp [Gauge.sample, hlog]
      · simp [Gauge.sample, hlog]
      · simp only [Gauge.sample, hlog, List.headD_cons, List.head?_cons, Option.getD_some]
        unfold advance
        cases epoch with
        | nil =>
            -- the last reading is of an earlier epoch: at most all of the gauge is added
            simp only [List.head?_nil, Option.getD_none] at hroom
            split <;> omega
        | cons w rest =>
            have hle := hrising w rfl
            simp only [List.head?_cons, Option.getD_some] at hroom
            simp only [lastReading_cons, Option.getD_some] at hlast
            split <;> omega

theorem Exact.grow (h : Exact g r) (n : Nat) : Exact (g.grow n) r := h

theorem Exact.reset (h : Exact g r) : Exact g.reset r := by
  intro hshow
  have hold := h hshow.left
  simpa [Gauge.reset] using hold

theorem Exact.sample (hbounded : Bounded g r) (h : Exact g r) :
    Exact g.sample ⟨advance r.total r.last g.value, g.value⟩ := by
  intro hshow
  cases hlog : g.log with
  | nil => exact absurd hlog hbounded.epochs
  | cons epoch older =>
      have hlast := hbounded.last
      have hrising := hbounded.rising
      simp only [hlog, List.headD_cons] at hlast hrising
      simp only [Gauge.sample, hlog, lastReadings_cons, List.head?_cons, Option.getD_some]
        at hshow ⊢
      unfold Exact at h
      rw [hlog, lastReadings_cons] at h
      cases epoch with
      | nil =>
          have htotal := h ⟨hshow.left, by simp⟩
          simp only [List.head?_nil, Option.getD_none, lastReading_nil_cons] at htotal hlast
          unfold advance
          cases hread : lastReading older with
          | none =>
              rw [hread, Option.getD_none] at hlast
              split <;> omega
          | some l =>
              -- the fall shows, so all of the gauge is added
              have hfall := hshow.right g.value rfl l hread
              rw [hread, Option.getD_some] at hlast
              split <;> omega
      | cons w rest =>
          have htotal := h ((fallsShow_cons _ _ _ _).mp hshow)
          have hle := hrising w rfl
          simp only [List.head?_cons, Option.getD_some, lastReading_cons] at htotal hlast
          unfold advance
          split <;> omega

end Readings

end Foundation
end RcTunnel
