import Mathlib.Data.List.Basic

/-!
# Events in a sliding window

Events are recorded with their times, which do not decrease.  An event is recent
when it is less than a window old.  When each event finds fewer than some number
of recent ones before it, no span as long as the window has more than this number
of events.
-/

namespace RcTunnel
namespace Foundation

/-- The times that are less than a window old. -/
def recent (window now : Int) (times : List Int) : List Int :=
  times.filter fun t => now - window < t

/-- The events in the span of a window that begins here. -/
def inSpan (window start : Int) (times : List Int) : List Int :=
  times.filter fun t => start ≤ t ∧ t < start + window

/-- No span has more events than the bound. -/
def SpansBounded (window : Int) (bound : Nat) (times : List Int) : Prop :=
  forall start, (inSpan window start times).length ≤ bound

variable {window now : Int} {times : List Int}

@[simp] theorem recent_nil : recent window now [] = [] := rfl

theorem recent_append (more : List Int) :
    recent window now (times ++ more) = recent window now times ++ recent window now more :=
  List.filter_append _ _

/-- What is recent later is recent now. -/
theorem recent_recent {later : Int} (hle : now ≤ later) :
    recent window later (recent window now times) = recent window later times := by
  unfold recent
  rw [List.filter_filter]
  apply List.filter_congr
  intro t _
  by_cases hlater : later - window < t
  · have hnow : now - window < t := by omega
    simp [hlater, hnow]
  · simp [hlater]

/-- Nothing becomes recent as time passes. -/
theorem length_recent_le {later : Int} (hle : now ≤ later) :
    (recent window later times).length ≤ (recent window now times).length := by
  rw [← recent_recent hle]
  exact List.length_filter_le _ _

/-- Times that agree on what is recent agree later on. -/
theorem recent_congr {other : List Int} {later : Int}
    (h : recent window now times = recent window now other) (hle : now ≤ later) :
    recent window later times = recent window later other := by
  rw [← recent_recent hle, h, recent_recent hle]

/-- The last of some times that do not decrease is the latest. -/
theorem le_last {last t : Int} (hsorted : times.Pairwise (· ≤ ·))
    (hlast : times.getLast? = some last) (ht : t ∈ times) : t ≤ last := by
  rcases List.getLast?_eq_some_iff.mp hlast with ⟨before, rfl⟩
  rw [List.pairwise_append] at hsorted
  rcases List.mem_append.mp ht with hbefore | hsame
  · exact hsorted.right.right t hbefore last (List.mem_singleton_self last)
  · exact Int.le_of_eq (List.mem_singleton.mp hsame)

/-- When it is not recent, none is. -/
theorem recent_eq_nil_of_last {last : Int} (hsorted : times.Pairwise (· ≤ ·))
    (hlast : times.getLast? = some last) (hold : last ≤ now - window) :
    recent window now times = [] := by
  unfold recent
  rw [List.filter_eq_nil_iff]
  intro t ht
  have hle : t ≤ last := le_last hsorted hlast ht
  simp only [decide_eq_true_eq]
  omega

/-- A new time that is the latest keeps the times from decreasing. -/
theorem pairwise_concat {t : Int} (hsorted : times.Pairwise (· ≤ ·))
    (hlatest : forall t', t' ∈ times -> t' ≤ t) : (times ++ [t]).Pairwise (· ≤ ·) := by
  rw [List.pairwise_append]
  refine ⟨hsorted, List.pairwise_singleton _ _, ?_⟩
  intro t' ht' last hlast
  rw [List.mem_singleton.mp hlast]
  exact hlatest t' ht'

theorem spansBounded_nil (bound : Nat) : SpansBounded window bound [] := by
  intro start
  exact Nat.zero_le bound

/-- Events that come when fewer than the bound are recent keep the spans bounded. -/
theorem SpansBounded.append {bound : Nat} (h : SpansBounded window bound times)
    (hrecent : (recent window now times).length < bound) :
    SpansBounded window bound (times ++ [now]) := by
  intro start
  unfold inSpan
  rw [List.filter_append, List.length_append]
  by_cases hin : start ≤ now ∧ now < start + window
  · have hsub : (times.filter fun t => start ≤ t ∧ t < start + window).Sublist
        (recent window now times) := by
      unfold recent
      apply List.monotone_filter_right
      intro t ht
      simp only [decide_eq_true_eq] at ht ⊢
      omega
    have hle := hsub.length_le
    have hone : ([now].filter fun t => start ≤ t ∧ t < start + window).length ≤ 1 :=
      List.length_filter_le _ _
    omega
  · have hnone : ([now].filter fun t => start ≤ t ∧ t < start + window) = [] := by
      simp [hin]
    rw [hnone, List.length_nil, Nat.add_zero]
    exact h start

end Foundation
end RcTunnel
