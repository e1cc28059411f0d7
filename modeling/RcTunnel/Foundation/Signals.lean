import Mathlib.Order.Interval.Set.Basic
import Mathlib.Data.List.Pairwise

/-!
# Signals that are switched on and off

A signal is given by the switches that set it, in the order of their times.  Its value at a
time is what the last switch up to then has set, and its spans are the half-open intervals
in which it is on.  The rules below say where a value comes from, and that the spans are in
order and cover the times at which the signal is on.
-/

namespace RcTunnel
namespace Foundation

variable {Time : Type u} [LinearOrder Time]

/-- The times of a list of half-open intervals. -/
def covered (spans : List (Time × Time)) : Set Time :=
  fun t => exists i, i ∈ spans ∧ t ∈ Set.Ico i.1 i.2

theorem covered_nil (t : Time) : t ∈ covered [] <-> False := by
  constructor
  · rintro ⟨i, hi, -⟩
    cases hi
  · exact False.elim

theorem covered_cons (i : Time × Time) (rest : List (Time × Time)) (t : Time) :
    t ∈ covered (i :: rest) <-> (i.1 ≤ t ∧ t < i.2) ∨ t ∈ covered rest := by
  constructor
  · rintro ⟨j, hj, ht⟩
    rcases List.mem_cons.mp hj with rfl | hj
    · exact Or.inl ht
    · exact Or.inr ⟨j, hj, ht⟩
  · rintro (ht | ⟨j, hj, ht⟩)
    · exact ⟨i, List.mem_cons_self, ht⟩
    · exact ⟨j, List.mem_cons_of_mem i hj, ht⟩

/-- The intervals are not empty, and each ends before the next begins. -/
structure Consecutive (spans : List (Time × Time)) : Prop where
  nonempty : forall i, i ∈ spans -> i.1 < i.2
  apart : spans.Pairwise fun i j => i.2 ≤ j.1

/-- The switches are in the order of their times. -/
def InOrder (switches : List (Time × Bool)) : Prop :=
  switches.Pairwise fun a b => a.1 ≤ b.1

/-!
# The value of a signal
-/

/-- The value at a time, from the value that comes in. -/
def level (on : Bool) : List (Time × Bool) -> Time -> Bool
  | [], _ => on
  | (at_, value) :: rest, t => if at_ ≤ t then level value rest t else on

theorem level_before {switches : List (Time × Bool)} {t : Time} (on : Bool)
    (h : forall a, a ∈ switches -> t < a.1) : level on switches t = on := by
  cases switches with
  | nil => rfl
  | cons a rest =>
      unfold level
      exact if_neg (not_le.mpr (h a List.mem_cons_self))

/-- The value comes in, or a last switch has set it. -/
theorem level_cases {switches : List (Time × Bool)} (hsorted : InOrder switches) (on : Bool)
    (t : Time) :
    ((forall a, a ∈ switches -> t < a.1) ∧ level on switches t = on) ∨
      exists before a after, switches = before ++ a :: after ∧ a.1 ≤ t ∧
        (forall b, b ∈ after -> t < b.1) ∧ level on switches t = a.2 := by
  induction switches generalizing on with
  | nil => exact Or.inl ⟨by simp, rfl⟩
  | cons a rest ih =>
      rcases List.pairwise_cons.mp hsorted with ⟨hfirst, hrest⟩
      by_cases ha : a.1 ≤ t
      · apply Or.inr
        have hstep : level on (a :: rest) t = level a.2 rest t := if_pos ha
        rcases ih hrest a.2 with ⟨hlater, hlevel⟩ | ⟨before, b, after, rfl, hb, hafter, hlevel⟩
        · exact ⟨[], a, rest, rfl, ha, hlater, hstep.trans hlevel⟩
        · exact ⟨a :: before, b, after, rfl, hb, hafter, hstep.trans hlevel⟩
      · apply Or.inl
        have hall : forall b, b ∈ a :: rest -> t < b.1 := by
          intro b hb
          rcases List.mem_cons.mp hb with rfl | hb
          · exact not_le.mp ha
          · exact (not_le.mp ha).trans_le (hfirst b hb)
        exact ⟨hall, level_before on hall⟩

/-- The value of the last switch up to a time. -/
theorem level_eq_last {switches : List (Time × Bool)} (hsorted : InOrder switches) (on : Bool)
    (t : Time) : level on switches t =
      ((switches.filter fun a => a.1 ≤ t).getLast?.map Prod.snd).getD on := by
  rcases level_cases hsorted on t with ⟨hlater, hlevel⟩ | ⟨before, a, after, rfl, ha, hafter, hlevel⟩
  · have hnone : (switches.filter fun a => a.1 ≤ t) = [] := by
      rw [List.filter_eq_nil_iff]
      intro a ha
      simpa using hlater a ha
    rw [hlevel, hnone]
    rfl
  · have hnone : (after.filter fun a => a.1 ≤ t) = [] := by
      rw [List.filter_eq_nil_iff]
      intro b hb
      simpa using hafter b hb
    rw [hlevel, List.filter_append, List.filter_cons_of_pos (by simpa using ha), hnone,
      List.getLast?_concat]
    rfl

/-!
# The spans of a signal
-/

/-- The spans up to a last time; the one that is open has begun at the given time. -/
def spans (finish : Time) : Option Time -> List (Time × Bool) -> List (Time × Time)
  | none, [] => []
  | some s, [] => [(s, finish)]
  | none, (at_, true) :: rest => spans finish (some at_) rest
  | none, (_, false) :: rest => spans finish none rest
  | some s, (_, true) :: rest => spans finish (some s) rest
  | some s, (at_, false) :: rest => (s, at_) :: spans finish none rest

/-- The switches lie between the opening, if there is one, and the last time. -/
structure Within (start finish : Time) (switches : List (Time × Bool)) : Prop where
  sorted : InOrder switches
  lower : forall a, a ∈ switches -> start ≤ a.1
  upper : forall a, a ∈ switches -> a.1 ≤ finish
  ordered : start ≤ finish

theorem Within.tail {start finish : Time} {a : Time × Bool} {rest : List (Time × Bool)}
    (h : Within start finish (a :: rest)) : Within a.1 finish rest where
  sorted := (List.pairwise_cons.mp h.sorted).right
  lower := (List.pairwise_cons.mp h.sorted).left
  upper := fun b hb => h.upper b (List.mem_cons_of_mem a hb)
  ordered := h.upper a List.mem_cons_self

theorem Within.weaken {start earlier finish : Time} {switches : List (Time × Bool)}
    (h : Within start finish switches) (hle : earlier ≤ start) : Within earlier finish switches where
  sorted := h.sorted
  lower := fun a ha => hle.trans (h.lower a ha)
  upper := h.upper
  ordered := hle.trans h.ordered

variable {finish : Time}

/-- The spans lie between the bounds of the switches. -/
theorem spans_bounds (start : Time) (opened : Option Time) {switches : List (Time × Bool)}
    (hopened : start ≤ opened.getD start) (h : Within (opened.getD start) finish switches) :
    forall i, i ∈ spans finish opened switches ->
      start ≤ i.1 ∧ i.1 ≤ i.2 ∧ i.2 ≤ finish := by
  induction switches generalizing start opened with
  | nil =>
      cases opened with
      | none =>
          intro i hi
          cases hi
      | some s =>
          intro i hi
          rw [List.mem_singleton.mp hi]
          exact ⟨hopened, h.ordered, le_refl finish⟩
  | cons a rest ih =>
      rcases a with ⟨at_, value⟩
      have hat : opened.getD start ≤ at_ := h.lower (at_, value) List.mem_cons_self
      have htail : Within at_ finish rest := h.tail
      cases opened with
      | none =>
          cases value with
          | true => exact fun i hi =>
              have hbounds := ih at_ (some at_) (le_refl at_) htail i hi
              ⟨hat.trans hbounds.left, hbounds.right⟩
          | false => exact ih start none hopened (htail.weaken hat)
      | some s =>
          cases value with
          | true => exact ih start (some s) hopened (htail.weaken hat)
          | false =>
              intro i hi
              rcases List.mem_cons.mp hi with rfl | hi
              · exact ⟨hopened, hat, htail.ordered⟩
              · exact ih start none (le_refl start) (htail.weaken (hopened.trans hat)) i hi

/-- Each span ends before the next begins. -/
theorem spans_apart (start : Time) (opened : Option Time) {switches : List (Time × Bool)}
    (h : Within (opened.getD start) finish switches) :
    (spans finish opened switches).Pairwise fun i j => i.2 ≤ j.1 := by
  induction switches generalizing start opened with
  | nil =>
      cases opened with
      | none => exact List.Pairwise.nil
      | some s => exact List.pairwise_singleton _ _
  | cons a rest ih =>
      rcases a with ⟨at_, value⟩
      have hat : opened.getD start ≤ at_ := h.lower (at_, value) List.mem_cons_self
      have htail : Within at_ finish rest := h.tail
      cases opened with
      | none =>
          cases value with
          | true => exact ih at_ (some at_) htail
          | false => exact ih at_ none htail
      | some s =>
          cases value with
          | true => exact ih start (some s) (htail.weaken hat)
          | false =>
              apply List.Pairwise.cons
              · intro j hj
                exact (spans_bounds at_ none (le_refl at_) htail j hj).left
              · exact ih at_ none htail

/-- The spans cover the times at which the signal is on. -/
theorem mem_covered_spans (start : Time) (opened : Option Time) {t : Time}
    {switches : List (Time × Bool)} (h : Within (opened.getD start) finish switches) :
    t ∈ covered (spans finish opened switches) <->
      t < finish ∧ (forall s, opened = some s -> s ≤ t) ∧
        level opened.isSome switches t = true := by
  induction switches generalizing start opened with
  | nil =>
      cases opened with
      | none => simp [spans, level, covered_nil]
      | some s => simp [spans, level, covered_cons, covered_nil, and_comm]
  | cons a rest ih =>
      rcases a with ⟨at_, value⟩
      have hat : opened.getD start ≤ at_ := h.lower (at_, value) List.mem_cons_self
      have htail : Within at_ finish rest := h.tail
      have hbefore : t < at_ -> forall on, level on rest t = on := fun ht on =>
        level_before on fun b hb => ht.trans_le (htail.lower b hb)
      cases opened with
      | none =>
          cases value with
          | true =>
              rw [spans, ih at_ (some at_) htail]
              by_cases hle : at_ ≤ t
              · simp [level, hle]
              · simp [level, hle]
          | false =>
              rw [spans, ih at_ none htail]
              by_cases hle : at_ ≤ t
              · simp [level, hle]
              · simp [level, hle, hbefore (not_le.mp hle)]
      | some s =>
          have hs : s ≤ at_ := hat
          cases value with
          | true =>
              rw [spans, ih start (some s) (htail.weaken hat)]
              by_cases hle : at_ ≤ t
              · simp [level, hle]
              · simp [level, hle, hbefore (not_le.mp hle)]
          | false =>
              rw [spans, covered_cons, ih at_ none htail]
              by_cases hle : at_ ≤ t
              · simp [level, hle, not_lt.mpr hle, hs.trans hle]
              · have hlt := not_le.mp hle
                simp [level, hle, hbefore hlt, hlt, hlt.trans_le htail.ordered]

/-- Empty spans cover nothing. -/
theorem covered_filter (l : List (Time × Time)) :
    covered (l.filter fun i => i.1 < i.2) = covered l := by
  apply Set.ext
  intro t
  constructor
  · rintro ⟨i, hi, ht⟩
    exact ⟨i, (List.mem_filter.mp hi).left, ht⟩
  · rintro ⟨i, hi, ht⟩
    refine ⟨i, List.mem_filter.mpr ⟨hi, ?_⟩, ht⟩
    exact decide_eq_true (ht.left.trans_lt ht.right)

theorem consecutive_filter {l : List (Time × Time)} (h : l.Pairwise fun i j => i.2 ≤ j.1) :
    Consecutive (l.filter fun i => i.1 < i.2) where
  nonempty := fun _ hi => of_decide_eq_true (List.mem_filter.mp hi).right
  apart := h.filter _

end Foundation
end RcTunnel
