import Mathlib.Logic.Function.Basic

/-!
# Deterministic machines and their runs

A machine is an initial-state predicate and a partial step function.  Every
choice a concurrent system makes (which party moves, which message arrives,
which fresh name is drawn) is part of the action, so a run is determined by its
list of actions and can be evaluated.

The rules below are the ones the later developments use: the invariant rule for
reachable states, the rule for runs whose steps all meet a guard, the equivalence
between meeting a guard and keeping a property, and the rule for leaving actions out.
-/

namespace RcTunnel
namespace Foundation

structure Machine (State : Type u) (Action : Type v) where
  init : State -> Prop
  step : State -> Action -> Option State

namespace Machine

variable {State : Type u} {Action : Type v} (M : Machine State Action)

/-!
# Executions

Running a list of actions stops at the first one that is not enabled.
-/

def exec : State -> List Action -> Option State
  | s, [] => some s
  | s, a :: rest =>
      match M.step s a with
      | none => none
      | some s' => exec s' rest

@[simp] theorem exec_nil (s : State) : M.exec s [] = some s := rfl

theorem exec_cons_of_step {s s' : State} {a : Action} (rest : List Action)
    (h : M.step s a = some s') :
    M.exec s (a :: rest) = M.exec s' rest := by
  simp [exec, h]

theorem exec_cons_some {s t : State} {a : Action} {rest : List Action}
    (h : M.exec s (a :: rest) = some t) :
    exists s', M.step s a = some s' ∧ M.exec s' rest = some t := by
  cases hstep : M.step s a with
  | none => simp [exec, hstep] at h
  | some s' => exact ⟨s', rfl, by simpa [exec, hstep] using h⟩

theorem exec_append {s t u : State} {xs ys : List Action}
    (hxs : M.exec s xs = some t) (hys : M.exec t ys = some u) :
    M.exec s (xs ++ ys) = some u := by
  induction xs generalizing s with
  | nil =>
      cases hxs
      exact hys
  | cons a rest ih =>
      rcases M.exec_cons_some hxs with ⟨s', hstep, hrest⟩
      rw [List.cons_append, M.exec_cons_of_step _ hstep]
      exact ih hrest

/--
Leaving out actions that change nothing related leaves the related part of a run: the
kept actions alone run too, and end in a related state.
-/
theorem exec_filter {R : State -> State -> Prop} {keep : Action -> Bool}
    (hkept : forall s u a t, R s u -> keep a = true -> M.step s a = some t ->
      exists v, M.step u a = some v ∧ R t v)
    (hleft : forall s u a t, R s u -> keep a = false -> M.step s a = some t -> R t u)
    {s u t : State} {actions : List Action} (h : R s u) (hexec : M.exec s actions = some t) :
    exists v, M.exec u (actions.filter keep) = some v ∧ R t v := by
  induction actions generalizing s u with
  | nil =>
      cases hexec
      exact ⟨u, rfl, h⟩
  | cons a rest ih =>
      rcases M.exec_cons_some hexec with ⟨s', hstep, hrest⟩
      cases hkeep : keep a with
      | true =>
          rcases hkept s u a s' h hkeep hstep with ⟨u', hstep', h'⟩
          rw [List.filter_cons_of_pos hkeep, M.exec_cons_of_step _ hstep']
          exact ih h' hrest
      | false =>
          rw [List.filter_cons_of_neg (by simp [hkeep])]
          exact ih (hleft s u a s' h hkeep hstep) hrest

/-!
# Reachable states
-/

def Reachable (s : State) : Prop :=
  exists s₀ actions, M.init s₀ ∧ M.exec s₀ actions = some s

variable {M}

theorem Reachable.start {s : State} (h : M.init s) : M.Reachable s :=
  ⟨s, [], h, rfl⟩

theorem Reachable.exec {s t : State} {actions : List Action}
    (h : M.Reachable s) (hexec : M.exec s actions = some t) :
    M.Reachable t := by
  rcases h with ⟨s₀, before, hinit, hbefore⟩
  exact ⟨s₀, before ++ actions, hinit, M.exec_append hbefore hexec⟩

theorem Reachable.step {s t : State} {a : Action}
    (h : M.Reachable s) (hstep : M.step s a = some t) : M.Reachable t :=
  h.exec (M.exec_cons_of_step [] hstep)

/-- What the allowed steps keep, an execution of them keeps. -/
theorem exec_preserves {A : Action -> Prop} {I : State -> Prop}
    (hstep : forall s a t, A a -> I s -> M.step s a = some t -> I t)
    {s t : State} {actions : List Action} (hA : forall a, a ∈ actions -> A a)
    (hs : I s) (hexec : M.exec s actions = some t) : I t := by
  induction actions generalizing s with
  | nil =>
      cases hexec
      exact hs
  | cons a rest ih =>
      rcases M.exec_cons_some hexec with ⟨s', hs', hrest⟩
      exact ih (fun b hb => hA b (List.mem_cons_of_mem _ hb))
        (hstep s a s' (hA a List.mem_cons_self) hs hs') hrest

/-- The invariant rule. -/
theorem Reachable.invariant {I : State -> Prop}
    (hinit : forall s, M.init s -> I s)
    (hstep : forall s a t, I s -> M.step s a = some t -> I t)
    {s : State} (h : M.Reachable s) : I s := by
  rcases h with ⟨s₀, actions, h₀, hexec⟩
  exact exec_preserves (A := fun _ => True) (fun s a t _ => hstep s a t)
    (fun _ _ => trivial) (hinit s₀ h₀) hexec

variable (M)

/-!
# Properties along a run

{lit}`Always P` says that every state a run visits satisfies the property,
{lit}`Obeys G` that every step it takes meets the guard in the state before.
-/

def Always (P : State -> Prop) : State -> List Action -> Prop
  | s, [] => P s
  | s, a :: rest =>
      P s ∧ forall s', M.step s a = some s' -> Always P s' rest

def Obeys (G : State -> Action -> Prop) : State -> List Action -> Prop
  | _, [] => True
  | s, a :: rest =>
      G s a ∧ forall s', M.step s a = some s' -> Obeys G s' rest

/-!
Both are decidable on a concrete run, by following its steps.
-/

instance Always.decidable (P : State -> Prop) [DecidablePred P] :
    forall s actions, Decidable (M.Always P s actions)
  | s, [] => inferInstanceAs (Decidable (P s))
  | s, a :: rest =>
      match hstep : M.step s a with
      | none =>
          decidable_of_iff (P s) ⟨fun h => ⟨h, by simp [hstep]⟩, And.left⟩
      | some s' =>
          have := Always.decidable P s' rest
          decidable_of_iff (P s ∧ M.Always P s' rest)
            ⟨fun h => ⟨h.left, by simpa [hstep] using h.right⟩,
              fun h => ⟨h.left, h.right s' hstep⟩⟩

instance Obeys.decidable (G : State -> Action -> Prop)
    [forall s a, Decidable (G s a)] :
    forall s actions, Decidable (M.Obeys G s actions)
  | _, [] => isTrue trivial
  | s, a :: rest =>
      match hstep : M.step s a with
      | none =>
          decidable_of_iff (G s a) ⟨fun h => ⟨h, by simp [hstep]⟩, And.left⟩
      | some s' =>
          have := Obeys.decidable G s' rest
          decidable_of_iff (G s a ∧ M.Obeys G s' rest)
            ⟨fun h => ⟨h.left, by simpa [hstep] using h.right⟩,
              fun h => ⟨h.left, h.right s' hstep⟩⟩

variable {M}

theorem Always.head {P : State -> Prop} {s : State} {actions : List Action}
    (h : M.Always P s actions) : P s := by
  cases actions with
  | nil => exact h
  | cons a rest => exact h.left

theorem Always.last {P : State -> Prop} {s t : State} {actions : List Action}
    (h : M.Always P s actions) (hexec : M.exec s actions = some t) : P t := by
  induction actions generalizing s with
  | nil =>
      cases hexec
      exact h
  | cons a rest ih =>
      rcases M.exec_cons_some hexec with ⟨s', hs', hrest⟩
      exact ih (h.right s' hs') hrest

theorem Always.imp {P Q : State -> Prop} (hPQ : forall s, P s -> Q s)
    {s : State} {actions : List Action} (h : M.Always P s actions) :
    M.Always Q s actions := by
  induction actions generalizing s with
  | nil => exact hPQ s h
  | cons a rest ih =>
      exact ⟨hPQ s h.left, fun s' hs' => ih (h.right s' hs')⟩

theorem Obeys.imp {G H : State -> Action -> Prop} (hGH : forall s a, G s a -> H s a)
    {s : State} {actions : List Action} (h : M.Obeys G s actions) : M.Obeys H s actions := by
  induction actions generalizing s with
  | nil => trivial
  | cons a rest ih => exact ⟨hGH s a h.left, fun s' hs' => ih (h.right s' hs')⟩

theorem Obeys.append {G : State -> Action -> Prop} {s t : State} {xs ys : List Action}
    (hxs : M.Obeys G s xs) (hexec : M.exec s xs = some t) (hys : M.Obeys G t ys) :
    M.Obeys G s (xs ++ ys) := by
  induction xs generalizing s with
  | nil =>
      cases hexec
      exact hys
  | cons a rest ih =>
      rcases M.exec_cons_some hexec with ⟨s', hs', hrest⟩
      refine ⟨hxs.left, fun u hu => ?_⟩
      rw [hs'] at hu
      cases hu
      exact ih (hxs.right s' hs') hrest

theorem Obeys.and {G H : State -> Action -> Prop} {s : State} {actions : List Action}
    (hG : M.Obeys G s actions) (hH : M.Obeys H s actions) :
    M.Obeys (fun s a => G s a ∧ H s a) s actions := by
  induction actions generalizing s with
  | nil => trivial
  | cons a rest ih =>
      exact ⟨⟨hG.left, hH.left⟩, fun s' hs' => ih (hG.right s' hs') (hH.right s' hs')⟩

/-- A property of every state a run visits is a guard that its steps meet. -/
theorem Always.obeys {P : State -> Prop} {s : State} {actions : List Action}
    (h : M.Always P s actions) : M.Obeys (fun s _ => P s) s actions := by
  induction actions generalizing s with
  | nil => trivial
  | cons a rest ih => exact ⟨h.left, fun s' hs' => ih (h.right s' hs')⟩

/-- What holds of every action of a run can be added to its guard. -/
theorem Obeys.and_of_forall {G : State -> Action -> Prop} {A : Action -> Prop}
    {s : State} {actions : List Action} (h : M.Obeys G s actions)
    (hA : forall a, a ∈ actions -> A a) :
    M.Obeys (fun s a => G s a ∧ A a) s actions := by
  induction actions generalizing s with
  | nil => trivial
  | cons a rest ih =>
      refine ⟨⟨h.left, hA a List.mem_cons_self⟩, fun s' hs' => ?_⟩
      exact ih (h.right s' hs') fun b hb => hA b (List.mem_cons_of_mem _ hb)

/-- A run of actions that meet the guard in every state obeys it. -/
theorem obeys_of_forall {G : State -> Action -> Prop} {actions : List Action}
    (h : forall a, a ∈ actions -> forall s, G s a) (s : State) : M.Obeys G s actions := by
  induction actions generalizing s with
  | nil => trivial
  | cons a rest ih =>
      have hrest := ih fun b hb => h b (List.mem_cons_of_mem a hb)
      exact ⟨h a List.mem_cons_self s, fun s' _ => hrest s'⟩

/-- An invariant that guarded steps keep holds along every guarded run. -/
theorem always_of_obeys {I : State -> Prop} {G : State -> Action -> Prop}
    (hstep : forall s a t, I s -> G s a -> M.step s a = some t -> I t)
    {s : State} {actions : List Action}
    (hs : I s) (hobeys : M.Obeys G s actions) : M.Always I s actions := by
  induction actions generalizing s with
  | nil => exact hs
  | cons a rest ih =>
      refine ⟨hs, fun s' hs' => ih ?_ (hobeys.right s' hs')⟩
      exact hstep s a s' hs hobeys.left hs'

/-- An invariant that every step keeps holds along every run. -/
theorem always_of_step {I : State -> Prop}
    (hstep : forall s a t, I s -> M.step s a = some t -> I t)
    {s : State} (actions : List Action) (hs : I s) : M.Always I s actions := by
  induction actions generalizing s with
  | nil => exact hs
  | cons a rest ih => exact ⟨hs, fun s' hs' => ih (hstep s a s' hs hs')⟩

/-- Steps from the states of an invariant meet what the invariant implies of them, along
every run that obeys the guard that keeps it. -/
theorem obeys_of_obeys {I : State -> Prop} {G H : State -> Action -> Prop}
    (hkeep : forall s a t, I s -> H s a -> M.step s a = some t -> I t)
    (hG : forall s a t, I s -> M.step s a = some t -> G s a)
    {s t : State} {actions : List Action} (hs : I s) (hexec : M.exec s actions = some t)
    (hobeys : M.Obeys H s actions) : M.Obeys G s actions := by
  induction actions generalizing s with
  | nil => trivial
  | cons a rest ih =>
      rcases M.exec_cons_some hexec with ⟨s', hs', hrest⟩
      refine ⟨hG s a s' hs hs', fun u hu => ?_⟩
      rw [hs'] at hu
      cases hu
      exact ih (hkeep s a s' hs hobeys.left hs') hrest (hobeys.right s' hs')

/--
When guarded steps keep the invariant and every unguarded step destroys the
property, a run keeps the property exactly when it obeys the guard.
-/
theorem always_iff_obeys {I P : State -> Prop} {G : State -> Action -> Prop}
    (hIP : forall s, I s -> P s)
    (hkeep : forall s a t, I s -> G s a -> M.step s a = some t -> I t)
    (hbreak : forall s a t, I s -> ¬ G s a -> M.step s a = some t -> ¬ P t)
    {s t : State} {actions : List Action}
    (hs : I s) (hexec : M.exec s actions = some t) :
    M.Always P s actions <-> M.Obeys G s actions := by
  constructor
  · intro hP
    induction actions generalizing s with
    | nil => trivial
    | cons a rest ih =>
        rcases M.exec_cons_some hexec with ⟨s', hs', hrest⟩
        have hG : G s a := by
          by_contra hnot
          exact hbreak s a s' hs hnot hs' (hP.right s' hs').head
        refine ⟨hG, fun u hu => ?_⟩
        rw [hs'] at hu
        cases hu
        exact ih (hkeep s a s' hs hG hs') hrest (hP.right s' hs')
  · intro hobeys
    exact (always_of_obeys hkeep hs hobeys).imp hIP

/--
The rule for what a party can bring about by itself: where one of its steps always makes
the measure smaller, a run of them, no longer than the measure, ends with none left.
-/
theorem exists_exec_of_measure {I : State -> Prop} {G : State -> Action -> Prop}
    {left : State -> Nat}
    (hstep : forall s, I s -> 0 < left s ->
      exists a t, G s a ∧ M.step s a = some t ∧ I t ∧ left t < left s)
    {s : State} (hs : I s) :
    exists actions t, M.Obeys G s actions ∧ actions.length ≤ left s ∧
      M.exec s actions = some t ∧ I t ∧ left t = 0 := by
  induction hn : left s using Nat.strongRecOn generalizing s with
  | ind n ih =>
      rcases Nat.eq_zero_or_pos n with hzero | hpos
      · exact ⟨[], s, trivial, Nat.zero_le n, rfl, hs, hn.trans hzero⟩
      · rcases hstep s hs (hn ▸ hpos) with ⟨a, t, ha, hat, ht, hless⟩
        rcases ih (left t) (hn ▸ hless) ht rfl with ⟨rest, u, hG, hlength, hexec, hu, hleft⟩
        refine ⟨a :: rest, u, ⟨ha, ?_⟩, ?_, ?_, hu, hleft⟩
        · intro t' ht'
          rw [hat] at ht'
          cases ht'
          exact hG
        · rw [List.length_cons]
          exact Nat.lt_of_le_of_lt hlength (hn ▸ hless)
        · rw [M.exec_cons_of_step rest hat]
          exact hexec

/-- Two guards that agree on the steps from the states that an invariant allows, and of
which one keeps the invariant, are obeyed by the same runs. -/
theorem obeys_iff_obeys {I : State -> Prop} {G H : State -> Action -> Prop}
    (hkeep : forall s a t, I s -> H s a -> M.step s a = some t -> I t)
    (hstep : forall s a t, I s -> M.step s a = some t -> (G s a <-> H s a))
    {s t : State} {actions : List Action} (hs : I s) (hexec : M.exec s actions = some t) :
    M.Obeys G s actions <-> M.Obeys H s actions := by
  induction actions generalizing s with
  | nil => exact Iff.rfl
  | cons a rest ih =>
      rcases M.exec_cons_some hexec with ⟨s', hs', hrest⟩
      have hhead := hstep s a s' hs hs'
      constructor
      · intro hobeys
        have hH := hhead.mp hobeys.left
        refine ⟨hH, fun u hu => ?_⟩
        rw [hs'] at hu
        cases hu
        exact (ih (hkeep s a s' hs hH hs') hrest).mp (hobeys.right s' hs')
      · intro hobeys
        refine ⟨hhead.mpr hobeys.left, fun u hu => ?_⟩
        rw [hs'] at hu
        cases hu
        exact (ih (hkeep s a s' hs hobeys.left hs') hrest).mpr (hobeys.right s' hs')

/--
When a step keeps the property exactly if it meets the guard, and nothing brings
the property back, a run ends with it exactly when all its steps met the guard.
-/
theorem last_iff_obeys {A : Action -> Prop} {I P : State -> Prop}
    {G : State -> Action -> Prop}
    (hkeep : forall s a t, A a -> I s -> M.step s a = some t -> I t)
    (hstep : forall s a t, A a -> I s -> M.step s a = some t -> (P t <-> P s ∧ G s a))
    {s t : State} {actions : List Action} (hA : forall a, a ∈ actions -> A a)
    (hs : I s) (hexec : M.exec s actions = some t) :
    P t <-> P s ∧ M.Obeys G s actions := by
  induction actions generalizing s with
  | nil =>
      cases hexec
      exact ⟨fun h => ⟨h, trivial⟩, And.left⟩
  | cons a rest ih =>
      rcases M.exec_cons_some hexec with ⟨s', hs', hrest⟩
      have ha := hA a List.mem_cons_self
      have htail := ih (fun b hb => hA b (List.mem_cons_of_mem _ hb))
        (hkeep s a s' ha hs hs') hrest
      have hobeys : M.Obeys G s (a :: rest) <-> G s a ∧ M.Obeys G s' rest := by
        simp [Obeys, hs']
      rw [htail, hobeys, hstep s a s' ha hs hs', and_assoc]

end Machine

end Foundation
end RcTunnel
