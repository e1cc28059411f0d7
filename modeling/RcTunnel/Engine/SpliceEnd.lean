import RcTunnel.Engine.Splice

/-!
# The end of a tunnelled connection

A pipe ends when one of its copiers does: it closes both its connections, and what the
copiers are blocked in then fails.  The work connection it has closed ends a copier of the
other pipe, so that from one end on nothing is left of the whole tunnel.
-/

namespace RcTunnel
namespace Engine

open Foundation

namespace Splice

/-- A step that the pipes take by themselves, as far as no read or write blocks: they fail
where the pipe has closed the connections. -/
def State.Own (s : State) : Action -> Prop
  | Action.read _ _ _ => True
  | Action.eof _ _ => True
  | Action.write _ _ => True
  | Action.fail p w _ =>
      (s.calls p).closed (source p w) = true ∧ (s.calls p).closed (target p w) = true
  | Action.count _ _ => True
  | Action.wake _ => True
  | Action.close _ => True
  | Action.finishPipe _ => True
  | _ => False

def Phase.left : Phase -> Nat
  | Phase.copying => 2
  | Phase.counting => 1
  | Phase.done => 0

def Main.left : Main -> Nat
  | Main.opening => 4
  | Main.waiting => 4
  | Main.closingFirst => 3
  | Main.closingSecond => 2
  | Main.draining => 1
  | Main.returned => 0

/-- How many steps the call has left at most, once a copier has ended. -/
def Call.left (x : Call) : Nat :=
  x.main.left + (x.copiers Way.toLocal).phase.left + (x.copiers Way.toPublic).phase.left

section Ends

variable {http : Option Http} {s t : State} {p q : Pipe} {w : Way}

/-- A pipe changes nothing of the other's call. -/
def State.Beside (s t : State) (p : Pipe) : Prop := forall q, q ≠ p -> t.calls q = s.calls q

theorem beside_setCall (s : State) (p : Pipe) (x : Call) : s.Beside (s.setCall p x) p :=
  fun _ hq => Function.update_of_ne hq ..

theorem State.Beside.trans {u : State} (h : s.Beside t p) (h' : t.Beside u p) : s.Beside u p :=
  fun q hq => (h' q hq).trans (h q hq)

@[simp] theorem setCall_calls (s : State) (p : Pipe) (x : Call) :
    (s.setCall p x).calls p = x := Function.update_self ..

@[simp] theorem setCopier_calls (s : State) (p : Pipe) (w : Way) (c : Copier) :
    (s.setCopier p w c).calls p = (s.calls p).setCopier w c := Function.update_self ..

/-!
# From one copier to the pipe
-/

/-- Closing the connections is all that the copiers wait for. -/
theorem source_closed {closed : Conn -> Bool} (hfirst : closed (first p) = true)
    (hsecond : closed (second p) = true) (w : Way) :
    closed (source p w) = true ∧ closed (target p w) = true := by
  cases p <;> cases w <;> exact ⟨by assumption, by assumption⟩

/-- A copier that is not done has a step of its own, once the connections are closed. -/
theorem copier_step (http : Option Http) (hmain : (s.calls p).main ≠ Main.opening)
    (hphase : (s.copier p w).phase ≠ Phase.done)
    (hclosed : (s.calls p).closed (source p w) = true ∧ (s.calls p).closed (target p w) = true) :
    exists a t c, s.Own a ∧ step http s a = some t ∧ s.Beside t p ∧
      t.calls p = (s.calls p).setCopier w c ∧ c.phase.left < (s.copier p w).phase.left := by
  cases h : (s.copier p w).phase with
  | copying =>
      have hless : Phase.counting.left < Phase.copying.left := Nat.lt_succ_self 1
      cases hfin : (s.hops (goal p w)).fin with
      | true =>
          have hstep : step http s (Action.fail p w 0) =
              some (s.setCopier p w { s.copier p w with phase := Phase.counting }) := by
            simp [step, hmain, h, hfin]
          exact ⟨Action.fail p w 0, _, _, hclosed, hstep, beside_setCall _ _ _, setCopier_calls ..,
            hless⟩
      | false =>
          have hstep : step http s (Action.fail p w 0) =
              some ((s.setHop (goal p w)
                ((s.hops (goal p w)).write ((s.copier p w).pending.take 0))).setCopier p w
                  ((s.copier p w).emit ((s.copier p w).pending.take 0) Phase.counting)) := by
            simp [step, hmain, h, hfin]
          exact ⟨Action.fail p w 0, _, _, hclosed, hstep, beside_setCall _ _ _, setCopier_calls ..,
            hless⟩
  | counting =>
      have hstep : step http s (Action.count p w) =
          some { s.setCopier p w { s.copier p w with phase := Phase.done } with
            counted := if p = Pipe.server then
              Function.update s.counted w (s.counted w + (s.copier p w).written)
              else s.counted } := by
        simp [step, h]
      exact ⟨Action.count p w, _, _, trivial, hstep, beside_setCall s p _, setCopier_calls ..,
        Nat.zero_lt_one⟩
  | done => exact absurd h hphase

theorem left_setCopier {x : Call} {c : Copier}
    (h : c.phase.left < (x.copiers w).phase.left) : (x.setCopier w c).left < x.left := by
  cases w with
  | toLocal =>
      have hleft : (x.setCopier Way.toLocal c).left =
          x.main.left + c.phase.left + (x.copiers Way.toPublic).phase.left := by
        simp [Call.left, Call.setCopier]
      rw [hleft, Call.left]
      omega
  | toPublic =>
      have hleft : (x.setCopier Way.toPublic c).left =
          x.main.left + (x.copiers Way.toLocal).phase.left + c.phase.left := by
        simp [Call.left, Call.setCopier]
      rw [hleft, Call.left]
      omega

/-- A copier has ended, or has never started. -/
def State.Ending (s : State) (p : Pipe) : Prop :=
  (s.calls p).main ≠ Main.opening ∧ exists w, (s.copier p w).phase = Phase.done

/-- A call in which one copier is done has a step of its own that brings it on. -/
theorem own_step (hs : s.Sound http) (hending : s.Ending p) (hleft : 0 < (s.calls p).left) :
    exists a t, s.Own a ∧ step http s a = some t ∧ s.Beside t p ∧
      (t.calls p).main ≠ Main.opening ∧ (t.calls p).main ≠ Main.waiting ∧
      (t.calls p).left < (s.calls p).left := by
  have horderly := hs.orderly p
  have hless : forall m closed, m.left < (s.calls p).main.left ->
      Call.left { s.calls p with closed := closed, main := m } < (s.calls p).left := by
    intro m closed hm
    exact Nat.add_lt_add_right (Nat.add_lt_add_right hm _) _
  cases hmain : (s.calls p).main with
  | opening => exact absurd hmain hending.left
  | waiting =>
      have hor : (s.copier p Way.toLocal).phase = Phase.done ∨
          (s.copier p Way.toPublic).phase = Phase.done := by
        rcases hending.right with ⟨w, hw⟩
        cases w with
        | toLocal => exact Or.inl hw
        | toPublic => exact Or.inr hw
      refine ⟨Action.wake p, _, trivial, if_pos ⟨hmain, hor⟩, beside_setCall _ _ _, ?_⟩
      rw [setCall_calls]
      exact ⟨by simp, by simp, hless _ _ (by rw [hmain]; decide)⟩
  | closingFirst =>
      have hstep : step http s (Action.close p) =
          some (s.closeConn p (first p) Main.closingSecond) := by
        simp only [step, hmain]
      refine ⟨Action.close p, _, trivial, hstep, beside_setCall _ _ _, ?_⟩
      rw [State.closeConn, setCall_calls]
      exact ⟨by simp, by simp, hless _ _ (by rw [hmain]; decide)⟩
  | closingSecond =>
      have hstep : step http s (Action.close p) =
          some (s.closeConn p (second p) Main.draining) := by
        simp only [step, hmain]
      refine ⟨Action.close p, _, trivial, hstep, beside_setCall _ _ _, ?_⟩
      rw [State.closeConn, setCall_calls]
      exact ⟨by simp, by simp, hless _ _ (by rw [hmain]; decide)⟩
  | draining =>
      have hclosed := source_closed (horderly.closedFirst (Or.inr (Or.inl hmain)))
        (horderly.closedSecond (Or.inl hmain))
      by_cases hall : forall w, (s.copier p w).phase = Phase.done
      · refine ⟨Action.finishPipe p, _, trivial, if_pos ⟨hmain, hall _, hall _⟩,
          beside_setCall _ _ _, ?_⟩
        rw [setCall_calls]
        exact ⟨by simp, by simp, hless _ _ (by rw [hmain]; decide)⟩
      · rcases not_forall.mp hall with ⟨w, hw⟩
        rcases copier_step http hending.left hw (hclosed w) with
          ⟨a, t, c, hown, hstep, hbeside, hcall, hphase⟩
        refine ⟨a, t, hown, hstep, hbeside, ?_⟩
        rw [hcall]
        refine ⟨?_, ?_, left_setCopier hphase⟩
        · simp [Call.setCopier, hmain]
        · simp [Call.setCopier, hmain]
  | returned =>
      have hphases := horderly.returned hmain
      rw [Call.left, hmain, hphases, hphases] at hleft
      cases hleft

theorem left_le (hending : s.Ending p) : (s.calls p).left ≤ 6 := by
  have hphase : forall phase : Phase, phase.left ≤ 2 := by
    intro phase
    cases phase <;> decide
  have hmain : (s.calls p).main.left ≤ 4 := by
    cases (s.calls p).main <;> decide
  rcases hending.right with ⟨w, hdone⟩
  have hzero : ((s.calls p).copiers w).phase.left = 0 := congrArg Phase.left hdone
  have hlocal := hphase ((s.calls p).copiers Way.toLocal).phase
  have hpublic := hphase ((s.calls p).copiers Way.toPublic).phase
  rw [Call.left]
  cases w with
  | toLocal => omega
  | toPublic => omega

/-- The pipe copies, and its source has ended. -/
structure State.Ends (s : State) (p : Pipe) (w : Way) : Prop where
  main : (s.calls p).main = Main.waiting
  fin : (s.hops (origin p w)).fin = true

/-- What is pending is to be written, what has arrived is to be read, and then the end. -/
def Copier.left (c : Copier) (src : Stream) : Nat :=
  match c.phase with
  | Phase.copying =>
      2 + (if c.pending = [] then 0 else 1) + (if src.received = src.sent then 0 else 2)
  | Phase.counting => 1
  | Phase.done => 0

theorem Copier.left_le (c : Copier) (src : Stream) : c.left src ≤ 5 := by
  unfold Copier.left
  split
  · split <;> split <;> decide
  · decide
  · decide

def Pipe.other : Pipe -> Pipe
  | Pipe.server => Pipe.client
  | Pipe.client => Pipe.server

/-- The pipe that reads what an end writes, and in which direction the other one reads. -/
def reader : Way -> Pipe
  | Way.toLocal => Pipe.server
  | Way.toPublic => Pipe.client

end Ends

end Splice

end Engine
end RcTunnel
