import Mathlib.Order.Defs.PartialOrder

/-!
# Version numbers

A number identifies the content it is published with when it never falls, and the
content changes only when it grows.  Both are a relation between an earlier and a later
publication, which is transitive, so it holds of any two of a run when it holds of each
step.
-/

namespace RcTunnel
namespace Foundation

/-- The later publication has the larger number, or the same with the same content. -/
def Advances (v w : Nat × Content) : Prop := v.1 ≤ w.1 ∧ (v.1 = w.1 -> v.2 = w.2)

theorem Advances.refl (v : Nat × Content) : Advances v v := ⟨Nat.le_refl _, fun _ => rfl⟩

theorem Advances.trans {u v w : Nat × Content} (huv : Advances u v) (hvw : Advances v w) :
    Advances u w := by
  constructor
  · exact Nat.le_trans huv.left hvw.left
  · intro heq
    have hfirst : u.1 = v.1 := Nat.le_antisymm huv.left (heq ▸ hvw.left)
    exact (huv.right hfirst).trans (hvw.right (hfirst.symm.trans heq))

/-- A larger number may have any content. -/
theorem Advances.of_lt {v w : Nat × Content} (h : v.1 < w.1) : Advances v w :=
  ⟨Nat.le_of_lt h, fun heq => absurd heq (Nat.ne_of_lt h)⟩

/-- What is published for a key that stays, in two states. -/
def AllAdvance (view : State -> Key -> Option (Nat × Content)) (s t : State) : Prop :=
  forall k v, view s k = some v -> exists w, view t k = some w ∧ Advances v w

theorem AllAdvance.refl (view : State -> Key -> Option (Nat × Content)) (s : State) :
    AllAdvance view s s := fun _ v hv => ⟨v, hv, Advances.refl v⟩

theorem AllAdvance.trans {view : State -> Key -> Option (Nat × Content)} {s t u : State}
    (hst : AllAdvance view s t) (htu : AllAdvance view t u) : AllAdvance view s u := by
  intro k v hv
  rcases hst k v hv with ⟨w, hw, hvw⟩
  rcases htu k w hw with ⟨x, hx, hwx⟩
  exact ⟨x, hx, hvw.trans hwx⟩

end Foundation
end RcTunnel
