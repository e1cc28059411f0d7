import Mathlib.Data.List.DropRight
import RcTunnel.Engine.Proto

/-!
# White space in the engine's text files

The engine's text files are read line by line, and each line is trimmed of the
characters that {lit}`unicode.IsSpace` accepts.
-/

namespace RcTunnel
namespace Engine

/-- {lit}`unicode.IsSpace`. -/
def isSpace (c : Char) : Bool :=
  (9 ≤ c.toNat ∧ c.toNat ≤ 13) ∨ c.toNat = 32 ∨ c.toNat = 0x85 ∨ c.toNat = 0xA0 ∨
    c.toNat = 0x1680 ∨ (0x2000 ≤ c.toNat ∧ c.toNat ≤ 0x200A) ∨ c.toNat = 0x2028 ∨
    c.toNat = 0x2029 ∨ c.toNat = 0x202F ∨ c.toNat = 0x205F ∨ c.toNat = 0x3000

/-- {lit}`strings.TrimSpace`. -/
def trimSpace (t : Text) : Text := (t.dropWhile isSpace).rdropWhile isSpace

/-- A text with no space at either end is left as it is. -/
theorem trimSpace_eq_self {t : Text} (hfirst : forall c, t.head? = some c -> isSpace c = false)
    (hlast : forall c, t.getLast? = some c -> isSpace c = false) : trimSpace t = t := by
  have hfront : t.dropWhile isSpace = t := by
    cases t with
    | nil => rfl
    | cons c rest => simp [hfirst c rfl]
  unfold trimSpace
  rw [hfront, List.rdropWhile_eq_self_iff]
  intro hne
  simp [hlast (t.getLast hne) (List.getLast?_eq_some_getLast hne)]

theorem trimSpace_of_forall {t : Text} (h : forall c, c ∈ t -> isSpace c = false) :
    trimSpace t = t :=
  trimSpace_eq_self (fun c hc => h c (List.mem_of_head? hc))
    fun c hc => h c (List.mem_of_getLast? hc)

theorem isSpace_of_isDigit {c : Char} (h : c.isDigit = true) : isSpace c = false := by
  have hcode : 48 ≤ c.toNat ∧ c.toNat ≤ 57 := by
    simpa [Char.isDigit, UInt32.le_iff_toNat_le] using h
  unfold isSpace
  rw [decide_eq_false_iff_not]
  omega

end Engine
end RcTunnel
