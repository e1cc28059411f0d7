import Mathlib.Data.List.Basic
import Mathlib.Order.Basic

/-!
# Histories with numbered entries

What a history hands on carries the numbers of its entries.  Entries that are handed on
under increasing numbers form a subsequence of the history.
-/

namespace RcTunnel
namespace Foundation

variable {α : Type u}

/-- Later entries leave the earlier ones where they are. -/
theorem getElem?_snoc {xs : List α} {x y : α} {n : Nat} (h : xs[n]? = some x) :
    (xs ++ [y])[n]? = some x := by
  have hlt : n < xs.length := (List.getElem?_eq_some_iff.mp h).choose
  rw [List.getElem?_append_left hlt, h]

theorem getElem?_snoc_last (xs : List α) (y : α) :
    (xs ++ [y])[(xs ++ [y]).length - 1]? = some y := by
  simp

theorem sublist_of_numbers {xs : List α} {keep : α -> Bool} {f : α -> β}
    {entries : List (Nat × β)} {start : Nat}
    (horder : (entries.map Prod.fst).Pairwise (· < ·))
    (hentries : forall n y, (n, y) ∈ entries -> start ≤ n ∧
      exists x, xs[n - start]? = some x ∧ keep x = true ∧ f x = y) :
    (entries.map Prod.snd).Sublist ((xs.filter keep).map f) := by
  induction xs generalizing entries start with
  | nil =>
      cases entries with
      | nil => exact List.Sublist.refl []
      | cons e rest =>
          rcases (hentries e.1 e.2 List.mem_cons_self).right with ⟨x, hx, -⟩
          cases hx
  | cons z zs ih =>
      cases entries with
      | nil => exact List.nil_sublist _
      | cons e rest =>
          have hlater : forall n y, (n, y) ∈ rest -> e.1 < n := by
            intro n y hmem
            rw [List.map_cons, List.pairwise_cons] at horder
            exact horder.left n (List.mem_map_of_mem hmem)
          have hnext : forall n x, start < n -> (z :: zs)[n - start]? = some x ->
              zs[n - (start + 1)]? = some x := by
            intro n x hlt hx
            have hsucc : n - start = (n - (start + 1)) + 1 := by omega
            rwa [hsucc, List.getElem?_cons_succ] at hx
          rcases hentries e.1 e.2 List.mem_cons_self with ⟨hle, x, hx, hkeep, hfx⟩
          rcases Nat.eq_or_lt_of_le hle with heq | hlt
          · rw [← heq, Nat.sub_self, List.getElem?_cons_zero, Option.some.injEq] at hx
            rw [List.filter_cons_of_pos (hx ▸ hkeep), List.map_cons, List.map_cons, hx, hfx]
            apply List.Sublist.cons_cons
            apply ih
            · rw [List.map_cons, List.pairwise_cons] at horder
              exact horder.right
            · intro n y hmem
              have hn : start < n := heq ▸ hlater n y hmem
              rcases (hentries n y (List.mem_cons_of_mem _ hmem)).right with ⟨x', hx', hrest⟩
              exact ⟨hn, x', hnext n x' hn hx', hrest⟩
          · have htail : ((e :: rest).map Prod.snd).Sublist ((zs.filter keep).map f) := by
              apply ih horder
              intro n y hmem
              have hn : start < n := by
                rcases List.mem_cons.mp hmem with rfl | hmem
                · exact hlt
                · exact Nat.lt_trans hlt (hlater n y hmem)
              rcases (hentries n y hmem).right with ⟨x', hx', hrest⟩
              exact ⟨hn, x', hnext n x' hn hx', hrest⟩
            exact htail.trans (((List.sublist_cons_self z zs).filter keep).map f)

end Foundation
end RcTunnel
