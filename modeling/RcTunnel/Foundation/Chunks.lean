import Mathlib.Data.List.Basic

/-!
# Readers in chunks

A reader hands out its bytes in chunks, of which a read into a buffer takes one, or
the part that fits.  What a full buffer holds does not depend on the chunks.
-/

namespace RcTunnel
namespace Foundation

abbrev Chunks (Byte : Type u) := List (List Byte)

namespace Chunks

variable {Byte : Type u}

/-- The bytes that are still to come. -/
def bytes (r : Chunks Byte) : List Byte := r.flatten

@[simp] theorem bytes_nil : bytes ([] : Chunks Byte) = [] := rfl

@[simp] theorem bytes_cons (chunk : List Byte) (rest : Chunks Byte) :
    bytes (chunk :: rest) = chunk ++ bytes rest := rfl

/-- Reads until so many bytes are there, or there are no more. -/
def fill : Nat -> Chunks Byte -> List Byte × Chunks Byte
  | _, [] => ([], [])
  | n, chunk :: rest =>
      if n < chunk.length then
        (chunk.take n, chunk.drop n :: rest)
      else if n = chunk.length then
        (chunk, rest)
      else
        (chunk ++ (fill (n - chunk.length) rest).1, (fill (n - chunk.length) rest).2)

theorem fill_bytes (n : Nat) (r : Chunks Byte) :
    (fill n r).1 = r.bytes.take n ∧ (fill n r).2.bytes = r.bytes.drop n := by
  induction r generalizing n with
  | nil => simp [fill]
  | cons chunk rest ih =>
      rw [fill, bytes_cons]
      split
      · rename_i hlt
        rw [List.take_append_of_le_length (Nat.le_of_lt hlt), bytes_cons,
          List.drop_append_of_le_length (Nat.le_of_lt hlt)]
        exact ⟨rfl, rfl⟩
      · split
        · rename_i heq
          rw [heq, List.take_left, List.drop_left]
          exact ⟨rfl, rfl⟩
        · rename_i hge hne
          rcases ih (n - chunk.length) with ⟨hgot, hleft⟩
          have hle : chunk.length ≤ n := Nat.le_of_not_lt hge
          rw [hgot, hleft, List.take_append, List.drop_append, List.take_of_length_le hle,
            List.drop_eq_nil_of_le hle, List.nil_append]
          exact ⟨rfl, rfl⟩

end Chunks

end Foundation
end RcTunnel
