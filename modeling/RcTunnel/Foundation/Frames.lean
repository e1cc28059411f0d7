import Mathlib.Data.List.Infix

/-!
# Streams of frames

A framing writes a message as a frame and reads the first message off a stream.
A stream of whole frames, followed by the beginning of one more, is read back
message by message.
-/

namespace RcTunnel
namespace Foundation

structure Framing (Message : Type u) (Byte : Type v) where
  frame : Message -> List Byte
  read : List Byte -> Option (Message × List Byte)

namespace Framing

variable {Message : Type u} {Byte : Type v} (F : Framing Message Byte)

/-- The frame of the message is read back as it, and no part of the frame is. -/
structure Reads (m : Message) : Prop where
  frame : forall rest, F.read (F.frame m ++ rest) = some (m, rest)
  part : forall part, part <+: F.frame m -> part ≠ F.frame m -> F.read part = none

def stream (ms : List Message) : List Byte := ms.flatMap F.frame

/-- The beginning of a frame. -/
def Part (part : List Byte) : Prop :=
  exists m, F.Reads m ∧ part <+: F.frame m ∧ part ≠ F.frame m

/-- The messages that are read off a stream, at most so many. -/
def readAll : Nat -> List Byte -> List Message
  | 0, _ => []
  | n + 1, bytes =>
      match F.read bytes with
      | none => []
      | some (m, rest) => m :: readAll n rest

@[simp] theorem stream_nil : F.stream [] = [] := rfl

@[simp] theorem stream_cons (m : Message) (ms : List Message) :
    F.stream (m :: ms) = F.frame m ++ F.stream ms := rfl

@[simp] theorem stream_concat (ms : List Message) (m : Message) :
    F.stream (ms ++ [m]) = F.stream ms ++ F.frame m := by
  simp [stream]

variable {F}

theorem Part.read {part : List Byte} (h : F.Part part) : F.read part = none := by
  rcases h with ⟨m, hreads, hprefix, hne⟩
  exact hreads.part part hprefix hne

theorem readAll_stream {ms : List Message} {part : List Byte} {n : Nat}
    (hms : forall m, m ∈ ms -> F.Reads m) (hpart : F.read part = none)
    (hn : ms.length ≤ n) : F.readAll n (F.stream ms ++ part) = ms := by
  induction ms generalizing n with
  | nil =>
      cases n with
      | zero => rfl
      | succ n => simp [readAll, hpart]
  | cons m rest ih =>
      cases n with
      | zero => cases hn
      | succ n =>
          have hread := (hms m List.mem_cons_self).frame (F.stream rest ++ part)
          have htail := ih (fun m' hm' => hms m' (List.mem_cons_of_mem m hm'))
            (Nat.le_of_succ_le_succ hn)
          rw [stream_cons, List.append_assoc]
          simp only [readAll, hread, htail]

/-- There are no more messages on a stream than bytes. -/
theorem length_le_stream {ms : List Message} (hms : forall m, m ∈ ms -> F.frame m ≠ []) :
    ms.length ≤ (F.stream ms).length := by
  induction ms with
  | nil => exact Nat.le_refl 0
  | cons m rest ih =>
      have hpos := List.length_pos_iff.mpr (hms m List.mem_cons_self)
      have htail := ih fun m' hm' => hms m' (List.mem_cons_of_mem m hm')
      rw [stream_cons, List.length_append, List.length_cons]
      omega

end Framing

end Foundation
end RcTunnel
