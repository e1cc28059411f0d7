import RcTunnel.Foundation.Chunks
import RcTunnel.Engine.Control

/-!
# The framing of UDP datagrams

A work connection of a udp proxy carries datagrams, each behind its total length
and the length of its address.  What is written is read back datagram by datagram,
whatever chunks the connection delivers, and whatever is accepted is what would
have been written.
-/

namespace RcTunnel
namespace Engine

open Foundation

structure Datagram where
  addr : Bytes
  data : Bytes
deriving DecidableEq, Repr

namespace Datagram

/-- {lit}`binary.BigEndian.PutUint16` -/
def putUint16 (n : Nat) : Bytes := [UInt8.ofNat (n >>> 8), UInt8.ofNat n]

/-- {lit}`binary.BigEndian.Uint16` of the first two bytes. -/
def getUint16 : Bytes -> Option Nat
  | a :: b :: _ => some (a.toNat * 0x100 + b.toNat)
  | _ => none

def total (d : Datagram) : Nat := 2 + d.addr.length + d.data.length

/-- {lit}`WriteDatagram`: the bytes written, unless the datagram is too large. -/
def write (d : Datagram) : Option Bytes :=
  if d.addr.length > 0xffff ∨ d.total > maxFrame then
    none
  else
    some (putUint32 d.total ++ (putUint16 d.addr.length ++ (d.addr ++ d.data)))

/-- The errors of {lit}`ReadDatagram`; the last is an index out of range. -/
inductive ReadError where
  | eof
  | unexpectedEOF
  | invalidLength
  | invalidAddrLength
  | outOfRange
deriving DecidableEq, Repr

/-- {lit}`io.ReadFull` -/
def readFull (n : Nat) (r : Chunks UInt8) : Except ReadError (Bytes × Chunks UInt8) :=
  if (r.fill n).1.length = n then
    Except.ok (r.fill n)
  else if (r.fill n).1 = [] then
    Except.error ReadError.eof
  else
    Except.error ReadError.unexpectedEOF

/-- {lit}`buf[i:j]` -/
def slice (buf : Bytes) (i j : Nat) : Except ReadError Bytes :=
  if i ≤ j ∧ j ≤ buf.length then
    Except.ok ((buf.take j).drop i)
  else
    Except.error ReadError.outOfRange

/-- What an access within its bounds yields. -/
def within (value : Option α) : Except ReadError α :=
  match value with
  | some a => Except.ok a
  | none => Except.error ReadError.outOfRange

/-- The datagram in a frame without its length. -/
def parse (buf : Bytes) : Except ReadError Datagram := do
  let head ← slice buf 0 2
  let alen ← within (getUint16 head)
  if 2 + alen > buf.length then
    Except.error ReadError.invalidAddrLength
  else
    let addr ← slice buf 2 (2 + alen)
    let data ← slice buf (2 + alen) buf.length
    Except.ok ⟨addr, data⟩

/-- {lit}`ReadDatagram` -/
def read (r : Chunks UInt8) : Except ReadError (Datagram × Chunks UInt8) := do
  let (hdr, r) ← readFull 4 r
  let (n, _) ← within (Control.getUint32 hdr)
  if n < 2 ∨ n > maxFrame then
    Except.error ReadError.invalidLength
  else
    let (buf, r) ← readFull n r
    let d ← parse buf
    Except.ok (d, r)

/-!
# Integers
-/

theorem getUint16_putUint16 {n : Nat} (rest : Bytes) (h : n < 0x10000) :
    getUint16 (putUint16 n ++ rest) = some n := by
  have hbytes : n / 2 ^ 8 % 2 ^ 8 * 0x100 + n % 2 ^ 8 = n := by omega
  simp only [putUint16, List.cons_append, List.nil_append, getUint16, UInt8.toNat_ofNat',
    Nat.shiftRight_eq_div_pow]
  rw [hbytes]

theorem putUint16_getUint16 (a b : UInt8) : putUint16 (a.toNat * 0x100 + b.toNat) = [a, b] := by
  have ha := a.toNat_lt
  have hb := b.toNat_lt
  have hhigh : UInt8.ofNat ((a.toNat * 0x100 + b.toNat) >>> 8) = a := by
    apply UInt8.toNat_inj.mp
    rw [UInt8.toNat_ofNat', Nat.shiftRight_eq_div_pow]
    omega
  have hlow : UInt8.ofNat (a.toNat * 0x100 + b.toNat) = b := by
    apply UInt8.toNat_inj.mp
    rw [UInt8.toNat_ofNat']
    omega
  rw [putUint16, hhigh, hlow]

theorem putUint32_getUint32 (a b c d : UInt8) :
    putUint32 (a.toNat * 0x1000000 + b.toNat * 0x10000 + c.toNat * 0x100 + d.toNat) =
      [a, b, c, d] := by
  have ha := a.toNat_lt
  have hb := b.toNat_lt
  have hc := c.toNat_lt
  have hd := d.toNat_lt
  have hbyte : forall (n : Nat) (x : UInt8), n % 256 = x.toNat -> UInt8.ofNat n = x := by
    intro n x h
    apply UInt8.toNat_inj.mp
    rw [UInt8.toNat_ofNat']
    exact h
  simp only [putUint32, Nat.shiftRight_eq_div_pow]
  rw [hbyte _ a (by omega), hbyte _ b (by omega), hbyte _ c (by omega), hbyte _ d (by omega)]

/-!
# Parts of a frame
-/

@[simp] theorem ok_bind (a : α) (f : α -> Except ReadError β) : (Except.ok a >>= f) = f a := rfl

theorem bind_ok {x : Except ReadError α} {f : α -> Except ReadError β} {b : β} :
    (x >>= f) = Except.ok b <-> exists a, x = Except.ok a ∧ f a = Except.ok b := by
  cases x with
  | error e => simp [bind, Except.bind]
  | ok a => simp [bind, Except.bind]

theorem bind_error {x : Except ReadError α} {f : α -> Except ReadError β} {e : ReadError} :
    (x >>= f) = Except.error e <->
      x = Except.error e ∨ exists a, x = Except.ok a ∧ f a = Except.error e := by
  cases x with
  | error e' => simp [bind, Except.bind]
  | ok a => simp [bind, Except.bind]

section Reading

variable {r rest : Chunks UInt8} {buf tail : Bytes} {n : Nat}

theorem readFull_ok (h : readFull n r = Except.ok (buf, rest)) :
    buf.length = n ∧ r.bytes = buf ++ rest.bytes := by
  unfold readFull at h
  split at h
  · rename_i hfull
    rcases Chunks.fill_bytes n r with ⟨hgot, hleft⟩
    have hparts : r.fill n = (buf, rest) := Except.ok.inj h
    rw [hparts] at hfull hgot hleft
    constructor
    · exact hfull
    · calc
        r.bytes = r.bytes.take n ++ r.bytes.drop n := (List.take_append_drop n r.bytes).symm
        _ = buf ++ rest.bytes := congrArg₂ _ hgot.symm hleft.symm
  · split at h <;> cases h

theorem readFull_of_bytes (hbytes : r.bytes = buf ++ tail) :
    exists rest, readFull buf.length r = Except.ok (buf, rest) ∧ rest.bytes = tail := by
  rcases Chunks.fill_bytes buf.length r with ⟨hgot, hleft⟩
  rw [hbytes, List.take_left] at hgot
  rw [hbytes, List.drop_left] at hleft
  refine ⟨(r.fill buf.length).2, ?_, hleft⟩
  rw [readFull, if_pos (congrArg List.length hgot)]
  exact congrArg Except.ok (Prod.ext hgot rfl)

theorem readFull_eof (hbytes : r.bytes = []) :
    readFull (n + 1) r = Except.error ReadError.eof := by
  have hgot : (r.fill (n + 1)).1 = [] := by
    rw [(Chunks.fill_bytes (n + 1) r).left, hbytes, List.take_nil]
  simp [readFull, hgot]

theorem readFull_inRange : readFull n r ≠ Except.error ReadError.outOfRange := by
  unfold readFull
  intro h
  split at h
  · cases h
  · split at h <;> cases h

end Reading

theorem slice_eq {buf : Bytes} {i j : Nat} (hij : i ≤ j) (hj : j ≤ buf.length) :
    slice buf i j = Except.ok ((buf.take j).drop i) := if_pos ⟨hij, hj⟩

/-- A frame without its length is taken apart within its bounds. -/
theorem parse_eq (a b : UInt8) (body : Bytes) :
    parse (a :: b :: body) =
      if body.length < a.toNat * 0x100 + b.toNat then
        Except.error ReadError.invalidAddrLength
      else
        Except.ok ⟨body.take (a.toNat * 0x100 + b.toNat),
          body.drop (a.toNat * 0x100 + b.toNat)⟩ := by
  have hhead : slice (a :: b :: body) 0 2 = Except.ok [a, b] := slice_eq (by omega) (by simp)
  have halen : within (getUint16 [a, b]) = Except.ok (a.toNat * 0x100 + b.toNat) := rfl
  simp only [parse, hhead, halen, ok_bind]
  generalize a.toNat * 0x100 + b.toNat = alen
  have hlength : (a :: b :: body).length = 2 + body.length := by
    simp only [List.length_cons]
    omega
  rw [hlength]
  by_cases hlt : body.length < alen
  · rw [if_pos hlt, if_pos (by omega)]
  · rw [if_neg hlt, if_neg (by omega), slice_eq (by omega) (by omega), ok_bind,
      slice_eq (by omega) (by omega), ok_bind]
    simp [Nat.add_comm 2]

theorem parse_inRange {buf : Bytes} (h : 2 ≤ buf.length) :
    parse buf ≠ Except.error ReadError.outOfRange := by
  cases buf with
  | nil => cases h
  | cons a buf =>
      cases buf with
      | nil => exact absurd h (by simp)
      | cons b body =>
          rw [parse_eq]
          split
          · intro h
            cases h
          · intro h
            cases h

/-- The frame without its length. -/
def body (d : Datagram) : Bytes := putUint16 d.addr.length ++ (d.addr ++ d.data)

theorem length_body (d : Datagram) : d.body.length = d.total := by
  simp only [body, total, putUint16, List.length_append, List.length_cons, List.length_nil]
  omega

theorem parse_body {d : Datagram} (h : d.addr.length ≤ 0xffff) :
    parse d.body = Except.ok d := by
  have hlen := getUint16_putUint16 [] (Nat.lt_succ_of_le h)
  rw [List.append_nil, putUint16, getUint16, Option.some.injEq] at hlen
  rw [body, putUint16, List.cons_append, List.cons_append, List.nil_append, parse_eq, hlen]
  rw [if_neg, List.take_left, List.drop_left]
  rw [List.length_append]
  omega

theorem body_of_parse {buf : Bytes} {d : Datagram} (hlength : 2 ≤ buf.length)
    (h : parse buf = Except.ok d) : d.body = buf ∧ d.addr.length ≤ 0xffff := by
  cases buf with
  | nil => cases hlength
  | cons a buf =>
      cases buf with
      | nil => exact absurd hlength (by simp)
      | cons b rest =>
          have ha := a.toNat_lt
          have hb := b.toNat_lt
          rw [parse_eq] at h
          split at h
          · cases h
          · rename_i hle
            cases h
            have haddr : (rest.take (a.toNat * 0x100 + b.toNat)).length =
                a.toNat * 0x100 + b.toNat := List.length_take_of_le (by omega)
            constructor
            · rw [body, haddr, putUint16_getUint16, List.take_append_drop]
              rfl
            · rw [haddr]
              omega

/-!
# One frame
-/

/-- {lit}`WriteDatagram` accepts it. -/
structure Fits (d : Datagram) : Prop where
  addr : d.addr.length ≤ 0xffff
  total : d.total ≤ maxFrame

theorem write_eq_some {d : Datagram} {frame : Bytes} :
    d.write = some frame <-> d.Fits ∧ frame = putUint32 d.total ++ d.body := by
  unfold write
  split
  · rename_i hlarge
    constructor
    · intro h
      cases h
    · rintro ⟨⟨haddr, htotal⟩, -⟩
      omega
  · rename_i hfits
    constructor
    · intro h
      exact ⟨⟨by omega, by omega⟩, (Option.some.inj h).symm⟩
    · rintro ⟨-, rfl⟩
      rfl

theorem maxFrame_eq : maxFrame = 0x100000 := by
  simp [maxFrame]

theorem total_lt {n : Nat} (h : n ≤ maxFrame) : n < 0x100000000 := by
  rw [maxFrame_eq] at h
  omega

/-- A header is the length that is read from it. -/
theorem getUint32_header {hdr : Bytes} (h : hdr.length = 4) :
    exists n, Control.getUint32 hdr = some (n, []) ∧ putUint32 n = hdr := by
  rcases List.length_eq_four.mp h with ⟨a, b, c, d, rfl⟩
  exact ⟨_, rfl, putUint32_getUint32 a b c d⟩

theorem length_putUint32 (n : Nat) : (putUint32 n).length = 4 := rfl

theorem Fits.getUint32 {d : Datagram} (h : d.Fits) :
    Control.getUint32 (putUint32 d.total) = some (d.total, []) := by
  have hread := Control.getUint32_putUint32 [] (total_lt h.total)
  rwa [List.append_nil] at hread

theorem Fits.range {d : Datagram} (h : d.Fits) : ¬ (d.total < 2 ∨ d.total > maxFrame) := by
  have htwo : 2 ≤ d.total := by
    unfold Datagram.total
    omega
  exact not_or.mpr ⟨Nat.not_lt.mpr htwo, Nat.not_lt.mpr h.total⟩

section Reading

variable {d : Datagram} {r rest : Chunks UInt8} {frame tail : Bytes}

/-- What was written is read back, and nothing behind it. -/
theorem read_write (hwrite : d.write = some frame) (hbytes : r.bytes = frame ++ tail) :
    exists rest, read r = Except.ok (d, rest) ∧ rest.bytes = tail := by
  rcases write_eq_some.mp hwrite with ⟨hfits, rfl⟩
  rw [List.append_assoc] at hbytes
  rcases readFull_of_bytes hbytes with ⟨behind, hhdr, hbehind⟩
  rcases readFull_of_bytes hbehind with ⟨rest, hbuf, hrest⟩
  refine ⟨rest, ?_, hrest⟩
  rw [length_body] at hbuf
  rw [length_putUint32] at hhdr
  rw [read, hhdr, ok_bind]
  simp only [hfits.getUint32, within, ok_bind]
  rw [if_neg hfits.range, hbuf, ok_bind, parse_body hfits.addr, ok_bind]

/-- What is read is what would have been written. -/
theorem write_of_read (h : read r = Except.ok (d, rest)) :
    exists frame, d.write = some frame ∧ r.bytes = frame ++ rest.bytes := by
  unfold read at h
  rcases bind_ok.mp h with ⟨⟨hdr, behind⟩, hhdr, h⟩
  rcases readFull_ok hhdr with ⟨hfour, hbytes⟩
  rcases getUint32_header hfour with ⟨n, hlen, rfl⟩
  simp only [hlen, within, ok_bind] at h
  split at h
  · cases h
  · rename_i hrange
    rcases bind_ok.mp h with ⟨⟨buf, rest'⟩, hbuf, h⟩
    rcases bind_ok.mp h with ⟨d', hparse, h⟩
    cases h
    rcases readFull_ok hbuf with ⟨hlength, hbehind⟩
    have hwhole : 2 ≤ buf.length := by omega
    rcases body_of_parse hwhole hparse with ⟨rfl, haddr⟩
    rw [length_body] at hlength
    rw [← hlength] at hrange hbytes
    refine ⟨putUint32 d.total ++ d.body, write_eq_some.mpr ⟨⟨haddr, by omega⟩, rfl⟩, ?_⟩
    rw [hbytes, hbehind, List.append_assoc]

theorem read_eof (hbytes : r.bytes = []) : read r = Except.error ReadError.eof := by
  rw [read, readFull_eof hbytes]
  rfl

theorem read_inRange (r : Chunks UInt8) : read r ≠ Except.error ReadError.outOfRange := by
  intro h
  unfold read at h
  rcases bind_error.mp h with hhdr | ⟨⟨hdr, behind⟩, hhdr, h⟩
  · exact readFull_inRange hhdr
  · rcases getUint32_header (readFull_ok hhdr).left with ⟨n, hlen, -⟩
    simp only [hlen, within, ok_bind] at h
    split at h
    · cases h
    · rename_i hrange
      rcases bind_error.mp h with hbuf | ⟨⟨buf, rest⟩, hbuf, h⟩
      · exact readFull_inRange hbuf
      · have hlength := (readFull_ok hbuf).left
        have hwhole : 2 ≤ buf.length := by omega
        rcases bind_error.mp h with hparse | ⟨d, -, h⟩
        · exact parse_inRange hwhole hparse
        · cases h

theorem length_of_read (h : read r = Except.ok (d, rest)) :
    rest.bytes.length < r.bytes.length := by
  rcases write_of_read h with ⟨frame, hwrite, hbytes⟩
  have hpos : 0 < frame.length := by
    rw [(write_eq_some.mp hwrite).right, List.length_append, length_putUint32]
    omega
  rw [hbytes, List.length_append]
  omega

end Reading

/-!
# The stream
-/

/-- Repeated calls of {lit}`ReadDatagram`, to the first error. -/
def readAll (r : Chunks UInt8) : List Datagram × ReadError :=
  match _h : read r with
  | Except.error e => ([], e)
  | Except.ok (d, rest) => (d :: (readAll rest).1, (readAll rest).2)
termination_by r.bytes.length
decreasing_by all_goals exact length_of_read _h

/-- The datagrams as they are written one after the other. -/
def frames (ds : List Datagram) : Bytes := ds.flatMap fun d => d.write.getD []

theorem readAll_error {r : Chunks UInt8} {e : ReadError} (h : read r = Except.error e) :
    readAll r = ([], e) := by
  rw [readAll]
  split
  · rename_i e' he'
    rw [h] at he'
    cases he'
    rfl
  · rename_i hok
    rw [h] at hok
    cases hok

theorem readAll_ok {r rest : Chunks UInt8} {d : Datagram} (h : read r = Except.ok (d, rest)) :
    readAll r = (d :: (readAll rest).1, (readAll rest).2) := by
  rw [readAll]
  split
  · rename_i herror
    rw [h] at herror
    cases herror
  · rename_i d' rest' hok
    rw [h] at hok
    cases hok
    rfl

theorem readAll_frames {ds : List Datagram} {r : Chunks UInt8}
    (hds : forall d, d ∈ ds -> d.write.isSome = true) (hbytes : r.bytes = frames ds) :
    readAll r = (ds, ReadError.eof) := by
  induction ds generalizing r with
  | nil => exact readAll_error (read_eof hbytes)
  | cons d ds ih =>
      rcases Option.isSome_iff_exists.mp (hds d List.mem_cons_self) with ⟨frame, hwrite⟩
      have hframes : r.bytes = frame ++ frames ds := by
        rw [hbytes, frames, List.flatMap_cons, hwrite]
        rfl
      rcases read_write hwrite hframes with ⟨rest, hread, hrest⟩
      rw [readAll_ok hread, ih (fun d' hd' => hds d' (List.mem_cons_of_mem d hd')) hrest]

/-- The datagrams that are read off any bytes were the bytes in front. -/
theorem frames_of_readAll (r : Chunks UInt8) :
    (forall d, d ∈ (readAll r).1 -> d.write.isSome = true) ∧ frames (readAll r).1 <+: r.bytes := by
  fun_induction readAll r with
  | case1 r e h =>
      constructor
      · intro d hd
        cases hd
      · exact List.nil_prefix
  | case2 r d rest h ih =>
      rcases write_of_read h with ⟨frame, hwrite, hbytes⟩
      constructor
      · intro d' hd'
        rcases List.mem_cons.mp hd' with rfl | hmem
        · rw [hwrite]
          rfl
        · exact ih.left d' hmem
      · rw [frames, List.flatMap_cons, hwrite, hbytes]
        exact (List.prefix_append_right_inj frame).mpr ih.right

/-- The lists of datagrams that are written are the streams that are read: in any
chunks they come back as they are, whatever is accepted is what was written, no index
is out of range, and every datagram that a socket can deliver is accepted. -/
theorem readAll_inverts_write :
    (forall (ds : List Datagram) (r : Chunks UInt8),
      (forall d, d ∈ ds -> d.write.isSome = true) -> r.bytes = frames ds ->
        readAll r = (ds, ReadError.eof)) ∧
    (forall r : Chunks UInt8, read r ≠ Except.error ReadError.outOfRange) ∧
    (forall (r rest : Chunks UInt8) (d : Datagram), read r = Except.ok (d, rest) ->
      exists frame, d.write = some frame ∧ r.bytes = frame ++ rest.bytes) ∧
    (forall d : Datagram, d.data.length ≤ 64 * 1024 -> d.addr.length ≤ 255 ->
      d.write.isSome = true) := by
  refine ⟨fun ds r => readAll_frames, read_inRange, fun r rest d => write_of_read, ?_⟩
  intro d hdata haddr
  have hfits : d.Fits := by
    constructor
    · omega
    · rw [maxFrame_eq, total]
      omega
  rw [write_eq_some.mpr ⟨hfits, rfl⟩]
  rfl

/-- Two datagrams in four chunks, none of which ends where a datagram does. -/
theorem readAll_inverts_write_pair :
    readAll [[0, 0], [0, 5, 0, 2, 1], [2, 3, 0, 0, 0], [4, 0, 0, 4, 5]] =
        ([⟨[1, 2], [3]⟩, ⟨[], [4, 5]⟩], ReadError.eof) ∧
    (exists frame, write ⟨[1, 2], [3]⟩ = some frame ∧
      Chunks.bytes [[0, 0], [0, 5, 0, 2, 1], [2, 3, 0]] = frame ++ Chunks.bytes [[0]]) ∧
    (write ⟨[1, 2], [3]⟩).isSome = true := by
  rcases readAll_inverts_write with ⟨hback, -, hfront, hwritten⟩
  have hfirst : (write ⟨[1, 2], [3]⟩).isSome = true := hwritten _ (by decide) (by decide)
  have hsecond : (write ⟨[], [4, 5]⟩).isSome = true := hwritten _ (by decide) (by decide)
  have hread : read [[0, 0], [0, 5, 0, 2, 1], [2, 3, 0]] =
      Except.ok (⟨[1, 2], [3]⟩, [[0]]) := by decide +kernel
  have hbytes : Chunks.bytes [[0, 0], [0, 5, 0, 2, 1], [2, 3, 0, 0, 0], [4, 0, 0, 4, 5]] =
      frames [⟨[1, 2], [3]⟩, ⟨[], [4, 5]⟩] := by decide +kernel
  refine ⟨hback _ _ ?_ hbytes, hfront _ _ _ hread, hfirst⟩
  intro d hd
  rcases List.mem_pair.mp hd with rfl | rfl
  · exact hfirst
  · exact hsecond

end Datagram

end Engine
end RcTunnel
