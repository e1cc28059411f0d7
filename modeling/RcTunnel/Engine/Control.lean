import RcTunnel.Foundation.Frames
import RcTunnel.Foundation.Machine
import RcTunnel.Foundation.Table
import RcTunnel.Engine.Proto

/-!
# The control stream of one client

The handler of an accepted client registers its proxies and then writes the
answer to the hello, straight to the connection.  Every other message goes
through {lit}`send`, under a lock: requests for work connections, from the moment
a proxy is registered, and the handler's own answers, once it serves.  A message
is two writes, the header and the payload, and any write may fail.
-/

namespace RcTunnel
namespace Engine

open Foundation

namespace Control

/-!
# Reading frames
-/

/-- {lit}`binary.BigEndian.Uint32` of the first four bytes. -/
def getUint32 : Bytes -> Option (Nat × Bytes)
  | a :: b :: c :: d :: rest =>
      some (a.toNat * 0x1000000 + b.toNat * 0x10000 + c.toNat * 0x100 + d.toNat, rest)
  | _ => none

/-- The JSON encoder and decoder. -/
structure Codec where
  marshal : Msg -> Bytes
  unmarshal : Bytes -> Option Msg

/-- {lit}`ReadMsg`: the first message of the stream and what follows it. -/
def Codec.readMsg (codec : Codec) (bytes : Bytes) : Option (Msg × Bytes) :=
  match getUint32 bytes with
  | none => none
  | some (n, rest) =>
      if n = 0 ∨ maxFrame < n then
        none
      else if rest.length < n then
        none
      else
        (codec.unmarshal (rest.take n)).map fun m => (m, rest.drop n)

def Codec.framing (codec : Codec) : Framing Msg UInt8 where
  frame m := (writeMsg codec.marshal m).getD []
  read := codec.readMsg

/-- The message is decoded as it was encoded. -/
structure Codec.Decodes (codec : Codec) (m : Msg) : Prop where
  nonempty : codec.marshal m ≠ []
  decodes : codec.unmarshal (codec.marshal m) = some m

instance (codec : Codec) (m : Msg) : Decidable (codec.Decodes m) :=
  decidable_of_iff (codec.marshal m ≠ [] ∧ codec.unmarshal (codec.marshal m) = some m)
    ⟨fun ⟨hne, hdecodes⟩ => ⟨hne, hdecodes⟩, fun h => ⟨h.nonempty, h.decodes⟩⟩

/-- The message also fits into a frame. -/
structure Codec.Carries (codec : Codec) (m : Msg) : Prop extends codec.Decodes m where
  fits : (codec.marshal m).length ≤ maxFrame

def isReqWorkConn : Msg -> Bool
  | Msg.reqWorkConn _ _ => true
  | _ => false

/-- The requests that {lit}`session` acts on: the first message it reads is the answer
to its hello, whatever it says. -/
def Codec.dispatched (codec : Codec) (bytes : Bytes) : List Msg :=
  match codec.readMsg bytes with
  | none => []
  | some (_, rest) => (codec.framing.readAll rest.length rest).filter isReqWorkConn

/-!
# Writers
-/

inductive Handler where
  | registering
  /-- the header of the answer is written -/
  | answering
  | serving
  /-- the answer could not be written -/
  | finished
deriving DecidableEq, Repr

inductive Phase where
  | waiting
  | locked
  /-- the header is written -/
  | header
  | returned
deriving DecidableEq, Repr

/-- A call of {lit}`send`. -/
structure Writer where
  msg : Msg
  phase : Phase
deriving DecidableEq, Repr

structure State where
  /-- a proxy is registered -/
  published : Bool
  handler : Handler
  /-- the call that holds {lit}`writeMu` -/
  lock : Option Nat
  writers : Nat -> Option Writer
  /-- the bytes the client receives -/
  wire : Bytes
  /-- the connection is closed, or a write has failed -/
  broken : Bool
  /-- history: the messages that were written to their end -/
  written : List Msg

inductive Action where
  | publish
  | respond (cut : Option Nat)
  | call (w : Nat) (msg : Msg)
  | acquire (w : Nat)
  | write (w : Nat) (cut : Option Nat)
  | close
deriving DecidableEq, Repr

/-- A write that succeeds, or fails after some of its bytes; after a failure the TLS
connection takes no more. -/
def State.put (s : State) (bytes : Bytes) : Option Nat -> Option (State × Bool)
  | none =>
      if s.broken then
        some (s, false)
      else
        some ({ s with wire := s.wire ++ bytes }, true)
  | some n =>
      if s.broken ∨ bytes.length ≤ n then
        none
      else
        some ({ s with wire := s.wire ++ bytes.take n, broken := true }, false)

def State.setWriter (s : State) (w : Nat) (writer : Writer) : State :=
  { s with writers := Function.update s.writers w (some writer) }

/-- {lit}`send` returns. -/
def State.release (s : State) (w : Nat) (m : Msg) : State :=
  { s.setWriter w ⟨m, Phase.returned⟩ with lock := none }

/-- Who may call {lit}`send` with the message. -/
def State.mayCall (s : State) : Msg -> Bool
  | Msg.reqWorkConn _ _ => s.published
  | Msg.pong | Msg.helloResp _ _ _ => s.handler = Handler.serving
  | _ => false

/-- The answer to an accepted hello. -/
def helloResp (statuses : List ProxyStatus) : Msg := Msg.helloResp true [] statuses

def Codec.header (codec : Codec) (m : Msg) : Bytes := putUint32 (codec.marshal m).length

def Codec.tooLarge (codec : Codec) (m : Msg) : Bool := maxFrame < (codec.marshal m).length

section Steps

variable (codec : Codec) (answer : Msg)

def step (s : State) : Action -> Option State
  | Action.publish =>
      match s.handler with
      | Handler.registering => some { s with published := true }
      | _ => none
  | Action.respond cut =>
      match s.handler with
      | Handler.registering =>
          if codec.tooLarge answer then
            some { s with handler := Handler.finished }
          else
            match s.put (codec.header answer) cut with
            | none => none
            | some (s, ok) =>
                some { s with handler := if ok then Handler.answering else Handler.finished }
      | Handler.answering =>
          match s.put (codec.marshal answer) cut with
          | none => none
          | some (s, true) =>
              some { s with handler := Handler.serving, written := s.written ++ [answer] }
          | some (s, false) => some { s with handler := Handler.finished }
      | _ => none
  | Action.call w m =>
      if s.writers w = none ∧ s.mayCall m then
        some (s.setWriter w ⟨m, Phase.waiting⟩)
      else
        none
  | Action.acquire w =>
      match s.writers w, s.lock with
      | some ⟨m, Phase.waiting⟩, none =>
          some { s.setWriter w ⟨m, Phase.locked⟩ with lock := some w }
      | _, _ => none
  | Action.write w cut =>
      match s.writers w with
      | some ⟨m, Phase.locked⟩ =>
          if codec.tooLarge m then
            some (s.release w m)
          else
            match s.put (codec.header m) cut with
            | none => none
            | some (s, true) => some (s.setWriter w ⟨m, Phase.header⟩)
            | some (s, false) => some (s.release w m)
      | some ⟨m, Phase.header⟩ =>
          match s.put (codec.marshal m) cut with
          | none => none
          | some (s, true) => some { s.release w m with written := s.written ++ [m] }
          | some (s, false) => some (s.release w m)
      | _ => none
  | Action.close => some { s with broken := true }

def initial : State where
  published := false
  handler := Handler.registering
  lock := none
  writers := fun _ => none
  wire := []
  broken := false
  written := []

def machine : Machine State Action where
  init s := s = initial
  step := step codec answer

/-!
# The stream as the client reads it
-/

structure Framed (s : State) : Prop where
  /-- whole frames, and perhaps the beginning of one more -/
  frames : exists ms part, s.wire = codec.framing.stream ms ++ part ∧
    (part = [] ∨ codec.framing.Part part)
  /-- what the client reads first is the answer to its hello -/
  first : forall m rest, codec.readMsg s.wire = some (m, rest) -> m = answer
  /-- its loop sees every request that was written -/
  seen : forall m, m ∈ s.written -> isReqWorkConn m = true ->
    m ∈ codec.dispatched s.wire

/-- Nothing goes through {lit}`send` before the answer to the hello is written. -/
def Answered (s : State) : Action -> Prop
  | Action.write _ _ => s.handler = Handler.serving ∨ s.broken = true
  | _ => True

instance (s : State) : forall a, Decidable (Answered s a)
  | Action.write _ _ => inferInstanceAs (Decidable (_ ∨ _))
  | Action.publish | Action.respond _ | Action.call _ _ | Action.acquire _
  | Action.close => isTrue trivial

/-- The message of a call is one the codec decodes. -/
def Sends : Action -> Prop
  | Action.call _ m => codec.Decodes m
  | _ => True

instance : forall a, Decidable (Sends codec a)
  | Action.call _ m => inferInstanceAs (Decidable (codec.Decodes m))
  | Action.publish | Action.respond _ | Action.acquire _ | Action.write _ _
  | Action.close => isTrue trivial

end Steps

/-!
# Frames are read back
-/

theorem getUint32_putUint32 {n : Nat} (rest : Bytes) (h : n < 0x100000000) :
    getUint32 (putUint32 n ++ rest) = some (n, rest) := by
  have hbytes : n / 2 ^ 24 % 2 ^ 8 * 0x1000000 + n / 2 ^ 16 % 2 ^ 8 * 0x10000 +
      n / 2 ^ 8 % 2 ^ 8 * 0x100 + n % 2 ^ 8 = n := by omega
  simp only [putUint32, List.cons_append, List.nil_append, getUint32, UInt8.toNat_ofNat',
    Nat.shiftRight_eq_div_pow]
  rw [hbytes]

theorem getUint32_short {bytes : Bytes} (h : bytes.length < 4) : getUint32 bytes = none := by
  match bytes, h with
  | [], _ => rfl
  | [_], _ => rfl
  | [_, _], _ => rfl
  | [_, _, _], _ => rfl

section Codec

variable {codec : Codec} {m : Msg}

theorem Codec.Carries.frame_eq (h : codec.Carries m) :
    codec.framing.frame m = codec.header m ++ codec.marshal m := by
  have hfits : ¬ (codec.marshal m).length > maxFrame := Nat.not_lt.mpr h.fits
  simp only [Codec.framing, writeMsg, if_neg hfits, Option.getD_some, Codec.header]

theorem Codec.Carries.length_lt (h : codec.Carries m) :
    (codec.marshal m).length < 0x100000000 := by
  have hfits : (codec.marshal m).length ≤ 1 <<< 20 := h.fits
  have hmax : (1 : Nat) <<< 20 = 1048576 := rfl
  omega

theorem Codec.Decodes.carries (h : codec.Decodes m) (hfits : codec.tooLarge m = false) :
    codec.Carries m :=
  ⟨h, by simpa [Codec.tooLarge] using hfits⟩

/-- Reading once the header of the message is complete. -/
theorem Codec.Carries.readMsg_header (h : codec.Carries m) (rest : Bytes) :
    codec.readMsg (codec.header m ++ rest) =
      if rest.length < (codec.marshal m).length then
        none
      else
        (codec.unmarshal (rest.take (codec.marshal m).length)).map fun m' =>
          (m', rest.drop (codec.marshal m).length) := by
  have hpos : (codec.marshal m).length ≠ 0 := by simpa using h.nonempty
  have hsize : ¬ ((codec.marshal m).length = 0 ∨ maxFrame < (codec.marshal m).length) :=
    not_or.mpr ⟨hpos, Nat.not_lt.mpr h.fits⟩
  unfold Codec.readMsg Codec.header
  rw [getUint32_putUint32 rest h.length_lt]
  exact if_neg hsize

theorem Codec.readMsg_short {bytes : Bytes} (h : bytes.length < 4) :
    codec.readMsg bytes = none := by
  unfold Codec.readMsg
  rw [getUint32_short h]

theorem Codec.Carries.reads (h : codec.Carries m) : codec.framing.Reads m := by
  constructor
  · intro rest
    show codec.readMsg (codec.framing.frame m ++ rest) = some (m, rest)
    rw [h.frame_eq, List.append_assoc, h.readMsg_header, if_neg (by simp)]
    simp [h.decodes]
  · intro part hprefix hne
    show codec.readMsg part = none
    rw [h.frame_eq] at hprefix hne
    rcases hprefix with ⟨missing, heq⟩
    rcases List.append_eq_append_iff.mp heq with ⟨more, hheader, -⟩ | ⟨begun, rfl, hpayload⟩
    · cases more with
      | nil =>
          have hpos : ([] : Bytes).length < (codec.marshal m).length :=
            List.length_pos_iff.mpr h.nonempty
          have hread := h.readMsg_header []
          rw [if_pos hpos, List.append_nil, hheader, List.append_nil] at hread
          exact hread
      | cons b more =>
          apply Codec.readMsg_short
          have hlength := congrArg List.length hheader
          simp only [Codec.header, putUint32, List.length_cons, List.length_nil,
            List.length_append] at hlength
          omega
    · rw [h.readMsg_header]
      apply if_pos
      have hmissing : missing ≠ [] := by
        intro hnil
        rw [hnil, List.append_nil] at hpayload
        exact hne (by rw [hpayload])
      have hpos := List.length_pos_iff.mpr hmissing
      have hlength := congrArg List.length hpayload
      rw [List.length_append] at hlength
      omega

theorem Codec.Carries.frame_ne_nil (h : codec.Carries m) : codec.framing.frame m ≠ [] := by
  rw [h.frame_eq]
  simp [Codec.header, putUint32]

/-- The beginning of the payload after the header. -/
theorem Codec.Carries.part (h : codec.Carries m) {begun : Bytes}
    (hbegun : begun <+: codec.marshal m) (hne : begun ≠ codec.marshal m) :
    codec.framing.Part (codec.header m ++ begun) := by
  refine ⟨m, h.reads, ?_, ?_⟩
  · rw [h.frame_eq]
    exact (List.prefix_append_right_inj _).mpr hbegun
  · rw [h.frame_eq]
    intro heq
    exact hne (List.append_cancel_left heq)

/-- The beginning of the header. -/
theorem Codec.Carries.part_header (h : codec.Carries m) {begun : Bytes}
    (hbegun : begun <+: codec.header m) : codec.framing.Part begun := by
  refine ⟨m, h.reads, ?_, ?_⟩
  · rw [h.frame_eq]
    exact hbegun.trans (List.prefix_append _ _)
  · rw [h.frame_eq]
    intro heq
    have hle := hbegun.length_le
    have hpos := List.length_pos_iff.mpr h.nonempty
    rw [heq, List.length_append] at hle
    omega

end Codec

/-!
# What a step can do
-/

/-- A write went through, or the connection is broken now and its bytes are part of
the beginning of the write. -/
inductive Put (s : State) (bytes : Bytes) : State -> Bool -> Prop where
  | ok : s.broken = false -> Put s bytes { s with wire := s.wire ++ bytes } true
  | cut {begun : Bytes} :
      s.broken = false -> begun <+: bytes -> begun ≠ bytes ->
      Put s bytes { s with wire := s.wire ++ begun, broken := true } false
  | closed : s.broken = true -> Put s bytes s false

theorem put_cases {s t : State} {bytes : Bytes} {cut : Option Nat} {ok : Bool}
    (h : s.put bytes cut = some (t, ok)) : Put s bytes t ok := by
  unfold State.put at h
  cases cut with
  | none =>
      simp only at h
      split at h
      · rename_i hbroken
        cases h
        exact Put.closed hbroken
      · rename_i hopen
        cases h
        exact Put.ok (by simpa using hopen)
  | some n =>
      simp only at h
      split at h
      · cases h
      · rename_i hcut
        cases h
        rw [not_or] at hcut
        refine Put.cut (by simpa using hcut.left) (List.take_prefix n bytes) ?_
        intro heq
        have hlength := congrArg List.length heq
        rw [List.length_take] at hlength
        omega

/-- Every step, with its guard; a step that writes goes by the outcome. -/
inductive Step (codec : Codec) (answer : Msg) (s : State) : Action -> State -> Prop where
  | publish :
      s.handler = Handler.registering ->
      Step codec answer s Action.publish { s with published := true }
  | tooLong {cut : Option Nat} :
      s.handler = Handler.registering ->
      Step codec answer s (Action.respond cut) { s with handler := Handler.finished }
  | respondHeader {cut : Option Nat} {s' : State} {ok : Bool} :
      s.handler = Handler.registering -> codec.tooLarge answer = false ->
      Put s (codec.header answer) s' ok ->
      Step codec answer s (Action.respond cut)
        { s' with handler := if ok then Handler.answering else Handler.finished }
  | respond {cut : Option Nat} {s' : State} :
      s.handler = Handler.answering -> Put s (codec.marshal answer) s' true ->
      Step codec answer s (Action.respond cut)
        { s' with handler := Handler.serving, written := s'.written ++ [answer] }
  | respondFails {cut : Option Nat} {s' : State} :
      s.handler = Handler.answering -> Put s (codec.marshal answer) s' false ->
      Step codec answer s (Action.respond cut) { s' with handler := Handler.finished }
  | call {w : Nat} {m : Msg} :
      s.writers w = none ->
      Step codec answer s (Action.call w m) (s.setWriter w ⟨m, Phase.waiting⟩)
  | acquire {w : Nat} {m : Msg} :
      s.writers w = some ⟨m, Phase.waiting⟩ -> s.lock = none ->
      Step codec answer s (Action.acquire w)
        { s.setWriter w ⟨m, Phase.locked⟩ with lock := some w }
  | dropped {w : Nat} {cut : Option Nat} {m : Msg} :
      s.writers w = some ⟨m, Phase.locked⟩ ->
      Step codec answer s (Action.write w cut) (s.release w m)
  | header {w : Nat} {cut : Option Nat} {m : Msg} {s' : State} :
      s.writers w = some ⟨m, Phase.locked⟩ -> codec.tooLarge m = false ->
      Put s (codec.header m) s' true ->
      Step codec answer s (Action.write w cut) (s'.setWriter w ⟨m, Phase.header⟩)
  | headerFails {w : Nat} {cut : Option Nat} {m : Msg} {s' : State} :
      s.writers w = some ⟨m, Phase.locked⟩ -> codec.tooLarge m = false ->
      Put s (codec.header m) s' false ->
      Step codec answer s (Action.write w cut) (s'.release w m)
  | payload {w : Nat} {cut : Option Nat} {m : Msg} {s' : State} :
      s.writers w = some ⟨m, Phase.header⟩ -> Put s (codec.marshal m) s' true ->
      Step codec answer s (Action.write w cut)
        { s'.release w m with written := s'.written ++ [m] }
  | payloadFails {w : Nat} {cut : Option Nat} {m : Msg} {s' : State} :
      s.writers w = some ⟨m, Phase.header⟩ -> Put s (codec.marshal m) s' false ->
      Step codec answer s (Action.write w cut) (s'.release w m)
  | close : Step codec answer s Action.close { s with broken := true }

section Inversion

variable {codec : Codec} {answer : Msg}

theorem step_cases {s t : State} {a : Action} (h : step codec answer s a = some t) :
    Step codec answer s a t := by
  cases a with
  | publish =>
      simp only [step] at h
      split at h
      · rename_i hhandler
        cases h
        exact Step.publish hhandler
      · cases h
  | respond cut =>
      simp only [step] at h
      split at h
      · rename_i hhandler
        split at h
        · cases h
          exact Step.tooLong hhandler
        · rename_i hfits
          split at h
          · cases h
          · rename_i hput
            cases h
            exact Step.respondHeader hhandler (by simpa using hfits) (put_cases hput)
      · rename_i hhandler
        split at h
        · cases h
        · rename_i hput
          cases h
          exact Step.respond hhandler (put_cases hput)
        · rename_i hput
          cases h
          exact Step.respondFails hhandler (put_cases hput)
      · cases h
  | call w m =>
      simp only [step] at h
      split at h
      · rename_i hfree
        cases h
        exact Step.call hfree.left
      · cases h
  | acquire w =>
      simp only [step] at h
      split at h
      · rename_i hwriter hlock
        cases h
        exact Step.acquire hwriter hlock
      · cases h
  | write w cut =>
      simp only [step] at h
      split at h
      · rename_i hwriter
        split at h
        · cases h
          exact Step.dropped hwriter
        · rename_i hfits
          split at h
          · cases h
          · rename_i hput
            cases h
            exact Step.header hwriter (by simpa using hfits) (put_cases hput)
          · rename_i hput
            cases h
            exact Step.headerFails hwriter (by simpa using hfits) (put_cases hput)
      · rename_i hwriter
        split at h
        · cases h
        · rename_i hput
          cases h
          exact Step.payload hwriter (put_cases hput)
        · rename_i hput
          cases h
          exact Step.payloadFails hwriter (put_cases hput)
      · cases h
  | close =>
      cases h
      exact Step.close

end Inversion

/-!
# The invariant
-/

/-- The part of a frame that is written while the connection is up. -/
def State.begun (codec : Codec) (answer : Msg) (s : State) : Bytes :=
  match s.handler with
  | Handler.answering => codec.header answer
  | Handler.serving =>
      match s.lock.bind s.writers with
      | some ⟨m, Phase.header⟩ => codec.header m
      | _ => []
  | Handler.registering | Handler.finished => []

structure Calls (codec : Codec) (s : State) : Prop where
  decodes : forall w writer, s.writers w = some writer -> codec.Decodes writer.msg
  locked : forall w m phase, s.writers w = some ⟨m, phase⟩ ->
    phase = Phase.locked ∨ phase = Phase.header -> s.lock = some w
  headed : forall w m, s.writers w = some ⟨m, Phase.header⟩ ->
    codec.tooLarge m = false ∧ (s.handler = Handler.serving ∨ s.broken = true)

structure Inv (codec : Codec) (answer : Msg) (s : State) : Prop where
  wire : exists part, s.wire = codec.framing.stream s.written ++ part ∧
    (part = [] ∨ codec.framing.Part part) ∧
      (s.broken = false -> part = s.begun codec answer)
  unanswered : s.handler ≠ Handler.serving -> s.written = []
  answering : s.handler = Handler.answering -> codec.tooLarge answer = false
  answered : s.handler = Handler.serving -> exists rest, s.written = answer :: rest ∧
    forall m, m ∈ answer :: rest -> codec.Carries m
  calls : Calls codec s

section Proof

variable {codec : Codec} {answer : Msg}

/-- While no call is past its header, nothing of a frame is on the wire. -/
theorem begun_eq_nil {s : State} (hserving : s.handler = Handler.serving)
    (hheader : forall w m, s.lock = some w -> s.writers w ≠ some ⟨m, Phase.header⟩) :
    s.begun codec answer = [] := by
  unfold State.begun
  rw [hserving]
  cases hlock : s.lock with
  | none => rfl
  | some w =>
      cases hwriter : s.writers w with
      | none => simp [hwriter]
      | some writer =>
          rcases writer with ⟨m, phase⟩
          cases phase with
          | header => exact absurd hwriter (hheader w m hlock)
          | waiting | locked | returned => simp [hwriter]

/-- The calls after one of them has moved to another phase. -/
structure Moved (s t : State) (w : Nat) (m : Msg) (phase : Phase) : Prop where
  writers : t.writers = Function.update s.writers w (some ⟨m, phase⟩)
  lock : t.lock = if phase = Phase.locked ∨ phase = Phase.header then some w else none
  handler : t.handler = s.handler
  broken : s.broken = true -> t.broken = true

/-- Only the call that holds the lock writes. -/
theorem Calls.moved {s t : State} (h : Calls codec s) {w : Nat} {m : Msg}
    {old phase : Phase} (hw : s.writers w = some ⟨m, old⟩)
    (hold : s.lock = none ∨ s.lock = some w) (hmoved : Moved s t w m phase)
    (hheader : phase = Phase.header -> codec.tooLarge m = false ∧
      (s.handler = Handler.serving ∨ s.broken = true)) : Calls codec t := by
  refine ⟨?_, ?_, ?_⟩
  · intro v writer hv
    rw [hmoved.writers] at hv
    rcases lookup_started hv with ⟨rfl, rfl⟩ | ⟨-, hv⟩
    · exact h.decodes v ⟨m, old⟩ hw
    · exact h.decodes v writer hv
  · intro v m' phase' hv hphase
    rw [hmoved.writers] at hv
    rw [hmoved.lock]
    rcases lookup_started hv with ⟨rfl, heq⟩ | ⟨hne, hv⟩
    · cases heq
      rw [if_pos hphase]
    · have hlock := h.locked v m' phase' hv hphase
      rcases hold with hnone | hsome
      · rw [hnone] at hlock
        cases hlock
      · rw [hsome] at hlock
        exact absurd (Option.some.inj hlock).symm hne
  · intro v m' hv
    rw [hmoved.writers] at hv
    rw [hmoved.handler]
    rcases lookup_started hv with ⟨rfl, heq⟩ | ⟨-, hv⟩
    · cases heq
      exact ⟨(hheader rfl).left, (hheader rfl).right.imp_right hmoved.broken⟩
    · exact ⟨(h.headed v m' hv).left, (h.headed v m' hv).right.imp_right hmoved.broken⟩

/-- A write that fails leaves part of a frame, and nothing is written after it. -/
theorem Inv.cut {s t : State} (h : Inv codec answer s) {bytes : Bytes}
    (hput : Put s bytes t false)
    (hpart : s.broken = false -> forall begun, begun <+: bytes -> begun ≠ bytes ->
      codec.framing.Part (s.begun codec answer ++ begun)) :
    t.broken = true ∧ exists part, t.wire = codec.framing.stream s.written ++ part ∧
      (part = [] ∨ codec.framing.Part part) := by
  rcases h.wire with ⟨part, hwire, hold, hbegun⟩
  cases hput with
  | cut hopen hprefix hne =>
      rename_i begun
      refine ⟨rfl, part ++ begun, ?_, ?_⟩
      · show s.wire ++ begun = _
        rw [hwire, List.append_assoc]
      · rw [hbegun hopen]
        exact Or.inr (hpart hopen begun hprefix hne)
  | closed hbroken => exact ⟨hbroken, part, hwire, hold⟩

theorem inv_initial : Inv codec answer initial where
  wire := ⟨[], rfl, Or.inl rfl, fun _ => rfl⟩
  unanswered := fun _ => rfl
  answering := nofun
  answered := nofun
  calls := ⟨nofun, nofun, nofun⟩

/-- The calls while the handler answers the hello. -/
theorem Calls.answers {s t : State} (h : Calls codec s)
    (hhandler : s.handler ≠ Handler.serving) (hwriters : t.writers = s.writers)
    (hlock : t.lock = s.lock) (hbroken : s.broken = true -> t.broken = true) :
    Calls codec t := by
  refine ⟨?_, ?_, ?_⟩
  · rw [hwriters]
    exact h.decodes
  · rw [hwriters, hlock]
    exact h.locked
  · rw [hwriters]
    intro w m hw
    rcases h.headed w m hw with ⟨hfits, hserving | hclosed⟩
    · exact absurd hserving hhandler
    · exact ⟨hfits, Or.inr (hbroken hclosed)⟩

/-- A step of the handler whose write fails. -/
theorem Inv.respondCut {s t : State} (h : Inv codec answer s) {bytes : Bytes}
    (hput : Put s bytes t false) (hhandler : s.handler ≠ Handler.serving)
    (hpart : s.broken = false -> forall begun, begun <+: bytes -> begun ≠ bytes ->
      codec.framing.Part (s.begun codec answer ++ begun)) :
    Inv codec answer { t with handler := Handler.finished } := by
  rcases h.cut hput hpart with ⟨hbroken, part, hwire, hnew⟩
  have hsame : t.written = s.written ∧ t.writers = s.writers ∧ t.lock = s.lock := by
    cases hput <;> exact ⟨rfl, rfl, rfl⟩
  rcases hsame with ⟨hwritten, hwriters, hlock⟩
  refine ⟨⟨part, ?_, hnew, ?_⟩, fun _ => hwritten.trans (h.unanswered hhandler), nofun,
    nofun, h.calls.answers hhandler hwriters hlock fun _ => hbroken⟩
  · show t.wire = codec.framing.stream t.written ++ part
    rw [hwritten]
    exact hwire
  · intro hopen
    rw [hbroken] at hopen
    cases hopen

/-- A call that ends without having written its message. -/
theorem Inv.released {s t : State} (h : Inv codec answer s) {w : Nat} {m : Msg}
    {old : Phase} (hw : s.writers w = some ⟨m, old⟩) (hlocked : s.lock = some w)
    (hframe : t.written = s.written ∧ t.writers = s.writers ∧ t.handler = s.handler)
    (hbroken : s.broken = true -> t.broken = true)
    (hwire : exists part, t.wire = codec.framing.stream s.written ++ part ∧
      (part = [] ∨ codec.framing.Part part) ∧
        (t.broken = false -> part = (t.release w m).begun codec answer)) :
    Inv codec answer (t.release w m) := by
  rcases hframe with ⟨hwritten, hwriters, hhandler⟩
  have hmoved : Moved s (t.release w m) w m Phase.returned := by
    refine ⟨?_, rfl, hhandler, hbroken⟩
    show Function.update t.writers w _ = _
    rw [hwriters]
  refine ⟨?_, ?_, ?_, ?_, h.calls.moved hw (Or.inr hlocked) hmoved nofun⟩
  · show exists part, t.wire = codec.framing.stream t.written ++ part ∧ _
    rw [hwritten]
    exact hwire
  · intro hne
    exact hwritten.trans (h.unanswered (hhandler ▸ hne))
  · intro hanswering
    exact h.answering (hhandler ▸ hanswering)
  · intro hserving
    rcases h.answered (hhandler ▸ hserving) with ⟨rest, heq, hrest⟩
    exact ⟨rest, hwritten.trans heq, hrest⟩

section Responding

variable {s : State} (h : Inv codec answer s) (hopen : s.broken = false)
include h hopen

theorem Inv.respondHeader (hhandler : s.handler = Handler.registering)
    (hfits : codec.tooLarge answer = false) (hcarries : codec.Carries answer) :
    Inv codec answer
      { s with wire := s.wire ++ codec.header answer, handler := Handler.answering } := by
  have hne : s.handler ≠ Handler.serving := by simp [hhandler]
  rcases h.wire with ⟨part, hwire, -, hpending⟩
  refine ⟨⟨codec.header answer, ?_, ?_, fun _ => rfl⟩, fun _ => h.unanswered hne,
    fun _ => hfits, nofun, h.calls.answers hne rfl rfl id⟩
  · show s.wire ++ codec.header answer = _
    have hpart : part = [] := by
      rw [hpending hopen]
      simp [State.begun, hhandler]
    rw [hwire, hpart, List.append_nil]
  · exact Or.inr (hcarries.part_header List.prefix_rfl)

theorem Inv.respondPayload (hhandler : s.handler = Handler.answering)
    (hcarries : codec.Carries answer) :
    Inv codec answer
      { s with
        wire := s.wire ++ codec.marshal answer
        handler := Handler.serving
        written := s.written ++ [answer] } := by
  have hne : s.handler ≠ Handler.serving := by simp [hhandler]
  rcases h.wire with ⟨part, hwire, -, hpending⟩
  have hwritten := h.unanswered hne
  have hpart : part = codec.header answer := by
    rw [hpending hopen]
    simp [State.begun, hhandler]
  let t : State :=
    { s with
      wire := s.wire ++ codec.marshal answer
      handler := Handler.serving
      written := s.written ++ [answer] }
  refine ⟨⟨[], ?_, Or.inl rfl, fun _ => ?_⟩, fun hserving => absurd rfl hserving, nofun, ?_,
    h.calls.answers hne rfl rfl id⟩
  · show s.wire ++ codec.marshal answer = codec.framing.stream (s.written ++ [answer]) ++ []
    rw [hwire, hpart, hwritten]
    simp [hcarries.frame_eq]
  · refine (begun_eq_nil (s := t) rfl ?_).symm
    intro w m _ hw
    rcases (h.calls.headed w m hw).right with hserving | hbroken
    · exact hne hserving
    · rw [hopen] at hbroken
      cases hbroken
  · intro _
    refine ⟨[], ?_, ?_⟩
    · show s.written ++ [answer] = [answer]
      rw [hwritten, List.nil_append]
    · intro m hm
      rw [List.mem_singleton.mp hm]
      exact hcarries

end Responding

theorem inv_respond (hanswer : codec.Decodes answer) {s t : State}
    (h : Inv codec answer s) {cut : Option Nat}
    (hstep : Step codec answer s (Action.respond cut) t) : Inv codec answer t := by
  cases hstep with
  | tooLong hhandler =>
      have hne : s.handler ≠ Handler.serving := by simp [hhandler]
      refine ⟨?_, fun _ => h.unanswered hne, nofun, nofun, h.calls.answers hne rfl rfl id⟩
      rcases h.wire with ⟨part, hwire, hpart, hbegun⟩
      refine ⟨part, hwire, hpart, fun hopen => ?_⟩
      rw [hbegun hopen]
      simp [State.begun, hhandler]
  | respondHeader hhandler hfits hput =>
      rename_i s' ok
      have hcarries := hanswer.carries hfits
      cases ok with
      | false =>
          apply h.respondCut hput (by simp [hhandler])
          intro _ begun hprefix _
          have hbegun : s.begun codec answer = [] := by simp [State.begun, hhandler]
          rw [hbegun]
          exact hcarries.part_header hprefix
      | true =>
          cases hput with
          | ok hopen => exact h.respondHeader hopen hhandler hfits hcarries
  | respond hhandler hput =>
      cases hput with
      | ok hopen =>
          exact h.respondPayload hopen hhandler (hanswer.carries (h.answering hhandler))
  | respondFails hhandler hput =>
      apply h.respondCut hput (by simp [hhandler])
      intro _ begun hprefix hne
      have hbegun : s.begun codec answer = codec.header answer := by
        simp [State.begun, hhandler]
      rw [hbegun]
      exact (hanswer.carries (h.answering hhandler)).part hprefix hne

/-- A call whose write fails ends with part of its frame on the wire. -/
theorem Inv.releasedCut {s t : State} (h : Inv codec answer s) {bytes : Bytes}
    (hput : Put s bytes t false) {w : Nat} {m : Msg} {old : Phase}
    (hw : s.writers w = some ⟨m, old⟩) (hlocked : s.lock = some w)
    (hpart : s.broken = false -> forall begun, begun <+: bytes -> begun ≠ bytes ->
      codec.framing.Part (s.begun codec answer ++ begun)) :
    Inv codec answer (t.release w m) := by
  rcases h.cut hput hpart with ⟨hbroken, part, hwire, hnew⟩
  have hsame : t.written = s.written ∧ t.writers = s.writers ∧ t.handler = s.handler := by
    cases hput <;> exact ⟨rfl, rfl, rfl⟩
  apply h.released hw hlocked hsame fun _ => hbroken
  refine ⟨part, hwire, hnew, fun hopen => ?_⟩
  rw [hbroken] at hopen
  cases hopen

section Serving

variable {s : State} (h : Inv codec answer s) (hserving : s.handler = Handler.serving)
  {w : Nat} {m : Msg}
include h hserving

/-- Nothing of a frame is on the wire while the call with the lock is before its header. -/
theorem Inv.begun_locked (hw : s.writers w = some ⟨m, Phase.locked⟩) :
    s.begun codec answer = [] := by
  apply begun_eq_nil hserving
  intro v m' hlock hv
  rw [h.calls.locked w m Phase.locked hw (Or.inl rfl)] at hlock
  cases hlock
  rw [hw] at hv
  cases hv

theorem Inv.begun_header (hw : s.writers w = some ⟨m, Phase.header⟩) :
    s.begun codec answer = codec.header m := by
  have hlock := h.calls.locked w m Phase.header hw (Or.inr rfl)
  simp [State.begun, hserving, hlock, hw]

variable (hopen : s.broken = false)
include hopen

theorem Inv.writeHeader (hw : s.writers w = some ⟨m, Phase.locked⟩)
    (hfits : codec.tooLarge m = false) :
    Inv codec answer
      { s.setWriter w ⟨m, Phase.header⟩ with wire := s.wire ++ codec.header m } := by
  rcases h.wire with ⟨part, hwire, -, hpending⟩
  have hlock := h.calls.locked w m _ hw (Or.inl rfl)
  have hcarries := (h.calls.decodes w _ hw).carries hfits
  let t : State := { s.setWriter w ⟨m, Phase.header⟩ with wire := s.wire ++ codec.header m }
  have hmoved : Moved s t w m Phase.header := ⟨rfl, hlock, rfl, id⟩
  have hcalls := h.calls.moved hw (Or.inr hlock) hmoved fun _ => ⟨hfits, Or.inl hserving⟩
  refine ⟨⟨codec.header m, ?_, ?_, fun _ => ?_⟩, h.unanswered, h.answering, h.answered, hcalls⟩
  · show s.wire ++ codec.header m = _
    rw [hwire, hpending hopen, h.begun_locked hserving hw, List.append_nil]
    rfl
  · exact Or.inr (hcarries.part_header List.prefix_rfl)
  · simp [State.begun, State.setWriter, hserving, hlock]

theorem Inv.writePayload (hw : s.writers w = some ⟨m, Phase.header⟩) :
    Inv codec answer
      { s.release w m with
        wire := s.wire ++ codec.marshal m
        written := s.written ++ [m] } := by
  rcases h.wire with ⟨part, hwire, -, hpending⟩
  have hlock := h.calls.locked w m _ hw (Or.inr rfl)
  have hcarries := (h.calls.decodes w _ hw).carries (h.calls.headed w m hw).left
  rcases h.answered hserving with ⟨rest, hwritten, hrest⟩
  let t : State :=
    { s.release w m with
      wire := s.wire ++ codec.marshal m
      written := s.written ++ [m] }
  have hmoved : Moved s t w m Phase.returned := ⟨rfl, rfl, rfl, id⟩
  refine ⟨⟨[], ?_, Or.inl rfl, fun _ => ?_⟩, fun hne => absurd hserving hne, h.answering, ?_,
    h.calls.moved hw (Or.inr hlock) hmoved nofun⟩
  · show s.wire ++ codec.marshal m = codec.framing.stream (s.written ++ [m]) ++ []
    rw [hwire, hpending hopen, h.begun_header hserving hw]
    simp [hcarries.frame_eq]
  · exact (begun_eq_nil (s := t) hserving nofun).symm
  · intro _
    refine ⟨rest ++ [m], ?_, ?_⟩
    · show s.written ++ [m] = _
      rw [hwritten, List.cons_append]
    · intro m' hm'
      rw [← List.cons_append] at hm'
      rcases List.mem_append.mp hm' with hm' | hm'
      · exact hrest m' hm'
      · rw [List.mem_singleton.mp hm']
        exact hcarries

end Serving

theorem inv_write {s t : State} (h : Inv codec answer s)
    {w : Nat} {cut : Option Nat} (hG : Answered s (Action.write w cut))
    (hstep : Step codec answer s (Action.write w cut) t) : Inv codec answer t := by
  have hserving : s.broken = false -> s.handler = Handler.serving := by
    intro hopen
    rcases hG with hserving | hbroken
    · exact hserving
    · rw [hopen] at hbroken
      cases hbroken
  cases hstep with
  | dropped hw =>
      rename_i m
      rcases h.wire with ⟨part, hwire, hpart, hpending⟩
      apply h.released hw (h.calls.locked w m _ hw (Or.inl rfl)) ⟨rfl, rfl, rfl⟩ id
      refine ⟨part, hwire, hpart, fun hopen => ?_⟩
      rw [hpending hopen, h.begun_locked (hserving hopen) hw]
      exact (begun_eq_nil (s := s.release w m) (hserving hopen) nofun).symm
  | header hw hfits hput =>
      cases hput with
      | ok hopen => exact h.writeHeader (hserving hopen) hopen hw hfits
  | headerFails hw hfits hput =>
      apply h.releasedCut hput hw (h.calls.locked w _ _ hw (Or.inl rfl))
      intro hopen begun hprefix _
      rw [h.begun_locked (hserving hopen) hw]
      exact ((h.calls.decodes w _ hw).carries hfits).part_header hprefix
  | payload hw hput =>
      cases hput with
      | ok hopen => exact h.writePayload (hserving hopen) hopen hw
  | payloadFails hw hput =>
      apply h.releasedCut hput hw (h.calls.locked w _ _ hw (Or.inr rfl))
      intro hopen begun hprefix hne
      rw [h.begun_header (hserving hopen) hw]
      exact ((h.calls.decodes w _ hw).carries (h.calls.headed w _ hw).left).part hprefix hne

theorem inv_call {s : State} (h : Inv codec answer s) {w : Nat} {m : Msg}
    (hfree : s.writers w = none) (hdecodes : codec.Decodes m) :
    Inv codec answer (s.setWriter w ⟨m, Phase.waiting⟩) := by
  have hother : forall v m' phase, phase ≠ Phase.waiting ->
      (s.setWriter w ⟨m, Phase.waiting⟩).writers v = some ⟨m', phase⟩ ->
      s.writers v = some ⟨m', phase⟩ := by
    intro v m' phase hphase hv
    rcases lookup_started hv with ⟨-, heq⟩ | ⟨-, hv⟩
    · cases heq
      exact absurd rfl hphase
    · exact hv
  refine ⟨?_, h.unanswered, h.answering, h.answered, ?_, ?_, ?_⟩
  · rcases h.wire with ⟨part, hwire, hpart, hpending⟩
    refine ⟨part, hwire, hpart, fun hopen => ?_⟩
    rw [hpending hopen]
    unfold State.begun State.setWriter
    cases s.handler with
    | registering | answering | finished => rfl
    | serving =>
        cases hlock : s.lock with
        | none => rfl
        | some v =>
            by_cases hvw : v = w
            · subst hvw
              simp [hfree]
            · simp [Function.update_of_ne hvw]
  · intro v writer hv
    rcases lookup_started hv with ⟨-, rfl⟩ | ⟨-, hv⟩
    · exact hdecodes
    · exact h.calls.decodes v writer hv
  · intro v m' phase hv hphase
    refine h.calls.locked v m' phase (hother v m' phase ?_ hv) hphase
    rcases hphase with rfl | rfl <;> simp
  · intro v m' hv
    exact h.calls.headed v m' (hother v m' _ (by simp) hv)

theorem inv_acquire {s : State} (h : Inv codec answer s) {w : Nat} {m : Msg}
    (hw : s.writers w = some ⟨m, Phase.waiting⟩) (hlock : s.lock = none) :
    Inv codec answer { s.setWriter w ⟨m, Phase.locked⟩ with lock := some w } := by
  let t : State := { s.setWriter w ⟨m, Phase.locked⟩ with lock := some w }
  have hmoved : Moved s t w m Phase.locked := ⟨rfl, rfl, rfl, id⟩
  refine ⟨?_, h.unanswered, h.answering, h.answered,
    h.calls.moved hw (Or.inl hlock) hmoved nofun⟩
  rcases h.wire with ⟨part, hwire, hpart, hpending⟩
  refine ⟨part, hwire, hpart, fun hopen => ?_⟩
  rw [hpending hopen]
  unfold State.begun State.setWriter
  cases s.handler with
  | registering | answering | finished => rfl
  | serving => simp [hlock]

theorem inv_step (hanswer : codec.Decodes answer) {s t : State} {a : Action}
    (h : Inv codec answer s) (hG : Answered s a ∧ Sends codec a)
    (hstep : Step codec answer s a t) : Inv codec answer t := by
  cases a with
  | respond cut => exact inv_respond hanswer h hstep
  | write w cut => exact inv_write h hG.left hstep
  | publish =>
      cases hstep with
      | publish _ =>
          exact ⟨h.wire, h.unanswered, h.answering, h.answered, h.calls.decodes,
            h.calls.locked, h.calls.headed⟩
  | call w m =>
      cases hstep with
      | call hfree => exact inv_call h hfree hG.right
  | acquire w =>
      cases hstep with
      | acquire hw hlock => exact inv_acquire h hw hlock
  | close =>
      cases hstep with
      | close =>
          refine ⟨?_, h.unanswered, h.answering, h.answered, h.calls.decodes, h.calls.locked,
            fun w m hw => ⟨(h.calls.headed w m hw).left, Or.inr rfl⟩⟩
          rcases h.wire with ⟨part, hwire, hpart, -⟩
          exact ⟨part, hwire, hpart, nofun⟩

theorem Inv.framed (hother : isReqWorkConn answer = false) {s : State} (h : Inv codec answer s) :
    Framed codec answer s := by
  rcases h.wire with ⟨part, hwire, hpart, -⟩
  have hread : codec.readMsg part = none := by
    rcases hpart with rfl | hpart
    · exact Codec.readMsg_short (by simp)
    · exact hpart.read
  refine ⟨⟨s.written, part, hwire, hpart⟩, ?_, ?_⟩
  · intro m rest hm
    by_cases hserving : s.handler = Handler.serving
    · rcases h.answered hserving with ⟨ms, hwritten, hcarries⟩
      rw [hwire, hwritten, Framing.stream_cons, List.append_assoc] at hm
      have hfirst := (hcarries answer List.mem_cons_self).reads.frame
        (codec.framing.stream ms ++ part)
      rw [show codec.framing.read _ = codec.readMsg _ from rfl, hm] at hfirst
      exact congrArg Prod.fst (Option.some.inj hfirst)
    · rw [hwire, h.unanswered hserving, Framing.stream_nil, List.nil_append, hread] at hm
      cases hm
  · intro m hm hreq
    have hserving : s.handler = Handler.serving := by
      by_contra hne
      rw [h.unanswered hne] at hm
      cases hm
    rcases h.answered hserving with ⟨ms, hwritten, hcarries⟩
    have hmem : m ∈ ms := by
      rw [hwritten] at hm
      rcases List.mem_cons.mp hm with rfl | hm
      · rw [hother] at hreq
        cases hreq
      · exact hm
    have hfirst : codec.readMsg s.wire = some (answer, codec.framing.stream ms ++ part) := by
      rw [hwire, hwritten, Framing.stream_cons, List.append_assoc]
      exact (hcarries answer List.mem_cons_self).reads.frame _
    have hcount : ms.length ≤ (codec.framing.stream ms ++ part).length := by
      have hle := Framing.length_le_stream fun m' hm' =>
        (hcarries m' (List.mem_cons_of_mem _ hm')).frame_ne_nil
      rw [List.length_append]
      omega
    have hreads : forall m', m' ∈ ms -> codec.framing.Reads m' :=
      fun m' hm' => (hcarries m' (List.mem_cons_of_mem _ hm')).reads
    have hall := Framing.readAll_stream hreads hread hcount
    unfold Codec.dispatched
    rw [hfirst]
    show m ∈ List.filter isReqWorkConn _
    rw [hall]
    exact List.mem_filter.mpr ⟨hmem, hreq⟩

/--
In a run in which nothing is sent before the answer to the hello is written, the
client reads whole frames, the answer first, and sees every request.
-/
theorem framed_of_answered {statuses : List ProxyStatus} {actions : List Action}
    (hanswer : codec.Decodes (helloResp statuses))
    (hsends : forall a, a ∈ actions -> Sends codec a)
    (hobeys : (machine codec (helloResp statuses)).Obeys Answered initial actions) :
    (machine codec (helloResp statuses)).Always (Framed codec (helloResp statuses)) initial
      actions := by
  have hinv := Machine.always_of_obeys (M := machine codec (helloResp statuses))
    (I := Inv codec (helloResp statuses))
    (fun _ _ _ h hG hstep => inv_step hanswer h hG (step_cases hstep))
    inv_initial (hobeys.and_of_forall hsends)
  exact hinv.imp fun _ h => h.framed rfl

end Proof

/-!
# Two sessions

A public connection is accepted while the hello is still being answered.
-/

def readyT1 : List ProxyStatus := [⟨"t1".toList, true, []⟩]

def askT1 : Msg := Msg.reqWorkConn "t1".toList "c1".toList

/-- JSON, and its decoder on the two messages of the sessions. -/
def jsonCodec : Codec where
  marshal m := ascii m.json
  unmarshal bytes := [helloResp readyT1, askT1].find? fun m => ascii m.json = bytes

/-- The request waits until the answer is written. -/
def inOrder : List Action :=
  [Action.publish, Action.call 0 askT1, Action.respond none, Action.respond none,
    Action.acquire 0, Action.write 0 none, Action.write 0 none]

theorem framed_inOrder :
    (machine jsonCodec (helloResp readyT1)).Always (Framed jsonCodec (helloResp readyT1))
      initial inOrder :=
  framed_of_answered (by decide +kernel) (by decide +kernel) (by decide +kernel)

/-- The request goes out between the header and the payload of the answer. -/
def interleaved : List Action :=
  [Action.publish, Action.call 0 askT1, Action.respond none, Action.acquire 0,
    Action.write 0 none, Action.write 0 none, Action.respond none]

theorem request_inside_answer :
    exists t, (machine jsonCodec (helloResp readyT1)).exec initial interleaved = some t ∧
      ¬ Framed jsonCodec (helloResp readyT1) t := by
  refine ⟨_, rfl, fun hframed => ?_⟩
  have hseen := hframed.seen askT1 (by decide) rfl
  have hnone : askT1 ∉ jsonCodec.dispatched
      (jsonCodec.header (helloResp readyT1) ++ jsonCodec.header askT1 ++
        jsonCodec.marshal askT1 ++ jsonCodec.marshal (helloResp readyT1)) := by
    decide +kernel
  exact hnone hseen

end Control

end Engine
end RcTunnel
