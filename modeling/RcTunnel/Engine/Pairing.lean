import RcTunnel.Foundation.Machine
import RcTunnel.Foundation.Table
import RcTunnel.Engine.Proto

/-!
# One pairing

A requester stores a pairing under a fresh name, asks the client for a work
connection and waits on a channel with one slot.  Handlers of work connections
look the name up and send what they carry into the slot, or close it when the
slot is full.  The requester, {lit}`bridge`, {lit}`handleVhost` or a round of
{lit}`udpServe`, and the handlers interleave at these steps.
-/

namespace RcTunnel
namespace Engine

open Foundation

namespace Pairing

inductive Requester where
  | bridge
  | vhost
  | udp
deriving DecidableEq, Repr

/-- What a requester does once it has left its {lit}`select`. -/
inductive Op where
  /-- pipes the connection, and closes it at the end -/
  | pipe (w : Nat)
  /-- the non-blocking receive after the timeout -/
  | drain
  /-- {lit}`s.pend.Delete` -/
  | forget
deriving DecidableEq, Repr

inductive Phase where
  | created
  | waiting
  | leaving (ops : List Op)
deriving DecidableEq, Repr

/-- {lit}`udpServe` deletes the pairing at once, the others when they return. -/
def Requester.received (w : Nat) : Requester -> List Op
  | Requester.bridge | Requester.vhost => [Op.pipe w, Op.forget]
  | Requester.udp => [Op.forget, Op.pipe w]

def Requester.timedOut : Requester -> List Op
  | Requester.bridge | Requester.vhost => [Op.drain, Op.forget]
  | Requester.udp => [Op.forget, Op.drain]

/-- A work connection; its handler has loaded the pairing, or has returned. -/
structure Conn where
  loaded : Bool
  returned : Bool
  isOpen : Bool
deriving DecidableEq, Repr

structure State where
  /-- {lit}`s.pend` holds the pairing -/
  stored : Bool
  /-- the slot of {lit}`pr.ready` -/
  ready : Option Nat
  phase : Phase
  conns : Nat -> Option Conn
  /-- history: what the requester received -/
  piped : List Nat

/-- The first frame of a work connection. -/
structure Handshake where
  /-- a {lit}`workConn` message could be read -/
  isWorkConn : Bool
  token : Text
  cert : Text
  revoked : Bool
deriving DecidableEq, Repr

inductive Action where
  | store
  | receive
  | timeout
  /-- {lit}`stop` or {lit}`done` is closed -/
  | stop
  /-- the next operation of the requester -/
  | next
  /-- a handler is started on a new connection -/
  | dial (w : Nat)
  /-- the handler's checks and its lookup -/
  | load (w : Nat) (handshake : Handshake)
  /-- the handler's send -/
  | send (w : Nat)
deriving DecidableEq, Repr

def State.setConn (s : State) (w : Nat) (conn : Conn) : State :=
  { s with conns := Function.update s.conns w (some conn) }

def State.close (s : State) (w : Nat) : State :=
  { s with
    conns := Function.update s.conns w
      ((s.conns w).map fun conn => { conn with isOpen := false }) }

/-- The handler closes its connection and returns. -/
def Conn.refused : Conn := ⟨false, true, false⟩

/-- {lit}`handleWork` up to the lookup goes on with the pairing. -/
def Handshake.passes (token owner : Text) (stored : Bool) (h : Handshake) : Bool :=
  h.isWorkConn && (token = [] || h.token = token) && !h.revoked && stored &&
    (owner = [] || h.cert = [] || h.cert = owner)

section Steps

variable (token owner : Text) (kind : Requester)

/-- The next operation of the requester. -/
def runOp (s : State) (rest : List Op) : Op -> State
  | Op.pipe w => { s.close w with phase := Phase.leaving rest }
  | Op.forget => { s with stored := false, phase := Phase.leaving rest }
  | Op.drain =>
      match s.ready with
      | none => { s with phase := Phase.leaving rest }
      | some w => { s.close w with ready := none, phase := Phase.leaving rest }

def step (s : State) : Action -> Option State
  | Action.store =>
      match s.phase with
      | Phase.created => some { s with stored := true, phase := Phase.waiting }
      | _ => none
  | Action.receive =>
      match s.phase, s.ready with
      | Phase.waiting, some w =>
          some { s with
            ready := none
            phase := Phase.leaving (kind.received w)
            piped := w :: s.piped }
      | _, _ => none
  | Action.timeout =>
      match s.phase with
      | Phase.waiting => some { s with phase := Phase.leaving kind.timedOut }
      | _ => none
  | Action.stop =>
      match s.phase, kind with
      | Phase.waiting, Requester.udp => some { s with phase := Phase.leaving [Op.forget] }
      | _, _ => none
  | Action.next =>
      match s.phase with
      | Phase.leaving (op :: rest) => some (runOp s rest op)
      | _ => none
  | Action.dial w =>
      match s.conns w with
      | none => some (s.setConn w ⟨false, false, true⟩)
      | some _ => none
  | Action.load w handshake =>
      match s.conns w with
      | some ⟨false, false, true⟩ =>
          if handshake.passes token owner s.stored then
            some (s.setConn w ⟨true, false, true⟩)
          else
            some (s.setConn w Conn.refused)
      | _ => none
  | Action.send w =>
      match s.conns w with
      | some ⟨true, false, true⟩ =>
          match s.ready with
          | none => some { s.setConn w ⟨true, true, true⟩ with ready := some w }
          | some _ => some (s.setConn w ⟨true, true, false⟩)
      | _ => none

def initial : State where
  stored := false
  ready := none
  phase := Phase.created
  conns := fun _ => none
  piped := []

def machine : Machine State Action where
  init s := s = initial
  step := step token owner kind

end Steps

/-!
# Lost connections
-/

/-- The requester and all handlers have returned. -/
structure State.Finished (s : State) : Prop where
  requester : s.phase = Phase.leaving []
  handlers : forall w conn, s.conns w = some conn -> conn.returned = true

/-- Every work connection is closed, or is the one that was piped; none is left in
the channel. -/
structure State.Settled (s : State) : Prop where
  conns : forall w conn, s.conns w = some conn -> conn.isOpen = false ∨ s.piped = [w]
  ready : s.ready = none

/-- The requester has not yet received from its channel for the last time. -/
def State.Looks (s : State) : Prop :=
  match s.phase with
  | Phase.created | Phase.waiting => True
  | Phase.leaving ops => Op.drain ∈ ops

instance (s : State) : Decidable s.Looks := by
  unfold State.Looks
  split <;> infer_instance

/-- A connection is put into the empty channel while the requester still looks, and
the channel is empty when a round of {lit}`udpServe` is stopped. -/
def Received (s : State) : Action -> Prop
  | Action.send _ => s.ready = none -> s.Looks
  | Action.stop => s.ready = none
  | _ => True

instance (s : State) : forall a, Decidable (Received s a)
  | Action.send _ => inferInstanceAs (Decidable (_ -> _))
  | Action.stop => inferInstanceAs (Decidable (_ = _))
  | Action.store | Action.receive | Action.timeout | Action.next | Action.dial _
  | Action.load _ _ => isTrue trivial

/-!
# What a step can do
-/

/-- Every step, with its guard. -/
inductive Step (token owner : Text) (kind : Requester) (s : State) :
    Action -> State -> Prop where
  | store :
      s.phase = Phase.created ->
      Step token owner kind s Action.store { s with stored := true, phase := Phase.waiting }
  | receive {w : Nat} :
      s.phase = Phase.waiting -> s.ready = some w ->
      Step token owner kind s Action.receive
        { s with
          ready := none
          phase := Phase.leaving (kind.received w)
          piped := w :: s.piped }
  | timeout :
      s.phase = Phase.waiting ->
      Step token owner kind s Action.timeout
        { s with phase := Phase.leaving kind.timedOut }
  | stop :
      s.phase = Phase.waiting -> kind = Requester.udp ->
      Step token owner kind s Action.stop { s with phase := Phase.leaving [Op.forget] }
  | next {op : Op} {rest : List Op} :
      s.phase = Phase.leaving (op :: rest) ->
      Step token owner kind s Action.next (runOp s rest op)
  | dial {w : Nat} :
      s.conns w = none ->
      Step token owner kind s (Action.dial w) (s.setConn w ⟨false, false, true⟩)
  | load {w : Nat} {handshake : Handshake} :
      s.conns w = some ⟨false, false, true⟩ -> s.stored = true ->
      Step token owner kind s (Action.load w handshake) (s.setConn w ⟨true, false, true⟩)
  | refuse {w : Nat} {handshake : Handshake} :
      s.conns w = some ⟨false, false, true⟩ ->
      Step token owner kind s (Action.load w handshake) (s.setConn w Conn.refused)
  | send {w : Nat} :
      s.conns w = some ⟨true, false, true⟩ -> s.ready = none ->
      Step token owner kind s (Action.send w)
        { s.setConn w ⟨true, true, true⟩ with ready := some w }
  | full {w : Nat} :
      s.conns w = some ⟨true, false, true⟩ -> s.ready ≠ none ->
      Step token owner kind s (Action.send w) (s.setConn w ⟨true, true, false⟩)

section Inversion

variable {token owner : Text} {kind : Requester}

theorem step_cases {s t : State} {a : Action} (h : step token owner kind s a = some t) :
    Step token owner kind s a t := by
  cases a with
  | store =>
      simp only [step] at h
      split at h
      · rename_i hphase
        cases h
        exact Step.store hphase
      · cases h
  | receive =>
      simp only [step] at h
      split at h
      · rename_i hphase hready
        cases h
        exact Step.receive hphase hready
      · cases h
  | timeout =>
      simp only [step] at h
      split at h
      · rename_i hphase
        cases h
        exact Step.timeout hphase
      · cases h
  | stop =>
      simp only [step] at h
      split at h
      · rename_i hphase
        cases h
        exact Step.stop hphase rfl
      · cases h
  | next =>
      simp only [step] at h
      split at h
      · rename_i hphase
        cases h
        exact Step.next hphase
      · cases h
  | dial w =>
      simp only [step] at h
      split at h
      · rename_i hfree
        cases h
        exact Step.dial hfree
      · cases h
  | load w handshake =>
      simp only [step] at h
      split at h
      · rename_i hconn
        split at h
        · rename_i hpasses
          cases h
          refine Step.load hconn ?_
          simp only [Handshake.passes, Bool.and_eq_true] at hpasses
          exact hpasses.left.right
        · cases h
          exact Step.refuse hconn
      · cases h
  | send w =>
      simp only [step] at h
      split at h
      · rename_i hconn
        split at h
        · rename_i hready
          cases h
          exact Step.send hconn hready
        · rename_i hready
          cases h
          refine Step.full hconn ?_
          rw [hready]
          simp
      · cases h

end Inversion

/-!
# Which runs lose a connection
-/

/-- No connection is in the channel of a requester that looks no more. -/
def State.Kept (s : State) : Prop := s.ready = none ∨ s.Looks

def Phase.ops : Phase -> List Op
  | Phase.created | Phase.waiting => []
  | Phase.leaving ops => ops

/-- An open connection whose handler has returned is in the channel, or the requester
has it. -/
def Held (s : State) : Prop :=
  forall w conn, s.conns w = some conn -> conn.returned = true -> conn.isOpen = true ->
    s.ready = some w ∨ Op.pipe w ∈ s.phase.ops

section Proof

variable {token owner : Text} {kind : Requester}

theorem held_initial : Held initial := by
  intro w conn hconn
  cases hconn

theorem Held.setConn {s : State} (h : Held s) {w : Nat} {conn : Conn}
    (hconn : conn.returned = true -> conn.isOpen = false) : Held (s.setConn w conn) := by
  intro v other hother hreturned hopen
  rcases lookup_started hother with ⟨rfl, rfl⟩ | ⟨-, hold⟩
  · rw [hconn hreturned] at hopen
    cases hopen
  · exact h v other hold hreturned hopen

/-- What a connection still open after {lit}`Close` of another was. -/
theorem lookup_close {s : State} {w v : Nat} {conn : Conn}
    (h : (s.close w).conns v = some conn) (hopen : conn.isOpen = true) :
    v ≠ w ∧ s.conns v = some conn := by
  by_cases hvw : v = w
  · subst hvw
    simp only [State.close, Function.update_self] at h
    rcases Option.map_eq_some_iff.mp h with ⟨old, -, rfl⟩
    cases hopen
  · simp only [State.close, Function.update_of_ne hvw] at h
    exact ⟨hvw, h⟩

theorem held_runOp {s : State} {op : Op} {rest : List Op}
    (h : Held s) (hphase : s.phase = Phase.leaving (op :: rest)) :
    Held (runOp s rest op) := by
  have hops : forall w conn, s.conns w = some conn -> conn.returned = true ->
      conn.isOpen = true -> s.ready = some w ∨ Op.pipe w ∈ op :: rest := by
    intro w conn hconn hreturned hopen
    have hheld := h w conn hconn hreturned hopen
    rw [hphase] at hheld
    exact hheld
  cases op with
  | pipe w =>
      intro v conn hconn hreturned hopen
      rcases lookup_close hconn hopen with ⟨hne, hold⟩
      rcases hops v conn hold hreturned hopen with hready | hmem
      · exact Or.inl hready
      · rcases List.mem_cons.mp hmem with heq | hmem
        · cases heq
          exact absurd rfl hne
        · exact Or.inr hmem
  | forget =>
      intro v conn hconn hreturned hopen
      rcases hops v conn hconn hreturned hopen with hready | hmem
      · exact Or.inl hready
      · rcases List.mem_cons.mp hmem with heq | hmem
        · cases heq
        · exact Or.inr hmem
  | drain =>
      intro v conn hconn hreturned hopen
      have hpipe : forall conn, s.conns v = some conn -> conn.returned = true ->
          conn.isOpen = true -> s.ready ≠ some v -> Op.pipe v ∈ rest := by
        intro conn hconn hreturned hopen hne
        rcases hops v conn hconn hreturned hopen with hready | hmem
        · exact absurd hready hne
        · rcases List.mem_cons.mp hmem with heq | hmem
          · cases heq
          · exact hmem
      cases hready : s.ready with
      | none =>
          simp only [runOp, hready] at hconn ⊢
          exact Or.inr (hpipe conn hconn hreturned hopen (by simp [hready]))
      | some w =>
          simp only [runOp, hready] at hconn ⊢
          rcases lookup_close hconn hopen with ⟨hne, hold⟩
          refine Or.inr (hpipe conn hold hreturned hopen ?_)
          intro heq
          rw [hready] at heq
          exact hne (Option.some.inj heq).symm

theorem held_step {s t : State} {a : Action} (h : Held s)
    (hstep : Step token owner kind s a t) : Held t := by
  cases hstep with
  | store hphase =>
      intro w conn hconn hreturned hopen
      have hheld := h w conn hconn hreturned hopen
      rw [hphase] at hheld
      exact hheld
  | receive hphase hready =>
      rename_i w
      intro v conn hconn hreturned hopen
      have hheld := h v conn hconn hreturned hopen
      rw [hphase, hready] at hheld
      rcases hheld with heq | hmem
      · cases heq
        apply Or.inr
        show Op.pipe w ∈ kind.received w
        cases kind <;> simp [Requester.received]
      · cases hmem
  | timeout hphase =>
      intro w conn hconn hreturned hopen
      have hheld := h w conn hconn hreturned hopen
      rw [hphase] at hheld
      rcases hheld with hready | hmem
      · exact Or.inl hready
      · cases hmem
  | stop hphase _ =>
      intro w conn hconn hreturned hopen
      have hheld := h w conn hconn hreturned hopen
      rw [hphase] at hheld
      rcases hheld with hready | hmem
      · exact Or.inl hready
      · cases hmem
  | next hphase => exact held_runOp h hphase
  | dial _ =>
      apply h.setConn
      intro hreturned
      cases hreturned
  | load _ _ =>
      apply h.setConn
      intro hreturned
      cases hreturned
  | refuse _ => exact h.setConn fun _ => rfl
  | full _ _ => exact h.setConn fun _ => rfl
  | send hconn hnone =>
      rename_i w
      intro v conn hv hreturned hopen
      rcases lookup_started hv with ⟨rfl, rfl⟩ | ⟨-, hold⟩
      · exact Or.inl rfl
      · rcases h v conn hold hreturned hopen with hready | hmem
        · rw [hnone] at hready
          cases hready
        · exact Or.inr hmem

/-- The requester looks no more after any operation but its last look. -/
theorem kept_runOp {s : State} {op : Op} {rest : List Op}
    (hphase : s.phase = Phase.leaving (op :: rest)) :
    (runOp s rest op).Kept <-> s.Kept := by
  unfold State.Kept State.Looks
  rw [hphase]
  cases op with
  | pipe w => simp [runOp, State.close]
  | forget => simp [runOp]
  | drain =>
      cases hready : s.ready with
      | none => simp [runOp, hready]
      | some w => simp [runOp, hready]

/-- A step loses a connection exactly when it does not meet the condition. -/
theorem kept_step {s t : State} {a : Action} (hstep : Step token owner kind s a t) :
    t.Kept <-> s.Kept ∧ Received s a := by
  cases hstep with
  | store hphase => simp [State.Kept, State.Looks, Received, hphase]
  | receive hphase _ => simp [State.Kept, State.Looks, Received, hphase]
  | timeout hphase =>
      have hdrain : Op.drain ∈ kind.timedOut := by
        cases kind <;> simp [Requester.timedOut]
      simp [State.Kept, State.Looks, Received, hphase, hdrain]
  | stop hphase _ => simp [State.Kept, State.Looks, Received, hphase]
  | next hphase =>
      rw [kept_runOp hphase]
      simp [Received]
  | dial _ | load _ _ | refuse _ => simp [State.Kept, State.Looks, Received, State.setConn]
  | send _ hnone => simp [State.Kept, State.Looks, Received, State.setConn, hnone]
  | full _ hsome => simp [State.Kept, State.Looks, Received, State.setConn, hsome]

theorem settled_iff_kept {s : State} (h : Held s) (hfinished : s.Finished) :
    s.Settled <-> s.Kept := by
  constructor
  · intro hsettled
    exact Or.inl hsettled.ready
  · intro hkept
    have hready : s.ready = none := by
      rcases hkept with hready | hlooks
      · exact hready
      · unfold State.Looks at hlooks
        rw [hfinished.requester] at hlooks
        cases hlooks
    refine ⟨?_, hready⟩
    intro w conn hconn
    apply Or.inl
    by_contra hopen
    rw [Bool.not_eq_false] at hopen
    have hheld := h w conn hconn (hfinished.handlers w conn hconn) hopen
    rw [hready, hfinished.requester] at hheld
    rcases hheld with heq | hmem
    · cases heq
    · cases hmem

/--
When the requester and the handlers have returned, no connection is lost exactly if
none was put into the channel behind the requester's last look.
-/
theorem settled_iff_received {actions : List Action} {t : State}
    (hexec : (machine token owner kind).exec initial actions = some t)
    (hfinished : t.Finished) :
    t.Settled <-> (machine token owner kind).Obeys Received initial actions := by
  have hheld := Machine.exec_preserves (M := machine token owner kind)
    (A := fun _ => True) (I := Held)
    (fun _ _ _ _ h hstep => held_step h (step_cases hstep)) (fun _ _ => trivial)
    held_initial hexec
  have hlast := Machine.last_iff_obeys (M := machine token owner kind)
    (A := fun _ => True) (I := fun _ => True) (P := State.Kept) (G := Received)
    (fun _ _ _ _ _ _ => trivial) (fun _ _ _ _ _ hstep => kept_step (step_cases hstep))
    (fun _ _ => trivial) trivial hexec
  rw [settled_iff_kept hheld hfinished, hlast, and_iff_right]
  exact Or.inl rfl

end Proof

/-!
# Two pairings

The agent answers in time, or just too late.
-/

def handshake : Handshake := ⟨true, "tok".toList, "agent.7".toList, false⟩

/-- The requester pipes the first of two claims of its name. -/
def answered : List Action :=
  [Action.store, Action.dial 0, Action.dial 1, Action.load 0 handshake,
    Action.load 1 handshake, Action.send 0, Action.send 1, Action.receive, Action.next,
    Action.next]

theorem settled_answered :
    exists t, (machine "tok".toList "agent.7".toList Requester.bridge).exec initial answered =
      some t ∧ t.Settled := by
  have hobeys : (machine "tok".toList "agent.7".toList Requester.bridge).Obeys Received
      initial answered := by decide
  refine ⟨_, rfl, (settled_iff_received rfl ⟨rfl, ?_⟩).mpr hobeys⟩
  intro w conn hconn
  by_cases hfirst : w = 0
  · subst hfirst
    cases hconn
    rfl
  · by_cases hsecond : w = 1
    · subst hsecond
      cases hconn
      rfl
    · simp [Function.update_of_ne hfirst, Function.update_of_ne hsecond, State.setConn,
        State.close, runOp, initial] at hconn

/-- The handler has loaded the pairing when the timeout fires, and sends once the
requester has looked for it. -/
def tooLate : List Action :=
  [Action.store, Action.dial 0, Action.load 0 handshake, Action.timeout, Action.next,
    Action.next, Action.send 0]

theorem late_claim_lost :
    exists t, (machine "tok".toList "agent.7".toList Requester.bridge).exec initial tooLate =
      some t ∧ t.Finished ∧ ¬ t.Settled := by
  refine ⟨_, rfl, ⟨rfl, ?_⟩, ?_⟩
  · intro w conn hconn
    by_cases hw : w = 0
    · subst hw
      cases hconn
      rfl
    · simp [Function.update_of_ne hw, State.setConn, runOp, initial] at hconn
  · intro hsettled
    cases hsettled.ready

end Pairing

end Engine
end RcTunnel
