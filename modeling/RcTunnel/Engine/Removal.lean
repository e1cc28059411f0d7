import RcTunnel.Engine.Pairing
import RcTunnel.Engine.Registration

/-!
# Turning a proxy off

One tcp or udp registration: its closers, and the goroutines that carry its
traffic.  A tcp proxy runs {lit}`bridge` for each public connection it accepts,
a udp proxy runs {lit}`udpServe`, one pairing after another.  The closers run one
by one, by {lit}`applyUpdate` or {lit}`cleanup`, between any two steps of these.
-/

namespace RcTunnel
namespace Engine

open Foundation

namespace Removal

/-- The requester of a registration of the kind. -/
def requester : Kind -> Pairing.Requester
  | Kind.tcp => Pairing.Requester.bridge
  | Kind.udp => Pairing.Requester.udp
  | Kind.vhost => Pairing.Requester.vhost

/-- The closers of a listening registration. -/
def closersOf (socket : Nat) (port : Int) : Kind -> List Closer
  | Kind.tcp => [Closer.closeListener socket, Closer.deleteTcp port, Closer.closeAll]
  | Kind.udp => [Closer.closeStop, Closer.closeListener socket]
  | Kind.vhost => []

/-- They are the closers {lit}`register` records. -/
theorem acquire_closers {rt : Runtime} {foreign : Kind -> Int -> Bool}
    {identity : Nat -> Option Text} {r : Registrar} {p : ProxySpec} {s : Shared}
    {kind : Kind} {e : RegEntry} (hkind : kind ≠ Kind.vhost)
    (h : (acquire rt foreign identity r p s kind).2.1 = some e) :
    e.closers = closersOf s.nextSocket p.remotePort kind := by
  cases kind with
  | tcp =>
      simp only [acquire] at h
      split at h
      · cases h
      · cases h
        rfl
  | udp =>
      simp only [acquire] at h
      split at h
      · cases h
      · split at h
        · cases h
        · cases h
          rfl
  | vhost => exact absurd rfl hkind

/-- How much of its connections {lit}`bridge` has entered into {lit}`e.conns`. -/
inductive Stage where
  | untracked
  | pub
  | both
deriving DecidableEq, Repr

/-- A call of {lit}`bridge`, or a round of {lit}`udpServe`. -/
structure Relay where
  pairing : Pairing.State
  /-- the public connection of {lit}`bridge` is open -/
  pubOpen : Bool
  stage : Stage

structure State where
  /-- the closers left to run -/
  closers : List Closer
  listening : Bool
  /-- {lit}`stop` is closed -/
  stopped : Bool
  /-- {lit}`closeAll` has run -/
  shut : Bool
  /-- {lit}`c.done` is closed -/
  hungUp : Bool
  /-- the round {lit}`udpServe` is in -/
  round : Option Nat
  relays : Nat -> Option Relay

inductive Action where
  | accept (r : Nat)
  /-- the loop of {lit}`udpServe` goes round -/
  | loop (r : Nat)
  /-- a step of the relay's requester or of a handler of its pairing -/
  | relay (r : Nat) (action : Pairing.Action)
  | track (r : Nat)
  /-- the next closer -/
  | close
  | hangUp
deriving DecidableEq, Repr

def State.setRelay (s : State) (r : Nat) (rel : Relay) : State :=
  { s with relays := Function.update s.relays r (some rel) }

/-- {lit}`closeAll`, for one bridge: it is tracked while it pipes. -/
def Relay.shut (rel : Relay) : Relay :=
  match rel.pairing.phase, rel.stage with
  | Pairing.Phase.leaving (Pairing.Op.pipe _ :: _), Stage.pub => { rel with pubOpen := false }
  | Pairing.Phase.leaving (Pairing.Op.pipe w :: _), Stage.both =>
      { rel with pubOpen := false, pairing := rel.pairing.close w }
  | _, _ => rel

/-- The public connection is closed on the timeout and at the end of the pipe. -/
def Relay.pubAfter (rel : Relay) : Pairing.Action -> Bool
  | Pairing.Action.timeout => false
  | Pairing.Action.next =>
      match rel.pairing.phase with
      | Pairing.Phase.leaving (Pairing.Op.pipe _ :: _) => false
      | _ => rel.pubOpen
  | _ => rel.pubOpen

section Steps

variable (token owner : Text) (kind : Kind)

/-- A round is stopped through its channels, and a bridge pipes what it tracks. -/
def State.allows (s : State) (rel : Relay) : Pairing.Action -> Bool
  | Pairing.Action.stop => s.stopped || s.hungUp
  | Pairing.Action.next =>
      match kind, rel.pairing.phase with
      | Kind.tcp, Pairing.Phase.leaving (Pairing.Op.pipe _ :: _) => rel.stage = Stage.both
      | _, _ => true
  | _ => true

/-- The round of {lit}`udpServe` after a step of the relay. -/
def State.roundAfter (s : State) (r : Nat) (pairing : Pairing.State) : Option Nat :=
  if s.round = some r ∧ pairing.phase = Pairing.Phase.leaving [] then none else s.round

def step (s : State) : Action -> Option State
  | Action.accept r =>
      if kind = Kind.tcp ∧ s.listening = true ∧ s.relays r = none then
        some (s.setRelay r ⟨Pairing.initial, true, Stage.untracked⟩)
      else
        none
  | Action.loop r =>
      if kind = Kind.udp ∧ s.round = none ∧ s.stopped = false ∧ s.hungUp = false ∧
          s.relays r = none then
        some { s.setRelay r ⟨Pairing.initial, false, Stage.untracked⟩ with round := some r }
      else
        none
  | Action.relay r action =>
      match s.relays r with
      | none => none
      | some rel =>
          if s.allows kind rel action then
            match Pairing.step token owner (requester kind) rel.pairing action with
            | none => none
            | some pairing =>
                some { s.setRelay r
                    { rel with pairing := pairing, pubOpen := rel.pubAfter action } with
                  round := s.roundAfter r pairing }
          else
            none
  | Action.track r =>
      match s.relays r with
      | none => none
      | some rel =>
          match kind, rel.pairing.phase, rel.stage with
          | Kind.tcp, Pairing.Phase.leaving (Pairing.Op.pipe _ :: _), Stage.untracked =>
              some (s.setRelay r { rel with stage := Stage.pub })
          | Kind.tcp, Pairing.Phase.leaving (Pairing.Op.pipe _ :: _), Stage.pub =>
              some (s.setRelay r { rel with stage := Stage.both })
          | _, _, _ => none
  | Action.close =>
      match s.closers with
      | [] => none
      | Closer.closeListener _ :: rest => some { s with closers := rest, listening := false }
      | Closer.closeStop :: rest => some { s with closers := rest, stopped := true }
      | Closer.closeAll :: rest =>
          some { s with
            closers := rest
            shut := true
            relays := fun r => (s.relays r).map Relay.shut }
      | _ :: rest => some { s with closers := rest }
  | Action.hangUp => some { s with hungUp := true }

variable (socket : Nat) (port : Int)

def initial : State where
  closers := closersOf socket port kind
  listening := true
  stopped := false
  shut := false
  hungUp := false
  round := none
  relays := fun _ => none

def machine : Machine State Action where
  init s := s = initial kind socket port
  step := step token owner kind

end Steps

/-!
# A proxy that is off
-/

/-- Both ends of the pipe are open. -/
def Relay.Piping (kind : Kind) (rel : Relay) (w : Nat) : Prop :=
  (exists conn, rel.pairing.conns w = some conn ∧ conn.isOpen = true) ∧
    (kind = Kind.tcp -> rel.stage = Stage.both ∧ rel.pubOpen = true)

/-- The handlers have returned, and the requester has, unless it pipes. -/
structure Relay.Resolved (kind : Kind) (rel : Relay) : Prop where
  handlers : forall w conn, rel.pairing.conns w = some conn -> conn.returned = true
  requester :
    rel.pairing.phase = Pairing.Phase.leaving [] ∨
      exists w rest, rel.pairing.phase = Pairing.Phase.leaving (Pairing.Op.pipe w :: rest) ∧
        rel.Piping kind w

/-- The closers have run, and all timeouts and claims have resolved. -/
structure State.Removed (kind : Kind) (s : State) : Prop where
  closers : s.closers = []
  relays : forall r rel, s.relays r = some rel -> rel.Resolved kind

structure Relay.Off (rel : Relay) : Prop where
  pub : rel.pubOpen = false
  work : forall w conn, rel.pairing.conns w = some conn -> conn.isOpen = false
  pipe : rel.pairing.phase = Pairing.Phase.leaving []

/-- No connection obtained for the registration is open or piped. -/
def State.Off (s : State) : Prop :=
  forall r rel, s.relays r = some rel -> rel.Off

def isPipe : Pairing.Op -> Bool
  | Pairing.Op.pipe _ => true
  | Pairing.Op.drain | Pairing.Op.forget => false

/-- The requester has a connection it has not yet piped to the end. -/
def Pipes (phase : Pairing.Phase) : Prop := exists op, op ∈ phase.ops ∧ isPipe op = true

instance (phase : Pairing.Phase) : Decidable (Pipes phase) :=
  inferInstanceAs (Decidable (exists op, op ∈ phase.ops ∧ isPipe op = true))

/--
Every connection of a pairing is received or drained, a bridge is paired before
{lit}`closeAll` runs, and a round of {lit}`udpServe` has none when {lit}`stop` is
closed and receives none after that.
-/
def Timely (kind : Kind) (s : State) : Action -> Prop
  | Action.relay r action =>
      forall rel, rel ∈ s.relays r -> Pairing.Received rel.pairing action ∧
        (kind = Kind.udp -> action = Pairing.Action.receive -> s.stopped = false)
  | Action.track r =>
      forall rel, rel ∈ s.relays r -> rel.stage = Stage.untracked -> s.shut = false
  | Action.close =>
      s.closers.head? = some Closer.closeStop ->
        forall r, r ∈ s.round -> forall rel, rel ∈ s.relays r -> ¬ Pipes rel.pairing.phase
  | _ => True

instance (kind : Kind) (s : State) : forall a, Decidable (Timely kind s a)
  | Action.relay r action =>
      inferInstanceAs (Decidable (forall rel, rel ∈ s.relays r ->
        Pairing.Received rel.pairing action ∧
          (kind = Kind.udp -> action = Pairing.Action.receive -> s.stopped = false)))
  | Action.track r =>
      inferInstanceAs (Decidable (forall rel, rel ∈ s.relays r ->
        rel.stage = Stage.untracked -> s.shut = false))
  | Action.close =>
      inferInstanceAs (Decidable (s.closers.head? = some Closer.closeStop ->
        forall r, r ∈ s.round -> forall rel, rel ∈ s.relays r -> ¬ Pipes rel.pairing.phase))
  | Action.accept _ | Action.loop _ | Action.hangUp => isTrue trivial

/-!
# What a pairing's step does to its relay
-/

/-- In these phases the public connection of a bridge may be open. -/
def Carries : Pairing.Phase -> Prop
  | Pairing.Phase.created | Pairing.Phase.waiting => True
  | Pairing.Phase.leaving ops => exists w rest, ops = Pairing.Op.pipe w :: rest

section PairingSteps

variable {token owner : Text} {requester : Pairing.Requester} {s t : Pairing.State}
  {a : Pairing.Action}

theorem runOp_phase (s : Pairing.State) (rest : List Pairing.Op) (op : Pairing.Op) :
    (Pairing.runOp s rest op).phase = Pairing.Phase.leaving rest := by
  cases op with
  | pipe w => rfl
  | forget => rfl
  | drain =>
      simp only [Pairing.runOp]
      split
      · rfl
      · rfl

/-- Only a step out of the {lit}`select`, or the next operation, changes the phase of a
requester that has stored its pairing. -/
theorem phase_step (h : Pairing.Step token owner requester s a t) :
    t.phase = s.phase ∨
      (s.phase = Pairing.Phase.created ∧ t.phase = Pairing.Phase.waiting) ∨
      (s.phase = Pairing.Phase.waiting ∧
        ((exists w, a = Pairing.Action.receive ∧
            t.phase = Pairing.Phase.leaving (requester.received w)) ∨
          (a = Pairing.Action.timeout ∧ t.phase = Pairing.Phase.leaving requester.timedOut) ∨
          (requester = Pairing.Requester.udp ∧
            t.phase = Pairing.Phase.leaving [Pairing.Op.forget]))) ∨
      (a = Pairing.Action.next ∧ exists op rest,
        s.phase = Pairing.Phase.leaving (op :: rest) ∧
          t.phase = Pairing.Phase.leaving rest) := by
  cases h with
  | store hphase => exact Or.inr (Or.inl ⟨hphase, rfl⟩)
  | receive hphase _ => exact Or.inr (Or.inr (Or.inl ⟨hphase, Or.inl ⟨_, rfl, rfl⟩⟩))
  | timeout hphase =>
      exact Or.inr (Or.inr (Or.inl ⟨hphase, Or.inr (Or.inl ⟨rfl, rfl⟩)⟩))
  | stop hphase hudp =>
      exact Or.inr (Or.inr (Or.inl ⟨hphase, Or.inr (Or.inr ⟨hudp, rfl⟩)⟩))
  | next hphase =>
      exact Or.inr (Or.inr (Or.inr ⟨rfl, _, _, hphase, runOp_phase _ _ _⟩))
  | dial _ | load _ _ | refuse _ | send _ _ | full _ _ => exact Or.inl rfl

/-- A phase after the {lit}`select` stays one. -/
theorem leaving_step (h : Pairing.Step token owner requester s a t)
    (hs : exists ops, s.phase = Pairing.Phase.leaving ops) :
    exists ops, t.phase = Pairing.Phase.leaving ops := by
  rcases hs with ⟨ops, hops⟩
  rcases phase_step h with heq | ⟨hcreated, _⟩ | ⟨hwaiting, _⟩ | ⟨_, _, rest, _, hrest⟩
  · exact ⟨ops, heq.trans hops⟩
  · rw [hops] at hcreated
    cases hcreated
  · rw [hops] at hwaiting
    cases hwaiting
  · exact ⟨rest, hrest⟩

theorem returned_step (h : Pairing.Step token owner requester s a t)
    (hs : s.phase = Pairing.Phase.leaving []) : t.phase = Pairing.Phase.leaving [] := by
  rcases phase_step h with heq | ⟨hcreated, _⟩ | ⟨hwaiting, _⟩ | ⟨_, _, _, hphase, _⟩
  · exact heq.trans hs
  · rw [hs] at hcreated
    cases hcreated
  · rw [hs] at hwaiting
    cases hwaiting
  · rw [hs] at hphase
    cases hphase

/-- Only a receive gives the requester something to pipe. -/
theorem pipes_step (h : Pairing.Step token owner requester s a t) (ht : Pipes t.phase)
    (ha : a ≠ Pairing.Action.receive) : Pipes s.phase := by
  rcases phase_step h with heq | ⟨_, hwaiting⟩ | ⟨_, hout⟩ | ⟨_, op, rest, hphase, hrest⟩
  · rw [← heq]
    exact ht
  · rw [hwaiting] at ht
    rcases ht with ⟨_, hmem, _⟩
    cases hmem
  · rcases hout with ⟨_, hreceive, _⟩ | ⟨_, htimeout⟩ | ⟨_, hstop⟩
    · exact absurd hreceive ha
    · rw [htimeout] at ht
      cases requester <;> simp [Pipes, Pairing.Phase.ops, Pairing.Requester.timedOut, isPipe] at ht
    · rw [hstop] at ht
      simp [Pipes, Pairing.Phase.ops, isPipe] at ht
  · rw [hrest] at ht
    rw [hphase]
    rcases ht with ⟨other, hmem, hother⟩
    exact ⟨other, List.mem_cons_of_mem _ hmem, hother⟩

/-- A bridge whose public connection stays open goes on carrying it. -/
theorem carries_step {pubOpen : Bool} {stage : Stage}
    (h : Pairing.Step token owner Pairing.Requester.bridge s a t) (hs : Carries s.phase)
    (hopen : Relay.pubAfter ⟨s, pubOpen, stage⟩ a = true) : Carries t.phase := by
  rcases phase_step h with heq | ⟨_, hwaiting⟩ | ⟨_, hout⟩ | ⟨rfl, op, rest, hphase, hrest⟩
  · rw [heq]
    exact hs
  · rw [hwaiting]
    trivial
  · rcases hout with ⟨w, _, hreceive⟩ | ⟨rfl, _⟩ | ⟨hudp, _⟩
    · rw [hreceive]
      exact ⟨w, _, rfl⟩
    · cases hopen
    · cases hudp
  · rw [hphase] at hs
    rcases hs with ⟨w, _, heq⟩
    cases heq
    simp [Relay.pubAfter, hphase] at hopen

end PairingSteps

/-!
# The invariant
-/

structure RelayInv (kind : Kind) (s : State) (r : Nat) (rel : Relay) : Prop where
  listens : kind ≠ Kind.vhost
  held : Pairing.Held rel.pairing
  kept : rel.pairing.Kept
  pub : rel.pubOpen = true -> kind = Kind.tcp ∧ Carries rel.pairing.phase
  staged : rel.stage ≠ Stage.untracked ->
    exists ops, rel.pairing.phase = Pairing.Phase.leaving ops
  shut : s.shut = true -> rel.stage ≠ Stage.untracked -> rel.pubOpen = false
  stopped : kind = Kind.udp -> s.stopped = true -> ¬ Pipes rel.pairing.phase
  round : kind = Kind.udp -> s.round = some r ∨
    rel.pairing.phase = Pairing.Phase.leaving []

structure Inv (kind : Kind) (s : State) : Prop where
  shut : kind = Kind.tcp -> Closer.closeAll ∈ s.closers ∨ s.shut = true
  stopped : kind = Kind.udp -> Closer.closeStop ∈ s.closers ∨ s.stopped = true
  relays : forall r rel, s.relays r = some rel -> RelayInv kind s r rel

section Proof

variable {token owner : Text} {kind : Kind} {socket : Nat} {port : Int}

theorem inv_initial : Inv kind (initial kind socket port) := by
  refine ⟨?_, ?_, fun r rel hrel => by cases hrel⟩
  · intro hkind
    subst hkind
    exact Or.inl (by simp [initial, closersOf])
  · intro hkind
    subst hkind
    exact Or.inl (by simp [initial, closersOf])

theorem RelayInv.frame {s t : State} {r : Nat} {rel : Relay} (h : RelayInv kind s r rel)
    (hshut : t.shut = s.shut) (hstopped : t.stopped = s.stopped)
    (hround : s.round = some r -> t.round = some r) : RelayInv kind t r rel where
  listens := h.listens
  held := h.held
  kept := h.kept
  pub := h.pub
  staged := h.staged
  shut := by
    rw [hshut]
    exact h.shut
  stopped := by
    rw [hstopped]
    exact h.stopped
  round := fun hkind => (h.round hkind).imp_left hround

/-- Setting one relay keeps the invariant if the others stay in their rounds. -/
theorem Inv.setRelay {s : State} (h : Inv kind s) {r : Nat} {rel : Relay} {round : Option Nat}
    (hrel : RelayInv kind { s with round := round } r rel)
    (hround : forall r', r' ≠ r -> s.round = some r' -> round = some r') :
    Inv kind { s.setRelay r rel with round := round } := by
  refine ⟨h.shut, h.stopped, ?_⟩
  intro r' rel' hrel'
  rcases lookup_started hrel' with ⟨rfl, rfl⟩ | ⟨hne, hold⟩
  · exact hrel.frame rfl rfl id
  · exact (h.relays r' rel' hold).frame rfl rfl (hround r' hne)

theorem relayInv_start {s : State} {r : Nat} {pubOpen : Bool} (hkind : kind ≠ Kind.vhost)
    (hpub : pubOpen = true -> kind = Kind.tcp) (hround : kind = Kind.udp -> s.round = some r) :
    RelayInv kind s r ⟨Pairing.initial, pubOpen, Stage.untracked⟩ where
  listens := hkind
  held := Pairing.held_initial
  kept := Or.inl rfl
  pub := fun hopen => ⟨hpub hopen, trivial⟩
  staged := fun hstage => absurd rfl hstage
  shut := fun _ hstage => absurd rfl hstage
  stopped := by
    intro _ _ hpipes
    rcases hpipes with ⟨_, hmem, _⟩
    cases hmem
  round := fun hkind => Or.inl (hround hkind)

theorem pubAfter_closed {rel : Relay} (action : Pairing.Action) (h : rel.pubOpen = false) :
    rel.pubAfter action = false := by
  unfold Relay.pubAfter
  split
  · rfl
  · split
    · rfl
    · exact h
  · exact h

theorem relayInv_step {s : State} {r : Nat} {rel : Relay} {pairing : Pairing.State}
    {action : Pairing.Action} (h : RelayInv kind s r rel)
    (hreceived : Pairing.Received rel.pairing action)
    (hstopped : kind = Kind.udp -> action = Pairing.Action.receive -> s.stopped = false)
    (hstep : Pairing.Step token owner (requester kind) rel.pairing action pairing) :
    RelayInv kind { s with round := s.roundAfter r pairing } r
      { rel with pairing := pairing, pubOpen := rel.pubAfter action } where
  listens := h.listens
  held := Pairing.held_step h.held hstep
  kept := (Pairing.kept_step hstep).mpr ⟨h.kept, hreceived⟩
  pub := by
    intro hopen
    have hbefore : rel.pubOpen = true := by
      by_contra hclosed
      rw [Bool.not_eq_true] at hclosed
      have hafter := pubAfter_closed action hclosed
      exact Bool.false_ne_true (hafter.symm.trans hopen)
    rcases h.pub hbefore with ⟨rfl, hcarries⟩
    exact ⟨rfl, carries_step hstep hcarries hopen⟩
  staged := fun hstage => leaving_step hstep (h.staged hstage)
  shut := by
    intro hshut hstage
    exact pubAfter_closed action (h.shut hshut hstage)
  stopped := by
    intro hkind hstop hpipes
    refine h.stopped hkind hstop (pipes_step hstep hpipes ?_)
    intro hreceive
    rw [hstopped hkind hreceive] at hstop
    cases hstop
  round := by
    intro hkind
    show s.roundAfter r pairing = some r ∨ pairing.phase = Pairing.Phase.leaving []
    by_cases hphase : pairing.phase = Pairing.Phase.leaving []
    · exact Or.inr hphase
    · rcases h.round hkind with hround | hreturned
      · apply Or.inl
        simp [State.roundAfter, hphase, hround]
      · exact absurd (returned_step hstep hreturned) hphase

theorem held_close {s : Pairing.State} (h : Pairing.Held s) (w : Nat) :
    Pairing.Held (s.close w) := by
  intro v conn hconn hreturned hopen
  rcases Pairing.lookup_close hconn hopen with ⟨_, hold⟩
  exact h v conn hold hreturned hopen

/-- {lit}`closeAll` closes what a bridge has tracked, and nothing else changes. -/
theorem relayInv_shut {s t : State} {r : Nat} {rel : Relay} (h : RelayInv kind s r rel)
    (hstopped : t.stopped = s.stopped) (hround : t.round = s.round) :
    RelayInv kind t r rel.shut := by
  -- a bridge that has tracked a connection pipes, or has closed it
  have hquiet : rel.stage ≠ Stage.untracked ->
      (forall w rest, rel.pairing.phase ≠
        Pairing.Phase.leaving (Pairing.Op.pipe w :: rest)) -> rel.pubOpen = false := by
    intro hstage hnone
    by_contra hopen
    rw [Bool.not_eq_false] at hopen
    have hcarries := (h.pub hopen).right
    rcases h.staged hstage with ⟨ops, hops⟩
    rw [hops] at hcarries
    rcases hcarries with ⟨w, rest, rfl⟩
    exact hnone w rest hops
  have hstop : kind = Kind.udp -> t.stopped = true -> ¬ Pipes rel.pairing.phase := by
    rw [hstopped]
    exact h.stopped
  have hrounds : kind = Kind.udp -> t.round = some r ∨
      rel.pairing.phase = Pairing.Phase.leaving [] := by
    rw [hround]
    exact h.round
  unfold Relay.shut
  split
  · exact ⟨h.listens, h.held, h.kept, fun hopen => absurd hopen Bool.false_ne_true, h.staged,
      fun _ _ => rfl, hstop, hrounds⟩
  · exact ⟨h.listens, held_close h.held _, h.kept, fun hopen => absurd hopen Bool.false_ne_true, h.staged,
      fun _ _ => rfl, hstop, hrounds⟩
  · rename_i hpub hboth
    refine ⟨h.listens, h.held, h.kept, h.pub, h.staged, fun _ hstage => ?_, hstop, hrounds⟩
    refine hquiet hstage fun w rest hphase => ?_
    cases hcase : rel.stage with
    | untracked => exact hstage hcase
    | pub => exact hpub w rest hphase hcase
    | both => exact hboth w rest hphase hcase

theorem inv_close {s t : State} (h : Inv kind s) (htimely : Timely kind s Action.close)
    (hstep : step token owner kind s Action.close = some t) : Inv kind t := by
  have hother : forall {closer : Closer} {rest : List Closer} {target : Closer} {flag : Prop},
      s.closers = closer :: rest -> closer ≠ target -> target ∈ s.closers ∨ flag ->
      target ∈ rest ∨ flag := by
    intro closer rest target flag hclosers hne hcase
    rw [hclosers] at hcase
    rcases hcase with hmem | hflag
    · rcases List.mem_cons.mp hmem with rfl | hmem
      · exact absurd rfl hne
      · exact Or.inl hmem
    · exact Or.inr hflag
  simp only [step] at hstep
  split at hstep
  · cases hstep
  · rename_i hclosers
    cases hstep
    exact ⟨fun hkind => hother hclosers (by simp) (h.shut hkind),
      fun hkind => hother hclosers (by simp) (h.stopped hkind),
      fun r rel hrel => (h.relays r rel hrel).frame rfl rfl id⟩
  · rename_i hclosers
    cases hstep
    refine ⟨fun hkind => hother hclosers (by simp) (h.shut hkind), fun _ => Or.inr rfl, ?_⟩
    intro r rel hrel
    have hold := h.relays r rel hrel
    refine ⟨hold.listens, hold.held, hold.kept, hold.pub, hold.staged, hold.shut, ?_,
      hold.round⟩
    intro hkind _ hpipes
    rcases hold.round hkind with hround | hreturned
    · exact htimely (by rw [hclosers]; rfl) r hround rel hrel hpipes
    · rw [hreturned] at hpipes
      rcases hpipes with ⟨_, hmem, _⟩
      cases hmem
  · rename_i hclosers
    cases hstep
    refine ⟨fun _ => Or.inr rfl,
      fun hkind => hother hclosers (by simp) (h.stopped hkind), ?_⟩
    intro r rel hrel
    rcases Option.map_eq_some_iff.mp hrel with ⟨old, hold, rfl⟩
    exact relayInv_shut (h.relays r old hold) rfl rfl
  · rename_i closer rest hlistener hstop hall hclosers
    cases hstep
    refine ⟨fun hkind => hother hclosers ?_ (h.shut hkind),
      fun hkind => hother hclosers ?_ (h.stopped hkind),
      fun r rel hrel => (h.relays r rel hrel).frame rfl rfl id⟩
    · intro heq
      exact hall heq
    · intro heq
      exact hstop heq

theorem inv_track {s t : State} {r : Nat} (h : Inv kind s)
    (htimely : Timely kind s (Action.track r))
    (hstep : step token owner kind s (Action.track r) = some t) : Inv kind t := by
  simp only [step] at hstep
  split at hstep
  · cases hstep
  · rename_i rel hrel
    have hold := h.relays r rel hrel
    have htrack : forall stage ops, rel.pairing.phase = Pairing.Phase.leaving ops ->
        (s.shut = true -> rel.pubOpen = false) ->
        RelayInv kind s r { rel with stage := stage } := by
      intro stage ops hphase hshut
      exact ⟨hold.listens, hold.held, hold.kept, hold.pub, fun _ => ⟨ops, hphase⟩,
        fun hs _ => hshut hs, hold.stopped, hold.round⟩
    split at hstep
    · rename_i hphase hstage
      cases hstep
      refine h.setRelay (htrack _ _ hphase fun hshut => ?_) fun _ _ => id
      rw [htimely rel hrel hstage] at hshut
      cases hshut
    · rename_i hphase hstage
      cases hstep
      refine h.setRelay (htrack _ _ hphase fun hshut => ?_) fun _ _ => id
      exact hold.shut hshut (by simp [hstage])
    · cases hstep

theorem inv_step {s t : State} {a : Action} (h : Inv kind s) (htimely : Timely kind s a)
    (hstep : step token owner kind s a = some t) : Inv kind t := by
  cases a with
  | accept r =>
      simp only [step] at hstep
      split at hstep
      · rename_i hcase
        rcases hcase with ⟨rfl, _, _⟩
        cases hstep
        exact h.setRelay (relayInv_start (by simp) (fun _ => rfl) (by simp)) fun _ _ => id
      · cases hstep
  | loop r =>
      simp only [step] at hstep
      split at hstep
      · rename_i hcase
        rcases hcase with ⟨rfl, hround, _, _, _⟩
        cases hstep
        refine h.setRelay (relayInv_start (by simp) (by simp) fun _ => rfl) fun r' _ hr' => ?_
        rw [hround] at hr'
        cases hr'
      · cases hstep
  | relay r action =>
      simp only [step] at hstep
      split at hstep
      · cases hstep
      · rename_i rel hrel
        split at hstep
        · split at hstep
          · cases hstep
          · rename_i pairing hpairing
            cases hstep
            rcases htimely rel hrel with ⟨hreceived, hstopped⟩
            refine h.setRelay (relayInv_step (h.relays r rel hrel) hreceived hstopped
              (Pairing.step_cases hpairing)) fun r' hne hr' => ?_
            unfold State.roundAfter
            rw [if_neg]
            · exact hr'
            · intro hcase
              rw [hr'] at hcase
              exact hne (Option.some.inj hcase.left)
        · cases hstep
  | track r => exact inv_track h htimely hstep
  | close => exact inv_close h htimely hstep
  | hangUp =>
      cases hstep
      exact ⟨h.shut, h.stopped, fun r rel hrel => (h.relays r rel hrel).frame rfl rfl id⟩

theorem Relay.Resolved.off {s : State} {r : Nat} {rel : Relay} (h : rel.Resolved kind)
    (hinv : RelayInv kind s r rel) (hshut : kind = Kind.tcp -> s.shut = true)
    (hstopped : kind = Kind.udp -> s.stopped = true) : rel.Off := by
  have hreturned : rel.pairing.phase = Pairing.Phase.leaving [] := by
    rcases h.requester with hreturned | ⟨w, rest, hphase, hpiping⟩
    · exact hreturned
    · cases hkind : kind with
      | tcp =>
          rcases hpiping.right hkind with ⟨hstage, hopen⟩
          rw [hinv.shut (hshut hkind) (by simp [hstage])] at hopen
          cases hopen
      | udp =>
          refine absurd ⟨Pairing.Op.pipe w, ?_, rfl⟩ (hinv.stopped hkind (hstopped hkind))
          rw [hphase]
          exact List.mem_cons_self
      | vhost => exact absurd hkind hinv.listens
  have hready : rel.pairing.ready = none := by
    rcases hinv.kept with hready | hlooks
    · exact hready
    · unfold Pairing.State.Looks at hlooks
      rw [hreturned] at hlooks
      cases hlooks
  refine ⟨?_, ?_, hreturned⟩
  · by_contra hopen
    rw [Bool.not_eq_false] at hopen
    have hcarries := (hinv.pub hopen).right
    rw [hreturned] at hcarries
    rcases hcarries with ⟨w, rest, heq⟩
    cases heq
  · intro w conn hconn
    by_contra hopen
    rw [Bool.not_eq_false] at hopen
    have hheld := hinv.held w conn hconn (h.handlers w conn hconn) hopen
    rw [hready, hreturned] at hheld
    rcases hheld with heq | hmem
    · cases heq
    · cases hmem

theorem Inv.off {s : State} (h : Inv kind s) (hremoved : s.Removed kind) : s.Off := by
  have hran : forall {closer : Closer} {flag : Prop}, closer ∈ s.closers ∨ flag -> flag := by
    intro closer flag hcase
    rw [hremoved.closers] at hcase
    rcases hcase with hmem | hflag
    · cases hmem
    · exact hflag
  intro r rel hrel
  exact (hremoved.relays r rel hrel).off (h.relays r rel hrel) (fun hkind => hran (h.shut hkind))
    fun hkind => hran (h.stopped hkind)

/--
In a run whose steps are timely, a registration whose closers have run and whose
timeouts and claims have resolved is off.
-/
theorem off_of_timely {actions : List Action}
    (hobeys : (machine token owner kind socket port).Obeys (Timely kind)
      (initial kind socket port) actions) :
    (machine token owner kind socket port).Always (fun s => s.Removed kind -> s.Off)
      (initial kind socket port) actions := by
  have hinv := Machine.always_of_obeys (M := machine token owner kind socket port)
    (I := Inv kind) (fun _ _ _ h htimely hstep => inv_step h htimely hstep) inv_initial hobeys
  exact hinv.imp fun _ h => h.off

end Proof

/-!
# Two removals

A public connection is piped when the proxy is removed, or still waits then.
-/

/-- A public connection is paired, up to the pipe. -/
def paired : List Action :=
  [Action.relay 0 (Pairing.Action.load 0 Pairing.handshake),
    Action.relay 0 (Pairing.Action.send 0), Action.relay 0 Pairing.Action.receive,
    Action.track 0, Action.track 0]

def asked : List Action :=
  [Action.accept 0, Action.relay 0 Pairing.Action.store,
    Action.relay 0 (Pairing.Action.dial 0)]

def closed : List Action := [Action.close, Action.close, Action.close]

def database : Machine State Action :=
  machine "tok".toList "agent.7".toList Kind.tcp 0 5432

def running : State := initial Kind.tcp 0 5432

/-- The closers drop the connection, which ends its pipe. -/
def removedLater : List Action :=
  asked ++ paired ++ closed ++
    [Action.relay 0 Pairing.Action.next, Action.relay 0 Pairing.Action.next]

/-- What holds of the connections of a run with one of them. -/
theorem only_first {lookup : Nat -> Option α} {P : Nat -> α -> Prop}
    (hnone : forall n, n ≠ 0 -> lookup n = none) (hfirst : forall x, lookup 0 = some x -> P 0 x) :
    forall n x, lookup n = some x -> P n x := by
  intro n x hx
  by_cases hn : n = 0
  · subst hn
    exact hfirst x hx
  · rw [hnone n hn] at hx
    cases hx

theorem off_removedLater :
    exists t, database.exec running removedLater = some t ∧ t.Removed Kind.tcp ∧ t.Off := by
  have hend : exists t, database.exec running removedLater = some t ∧ t.Removed Kind.tcp := by
    refine ⟨_, rfl, rfl, ?_⟩
    refine only_first (fun r hr => ?_) fun rel hrel => ?_
    · simp [Function.update_of_ne hr, State.setRelay, running, initial]
    · cases hrel
      refine ⟨?_, Or.inl rfl⟩
      refine only_first (fun w hw => ?_) fun conn hconn => ?_
      · simp [Function.update_of_ne hw, Pairing.State.setConn, Pairing.State.close,
          Pairing.runOp, Pairing.initial, Relay.shut, requester, Pairing.Requester.received]
      · cases hconn
        rfl
  rcases hend with ⟨t, hexec, hremoved⟩
  have hobeys : database.Obeys (Timely Kind.tcp) running removedLater := by decide
  exact ⟨t, hexec, hremoved, (off_of_timely hobeys).last hexec hremoved⟩

/-- The closers run while {lit}`bridge` waits. -/
def removedEarly : List Action := asked ++ closed ++ paired

theorem piped_removedEarly :
    exists t, database.exec running removedEarly = some t ∧ t.Removed Kind.tcp ∧ ¬ t.Off := by
  refine ⟨_, rfl, ⟨rfl, ?_⟩, ?_⟩
  · refine only_first (fun r hr => ?_) fun rel hrel => ?_
    · simp [Function.update_of_ne hr, State.setRelay, running, initial]
    · cases hrel
      refine ⟨?_, Or.inr ⟨0, _, rfl, ⟨_, rfl, rfl⟩, fun _ => ⟨rfl, rfl⟩⟩⟩
      refine only_first (fun w hw => ?_) fun conn hconn => ?_
      · simp [Function.update_of_ne hw, Pairing.State.setConn, Pairing.initial, Relay.shut]
      · cases hconn
        rfl
  · intro hoff
    have hpub := (hoff 0 _ rfl).pub
    cases hpub

end Removal

end Engine
end RcTunnel
