import RcTunnel.Foundation.Machine
import RcTunnel.Foundation.Rows
import RcTunnel.Engine.Proto

/-!
# Connection slots

Every handler of a connection holds a token of {lit}`connSem` while it runs.  A public
connection takes a slot of its identity with it, a request to a vhost takes one once its
owner is known.  Between the two parts of an acquisition or a release the handlers of
other connections run.

The main result is that the two counts are those of the handlers in progress, whatever
their order.
-/

namespace RcTunnel
namespace Engine

open Foundation

namespace Slots

def maxConns : Nat := 60000

def maxConnsPerCN : Nat := 10000

/-- The counts that all handlers share. -/
structure Shared where
  /-- the tokens in {lit}`connSem` -/
  connSem : Nat
  perCN : Text -> Option Nat

/-!
# The operations
-/

/-- {lit}`acquire` -/
def acquire (s : Shared) : Bool × Shared :=
  if s.connSem < maxConns then (true, { s with connSem := s.connSem + 1 }) else (false, s)

/-- {lit}`release`; it blocks when there is no token. -/
def release (s : Shared) : Option Shared :=
  if 0 < s.connSem then some { s with connSem := s.connSem - 1 } else none

/-- {lit}`acquireCNOnly`, and what {lit}`acquireCN` does under the lock. -/
def acquireCNOnly (cn : Text) (s : Shared) : Bool × Shared :=
  if maxConnsPerCN ≤ (s.perCN cn).getD 0 then
    (false, s)
  else
    (true, { s with perCN := Function.update s.perCN cn (some ((s.perCN cn).getD 0 + 1)) })

/-- {lit}`releaseCNOnly`, and what {lit}`releaseCN` does under the lock. -/
def releaseCNOnly (cn : Text) (s : Shared) : Shared :=
  if (s.perCN cn).getD 0 ≤ 1 then
    { s with perCN := Function.update s.perCN cn none }
  else
    { s with perCN := Function.update s.perCN cn (some ((s.perCN cn).getD 0 - 1)) }

/-- {lit}`acquireCN` from beginning to end. -/
def acquireCN (cn : Text) (s : Shared) : Option (Bool × Shared) :=
  match acquire s with
  | (false, s) => some (false, s)
  | (true, s) =>
      match acquireCNOnly cn s with
      | (true, s) => some (true, s)
      | (false, s) => (release s).map fun s => (false, s)

/-- {lit}`releaseCN` from beginning to end. -/
def releaseCN (cn : Text) (s : Shared) : Option Shared := release (releaseCNOnly cn s)

/-!
# The handlers
-/

inductive Kind where
  /-- of {lit}`acceptPublic`, with the identity that owns the proxy -/
  | publicTcp (cn : Text)
  | vhost
  | control
  | work
deriving DecidableEq, Repr

inductive Phase where
  | accepted
  /-- in {lit}`acquireCN`, before the lock -/
  | acquiring
  /-- in {lit}`handleVhost`, before the owner is known -/
  | reading
  /-- in {lit}`handleControl` or {lit}`handleWork` -/
  | handling
  /-- with a slot of the identity -/
  | serving (cn : Text)
  /-- {lit}`release` is left to do -/
  | leaving
  | closed
deriving DecidableEq, Repr

structure Conn where
  kind : Kind
  phase : Phase
deriving DecidableEq, Repr

/-- What a handler does with its token. -/
def Kind.admitted : Kind -> Phase
  | Kind.publicTcp _ => Phase.acquiring
  | Kind.vhost => Phase.reading
  | Kind.control | Kind.work => Phase.handling

structure State where
  shared : Shared
  /-- every connection that was accepted -/
  conns : List Conn

inductive Action where
  /-- {lit}`ln.Accept` returns a connection -/
  | accept (kind : Kind)
  | acquire (i : Nat)
  /-- the part of {lit}`acquireCN` under the lock, or {lit}`acquireCNOnly` for the owner
  of the host -/
  | acquireCNOnly (i : Nat) (cn : Text)
  /-- a handler returns that has no slot of an identity -/
  | leave (i : Nat)
  /-- the part of {lit}`releaseCN` under the lock, or {lit}`releaseCNOnly` -/
  | releaseCNOnly (i : Nat)
  | release (i : Nat)
deriving DecidableEq, Repr

/-- The identity whose slot the connection asks for. -/
def Conn.asks (c : Conn) (cn : Text) : Prop :=
  (c.kind = Kind.publicTcp cn ∧ c.phase = Phase.acquiring) ∨
    (c.kind = Kind.vhost ∧ c.phase = Phase.reading)

instance (c : Conn) (cn : Text) : Decidable (c.asks cn) :=
  inferInstanceAs (Decidable (_ ∨ _))

def State.update (s : State) (i : Nat) (c : Conn) (shared : Shared) (phase : Phase) : State where
  shared := shared
  conns := s.conns.set i { c with phase := phase }

def step (s : State) : Action -> Option State
  | Action.accept kind => some { s with conns := s.conns ++ [⟨kind, Phase.accepted⟩] }
  | Action.acquire i =>
      match s.conns[i]? with
      | some c =>
          if c.phase = Phase.accepted then
            match acquire s.shared with
            | (true, shared) => some (s.update i c shared c.kind.admitted)
            | (false, shared) => some (s.update i c shared Phase.closed)
          else
            none
      | none => none
  | Action.acquireCNOnly i cn =>
      match s.conns[i]? with
      | some c =>
          if c.asks cn then
            match acquireCNOnly cn s.shared with
            | (true, shared) => some (s.update i c shared (Phase.serving cn))
            | (false, shared) => some (s.update i c shared Phase.leaving)
          else
            none
      | none => none
  | Action.leave i =>
      match s.conns[i]? with
      | some c =>
          if c.phase = Phase.reading ∨ c.phase = Phase.handling then
            some (s.update i c s.shared Phase.leaving)
          else
            none
      | none => none
  | Action.releaseCNOnly i =>
      match s.conns[i]? with
      | some c =>
          match c.phase with
          | Phase.serving cn => some (s.update i c (releaseCNOnly cn s.shared) Phase.leaving)
          | _ => none
      | none => none
  | Action.release i =>
      match s.conns[i]? with
      | some c =>
          if c.phase = Phase.leaving then
            (release s.shared).map fun shared => s.update i c shared Phase.closed
          else
            none
      | none => none

/-- {lit}`New` -/
def initial : State := ⟨⟨0, fun _ => none⟩, []⟩

def machine : Machine State Action where
  init := fun s => s = initial
  step := step

/-!
# What is held
-/

def Phase.holdsToken : Phase -> Bool
  | Phase.accepted | Phase.closed => false
  | _ => true

/-- The global slots that are held. -/
def State.held (s : State) : Nat := s.conns.countP fun c => c.phase.holdsToken

/-- The slots of an identity that are held. -/
def State.heldBy (s : State) (cn : Text) : Nat :=
  s.conns.countP fun c => c.phase = Phase.serving cn

/-- The counts are those of the slots that are held, and within their bounds. -/
structure Conserved (s : State) : Prop where
  tokens : s.shared.connSem = s.held
  bound : s.shared.connSem ≤ maxConns
  perCN : forall cn, (s.shared.perCN cn).getD 0 = s.heldBy cn
  key : forall cn, s.shared.perCN cn = none <-> s.heldBy cn = 0
  perCNBound : forall cn, s.heldBy cn ≤ maxConnsPerCN

/-!
# One step
-/

/-- What a step of a connection does to its phase and to the counts. -/
inductive Moves (s : Shared) : Phase -> Shared -> Phase -> Prop where
  | admitted (kind : Kind) (hroom : s.connSem < maxConns) :
      Moves s Phase.accepted { s with connSem := s.connSem + 1 } kind.admitted
  | refused : Moves s Phase.accepted s Phase.closed
  | taken {p : Phase} (cn : Text) (hp : p = Phase.acquiring ∨ p = Phase.reading)
      (hroom : (s.perCN cn).getD 0 < maxConnsPerCN) :
      Moves s p { s with
        perCN := Function.update s.perCN cn (some ((s.perCN cn).getD 0 + 1)) } (Phase.serving cn)
  | left {p : Phase} (hp : p = Phase.acquiring ∨ p = Phase.reading ∨ p = Phase.handling) :
      Moves s p s Phase.leaving
  | given (cn : Text) : Moves s (Phase.serving cn) (releaseCNOnly cn s) Phase.leaving
  | released (hpos : 0 < s.connSem) :
      Moves s Phase.leaving { s with connSem := s.connSem - 1 } Phase.closed

section Steps

variable {s t : State}

theorem step_cases {a : Action} (h : step s a = some t) :
    (exists kind, t = { s with conns := s.conns ++ [⟨kind, Phase.accepted⟩] }) ∨
      exists i c shared phase, s.conns[i]? = some c ∧ t = s.update i c shared phase ∧
        Moves s.shared c.phase shared phase := by
  cases a with
  | accept kind =>
      cases h
      exact Or.inl ⟨kind, rfl⟩
  | acquire i =>
      simp only [step] at h
      split at h
      · rename_i c hc
        split at h
        · rename_i hphase
          rw [acquire] at h
          by_cases hroom : s.shared.connSem < maxConns
          · rw [if_pos hroom] at h
            cases h
            exact Or.inr ⟨i, c, _, _, hc, rfl, hphase ▸ Moves.admitted c.kind hroom⟩
          · rw [if_neg hroom] at h
            cases h
            exact Or.inr ⟨i, c, _, _, hc, rfl, hphase ▸ Moves.refused⟩
        · cases h
      · cases h
  | acquireCNOnly i cn =>
      simp only [step] at h
      split at h
      · rename_i c hc
        split at h
        · rename_i hasks
          have hphase : c.phase = Phase.acquiring ∨ c.phase = Phase.reading :=
            hasks.imp And.right And.right
          rw [acquireCNOnly] at h
          by_cases hfull : maxConnsPerCN ≤ (s.shared.perCN cn).getD 0
          · rw [if_pos hfull] at h
            cases h
            exact Or.inr ⟨i, c, _, _, hc, rfl, Moves.left (hphase.imp_right Or.inl)⟩
          · rw [if_neg hfull] at h
            cases h
            exact Or.inr ⟨i, c, _, _, hc, rfl, Moves.taken cn hphase (Nat.lt_of_not_le hfull)⟩
        · cases h
      · cases h
  | leave i =>
      simp only [step] at h
      split at h
      · rename_i c hc
        split at h
        · rename_i hphase
          cases h
          exact Or.inr ⟨i, c, _, _, hc, rfl, Moves.left (Or.inr hphase)⟩
        · cases h
      · cases h
  | releaseCNOnly i =>
      simp only [step] at h
      split at h
      · rename_i c hc
        split at h
        · rename_i cn hphase
          cases h
          exact Or.inr ⟨i, c, _, _, hc, rfl, hphase ▸ Moves.given cn⟩
        · cases h
      · cases h
  | release i =>
      simp only [step] at h
      split at h
      · rename_i c hc
        split at h
        · rename_i hphase
          rw [release] at h
          by_cases hpos : 0 < s.shared.connSem
          · rw [if_pos hpos] at h
            cases h
            exact Or.inr ⟨i, c, _, _, hc, rfl, hphase ▸ Moves.released hpos⟩
          · rw [if_neg hpos] at h
            cases h
        · cases h
      · cases h

/-- The token of a phase. -/
def Phase.token (p : Phase) : Nat := if p.holdsToken = true then 1 else 0

/-- The slot of an identity that a phase holds. -/
def Phase.slot (p : Phase) (cn : Text) : Nat :=
  if decide (p = Phase.serving cn) = true then 1 else 0

variable {i : Nat} {c : Conn} {sh sh' : Shared} {p p' : Phase}

theorem held_update (hc : s.conns[i]? = some c) :
    (s.update i c sh p).held + c.phase.token = s.held + p.token :=
  countP_replaced hc

theorem heldBy_update (hc : s.conns[i]? = some c) (cn : Text) :
    (s.update i c sh p).heldBy cn + c.phase.slot cn = s.heldBy cn + p.slot cn :=
  countP_replaced hc

/-- A connection that holds a slot is counted. -/
theorem slot_le_heldBy (hc : s.conns[i]? = some c) (cn : Text) : c.phase.slot cn ≤ s.heldBy cn := by
  unfold Phase.slot
  split
  · rename_i hserving
    exact List.countP_pos_iff.mpr ⟨c, List.mem_of_getElem? hc, hserving⟩
  · exact Nat.zero_le _

theorem Moves.tokens (h : Moves sh p sh' p') : sh'.connSem + p.token = sh.connSem + p'.token := by
  cases h with
  | admitted kind => cases kind <;> rfl
  | refused => rfl
  | taken cn hp => rcases hp with rfl | rfl <;> rfl
  | left hp => rcases hp with rfl | rfl | rfl <;> rfl
  | given cn =>
      unfold releaseCNOnly
      split <;> rfl
  | released hpos => exact Nat.sub_add_cancel hpos

theorem Moves.bound (h : Moves sh p sh' p') (hle : sh.connSem ≤ maxConns) :
    sh'.connSem ≤ maxConns := by
  cases h with
  | admitted kind hroom => exact hroom
  | refused => exact hle
  | taken => exact hle
  | left => exact hle
  | given cn =>
      unfold releaseCNOnly
      split <;> exact hle
  | released => exact (Nat.sub_le _ _).trans hle

/-- The slots of an identity move as the phases do. -/
theorem Moves.perCN (h : Moves sh p sh' p') (cn : Text)
    (hheld : p.slot cn ≤ (sh.perCN cn).getD 0) :
    (sh'.perCN cn).getD 0 + p.slot cn = (sh.perCN cn).getD 0 + p'.slot cn := by
  cases h with
  | admitted kind => cases kind <;> rfl
  | refused => rfl
  | taken cn' hp =>
      have hnone : p.slot cn = 0 := by
        rcases hp with rfl | rfl <;> rfl
      rw [hnone]
      by_cases hcn : cn = cn'
      · subst hcn
        simp [Phase.slot]
      · simp [Phase.slot, Function.update_of_ne hcn, Ne.symm hcn]
  | left hp => rcases hp with rfl | rfl | rfl <;> rfl
  | given cn' =>
      have hnone : Phase.leaving.slot cn = 0 := rfl
      rw [hnone]
      by_cases hcn : cn = cn'
      · subst hcn
        have hone : (Phase.serving cn).slot cn = 1 := by simp [Phase.slot]
        rw [hone] at hheld ⊢
        unfold releaseCNOnly
        split
        · simp only [Function.update_self, Option.getD_none]
          omega
        · simp only [Function.update_self, Option.getD_some]
          omega
      · have hother : (Phase.serving cn').slot cn = 0 := by simp [Phase.slot, Ne.symm hcn]
        rw [hother]
        unfold releaseCNOnly
        split
        · simp [Function.update_of_ne hcn]
        · simp [Function.update_of_ne hcn]
  | released => rfl

/-- No identity is kept with a count of zero, and none has more than its share. -/
theorem Moves.key (h : Moves sh p sh' p') (cn : Text)
    (hkey : forall n, sh.perCN cn = some n -> 0 < n ∧ n ≤ maxConnsPerCN) {n : Nat}
    (hn : sh'.perCN cn = some n) : 0 < n ∧ n ≤ maxConnsPerCN := by
  cases h with
  | admitted => exact hkey n hn
  | refused => exact hkey n hn
  | taken cn' hp hroom =>
      by_cases hcn : cn = cn'
      · subst hcn
        simp only [Function.update_self, Option.some.injEq] at hn
        omega
      · simp only [Function.update_of_ne hcn] at hn
        exact hkey n hn
  | left => exact hkey n hn
  | given cn' =>
      unfold releaseCNOnly at hn
      by_cases hcn : cn = cn'
      · subst hcn
        split at hn
        · simp at hn
        · rename_i hmany
          simp only [Function.update_self, Option.some.injEq] at hn
          cases hcount : sh.perCN cn with
          | none => simp [hcount] at hmany
          | some k =>
              have hle := (hkey k hcount).right
              rw [hcount, Option.getD_some] at hmany hn
              omega
      · split at hn
        · simp only [Function.update_of_ne hcn] at hn
          exact hkey n hn
        · simp only [Function.update_of_ne hcn] at hn
          exact hkey n hn
  | released => exact hkey n hn

/-- The counts are those of the slots that are held. -/
structure Inv (s : State) : Prop where
  tokens : s.shared.connSem = s.held
  bound : s.shared.connSem ≤ maxConns
  perCN : forall cn, (s.shared.perCN cn).getD 0 = s.heldBy cn
  keys : forall cn n, s.shared.perCN cn = some n -> 0 < n ∧ n ≤ maxConnsPerCN

theorem inv_initial : Inv initial := by
  constructor
  · rfl
  · exact Nat.zero_le _
  · intro cn
    rfl
  · intro cn n hn
    cases hn

theorem Inv.accepted (h : Inv s) (kind : Kind) :
    Inv { s with conns := s.conns ++ [⟨kind, Phase.accepted⟩] } := by
  constructor
  · rw [State.held, List.countP_append]
    exact h.tokens
  · exact h.bound
  · intro cn
    rw [State.heldBy, List.countP_append]
    exact h.perCN cn
  · exact h.keys

theorem Inv.moved (h : Inv s) (hc : s.conns[i]? = some c) (hmoves : Moves s.shared c.phase sh p) :
    Inv (s.update i c sh p) := by
  constructor
  · have hheld : (s.update i c sh p).held + c.phase.token = s.held + p.token := held_update hc
    have htokens := hmoves.tokens
    rw [h.tokens] at htokens
    exact Nat.add_right_cancel (htokens.trans hheld.symm)
  · exact hmoves.bound h.bound
  · intro cn
    have hheld : (s.update i c sh p).heldBy cn + c.phase.slot cn = s.heldBy cn + p.slot cn :=
      heldBy_update hc cn
    have hslots := hmoves.perCN cn (by rw [h.perCN]; exact slot_le_heldBy hc cn)
    rw [h.perCN] at hslots
    exact Nat.add_right_cancel (hslots.trans hheld.symm)
  · intro cn n
    exact hmoves.key cn (h.keys cn)

theorem inv_step (s : State) (a : Action) (t : State) (h : Inv s)
    (hstep : machine.step s a = some t) : Inv t := by
  rcases step_cases hstep with ⟨kind, rfl⟩ | ⟨i, c, sh, p, hc, rfl, hmoves⟩
  · exact h.accepted kind
  · exact h.moved hc hmoves

theorem inv_of_reachable (h : machine.Reachable s) : Inv s := by
  apply h.invariant
  · rintro _ rfl
    exact inv_initial
  · exact inv_step

theorem Inv.conserved (h : Inv s) : Conserved s where
  tokens := h.tokens
  bound := h.bound
  perCN := h.perCN
  key := by
    intro cn
    rw [← h.perCN]
    cases hn : s.shared.perCN cn with
    | none => simp
    | some n => simp [Nat.ne_of_gt (h.keys cn n hn).left]
  perCNBound := by
    intro cn
    rw [← h.perCN]
    cases hn : s.shared.perCN cn with
    | none => exact Nat.zero_le _
    | some n => exact (h.keys cn n hn).right

/-- A handler that releases its token does not wait. -/
theorem release_ready (h : machine.Reachable s) (hc : s.conns[i]? = some c)
    (hphase : c.phase = Phase.leaving) : exists t, step s (Action.release i) = some t := by
  have hpos : 0 < s.shared.connSem := by
    rw [(inv_of_reachable h).tokens]
    exact List.countP_pos_iff.mpr ⟨c, List.mem_of_getElem? hc, by rw [hphase]; rfl⟩
  simp only [step, hc, hphase, release, if_pos hpos]
  exact ⟨_, rfl⟩

end Steps

/-!
# Acquisitions that fail
-/

section Operations

variable {cn : Text} {s s' : Shared}

theorem acquire_failed (h : acquire s = (false, s')) : s' = s := by
  unfold acquire at h
  split at h
  · cases h
  · cases h
    rfl

theorem acquireCNOnly_failed (h : acquireCNOnly cn s = (false, s')) : s' = s := by
  unfold acquireCNOnly at h
  split at h
  · cases h
    rfl
  · cases h

theorem acquire_ok (h : acquire s = (true, s')) : s' = { s with connSem := s.connSem + 1 } := by
  unfold acquire at h
  split at h
  · cases h
    rfl
  · cases h

/-- The token is given back when there is no slot. -/
theorem acquireCN_failed (h : acquireCN cn s = some (false, s')) : s' = s := by
  unfold acquireCN at h
  split at h
  · rename_i hfailed
    cases h
    exact acquire_failed hfailed
  · rename_i hok
    rw [acquire_ok hok] at h
    split at h
    · cases h
    · rename_i hfailed
      rw [acquireCNOnly_failed hfailed, release, if_pos (Nat.succ_pos _)] at h
      cases h
      rfl

theorem releaseCNOnly_taken (hkey : s.perCN cn ≠ some 0) :
    releaseCNOnly cn { s with
      perCN := Function.update s.perCN cn (some ((s.perCN cn).getD 0 + 1)) } = s := by
  unfold releaseCNOnly
  simp only [Function.update_self, Option.getD_some, Function.update_idem, Nat.add_sub_cancel]
  cases hn : s.perCN cn with
  | none => rw [Option.getD_none, if_pos (by omega), ← hn, Function.update_eq_self]
  | some n =>
      have hpos : 0 < n := Nat.pos_of_ne_zero fun hzero => hkey (hzero ▸ hn)
      rw [Option.getD_some, if_neg (by omega), ← hn, Function.update_eq_self]

/-- What was acquired is given back as a whole. -/
theorem releaseCN_acquired (hkey : s.perCN cn ≠ some 0) (h : acquireCN cn s = some (true, s')) :
    releaseCN cn s' = some s := by
  unfold acquireCN at h
  split at h
  · cases h
  · rename_i hok
    rw [acquire_ok hok, acquireCNOnly] at h
    split at h
    · rename_i hslot
      split at hslot
      · cases hslot
      · cases hslot
        cases h
        rw [releaseCN, releaseCNOnly_taken (s := { s with connSem := s.connSem + 1 }) hkey, release,
          if_pos (Nat.succ_pos _)]
        rfl
    · rename_i hslot
      split at hslot
      · cases hslot
        cases hrelease : release { s with connSem := s.connSem + 1 } with
        | none => simp [hrelease] at h
        | some r => simp [hrelease] at h
      · cases hslot

end Operations

/-- Whatever the order in which the handlers of any connections take and give back their
slots, the counts are those of the slots that are held and stay within their bounds; an
acquisition that fails leaves them as they were. -/
theorem conserved_of_reachable :
    (forall s, machine.Reachable s -> Conserved s) ∧
    (forall s s', acquire s = (false, s') -> s' = s) ∧
    (forall cn s s', acquireCN cn s = some (false, s') -> s' = s) ∧
    (forall cn s s', acquireCNOnly cn s = (false, s') -> s' = s) := by
  refine ⟨fun s h => (inv_of_reachable h).conserved, ?_, ?_, ?_⟩
  · intro s s'
    exact acquire_failed
  · intro cn s s'
    exact acquireCN_failed
  · intro cn s s'
    exact acquireCNOnly_failed

/-- A public connection and a request to a vhost have slots of one identity, and the first
of them ends. -/
def connections : List Action :=
  [Action.accept (Kind.publicTcp ['a']), Action.accept Kind.vhost, Action.acquire 0,
    Action.acquire 1, Action.acquireCNOnly 1 ['a'], Action.acquireCNOnly 0 ['a'],
    Action.releaseCNOnly 0, Action.release 0]

theorem conserved_of_connections :
    exists t, machine.exec initial connections = some t ∧ t.shared.connSem = 1 ∧
      t.shared.perCN ['a'] = some 1 ∧ Conserved t :=
  ⟨_, rfl, rfl, rfl, conserved_of_reachable.left _ ⟨initial, connections, rfl, rfl⟩⟩

end Slots

end Engine
end RcTunnel
