import RcTunnel.Foundation.Machine
import RcTunnel.Foundation.Table

/-!
# The registry of connected agents

The control server keeps the sender of an agent's session in {lit}`_conns`, and
the agent's status in the database.  A session registers its sender when it
connects, reports the agent online at every heartbeat, and unregisters when it
ends, if the registered sender is still its own.  Each of the three runs on the
event loop without giving way, but the sessions of one agent may overlap.

The main result says which runs keep the registry true: those in which the
session that registered last does not end before the others.
-/

namespace RcTunnel
namespace Panel

open Foundation

namespace Registry

inductive AgentStatus where
  | online
  | offline
deriving DecidableEq, Repr

structure State where
  /-- the status of the agents that have a row -/
  status : Nat -> Option AgentStatus
  /-- {lit}`_conns`: the session whose sender an agent has -/
  conns : Nat -> Option Nat
  /-- the sessions that {lit}`_handle` serves, each with its agent -/
  sessions : Nat -> Option Nat

inductive Action where
  | connect (c agentId : Nat)
  /-- a heartbeat, or an applied config -/
  | heartbeat (c : Nat)
  | disconnect (c : Nat)
deriving DecidableEq, Repr

/-- {lit}`_set_status`; an agent without a row is left alone. -/
def State.setStatus (s : State) (agentId : Nat) (status : AgentStatus) : State :=
  match s.status agentId with
  | none => s
  | some _ => { s with status := Function.update s.status agentId (some status) }

def State.register (s : State) (agentId c : Nat) : State :=
  State.setStatus { s with conns := Function.update s.conns agentId (some c) } agentId
    AgentStatus.online

def State.unregister (s : State) (agentId c : Nat) : State :=
  if s.conns agentId = some c then
    State.setStatus { s with conns := Function.update s.conns agentId none } agentId
      AgentStatus.offline
  else
    s

def State.touch (s : State) (agentId : Nat) : State :=
  s.setStatus agentId AgentStatus.online

/-- The session that a pushed config is sent on. -/
def State.push (s : State) (agentId : Nat) : Option Nat := s.conns agentId

/-- {lit}`_handle`, up to its loop, in its loop, and at its end. -/
def step (s : State) : Action -> Option State
  | Action.connect c agentId =>
      match s.sessions c, s.status agentId with
      | some _, _ => none
      -- closed with code 4004
      | none, none => some s
      | none, some _ =>
          some (State.register { s with
            sessions := Function.update s.sessions c (some agentId) } agentId c)
  | Action.heartbeat c =>
      match s.sessions c with
      | none => none
      | some agentId => some (s.touch agentId)
  | Action.disconnect c =>
      match s.sessions c with
      | none => none
      | some agentId =>
          some (State.unregister { s with
            sessions := Function.update s.sessions c none } agentId c)

/-- Nobody is connected, and no agent is said to be. -/
structure Idle (s : State) : Prop where
  conns : forall agentId, s.conns agentId = none
  sessions : forall c, s.sessions c = none
  status : forall agentId, s.status agentId ≠ some AgentStatus.online

def machine : Machine State Action where
  init := Idle
  step := step

/-!
# What the registry says of an agent
-/

/-- The entry and the status tell whether the agent has a live session, and the
entry is one. -/
structure Reflects (s : State) (agentId : Nat) : Prop where
  entry : s.conns agentId ≠ none <-> exists c, s.sessions c = some agentId
  live : forall c, s.conns agentId = some c -> s.sessions c = some agentId
  status : s.status agentId = some AgentStatus.online <-> s.conns agentId ≠ none

def AllReflected (s : State) : Prop := forall agentId, Reflects s agentId

/-- The registered session of an agent ends when it is the agent's only one. -/
def LastToEnd (s : State) : Action -> Prop
  | Action.disconnect c => forall agentId, s.sessions c = some agentId ->
      s.conns agentId = some c -> forall c', s.sessions c' = some agentId -> c' = c
  | _ => True

/-- A pushed config reaches an agent with a live session. -/
theorem push_reaches {s : State} {agentId c : Nat} (h : Reflects s agentId)
    (hc : s.sessions c = some agentId) :
    exists c', s.push agentId = some c' ∧ s.sessions c' = some agentId := by
  cases hconn : s.conns agentId with
  | none => exact absurd hconn (h.entry.mpr ⟨c, hc⟩)
  | some c' => exact ⟨c', hconn, h.live c' hconn⟩

/-!
# Every step
-/

section Steps

variable {s t : State}

@[simp] theorem setStatus_conns (s : State) (agentId : Nat) (status : AgentStatus) :
    (s.setStatus agentId status).conns = s.conns := by
  unfold State.setStatus
  split <;> rfl

@[simp] theorem setStatus_sessions (s : State) (agentId : Nat) (status : AgentStatus) :
    (s.setStatus agentId status).sessions = s.sessions := by
  unfold State.setStatus
  split <;> rfl

theorem setStatus_self {agentId : Nat} (status : AgentStatus)
    (hrow : s.status agentId ≠ none) :
    (s.setStatus agentId status).status agentId = some status := by
  unfold State.setStatus
  cases hold : s.status agentId with
  | none => exact absurd hold hrow
  | some old => exact Function.update_self _ _ _

theorem setStatus_other {agentId other : Nat} (status : AgentStatus)
    (hne : other ≠ agentId) :
    (s.setStatus agentId status).status other = s.status other := by
  unfold State.setStatus
  split
  · rfl
  · exact Function.update_of_ne hne _ _

@[simp] theorem register_conns (s : State) (agentId c : Nat) :
    (s.register agentId c).conns = Function.update s.conns agentId (some c) :=
  setStatus_conns _ _ _

@[simp] theorem register_sessions (s : State) (agentId c : Nat) :
    (s.register agentId c).sessions = s.sessions :=
  setStatus_sessions _ _ _

theorem register_self {agentId : Nat} (c : Nat) (hrow : s.status agentId ≠ none) :
    (s.register agentId c).status agentId = some AgentStatus.online :=
  setStatus_self AgentStatus.online hrow

theorem register_other {agentId other : Nat} (c : Nat) (hne : other ≠ agentId) :
    (s.register agentId c).status other = s.status other :=
  setStatus_other AgentStatus.online hne

theorem step_cases {action : Action} (h : step s action = some t) :
    (exists c agentId, action = Action.connect c agentId ∧ s.sessions c = none ∧
      s.status agentId = none ∧ t = s) ∨
    (exists c agentId, action = Action.connect c agentId ∧ s.sessions c = none ∧
      s.status agentId ≠ none ∧
      t = State.register { s with
        sessions := Function.update s.sessions c (some agentId) } agentId c) ∨
    (exists c agentId, action = Action.heartbeat c ∧ s.sessions c = some agentId ∧
      t = s.touch agentId) ∨
    (exists c agentId, action = Action.disconnect c ∧ s.sessions c = some agentId ∧
      t = State.unregister { s with
        sessions := Function.update s.sessions c none } agentId c) := by
  cases action with
  | connect c agentId =>
      simp only [step] at h
      split at h
      · cases h
      · rename_i hfree hrow
        cases h
        exact Or.inl ⟨c, agentId, rfl, hfree, hrow, rfl⟩
      · rename_i row hfree hrow
        cases h
        exact Or.inr (Or.inl ⟨c, agentId, rfl, hfree, by simp [hrow], rfl⟩)
  | heartbeat c =>
      simp only [step] at h
      split at h
      · cases h
      · rename_i agentId hc
        cases h
        exact Or.inr (Or.inr (Or.inl ⟨c, agentId, rfl, hc, rfl⟩))
  | disconnect c =>
      simp only [step] at h
      split at h
      · cases h
      · rename_i agentId hc
        cases h
        exact Or.inr (Or.inr (Or.inr ⟨c, agentId, rfl, hc, rfl⟩))

/-!
# One step keeps the registry true, or it ends the registered session too early
-/

/-- A step that leaves what the panel holds of an agent alone. -/
theorem Reflects.frame {agentId : Nat} (h : Reflects s agentId)
    (hconns : t.conns agentId = s.conns agentId)
    (hsessions : forall c, t.sessions c = some agentId <-> s.sessions c = some agentId)
    (hstatus : t.status agentId = s.status agentId) : Reflects t agentId := by
  constructor
  · simp only [hconns, hsessions]
    exact h.entry
  · intro c hc
    rw [hconns] at hc
    exact (hsessions c).mpr (h.live c hc)
  · rw [hstatus, hconns]
    exact h.status

/-- A new session is none of another agent's. -/
theorem session_joined {c c' agentId other : Nat} (hfree : s.sessions c = none)
    (hother : other ≠ agentId) :
    Function.update s.sessions c (some agentId) c' = some other <->
      s.sessions c' = some other := by
  constructor
  · intro hc'
    rcases lookup_started hc' with ⟨-, rfl⟩ | ⟨-, hc'⟩
    · exact absurd rfl hother
    · exact hc'
  · intro hc'
    rw [Function.update_of_ne]
    · exact hc'
    · rintro rfl
      rw [hfree] at hc'
      cases hc'

theorem reflects_connect {c agentId : Nat} (h : AllReflected s) (hfree : s.sessions c = none)
    (hrow : s.status agentId ≠ none) :
    AllReflected (State.register { s with
      sessions := Function.update s.sessions c (some agentId) } agentId c) := by
  intro other
  by_cases hother : other = agentId
  · subst hother
    constructor
    · simp only [register_conns, register_sessions, Function.update_self]
      constructor
      · intro _
        exact ⟨c, Function.update_self _ _ _⟩
      · intro _
        simp
    · intro c' hc'
      simp only [register_conns, Function.update_self] at hc'
      cases hc'
      simp
    · rw [register_self c (by exact hrow)]
      simp
  · apply (h other).frame
    · rw [register_conns, Function.update_of_ne hother]
    · intro c'
      rw [register_sessions]
      exact session_joined hfree hother
    · rw [register_other c hother]

theorem reflects_heartbeat {c agentId : Nat} (h : AllReflected s)
    (hc : s.sessions c = some agentId) : AllReflected (s.touch agentId) := by
  intro other
  have hold := h other
  apply hold.frame
  · exact congrFun (setStatus_conns _ _ _) other
  · intro c'
    rw [State.touch, setStatus_sessions]
  · unfold State.touch
    by_cases hother : other = agentId
    · subst hother
      -- a live session has made the status online already
      have honline := hold.status.mpr (hold.entry.mpr ⟨c, hc⟩)
      rw [setStatus_self AgentStatus.online (by simp [honline]), honline]
    · exact setStatus_other AgentStatus.online hother

/-- What is left of the sessions of an agent when one ends. -/
theorem session_left {c c' agentId other : Nat} (hc : s.sessions c = some agentId)
    (hother : other ≠ agentId) :
    Function.update s.sessions c none c' = some other <-> s.sessions c' = some other := by
  constructor
  · intro hc'
    exact (lookup_ended hc').right
  · intro hc'
    rw [Function.update_of_ne]
    · exact hc'
    · rintro rfl
      rw [hc] at hc'
      exact hother (Option.some.inj hc').symm

/-- The registered session ends, and was the agent's only one. -/
theorem reflects_unregistered {c agentId : Nat} (h : AllReflected s)
    (hc : s.sessions c = some agentId) (hown : s.conns agentId = some c)
    (hlast : forall c', s.sessions c' = some agentId -> c' = c) :
    AllReflected (State.setStatus { s with
      sessions := Function.update s.sessions c none
      conns := Function.update s.conns agentId none } agentId AgentStatus.offline) := by
  intro other
  by_cases hother : other = agentId
  · subst hother
    have honline := (h other).status.mpr (by simp [hown])
    constructor
    · simp only [setStatus_conns, setStatus_sessions, Function.update_self]
      constructor
      · intro hne
        exact absurd rfl hne
      · intro hlive
        rcases hlive with ⟨c', hc'⟩
        rcases lookup_ended hc' with ⟨hne, hc'⟩
        exact absurd (hlast c' hc') hne
    · intro c' hc'
      simp only [setStatus_conns, Function.update_self] at hc'
      cases hc'
    · rw [setStatus_self AgentStatus.offline]
      · simp
      · simp [honline]
  · apply (h other).frame
    · rw [setStatus_conns]
      exact Function.update_of_ne hother _ _
    · intro c'
      rw [setStatus_sessions]
      exact session_left hc hother
    · exact setStatus_other AgentStatus.offline hother

/-- A session ends that another one has replaced in the registry. -/
theorem reflects_superseded {c agentId : Nat} (h : AllReflected s)
    (hc : s.sessions c = some agentId) (hown : s.conns agentId ≠ some c) :
    AllReflected { s with sessions := Function.update s.sessions c none } := by
  intro other
  have hold := h other
  by_cases hother : other = agentId
  · subst hother
    have hentry := hold.entry.mpr ⟨c, hc⟩
    -- the entry is another session, which stays
    have hstays : forall c', s.conns other = some c' ->
        Function.update s.sessions c none c' = some other := by
      intro c' hc'
      rw [Function.update_of_ne]
      · exact hold.live c' hc'
      · rintro rfl
        exact hown hc'
    constructor
    · constructor
      · intro _
        cases hconn : s.conns other with
        | none => exact absurd hconn hentry
        | some c' => exact ⟨c', hstays c' hconn⟩
      · intro _
        exact hentry
    · exact hstays
    · exact hold.status
  · exact hold.frame rfl (fun c' => session_left hc hother) rfl

theorem reflects_disconnect {c agentId : Nat} (h : AllReflected s)
    (hc : s.sessions c = some agentId)
    (hlast : s.conns agentId = some c -> forall c', s.sessions c' = some agentId -> c' = c) :
    AllReflected (State.unregister { s with
      sessions := Function.update s.sessions c none } agentId c) := by
  unfold State.unregister
  split
  · rename_i hown
    exact reflects_unregistered h hc hown (hlast hown)
  · rename_i hown
    exact reflects_superseded h hc hown

theorem reflected_keeps {action : Action} (h : AllReflected s) (hlast : LastToEnd s action)
    (hstep : step s action = some t) : AllReflected t := by
  rcases step_cases hstep with ⟨c, agentId, rfl, -, -, rfl⟩ | hrest
  · exact h
  rcases hrest with ⟨c, agentId, rfl, hfree, hrow, rfl⟩ | hrest
  · exact reflects_connect h hfree hrow
  rcases hrest with ⟨c, agentId, rfl, hc, rfl⟩ | ⟨c, agentId, rfl, hc, rfl⟩
  · exact reflects_heartbeat h hc
  · exact reflects_disconnect h hc (hlast agentId hc)

/-- An older session that is still live has no entry. -/
theorem reflected_breaks {action : Action} (hlast : ¬ LastToEnd s action)
    (hstep : step s action = some t) : ¬ AllReflected t := by
  intro h
  rcases step_cases hstep with ⟨c, agentId, rfl, -⟩ | ⟨c, agentId, rfl, -⟩ | hrest
  · exact hlast trivial
  · exact hlast trivial
  rcases hrest with ⟨c, agentId, rfl, -⟩ | ⟨c, agentId, rfl, hc, rfl⟩
  · exact hlast trivial
  · apply hlast
    intro agentId' hagent hown c' hc'
    rw [hc] at hagent
    cases hagent
    by_contra hne
    have hentry := (h agentId).entry.mpr ⟨c', by
      simp [State.unregister, hown, Function.update_of_ne hne, hc']⟩
    simp [State.unregister, hown] at hentry

end Steps

/-!
# Every run
-/

theorem reflected_of_idle {s : State} (h : Idle s) : AllReflected s := by
  intro agentId
  constructor
  · simp [h.conns, h.sessions]
  · intro c hc
    rw [h.conns] at hc
    cases hc
  · simp [h.conns, h.status]

/-- The registry is true of every agent along a run exactly when, in every step of it
that ends the registered session of an agent, this session is the agent's only one. -/
theorem reflected_iff_lastToEnd {s t : State} {actions : List Action} (hs : Idle s)
    (hexec : machine.exec s actions = some t) :
    machine.Always AllReflected s actions <-> machine.Obeys LastToEnd s actions := by
  have hkeep : forall s a t, AllReflected s -> LastToEnd s a ->
      machine.step s a = some t -> AllReflected t := by
    intro s a t h hlast hstep
    exact reflected_keeps h hlast hstep
  have hbreak : forall s a t, AllReflected s -> ¬ LastToEnd s a ->
      machine.step s a = some t -> ¬ AllReflected t := by
    intro s a t _ hlast hstep
    exact reflected_breaks hlast hstep
  exact Machine.always_iff_obeys (fun _ h => h) hkeep hbreak (reflected_of_idle hs) hexec

/-- Agent 7 is known, and not connected. -/
def known : State where
  status := fun agentId => if agentId = 7 then some AgentStatus.offline else none
  conns := fun _ => none
  sessions := fun _ => none

theorem idle_known : Idle known := by
  constructor
  · intro agentId
    rfl
  · intro c
    rfl
  · intro agentId
    unfold known
    dsimp only
    split <;> simp

/-- A reconnect: the old session ends after the new one has registered. -/
def reconnect : List Action :=
  [Action.connect 1 7, Action.connect 2 7, Action.disconnect 1, Action.heartbeat 2,
    Action.disconnect 2]

theorem reflected_of_reconnect : machine.Always AllReflected known reconnect := by
  apply (reflected_iff_lastToEnd idle_known rfl).mpr
  refine ⟨trivial, fun s₁ h₁ => ⟨trivial, fun s₂ h₂ => ⟨?_, fun s₃ h₃ => ⟨trivial,
    fun s₄ h₄ => ⟨?_, fun _ _ => trivial⟩⟩⟩⟩⟩
  · cases h₁
    cases h₂
    intro agentId hc hown
    cases hc
    cases hown
  · cases h₁
    cases h₂
    cases h₃
    cases h₄
    intro agentId hc hown c' hc'
    cases hc
    rcases lookup_ended hc' with ⟨hold, hc'⟩
    rcases lookup_started hc' with ⟨rfl, -⟩ | ⟨-, hc'⟩
    · rfl
    · rcases lookup_started hc' with ⟨rfl, -⟩ | ⟨-, hc'⟩
      · exact absurd rfl hold
      · cases hc'

/-- The new session ends first, and the old one goes on. -/
def setback : List Action :=
  [Action.connect 1 7, Action.connect 2 7, Action.disconnect 2, Action.heartbeat 1]

/-- The agent is live and online, but has no entry to push to. -/
theorem unregistered_of_setback :
    ¬ forall s, machine.Reachable s -> forall agentId, Reflects s agentId := by
  intro h
  have hreach : machine.Reachable ((machine.exec known setback).getD known) :=
    ⟨known, setback, idle_known, rfl⟩
  have hentry := (h _ hreach 7).entry.mpr ⟨1, rfl⟩
  exact hentry rfl

end Registry

end Panel
end RcTunnel
