import RcTunnel.Panel.Accounting
import RcTunnel.Panel.Requests

/-!
# Everything that changes a configuration

Besides the requests that create or update a tunnel, an agent's configuration depends on
those that delete one, on the updates of its team, and on the polls that suspend the team
or resume it.  Each reads the committed tables several times and writes later.
-/

namespace RcTunnel
namespace Panel

open Foundation

namespace Api

namespace Operations

open Interleaved (changed bumpLoaded)

/-- The columns of a team that an update sets. -/
structure TeamChange where
  name : Option Text
  subdomainLabel : Option (Option Text)
  quotaBytes : Option (Option Int)
deriving DecidableEq, Repr

/-- The next read of an operation, or its write, with the rows in its session. -/
inductive Phase where
  -- delete_tunnel
  | tunnel (user : User) (tunnelId : Nat)
  | owner (user : User) (t : Tunnel)
  | delete (t : Tunnel) (a : Agent)
  -- update_team
  | team (user : User) (teamId : Nat) (fields : TeamFields)
  | name (loaded : Team) (fields : TeamFields)
  | label (loaded : Team) (name : Option Text) (fields : TeamFields)
  | usage (loaded : Team) (change : TeamChange)
  | agents (loaded : Team) (change : TeamChange) (suspended : Bool)
  | update (loaded : Team) (change : TeamChange) (suspended : Bool) (agents : List Agent)
  -- poll_once
  | tunnels (answer : Option (List StatsEntry))
  | count (rows : List (Tunnel × Tunnel))
  | teams
  | usages (todo : List Team) (flipped : List (Nat × Bool))
  | flip (flipped : List (Nat × Bool))
  | finished
deriving DecidableEq, Repr

structure State where
  /-- the tables, and the requests that create or update a tunnel -/
  tunnels : Interleaved.State
  jobs : Nat -> Option Phase
  /-- the earlier committed tables, oldest first -/
  past : List Db

def State.db (s : State) : Db := s.tunnels.db

inductive Action where
  | tunnel (action : Interleaved.Action)
  | deleteTunnel (r : Nat) (user : User) (tunnelId : Nat)
  | updateTeam (r : Nat) (user : User) (teamId : Nat) (fields : TeamFields)
  | poll (r : Nat) (answer : Option (List StatsEntry))
  | read (r : Nat)
  | commit (r : Nat)
deriving DecidableEq, Repr

section Steps

variable (pl : Platform) (st : Settings) (node : Nat -> Nat)

/-- The label that an update sets is another than the loaded one. -/
def relabels (loaded : Team) (change : TeamChange) : Bool :=
  change.subdomainLabel.getD loaded.subdomainLabel ≠ loaded.subdomainLabel

/-- One read, with the checks up to the next. -/
def Phase.read (db : Db) : Phase -> Except Error Phase
  | Phase.tunnel user tunnelId => do
      let t ← found (db.tunnel? tunnelId) 404 "tunnel not found".toList
      return Phase.owner user t
  | Phase.owner user t => do
      let a ← found (db.agent? t.agentId) 500 "Internal Server Error".toList
      checkTeamAccess a.teamId user
      return Phase.delete t a
  | Phase.team user teamId fields => do
      let name ← cleanOptionalName fields.name
      requireAdmin user
      let team ← found (db.team? teamId) 404 "team not found".toList
      return Phase.name team { fields with name := name }
  | Phase.name loaded fields => do
      let name ← renamed db loaded.id fields.name
      return Phase.label loaded name fields
  | Phase.label loaded newName fields => do
      let label := relabelled pl newName fields.subdomainLabel
      require (forall l, l ∈ given label.join -> forall t, t ∈ db.teams -> t.id ≠ loaded.id ->
        t.subdomainLabel ≠ some l) 409 "subdomain label is taken".toList
      return Phase.usage loaded ⟨newName, label, fields.quotaBytes⟩
  | Phase.usage loaded change =>
      let suspended := overQuota (change.quotaBytes.getD loaded.quotaBytes) (db.usage loaded.id)
      if relabels loaded change then
        return Phase.agents loaded change suspended
      else
        return Phase.update loaded change suspended []
  | Phase.agents loaded change suspended =>
      return Phase.update loaded change suspended
        (db.agents.filter fun a => a.teamId = some loaded.id)
  | Phase.tunnels answer =>
      return Phase.count (db.tunnels.map fun t => (t, t.counted (sampleOf answer)))
  | Phase.teams => return Phase.usages db.teams []
  | Phase.usages (t :: rest) flipped =>
      let exceeds := overQuota t.quotaBytes (db.usage t.id)
      return Phase.usages rest
        (if exceeds ≠ t.suspended then flipped ++ [(t.id, exceeds)] else flipped)
  | Phase.usages [] flipped => return Phase.flip flipped
  | phase => return phase

/-- The generation that was loaded for the agent, and one. -/
def bumpedFrom (loaded : List Agent) (b : Agent) : Agent :=
  match loaded.find? fun a => a.id = b.id with
  | none => b
  | some a => { b with generation := a.generation + 1 }

def bumpAll (loaded : List Agent) (agents : List Agent) : List Agent :=
  agents.map (bumpedFrom loaded)

/-- The columns of a team that are updated: those whose value is not the loaded one. -/
def Team.updated (loaded : Team) (change : TeamChange) (suspended : Bool) (t : Team) : Team :=
  { t with
    name := (changed change.name loaded.name).getD t.name
    subdomainLabel := (changed change.subdomainLabel loaded.subdomainLabel).getD t.subdomainLabel
    quotaBytes := (changed change.quotaBytes loaded.quotaBytes).getD t.quotaBytes
    suspended := (changed (some suspended) loaded.suspended).getD t.suspended }

/-- The counters of a tunnel that are updated. -/
def Tunnel.recounted (row : Tunnel × Tunnel) (t : Tunnel) : Tunnel :=
  { t with
    bytesIn := (changed (some row.2.bytesIn) row.1.bytesIn).getD t.bytesIn
    bytesOut := (changed (some row.2.bytesOut) row.1.bytesOut).getD t.bytesOut
    lastTodayIn := (changed (some row.2.lastTodayIn) row.1.lastTodayIn).getD t.lastTodayIn
    lastTodayOut := (changed (some row.2.lastTodayOut) row.1.lastTodayOut).getD t.lastTodayOut }

/-- A write with its commit, and what comes next.  An update whose row is gone fails. -/
def Phase.commit (db : Db) : Phase -> Except Error (Db × Phase)
  | Phase.delete t a =>
      return ({ db with
        tunnels := db.tunnels.filter fun u => u.id ≠ t.id
        agents := bumpLoaded a db.agents }, Phase.finished)
  | Phase.update loaded change suspended rows => do
      let _ ← found (db.team? loaded.id) 500 "Internal Server Error".toList
      constraint (forall n, n ∈ change.name -> forall t, t ∈ db.teams -> t.id ≠ loaded.id ->
        t.name ≠ n)
      constraint (forall l, l ∈ change.subdomainLabel.join -> forall t, t ∈ db.teams ->
        t.id ≠ loaded.id -> t.subdomainLabel ≠ some l)
      return ({ db with
        teams := rewriteRow Team.id loaded.id (Team.updated loaded change suspended) db.teams
        agents := bumpAll rows db.agents }, Phase.finished)
  | Phase.count rows => do
      constraint (forall row, row ∈ rows -> row.1 ≠ row.2 -> db.tunnel? row.1.id ≠ none)
      return ({ db with
        tunnels := db.tunnels.map fun t =>
          match rows.find? fun row => row.1.id = t.id with
          | none => t
          | some row => Tunnel.recounted row t }, Phase.teams)
  | Phase.flip flipped => do
      constraint (forall f, f ∈ flipped -> db.team? f.1 ≠ none)
      return ({ db with
        teams := db.teams.map fun t =>
          match flipped.find? fun f => f.1 = t.id with
          | none => t
          | some f => { t with suspended := f.2 } }, Phase.finished)
  | _ => Except.error ⟨500, "Internal Server Error".toList⟩

def Phase.writes : Phase -> Bool
  | Phase.delete _ _ | Phase.update _ _ _ _ | Phase.count _ | Phase.flip _ => true
  | _ => false

def State.setJob (s : State) (r : Nat) (phase : Phase) : State :=
  { s with jobs := Function.update s.jobs r (some phase) }

/-- The tables after a commit. -/
def State.committed (s : State) (db : Db) : State :=
  { s with tunnels := { s.tunnels with db := db }, past := s.past ++ [s.db] }

def step (s : State) : Action -> Option State
  | Action.tunnel action =>
      match Interleaved.step pl st node s.tunnels action with
      | none => none
      | some tunnels =>
          match action with
          | Interleaved.Action.commit _ _ =>
              some { s with tunnels := tunnels, past := s.past ++ [s.db] }
          | _ => some { s with tunnels := tunnels }
  | Action.deleteTunnel r user tunnelId =>
      if s.jobs r = none then some (s.setJob r (Phase.tunnel user tunnelId)) else none
  | Action.updateTeam r user teamId fields =>
      if s.jobs r = none then some (s.setJob r (Phase.team user teamId fields)) else none
  | Action.poll r answer =>
      if s.jobs r = none then some (s.setJob r (Phase.tunnels answer)) else none
  | Action.read r =>
      match s.jobs r with
      | none => none
      | some phase =>
          if phase.writes ∨ phase = Phase.finished then
            none
          else
            match phase.read pl s.db with
            | Except.error _ => some (s.setJob r Phase.finished)
            | Except.ok next => some (s.setJob r next)
  | Action.commit r =>
      match s.jobs r with
      | none => none
      | some phase =>
          if phase.writes then
            match phase.commit s.db with
            | Except.error _ => some (s.setJob r Phase.finished)
            | Except.ok (db, next) => some ((s.committed db).setJob r next)
          else
            none

end Steps

/-- Nothing is being asked, and nothing was committed yet. -/
structure Idle (s : State) : Prop where
  requests : forall r, s.tunnels.jobs r = none
  jobs : forall r, s.jobs r = none
  past : s.past = []

def machine (pl : Platform) (st : Settings) (node : Nat -> Nat) : Machine State Action where
  init := Idle
  step := step pl st node

/-!
# What a step can do
-/

section Moves

variable (pl : Platform) (st : Settings) (node : Nat -> Nat)

inductive Moves (s : State) : Action -> State -> Prop where
  | request {r : Nat} {user : User} {w : Interleaved.Write} :
      Moves s (Action.tunnel (Interleaved.Action.request r user w))
        { s with tunnels := s.tunnels.setJob r (Interleaved.start user w) }
  | failRequest {r : Nat} {job : Interleaved.Job} (hjob : s.tunnels.jobs r = some job) :
      Moves s (Action.tunnel (Interleaved.Action.read r)) { s with
        tunnels := s.tunnels.setJob r { job with phase := Interleaved.Phase.finished } }
  | readRequest {r : Nat} {job : Interleaved.Job} {phase : Interleaved.Phase}
      (hjob : s.tunnels.jobs r = some job) (hread : job.read pl st node s.db = Except.ok phase) :
      Moves s (Action.tunnel (Interleaved.Action.read r)) { s with
        tunnels := s.tunnels.setJob r
          { job with phase := phase, seen := job.seen.after s.db job.phase } }
  | refuseRequest {r fresh : Nat} {job : Interleaved.Job} {l : Interleaved.Loaded}
      {port : Option (Option Int)} {e : Error} (hjob : s.tunnels.jobs r = some job)
      (hphase : job.phase = Interleaved.Phase.write l port)
      (hcommit : job.write.commit s.db fresh l port = Except.error e) :
      Moves s (Action.tunnel (Interleaved.Action.commit r fresh)) { s with
        tunnels := s.tunnels.setJob r { job with phase := Interleaved.Phase.finished }
        past := s.past ++ [s.db] }
  | commitRequest {r fresh : Nat} {job : Interleaved.Job} {l : Interleaved.Loaded}
      {port : Option (Option Int)} {db : Db} (hjob : s.tunnels.jobs r = some job)
      (hphase : job.phase = Interleaved.Phase.write l port)
      (hfresh : s.db.tunnel? fresh = none)
      (hcommit : job.write.commit s.db fresh l port = Except.ok db) :
      Moves s (Action.tunnel (Interleaved.Action.commit r fresh)) { s with
        tunnels := { s.tunnels.setJob r { job with phase := Interleaved.Phase.finished } with
          db := db }
        past := s.past ++ [s.db] }
  | deleteTunnel {r : Nat} {user : User} {tunnelId : Nat} :
      Moves s (Action.deleteTunnel r user tunnelId) (s.setJob r (Phase.tunnel user tunnelId))
  | updateTeam {r : Nat} {user : User} {teamId : Nat} {fields : TeamFields} :
      Moves s (Action.updateTeam r user teamId fields)
        (s.setJob r (Phase.team user teamId fields))
  | poll {r : Nat} {answer : Option (List StatsEntry)} :
      Moves s (Action.poll r answer) (s.setJob r (Phase.tunnels answer))
  | fail {r : Nat} {phase : Phase} (hjob : s.jobs r = some phase) :
      Moves s (Action.read r) (s.setJob r Phase.finished)
  | read {r : Nat} {phase next : Phase} (hjob : s.jobs r = some phase)
      (hwrites : ¬ phase.writes = true) (hread : phase.read pl s.db = Except.ok next) :
      Moves s (Action.read r) (s.setJob r next)
  | refuse {r : Nat} {phase : Phase} {e : Error} (hjob : s.jobs r = some phase)
      (hcommit : phase.commit s.db = Except.error e) :
      Moves s (Action.commit r) (s.setJob r Phase.finished)
  | commit {r : Nat} {phase next : Phase} {db : Db} (hjob : s.jobs r = some phase)
      (hcommit : phase.commit s.db = Except.ok (db, next)) :
      Moves s (Action.commit r) ((s.committed db).setJob r next)

variable {pl st node}

theorem tunnel_moves {s t : State} {action : Interleaved.Action}
    (h : step pl st node s (Action.tunnel action) = some t) :
    Moves pl st node s (Action.tunnel action) t := by
  cases htunnels : Interleaved.step pl st node s.tunnels action with
  | none => simp [step, htunnels] at h
  | some tunnels =>
      simp only [step, htunnels] at h
      rcases Interleaved.step_cases htunnels with ⟨r, user, w, rfl, rfl⟩ |
        ⟨r, job, rfl, hjob, rfl⟩ | ⟨r, fresh, job, l, port, rfl, hjob, hphase, hfresh, hcommit⟩
      · cases h
        exact Moves.request
      · cases h
        unfold Interleaved.State.read
        split
        · exact Moves.failRequest hjob
        · rename_i phase hread
          exact Moves.readRequest hjob hread
      · cases h
        rcases hcommit with ⟨e, hcommit, rfl⟩ | ⟨db, hcommit, rfl⟩
        · exact Moves.refuseRequest hjob hphase hcommit
        · exact Moves.commitRequest hjob hphase hfresh hcommit

theorem step_moves {s t : State} {a : Action} (h : step pl st node s a = some t) :
    Moves pl st node s a t := by
  cases a with
  | tunnel action => exact tunnel_moves h
  | deleteTunnel r user tunnelId =>
      simp only [step, Option.ite_none_right_eq_some] at h
      rcases h with ⟨-, h⟩
      cases h
      exact Moves.deleteTunnel
  | updateTeam r user teamId fields =>
      simp only [step, Option.ite_none_right_eq_some] at h
      rcases h with ⟨-, h⟩
      cases h
      exact Moves.updateTeam
  | poll r answer =>
      simp only [step, Option.ite_none_right_eq_some] at h
      rcases h with ⟨-, h⟩
      cases h
      exact Moves.poll
  | read r =>
      cases hjob : s.jobs r with
      | none => simp [step, hjob] at h
      | some phase =>
          simp only [step, hjob, Option.ite_none_left_eq_some, not_or] at h
          rcases h with ⟨⟨hwrites, -⟩, h⟩
          split at h
          · cases h
            exact Moves.fail hjob
          · rename_i next hread
            cases h
            exact Moves.read hjob hwrites hread
  | commit r =>
      cases hjob : s.jobs r with
      | none => simp [step, hjob] at h
      | some phase =>
          simp only [step, hjob, Option.ite_none_right_eq_some] at h
          rcases h with ⟨-, h⟩
          split at h
          · rename_i e hcommit
            cases h
            exact Moves.refuse hjob hcommit
          · rename_i db next hcommit
            cases h
            exact Moves.commit hjob hcommit

end Moves

end Operations

end Api

end Panel
end RcTunnel
