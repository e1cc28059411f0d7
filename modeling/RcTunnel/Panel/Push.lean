import RcTunnel.Panel.Generation

/-!
# Pushing configurations

Whatever changes the configuration of an agent notifies it after its commit, and a
notification is a task that builds the configuration anew and sends it on the session that
is registered for the agent.  A request may be between its commit and its notification, a
task may wait, and the event loop may be between two reads of a configuration, while others
commit.

The main result says that nothing gets lost in between: an agent that no request is about to
notify, and no task, has been sent its current tunnels last.
-/

namespace RcTunnel
namespace Panel

open Foundation

namespace Api

namespace Push

open Operations (view loaded offered sends relabels Fits Steady)

/-!
# Requests, tasks and sessions
-/

/-- Whom a request notifies when it has committed. -/
inductive Debt where
  | agent (agentId : Nat)
  /-- the agents that are found in these teams -/
  | teams (ids : List Nat)
deriving DecidableEq, Repr

/-- A control session. -/
structure Session where
  agentId : Nat
  isOpen : Bool
  /-- history: the generation and the tunnels of the configurations that were sent -/
  sent : List (Nat × List Payload)
deriving DecidableEq, Repr

structure State where
  ops : Operations.State
  debts : List Debt
  /-- the tasks of the event loop, each with its agent -/
  tasks : List Nat
  /-- {lit}`_conns` -/
  conns : Nat -> Option Nat
  sessions : Nat -> Option Session
  /-- the sessions that are registered and were not pushed the initial configuration -/
  handlers : List Nat
  /-- the session that the event loop is building a configuration for -/
  building : Option (Nat × Build)

inductive Action where
  | operate (action : Operations.Action)
  /-- the request of a debt calls {lit}`notify` -/
  | notify (i : Nat)
  /-- a task starts -/
  | push (i : Nat)
  | connect (c agentId : Nat)
  /-- {lit}`_handle` starts to push the initial configuration -/
  | greet (i : Nat)
  /-- the next read of {lit}`build_config`; after the last one the configuration is sent -/
  | read
  /-- the connection is lost; what is sent now is lost with it -/
  | drop (c : Nat)
  | disconnect (c : Nat)
deriving DecidableEq, Repr

/-- What {lit}`update_team` compares to decide whether to notify. -/
def changesTeam (loaded : Team) (change : Operations.TeamChange) (suspended : Bool) : Bool :=
  loaded.suspended ≠ suspended || Operations.relabels loaded change

def debtOfPhase : Operations.Phase -> List Debt
  | Operations.Phase.delete _ a => [Debt.agent a.id]
  | Operations.Phase.update loaded change suspended _ =>
      if changesTeam loaded change suspended then [Debt.teams [loaded.id]] else []
  | Operations.Phase.flip flipped => [Debt.teams (flipped.map Prod.fst)]
  | _ => []

def debtOfJob (job : Interleaved.Job) : List Debt :=
  match job.phase with
  | Interleaved.Phase.write l _ => [Debt.agent l.agent.id]
  | _ => []

/-- The request of a step owes a notification, if the step is a commit that succeeds. -/
def debtOf (s : Operations.State) : Operations.Action -> List Debt
  | Operations.Action.tunnel (Interleaved.Action.commit r fresh) =>
      match s.tunnels.jobs r with
      | none => []
      | some job =>
          match job.phase with
          | Interleaved.Phase.write l port =>
              match job.write.commit s.db fresh l port with
              | Except.error _ => []
              | Except.ok _ => debtOfJob job
          | _ => []
  | Operations.Action.commit r =>
      match s.jobs r with
      | none => []
      | some phase =>
          match phase.commit s.db with
          | Except.error _ => []
          | Except.ok _ => debtOfPhase phase
  | _ => []

def recipients (db : Db) : Debt -> List Nat
  | Debt.agent agentId => [agentId]
  | Debt.teams ids => (db.agents.filter fun a => a.teamId.any ids.contains).map Agent.id

def State.setSession (s : State) (c : Nat) (session : Session) : State :=
  { s with sessions := Function.update s.sessions c (some session) }

section Steps

variable (pl : Platform) (st : Settings) (node : Nat -> Nat)

/-- {lit}`send`; a session that is not open any more does not get it. -/
def Session.send (session : Session) (config : Nat × List Payload) : Session :=
  if session.isOpen then { session with sent := session.sent ++ [config] } else session

def State.send (s : State) (c : Nat) (config : Nat × List Payload) : State :=
  match s.sessions c with
  | none => s
  | some session => s.setSession c (session.send config)

/-- {lit}`push`, up to its first read. -/
def State.push (s : State) (agentId : Nat) : State :=
  match s.conns agentId with
  | none => s
  | some c => { s with building := some (c, Build.agent agentId) }

def State.read (s : State) (c : Nat) (build : Build) : State :=
  match build.read s.ops.db with
  | Build.Next.gone => { s with building := none }
  | Build.Next.reads next => { s with building := some (c, next) }
  | Build.Next.built a rows found =>
      State.send { s with building := none } c (a.generation, sentOf st rows found)

/-- The steps of the event loop wait while it is building a configuration. -/
def step (s : State) : Action -> Option State
  | Action.operate action =>
      match Operations.step pl st node s.ops action with
      | none => none
      | some ops => some { s with ops := ops, debts := s.debts ++ debtOf s.ops action }
  | Action.notify i =>
      match s.debts[i]? with
      | none => none
      | some debt =>
          some { s with
            debts := s.debts.eraseIdx i
            tasks := s.tasks ++ recipients s.ops.db debt }
  | Action.push i =>
      match s.building, s.tasks[i]? with
      | none, some agentId => some (State.push { s with tasks := s.tasks.eraseIdx i } agentId)
      | _, _ => none
  | Action.connect c agentId =>
      if s.building = none ∧ s.sessions c = none ∧ s.ops.db.agent? agentId ≠ none then
        some { s.setSession c ⟨agentId, true, []⟩ with
          conns := Function.update s.conns agentId (some c)
          handlers := s.handlers ++ [c] }
      else
        none
  | Action.greet i =>
      match s.building, s.handlers[i]? with
      | none, some c =>
          match s.sessions c with
          | none => none
          | some session =>
              some (State.push { s with handlers := s.handlers.eraseIdx i } session.agentId)
      | _, _ => none
  | Action.read =>
      match s.building with
      | none => none
      | some (c, build) => some (s.read st c build)
  | Action.drop c =>
      match s.sessions c with
      | none => none
      | some session => some (s.setSession c { session with isOpen := false })
  | Action.disconnect c =>
      match s.building, s.sessions c with
      | none, some session =>
          some { s with
            sessions := Function.update s.sessions c none
            handlers := s.handlers.filter (· ≠ c)
            conns :=
              if s.conns session.agentId = some c then
                Function.update s.conns session.agentId none
              else s.conns }
      | _, _ => none

/-- The number of a row tells whose it is. -/
structure Keyed (db : Db) : Prop where
  tunnels : forall t u, t ∈ db.tunnels -> u ∈ db.tunnels -> t.id = u.id -> t.agentId = u.agentId
  agents : forall a b, a ∈ db.agents -> b ∈ db.agents -> a.id = b.id -> a.teamId = b.teamId

/-- Nobody is connected, and nothing is being asked. -/
structure Idle (s : State) : Prop where
  ops : Operations.Idle s.ops
  keyed : Keyed s.ops.db
  debts : s.debts = []
  tasks : s.tasks = []
  conns : forall agentId, s.conns agentId = none
  sessions : forall c, s.sessions c = none
  handlers : s.handlers = []
  building : s.building = none

def machine : Machine State Action where
  init := Idle
  step := step pl st node

end Steps

/-!
# What a notification has to cover
-/

/-- The team that an agent is in. -/
def team (db : Db) (agentId : Nat) : Option Nat := (db.agent? agentId).bind Agent.teamId

/-- The debt is owed to the agent. -/
def Debt.Covers (db : Db) (agentId : Nat) : Debt -> Prop
  | Debt.agent other => other = agentId
  | Debt.teams ids => exists id, id ∈ ids ∧ team db agentId = some id

def Covered (db : Db) (debts : List Debt) (agentId : Nat) : Prop :=
  exists debt, debt ∈ debts ∧ debt.Covers db agentId

/-- The agent has been sent its current tunnels last, on the session that is registered. -/
def Current (st : Settings) (s : State) (agentId : Nat) : Prop :=
  forall c session config, s.conns agentId = some c -> s.sessions c = some session ->
    session.isOpen = true -> view st s.ops.db agentId = some config ->
    session.sent.getLast? = some config

/-- Somebody is about to push the configuration of the agent. -/
def Awaited (s : State) (agentId : Nat) : Prop :=
  Covered s.ops.db s.debts agentId ∨ agentId ∈ s.tasks ∨
    exists c, s.conns agentId = some c ∧ c ∈ s.handlers

/-- It is being built. -/
def UnderWay (s : State) (agentId : Nat) : Prop :=
  exists c build, s.building = some (c, build) ∧ build.agentId = agentId

/-- A debt is paid to those whom it covers. -/
theorem mem_recipients {db : Db} {agentId : Nat} {debt : Debt} (h : debt.Covers db agentId) :
    agentId ∈ recipients db debt := by
  cases debt with
  | agent other =>
      cases h
      exact List.mem_singleton_self _
  | teams ids =>
      rcases h with ⟨id, hid, hteam⟩
      rcases Option.bind_eq_some_iff.mp hteam with ⟨a, ha, hteamId⟩
      apply List.mem_map.mpr
      refine ⟨a, List.mem_filter.mpr ⟨List.mem_of_find?_eq_some ha, ?_⟩, key_of_find ha⟩
      simp [hteamId, hid]

theorem covers_congr {db db' : Db} {agentId : Nat} {debt : Debt}
    (hteam : team db' agentId = team db agentId) (h : debt.Covers db agentId) :
    debt.Covers db' agentId := by
  cases debt with
  | agent other => exact h
  | teams ids =>
      rcases h with ⟨id, hid, hin⟩
      exact ⟨id, hid, hteam.trans hin⟩

/-!
# Every commit
-/

/-- The tunnel is still the agent's that it was when it was loaded. -/
def Owned (db : Db) (t : Tunnel) : Prop :=
  forall u, u ∈ db.tunnels -> u.id = t.id -> u.agentId = t.agentId

/-- What a deletion of a tunnel, or an update of a team, knows of the rows that it holds. -/
def PhaseOwns (db : Db) : Operations.Phase -> Prop
  | Operations.Phase.owner _ t => Owned db t
  | Operations.Phase.delete t a => Owned db t ∧ a.id = t.agentId
  | Operations.Phase.agents loaded change _ => relabels loaded change = true
  | Operations.Phase.update loaded change _ rows =>
      (relabels loaded change = false -> rows = []) ∧
        forall a, a ∈ rows -> team db a.id = some loaded.id
  | _ => True

section Commits

variable {pl : Platform} {st : Settings} {db db' : Db} {x : Nat}

theorem view_of_agent {f : Agent -> Agent} (hagent : db'.agent? x = (db.agent? x).map f)
    (hkeep : forall a, db.agent? x = some a ->
      (f a).generation = a.generation ∧ sends st db' (f a) = sends st db a) :
    view st db' x = view st db x := by
  unfold view
  rw [hagent]
  cases ha : db.agent? x with
  | none => rfl
  | some a =>
      rcases hkeep a ha with ⟨hgeneration, hsends⟩
      rw [Option.map_some, Option.map_some, Option.map_some, hgeneration, hsends]

theorem team_of_agent {f : Agent -> Agent} (hagent : db'.agent? x = (db.agent? x).map f)
    (hf : forall a, (f a).teamId = a.teamId) : team db' x = team db x := by
  unfold team
  rw [hagent]
  cases db.agent? x with
  | none => rfl
  | some a => exact hf a

theorem team_bumpLoaded (a : Agent) (db : Db) (tunnels : List Tunnel) (x : Nat) :
    team { db with agents := Interleaved.bumpLoaded a db.agents, tunnels := tunnels } x =
      team db x := by
  apply team_of_agent (Operations.agent_bumpLoaded a db tunnels x)
  intro b
  split <;> rfl

/-- An agent is sent the same if neither its rows nor the teams change. -/
theorem view_of_steady (hsteady : Steady db db' x) (hteams : db'.teams = db.teams) :
    view st db' x = view st db x := by
  unfold view
  rw [hsteady.left]
  cases ha : db.agent? x with
  | none => rfl
  | some a =>
      have hid : a.id = x := key_of_find ha
      have hteam : db'.teamOf a = db.teamOf a := by
        unfold Db.teamOf Db.team?
        rw [hteams]
      have hoffered : offered db' a.id = offered db a.id := by
        rw [hid]
        exact hsteady.right
      rw [Option.map_some, Option.map_some, Operations.sends_congr rfl hoffered hteam]

theorem steady_write {w : Interleaved.Write} {fresh : Nat} {l : Interleaved.Loaded}
    {port : Option (Option Int)} (hcommit : w.commit db fresh l port = Except.ok db')
    (hcreate : forall agentId body, w = Interleaved.Write.create agentId body ->
      l.agent.id = agentId)
    (hupdate : forall tunnelId t, w.own = some tunnelId -> l.tunnel = some t ->
      t.id = tunnelId ∧ Owned db t ∧ l.agent.id = t.agentId) (hx : x ≠ l.agent.id) :
    Steady db db' x := by
  apply Operations.steady_commit hcommit hcreate _ hx
  intro tunnelId hown u hu hid
  cases w with
  | create agentId body => cases hown
  | update other fields =>
      simp only [Interleaved.Write.commit, bind_ok, found_ok, pure_ok] at hcommit
      rcases hcommit with ⟨_, -, t, ht, -⟩
      rcases hupdate tunnelId t hown ht with ⟨htunnel, howned, hagent⟩
      exact (howned u hu (hid.trans htunnel.symm)).trans hagent.symm

theorem rows_commit {w : Interleaved.Write} {fresh : Nat} {l : Interleaved.Loaded}
    {port : Option (Option Int)} (hcommit : w.commit db fresh l port = Except.ok db') :
    db'.teams = db.teams ∧ forall x, team db' x = team db x := by
  cases w with
  | create agentId body =>
      simp only [Interleaved.Write.commit, bind_ok, pure_ok] at hcommit
      rcases hcommit with ⟨_, -, rfl⟩
      exact ⟨rfl, fun x => team_bumpLoaded _ _ _ x⟩
  | update tunnelId fields =>
      simp only [Interleaved.Write.commit, bind_ok, pure_ok] at hcommit
      rcases hcommit with ⟨_, -, _, -, _, -, rfl⟩
      exact ⟨rfl, fun x => team_bumpLoaded _ _ _ x⟩

/-- A change of teams that keeps what the agent is sent. -/
theorem view_teams {g : Team -> Team} {rows : List Agent} (hid : forall t, (g t).id = t.id)
    (hrows : forall a, a ∈ rows -> a.id ≠ x)
    (hkeeps : forall b, db.agent? x = some b -> Operations.KeepsTeam db g b) :
    view st { db with teams := db.teams.map g, agents := Operations.bumpAll rows db.agents } x =
      view st db x := by
  apply view_of_agent (f := Operations.bumpedFrom rows)
  · exact Operations.agent_bumpAll rows db _ x
  · intro b hb
    have hnone : (rows.find? fun a => decide (a.id = b.id)) = none := by
      rw [List.find?_eq_none]
      intro a ha
      rw [key_of_find hb]
      simpa using hrows a ha
    rw [Operations.bumpedFrom, hnone]
    exact ⟨rfl, Operations.sends_keepsTeam hid (hkeeps b hb)⟩

theorem team_bumpAll (db : Db) (teams : List Team) (rows : List Agent) (x : Nat) :
    team { db with teams := teams, agents := Operations.bumpAll rows db.agents } x =
      team db x := by
  apply team_of_agent (f := Operations.bumpedFrom rows)
  · exact Operations.agent_bumpAll rows db teams x
  · intro b
    unfold Operations.bumpedFrom
    split <;> rfl

theorem team_of_teamOf {b : Agent} {t : Team} (hb : db.agent? x = some b)
    (ht : db.teamOf b = some t) : team db x = some t.id := by
  rw [team, hb]
  exact Operations.teamOf_id ht

/-- An agent that is not going to be notified keeps its generation. -/
theorem not_bumped {phase : Operations.Phase} (howns : PhaseOwns db phase)
    (hx : ¬ Covered db (debtOfPhase phase) x) : x ∉ phase.bumps := by
  cases phase with
  | delete t a =>
      intro hmem
      exact hx ⟨_, List.mem_singleton_self _, (List.mem_singleton.mp hmem).symm⟩
  | update loaded change suspended rows =>
      intro hmem
      rcases List.mem_map.mp hmem with ⟨a, ha, rfl⟩
      cases hlabel : relabels loaded change with
      | true =>
          apply hx
          rw [debtOfPhase, if_pos (by simp [changesTeam, hlabel])]
          exact ⟨_, List.mem_singleton_self _, loaded.id, List.mem_singleton_self _,
            howns.right a ha⟩
      | false =>
          rw [howns.left hlabel] at ha
          cases ha
  | _ => exact List.not_mem_nil

theorem ownsTunnel_of_owns {phase : Operations.Phase} (howns : PhaseOwns db phase) :
    phase.OwnsTunnel db := by
  cases phase with
  | delete t a =>
      intro u hu hid
      rw [howns.right]
      exact howns.left u hu hid
  | _ => trivial

theorem view_update {loaded : Team} {change : Operations.TeamChange} {suspended : Bool}
    {rows : List Agent}
    (howns : PhaseOwns db (Operations.Phase.update loaded change suspended rows))
    (hx : ¬ Covered db (debtOfPhase (Operations.Phase.update loaded change suspended rows)) x) :
    view st { db with
        teams := rewriteRow Team.id loaded.id (Operations.Team.updated loaded change suspended)
          db.teams
        agents := Operations.bumpAll rows db.agents } x = view st db x := by
  have hother : changesTeam loaded change suspended = true -> team db x ≠ some loaded.id := by
    intro hchanges hteam
    apply hx
    rw [debtOfPhase, if_pos hchanges]
    exact ⟨_, List.mem_singleton_self _, loaded.id, List.mem_singleton_self _, hteam⟩
  apply view_teams
  · intro t
    split <;> rfl
  · intro a ha hid
    exact not_bumped howns hx (List.mem_map.mpr ⟨a, ha, hid⟩)
  · intro b hb t ht
    have hteam := team_of_teamOf hb ht
    beta_reduce
    by_cases hid : t.id = loaded.id
    · rw [if_pos hid]
      rw [hid] at hteam
      have hsame : changesTeam loaded change suspended = false := by
        cases hchanges : changesTeam loaded change suspended with
        | false => rfl
        | true => exact absurd hteam (hother hchanges)
      simp only [changesTeam, Bool.or_eq_false_iff, decide_eq_false_iff_not, not_not] at hsame
      refine ⟨Operations.label_kept hsame.right, Or.inl ?_⟩
      rcases Operations.suspended_kept with hkept | ⟨hwritten, -⟩
      · exact hkept
      · exact absurd hsame.left.symm hwritten
    · rw [if_neg hid]
      exact ⟨rfl, Or.inl rfl⟩

theorem view_flip {flipped : List (Nat × Bool)}
    (hx : ¬ Covered db (debtOfPhase (Operations.Phase.flip flipped)) x) :
    view st { db with
        teams := db.teams.map fun t =>
          match flipped.find? fun f => f.1 = t.id with
          | none => t
          | some f => { t with suspended := f.2 } } x = view st db x := by
  rw [← Operations.bumpAll_nil db.agents]
  apply view_teams
  · intro t
    split <;> rfl
  · intro a ha
    cases ha
  · intro b hb t ht
    have hteam := team_of_teamOf hb ht
    beta_reduce
    split
    · exact ⟨rfl, Or.inl rfl⟩
    · rename_i f hf
      have hid : f.1 = t.id := key_of_find hf
      have hmem : t.id ∈ flipped.map Prod.fst := by
        rw [← hid]
        exact List.mem_map_of_mem (List.mem_of_find?_eq_some hf)
      exact absurd ⟨_, List.mem_singleton_self _, t.id, hmem, hteam⟩ hx

/-- A commit changes what the agents are sent that its request is going to notify. -/
theorem view_phase {phase next : Operations.Phase} (howns : PhaseOwns db phase)
    (hcommit : phase.commit db = Except.ok (db', next)) :
    (forall x, ¬ Covered db (debtOfPhase phase) x ->
        Steady db db' x ∧ view st db' x = view st db x) ∧
      forall x, team db' x = team db x := by
  have hsteady : forall x, ¬ Covered db (debtOfPhase phase) x -> Steady db db' x := by
    intro x hx
    exact Operations.steady_phase (ownsTunnel_of_owns howns) hcommit (not_bumped howns hx)
  cases phase with
  | delete t a =>
      cases hcommit
      refine ⟨fun x hx => ⟨hsteady x hx, view_of_steady (hsteady x hx) rfl⟩, fun x => ?_⟩
      exact team_bumpLoaded _ _ _ x
  | update loaded change suspended rows =>
      simp only [Operations.Phase.commit, bind_ok, pure_ok, Prod.mk.injEq] at hcommit
      rcases hcommit with ⟨_, -, _, -, _, -, rfl, -⟩
      exact ⟨fun x hx => ⟨hsteady x hx, view_update howns hx⟩, fun x => team_bumpAll _ _ _ x⟩
  | count rows =>
      simp only [Operations.Phase.commit, bind_ok, pure_ok, Prod.mk.injEq] at hcommit
      rcases hcommit with ⟨_, -, rfl, -⟩
      exact ⟨fun x hx => ⟨hsteady x hx, view_of_steady (hsteady x hx) rfl⟩, fun x => rfl⟩
  | flip flipped =>
      simp only [Operations.Phase.commit, bind_ok, pure_ok, Prod.mk.injEq] at hcommit
      rcases hcommit with ⟨_, -, rfl, -⟩
      exact ⟨fun x hx => ⟨hsteady x hx, view_flip hx⟩, fun x => rfl⟩
  | _ => cases hcommit

end Commits

/-!
# What a request holds when it commits
-/

/-- The tunnel that a request to update one has loaded. -/
def held : Interleaved.Phase -> Option Tunnel
  | Interleaved.Phase.agent t => t
  | phase => (loaded phase).bind Interleaved.Loaded.tunnel

structure JobOwns (db : Db) (job : Interleaved.Job) : Prop where
  creates : Operations.LoadsOwner job
  updates : forall tunnelId fields, job.write = Interleaved.Write.update tunnelId fields ->
    forall t, held job.phase = some t -> t.id = tunnelId ∧ Owned db t
  agent : forall tunnelId fields, job.write = Interleaved.Write.update tunnelId fields ->
    forall l t, loaded job.phase = some l -> l.tunnel = some t -> l.agent.id = t.agentId

/-- The tunnel that a deletion has loaded. -/
def heldByPhase : Operations.Phase -> Option Tunnel
  | Operations.Phase.owner _ t => some t
  | Operations.Phase.delete t _ => some t
  | _ => none

/-- No number of a tunnel is given again while a request holds the tunnel that had it. -/
def NewNumber (s : State) : Action -> Prop
  | Action.operate (Operations.Action.tunnel (Interleaved.Action.commit _ fresh)) =>
      (forall r job, s.ops.tunnels.jobs r = some job -> forall t, held job.phase = some t ->
        t.id ≠ fresh) ∧
      forall r phase, s.ops.jobs r = some phase -> forall t, heldByPhase phase = some t ->
        t.id ≠ fresh
  | _ => True

section Requests

variable {pl : Platform} {st : Settings} {node : Nat -> Nat} {db db' : Db}

theorem jobOwns_start (user : User) (w : Interleaved.Write) :
    JobOwns db (Interleaved.start user w) := by
  constructor
  · intro agentId body hwrite l hl
    cases w <;> cases hl
  · intro tunnelId fields hwrite t ht
    cases w <;> cases ht
  · intro tunnelId fields hwrite l t hl
    cases w <;> cases hl

theorem jobOwns_finished (job : Interleaved.Job) :
    JobOwns db { job with phase := Interleaved.Phase.finished } := by
  constructor
  · exact Operations.loadsOwner_finished job
  · intro tunnelId fields _ t ht
    cases ht
  · intro tunnelId fields _ l t hl
    cases hl

theorem JobOwns.remember {job : Interleaved.Job} (h : JobOwns db job) (seen : Interleaved.Seen) :
    JobOwns db { job with seen := seen } := ⟨h.creates, h.updates, h.agent⟩

theorem owned_of_mem (h : Keyed db) {t : Tunnel} (ht : t ∈ db.tunnels) : Owned db t := by
  intro u hu hid
  exact h.tunnels u t hu ht hid

theorem team_of_mem (h : Keyed db) {a : Agent} (ha : a ∈ db.agents) :
    team db a.id = a.teamId := by
  cases hfound : db.agent? a.id with
  | none =>
      have hnot := List.find?_eq_none.mp hfound a ha
      simp at hnot
  | some b =>
      rw [team, hfound]
      exact h.agents b a (List.mem_of_find?_eq_some hfound) ha (key_of_find hfound)

theorem jobOwns_read {job : Interleaved.Job} {phase : Interleaved.Phase} (h : JobOwns db job)
    (hkeyed : Keyed db) (hread : job.read pl st node db = Except.ok phase) :
    JobOwns db { job with phase := phase } := by
  have hupdates : forall tunnelId fields,
      job.write = Interleaved.Write.update tunnelId fields ->
        (forall t, held phase = some t -> t.id = tunnelId ∧ Owned db t) ∧
          forall l t, loaded phase = some l -> l.tunnel = some t -> l.agent.id = t.agentId := by
    intro tunnelId fields hwrite
    have hheld := h.updates tunnelId fields hwrite
    have hagent := h.agent tunnelId fields hwrite
    unfold Interleaved.Job.read at hread
    rw [hwrite] at hread
    simp only at hread
    cases hphase : job.phase with
    | tunnel =>
        rw [hphase] at hread
        simp only [Interleaved.readUpdate, bind_ok, found_ok, pure_ok] at hread
        rcases hread with ⟨t, ht, rfl⟩
        constructor
        · intro u hu
          cases hu
          exact ⟨key_of_find ht, owned_of_mem hkeyed (List.mem_of_find?_eq_some ht)⟩
        · intro l u hl
          cases hl
    | agent t =>
        cases t with
        | none =>
            rw [hphase] at hread hheld hagent
            cases hread
            exact ⟨hheld, hagent⟩
        | some t =>
            rw [hphase] at hread hheld
            simp only [Interleaved.readUpdate, bind_ok, found_ok, pure_ok] at hread
            rcases hread with ⟨a, ha, _, -, _, -, _, -, rfl⟩
            constructor
            · exact hheld
            · intro l u hl hu
              cases hl
              cases hu
              exact key_of_find ha
    | team l | subdomain l =>
        rw [hphase] at hread hheld hagent
        simp only [Interleaved.readUpdate, bind_ok, pure_ok] at hread
        rcases hread with ⟨_, -, rfl⟩
        exact ⟨hheld, hagent⟩
    | port l =>
        rcases l with ⟨a, t⟩
        cases t with
        | none =>
            rw [hphase] at hread hheld hagent
            cases hread
            exact ⟨hheld, hagent⟩
        | some t =>
            rw [hphase] at hread hheld hagent
            simp only [Interleaved.readUpdate, bind_ok, pure_ok] at hread
            rcases hread with ⟨_, -, rfl⟩
            exact ⟨hheld, hagent⟩
    | _ =>
        rw [hphase] at hread hheld hagent
        cases hread
        exact ⟨hheld, hagent⟩
  constructor
  · exact Operations.loadsOwner_read h.creates hread
  · intro tunnelId fields hwrite
    exact (hupdates tunnelId fields hwrite).left
  · intro tunnelId fields hwrite
    exact (hupdates tunnelId fields hwrite).right

theorem phaseOwns_read {phase next : Operations.Phase} (h : PhaseOwns db phase)
    (hkeyed : Keyed db)
    (hread : phase.read pl db = Except.ok next) : PhaseOwns db next := by
  cases phase with
  | tunnel user tunnelId =>
      simp only [Operations.Phase.read, bind_ok, found_ok, pure_ok] at hread
      rcases hread with ⟨t, ht, rfl⟩
      exact owned_of_mem hkeyed (List.mem_of_find?_eq_some ht)
  | owner user t =>
      simp only [Operations.Phase.read, bind_ok, found_ok, pure_ok] at hread
      rcases hread with ⟨a, ha, _, -, rfl⟩
      exact ⟨h, key_of_find ha⟩
  | agents loaded change suspended =>
      cases hread
      constructor
      · intro hlabel
        rw [show relabels loaded change = true from h] at hlabel
        cases hlabel
      · intro a ha
        rcases List.mem_filter.mp ha with ⟨hmem, hteam⟩
        rw [team_of_mem hkeyed hmem]
        exact of_decide_eq_true hteam
  | usage loaded change =>
      simp only [Operations.Phase.read] at hread
      split at hread
      · rename_i hlabel
        cases hread
        exact hlabel
      · rename_i hlabel
        cases hread
        exact ⟨fun _ => rfl, fun a ha => absurd ha List.not_mem_nil⟩
  | team user teamId fields =>
      simp only [Operations.Phase.read, bind_ok, pure_ok] at hread
      rcases hread with ⟨_, -, _, -, _, -, rfl⟩
      trivial
  | name loaded fields =>
      simp only [Operations.Phase.read, bind_ok, pure_ok] at hread
      rcases hread with ⟨_, -, rfl⟩
      trivial
  | label loaded name fields =>
      simp only [Operations.Phase.read, bind_ok, pure_ok] at hread
      rcases hread with ⟨_, -, rfl⟩
      trivial
  | usages todo flipped =>
      cases todo <;> cases hread <;> trivial
  | delete t a => cases hread; exact h
  | update loaded change suspended rows => cases hread; exact h
  | tunnels answer => cases hread; trivial
  | count rows => cases hread; trivial
  | teams => cases hread; trivial
  | flip flipped => cases hread; trivial
  | finished => cases hread; trivial

/-!
The rows after a commit are those before, but for a tunnel that was created.
-/

structure SameRows (db db' : Db) : Prop where
  tunnels : forall u', u' ∈ db'.tunnels ->
    exists u, u ∈ db.tunnels ∧ u.id = u'.id ∧ u.agentId = u'.agentId
  agents : Operations.SameAgents db db'

theorem SameRows.owned (h : SameRows db db') {t : Tunnel} (ht : Owned db t) : Owned db' t := by
  intro u' hu' hid
  rcases h.tunnels u' hu' with ⟨u, hu, huid, hagent⟩
  rw [← hagent]
  exact ht u hu (huid.trans hid)

theorem keyed_agents (h : Keyed db) (hsame : Operations.SameAgents db db') :
    forall a b, a ∈ db'.agents -> b ∈ db'.agents -> a.id = b.id -> a.teamId = b.teamId := by
  intro a' b' ha' hb' hid
  rcases hsame a' ha' with ⟨a, ha, haid, hateam⟩
  rcases hsame b' hb' with ⟨b, hb, hbid, hbteam⟩
  rw [← hateam, ← hbteam]
  exact h.agents a b ha hb (by rw [haid, hbid, hid])

theorem SameRows.keyed (h : SameRows db db') (hkeyed : Keyed db) : Keyed db' where
  tunnels t' u' ht' hu' hid := by
    rcases h.tunnels t' ht' with ⟨t, ht, htid, htagent⟩
    rcases h.tunnels u' hu' with ⟨u, hu, huid, huagent⟩
    rw [← htagent, ← huagent]
    exact hkeyed.tunnels t u ht hu (by rw [htid, huid, hid])
  agents := keyed_agents hkeyed h.agents

theorem sameRows_phase {phase next : Operations.Phase}
    (hcommit : phase.commit db = Except.ok (db', next)) : SameRows db db' := by
  have hagents := Operations.sameAgents_phase hcommit
  cases phase with
  | delete t a =>
      cases hcommit
      refine ⟨fun u hu => ?_, hagents⟩
      exact ⟨u, (List.mem_filter.mp hu).left, rfl, rfl⟩
  | update loaded change suspended rows =>
      simp only [Operations.Phase.commit, bind_ok, pure_ok, Prod.mk.injEq] at hcommit
      rcases hcommit with ⟨_, -, _, -, _, -, rfl, -⟩
      exact ⟨fun u hu => ⟨u, hu, rfl, rfl⟩, hagents⟩
  | count rows =>
      simp only [Operations.Phase.commit, bind_ok, pure_ok, Prod.mk.injEq] at hcommit
      rcases hcommit with ⟨_, -, rfl, -⟩
      refine ⟨fun u' hu' => ?_, hagents⟩
      rcases List.mem_map.mp hu' with ⟨u, hu, rfl⟩
      refine ⟨u, hu, ?_⟩
      split <;> exact ⟨rfl, rfl⟩
  | flip flipped =>
      simp only [Operations.Phase.commit, bind_ok, pure_ok, Prod.mk.injEq] at hcommit
      rcases hcommit with ⟨_, -, rfl, -⟩
      exact ⟨fun u hu => ⟨u, hu, rfl, rfl⟩, hagents⟩
  | _ => cases hcommit

theorem owned_commit {w : Interleaved.Write} {fresh : Nat} {l : Interleaved.Loaded}
    {port : Option (Option Int)} (hcommit : w.commit db fresh l port = Except.ok db')
    {t : Tunnel} (ht : Owned db t) (hid : t.id ≠ fresh) : Owned db' t := by
  cases w with
  | create agentId body =>
      simp only [Interleaved.Write.commit, bind_ok, pure_ok] at hcommit
      rcases hcommit with ⟨_, -, rfl⟩
      intro u hu huid
      rcases List.mem_append.mp hu with hold | hnew
      · exact ht u hold huid
      · cases List.mem_singleton.mp hnew
        exact absurd huid.symm hid
  | update tunnelId fields =>
      simp only [Interleaved.Write.commit, bind_ok, pure_ok] at hcommit
      rcases hcommit with ⟨_, -, _, -, _, -, rfl⟩
      intro u hu huid
      rcases mem_rewriteRow hu with ⟨old, hold, ⟨-, rfl⟩ | ⟨-, rfl⟩⟩
      · exact ht old hold huid
      · exact ht u hold huid

theorem keyed_commit {w : Interleaved.Write} {fresh : Nat} {l : Interleaved.Loaded}
    {port : Option (Option Int)} (hcommit : w.commit db fresh l port = Except.ok db')
    (hkeyed : Keyed db) (hfresh : db.tunnel? fresh = none) : Keyed db' := by
  have hagents := keyed_agents hkeyed (Operations.sameAgents_commit hcommit)
  refine ⟨?_, hagents⟩
  cases w with
  | create agentId body =>
      simp only [Interleaved.Write.commit, bind_ok, pure_ok] at hcommit
      rcases hcommit with ⟨_, -, rfl⟩
      have hnew : forall u, u ∈ db.tunnels -> u.id ≠ fresh := by
        intro u hu
        simpa using List.find?_eq_none.mp hfresh u hu
      intro t u ht hu hid
      rcases List.mem_append.mp ht with ht | ht <;> rcases List.mem_append.mp hu with hu | hu
      · exact hkeyed.tunnels t u ht hu hid
      · cases List.mem_singleton.mp hu
        exact absurd hid (hnew t ht)
      · cases List.mem_singleton.mp ht
        exact absurd hid.symm (hnew u hu)
      · cases List.mem_singleton.mp ht
        cases List.mem_singleton.mp hu
        rfl
  | update tunnelId fields =>
      simp only [Interleaved.Write.commit, bind_ok, pure_ok] at hcommit
      rcases hcommit with ⟨_, -, row, -, _, -, rfl⟩
      have howner : forall t, t ∈ rewriteRow Tunnel.id tunnelId
          (Interleaved.updated row fields port) db.tunnels ->
          exists old, old ∈ db.tunnels ∧ old.id = t.id ∧ old.agentId = t.agentId := by
        intro t ht
        rcases mem_rewriteRow ht with ⟨old, hold, ⟨-, rfl⟩ | ⟨-, rfl⟩⟩
        · exact ⟨old, hold, rfl, rfl⟩
        · exact ⟨t, hold, rfl, rfl⟩
      intro t' u' ht' hu' hid
      rcases howner t' ht' with ⟨t, ht, htid, htagent⟩
      rcases howner u' hu' with ⟨u, hu, huid, huagent⟩
      rw [← htagent, ← huagent]
      exact hkeyed.tunnels t u ht hu (by rw [htid, huid, hid])

theorem phaseOwns_committed {phase : Operations.Phase} (h : PhaseOwns db phase)
    (howned : forall t, heldByPhase phase = some t -> Owned db t -> Owned db' t)
    (hteam : forall x, team db' x = team db x) : PhaseOwns db' phase := by
  cases phase with
  | owner user t => exact howned t rfl h
  | delete t a => exact ⟨howned t rfl h.left, h.right⟩
  | update loaded change suspended rows =>
      refine ⟨h.left, fun a ha => ?_⟩
      rw [hteam]
      exact h.right a ha
  | agents loaded change suspended => exact h
  | _ => trivial

theorem phaseOwns_next {phase next : Operations.Phase}
    (hcommit : phase.commit db = Except.ok (db', next)) : PhaseOwns db' next := by
  cases phase with
  | delete t a =>
      cases hcommit
      trivial
  | update loaded change suspended rows =>
      simp only [Operations.Phase.commit, bind_ok, pure_ok, Prod.mk.injEq] at hcommit
      rcases hcommit with ⟨_, -, _, -, _, -, -, rfl⟩
      trivial
  | count rows =>
      simp only [Operations.Phase.commit, bind_ok, pure_ok, Prod.mk.injEq] at hcommit
      rcases hcommit with ⟨_, -, -, rfl⟩
      trivial
  | flip flipped =>
      simp only [Operations.Phase.commit, bind_ok, pure_ok, Prod.mk.injEq] at hcommit
      rcases hcommit with ⟨_, -, -, rfl⟩
      trivial
  | _ => cases hcommit

theorem JobOwns.committed {job : Interleaved.Job} (h : JobOwns db job)
    (howned : forall t, held job.phase = some t -> Owned db t -> Owned db' t) :
    JobOwns db' job where
  creates := h.creates
  updates tunnelId fields hwrite t ht :=
    ⟨(h.updates tunnelId fields hwrite t ht).left,
      howned t ht (h.updates tunnelId fields hwrite t ht).right⟩
  agent := h.agent

end Requests

/-!
# Every run
-/

structure Sound (s : State) : Prop where
  keyed : Keyed s.ops.db
  requests : forall r job, s.ops.tunnels.jobs r = some job -> JobOwns s.ops.db job
  jobs : forall r phase, s.ops.jobs r = some phase -> PhaseOwns s.ops.db phase
  registered : forall x c, s.conns x = some c ->
    exists session, s.sessions c = some session ∧ session.agentId = x
  handled : forall c, c ∈ s.handlers -> s.sessions c ≠ none

structure Inv (st : Settings) (s : State) : Prop extends Sound s where
  current : forall x, Current st s x ∨ Awaited s x ∨ UnderWay s x
  /-- what is being built has read what stands, or is going to be built again -/
  building : forall c build, s.building = some (c, build) ->
    s.conns build.agentId = some c ∧ (Fits s.ops.db build ∨ Awaited s build.agentId)

namespace Inv

variable {pl : Platform} {st : Settings} {node : Nat -> Nat} {s t : State}

theorem start (h : Idle s) : Inv st s where
  keyed := h.keyed
  requests r job hjob := by
    rw [h.ops.requests] at hjob
    cases hjob
  jobs r phase hphase := by
    rw [h.ops.jobs] at hphase
    cases hphase
  registered x c hc := by
    rw [h.conns] at hc
    cases hc
  handled c hc := by
    rw [h.handlers] at hc
    cases hc
  current x := by
    apply Or.inl
    intro c session config hc
    rw [h.conns] at hc
    cases hc
  building c build hbuilding := by
    rw [h.building] at hbuilding
    cases hbuilding

/-- What the agents see of a commit is what the new debts cover. -/
theorem committed (h : Inv st s) {ops : Operations.State} {debts : List Debt}
    (hkeyed : Keyed ops.db)
    (hrequests : forall r job, ops.tunnels.jobs r = some job -> JobOwns ops.db job)
    (hjobs : forall r phase, ops.jobs r = some phase -> PhaseOwns ops.db phase)
    (hview : forall x, ¬ Covered s.ops.db debts x ->
      Steady s.ops.db ops.db x ∧ view st ops.db x = view st s.ops.db x)
    (hteam : forall x, team ops.db x = team s.ops.db x) :
    Inv st { s with ops := ops, debts := s.debts ++ debts } := by
  have hnew : forall x, Covered s.ops.db debts x -> Covered ops.db (s.debts ++ debts) x := by
    rintro x ⟨debt, hmem, hcovers⟩
    exact ⟨debt, List.mem_append_right _ hmem, covers_congr (hteam x) hcovers⟩
  have hkept : forall x, Awaited s x ->
      Awaited { s with ops := ops, debts := s.debts ++ debts } x := by
    rintro x (⟨debt, hmem, hcovers⟩ | hrest)
    · exact Or.inl ⟨debt, List.mem_append_left _ hmem, covers_congr (hteam x) hcovers⟩
    · exact Or.inr hrest
  refine ⟨⟨hkeyed, hrequests, hjobs, h.registered, h.handled⟩, fun x => ?_, fun c build hbuilding => ?_⟩
  · by_cases hcovered : Covered s.ops.db debts x
    · exact Or.inr (Or.inl (Or.inl (hnew x hcovered)))
    · rcases h.current x with hcurrent | hawaited | hunder
      · apply Or.inl
        intro c session config hc hsession hopen hconfig
        rw [show view st ops.db x = _ from (hview x hcovered).right] at hconfig
        exact hcurrent c session config hc hsession hopen hconfig
      · exact Or.inr (Or.inl (hkept x hawaited))
      · exact Or.inr (Or.inr hunder)
  · rcases h.building c build hbuilding with ⟨hconn, hfits⟩
    refine ⟨hconn, ?_⟩
    by_cases hcovered : Covered s.ops.db debts build.agentId
    · exact Or.inr (Or.inl (hnew _ hcovered))
    · rcases hfits with hfits | hawaited
      · apply Or.inl
        apply Operations.fits_steady hfits
        intro x hx
        rw [Build.agentId_of_reader hx]
        exact (hview _ hcovered).left
      · exact Or.inr (hkept _ hawaited)

/-- A step of a request that commits nothing. -/
theorem uncommitted (h : Inv st s) {ops : Operations.State} {debts : List Debt}
    (hdebts : debts = []) (hdb : ops.db = s.ops.db)
    (hrequests : forall r job, ops.tunnels.jobs r = some job -> JobOwns s.ops.db job)
    (hjobs : forall r phase, ops.jobs r = some phase -> PhaseOwns s.ops.db phase) :
    Inv st { s with ops := ops, debts := s.debts ++ debts } := by
  rw [hdebts]
  apply h.committed
  · rw [hdb]
    exact h.keyed
  · rw [hdb]
    exact hrequests
  · rw [hdb]
    exact hjobs
  · intro x _
    rw [hdb]
    exact ⟨Operations.steady_refl x, rfl⟩
  · intro x
    rw [hdb]

theorem setJob_jobs {r : Nat} {phase : Operations.Phase} {db : Db} {ops : Operations.State}
    (h : forall r' phase', ops.jobs r' = some phase' -> PhaseOwns db phase')
    (hphase : PhaseOwns db phase) :
    forall r' phase', (ops.setJob r phase).jobs r' = some phase' -> PhaseOwns db phase' := by
  intro r' phase' hphase'
  rcases lookup_started hphase' with ⟨-, rfl⟩ | ⟨-, hold⟩
  · exact hphase
  · exact h r' phase' hold

theorem setJob_requests {r : Nat} {job : Interleaved.Job} {db : Db} {tunnels : Interleaved.State}
    (h : forall r' job', tunnels.jobs r' = some job' -> JobOwns db job')
    (hjob : JobOwns db job) :
    forall r' job', (tunnels.setJob r job).jobs r' = some job' -> JobOwns db job' := by
  intro r' job' hjob'
  rcases lookup_started hjob' with ⟨-, rfl⟩ | ⟨-, hold⟩
  · exact hjob
  · exact h r' job' hold

/-- What a tunnel request that is about to write has loaded. -/
theorem loaded_of_writes {job : Interleaved.Job} {l : Interleaved.Loaded}
    {port : Option (Option Int)} (howns : JobOwns s.ops.db job)
    (hphase : job.phase = Interleaved.Phase.write l port) :
    (forall agentId body, job.write = Interleaved.Write.create agentId body ->
      l.agent.id = agentId) ∧
    forall tunnelId t, job.write.own = some tunnelId -> l.tunnel = some t ->
      t.id = tunnelId ∧ Owned s.ops.db t ∧ l.agent.id = t.agentId := by
  constructor
  · intro agentId body hwrite
    exact howns.creates agentId body hwrite l (by rw [hphase]; rfl)
  · intro tunnelId t hown ht
    cases hwrite : job.write with
    | create agentId body =>
        rw [hwrite] at hown
        cases hown
    | update other fields =>
        rw [hwrite] at hown
        cases hown
        have hheld : held job.phase = some t := by
          rw [hphase]
          exact ht
        rcases howns.updates tunnelId fields hwrite t hheld with ⟨hid, howned⟩
        exact ⟨hid, howned, howns.agent tunnelId fields hwrite l t (by rw [hphase]; rfl) ht⟩

/-- A tunnel request that has committed owes its agent a notification. -/
theorem commitRequest {r fresh : Nat} {job : Interleaved.Job} {l : Interleaved.Loaded}
    {port : Option (Option Int)} {db : Db} (h : Inv st s)
    (hnew : NewNumber s (Action.operate (Operations.Action.tunnel
      (Interleaved.Action.commit r fresh))))
    (hjob : s.ops.tunnels.jobs r = some job)
    (hphase : job.phase = Interleaved.Phase.write l port)
    (hfresh : s.ops.db.tunnel? fresh = none)
    (hcommit : job.write.commit s.ops.db fresh l port = Except.ok db) :
    Inv st { s with
      ops := { s.ops with
        tunnels := { s.ops.tunnels.setJob r { job with
          phase := Interleaved.Phase.finished } with db := db }
        past := s.ops.past ++ [s.ops.db] }
      debts := s.debts ++ debtOf s.ops (Operations.Action.tunnel
        (Interleaved.Action.commit r fresh)) } := by
  have hdebts : debtOf s.ops (Operations.Action.tunnel
      (Interleaved.Action.commit r fresh)) = [Debt.agent l.agent.id] := by
    simp only [debtOf, hjob, hphase, hcommit, debtOfJob]
  rcases loaded_of_writes (h.requests r job hjob) hphase with ⟨hcreate, hupdate⟩
  rcases rows_commit hcommit with ⟨hteams, hteam⟩
  rw [hdebts]
  apply h.committed
  · exact keyed_commit hcommit h.keyed hfresh
  · apply setJob_requests _ (jobOwns_finished job)
    intro r' job' hjob'
    apply (h.requests r' job' hjob').committed
    intro t ht howned
    exact owned_commit hcommit howned (hnew.left r' job' hjob' t ht)
  · intro r' phase' hphase'
    apply phaseOwns_committed (h.jobs r' phase' hphase')
    · intro t ht howned
      exact owned_commit hcommit howned (hnew.right r' phase' hphase' t ht)
    · exact hteam
  · intro x hx
    have hne : x ≠ l.agent.id := fun hsame => hx ⟨_, List.mem_singleton_self _, hsame.symm⟩
    have hsteady : Steady s.ops.db db x := steady_write hcommit hcreate hupdate hne
    exact ⟨hsteady, view_of_steady hsteady hteams⟩
  · exact hteam

/-- So does what else has committed, to those whose configuration it changes. -/
theorem commit {r : Nat} {phase next : Operations.Phase} {db : Db} (h : Inv st s)
    (hjob : s.ops.jobs r = some phase)
    (hcommit : phase.commit s.ops.db = Except.ok (db, next)) :
    Inv st { s with
      ops := (s.ops.committed db).setJob r next
      debts := s.debts ++ debtOf s.ops (Operations.Action.commit r) } := by
  have hdebts : debtOf s.ops (Operations.Action.commit r) = debtOfPhase phase := by
    simp only [debtOf, hjob, hcommit]
  have hrows := sameRows_phase hcommit
  have hviews : (forall x, ¬ Covered s.ops.db (debtOfPhase phase) x ->
      Steady s.ops.db db x ∧ view st db x = view st s.ops.db x) ∧
      forall x, team db x = team s.ops.db x := view_phase (h.jobs r phase hjob) hcommit
  rw [hdebts]
  apply h.committed
  · exact hrows.keyed h.keyed
  · intro r' job' hjob'
    exact (h.requests r' job' hjob').committed fun t _ ht => hrows.owned ht
  · apply setJob_jobs _ (phaseOwns_next hcommit)
    intro r' phase' hphase'
    exact phaseOwns_committed (h.jobs r' phase' hphase')
      (fun t _ ht => hrows.owned ht) hviews.right
  · exact hviews.left
  · exact hviews.right

theorem operate (h : Inv st s) {action : Operations.Action} {ops : Operations.State}
    (hnew : NewNumber s (Action.operate action))
    (hstep : Operations.step pl st node s.ops action = some ops) :
    Inv st { s with ops := ops, debts := s.debts ++ debtOf s.ops action } := by
  cases Operations.step_moves hstep with
  | @request r user w =>
      exact h.uncommitted rfl rfl (setJob_requests h.requests (jobOwns_start user w)) h.jobs
  | @failRequest r job hjob =>
      exact h.uncommitted rfl rfl (setJob_requests h.requests (jobOwns_finished job)) h.jobs
  | @readRequest r job phase hjob hread =>
      have howns := (jobOwns_read (h.requests r job hjob) h.keyed hread).remember
        (job.seen.after s.ops.db job.phase)
      exact h.uncommitted rfl rfl (setJob_requests h.requests howns) h.jobs
  | @refuseRequest r fresh job l port e hjob hphase hcommit =>
      have hdebts : debtOf s.ops (Operations.Action.tunnel
          (Interleaved.Action.commit r fresh)) = [] := by
        simp only [debtOf, hjob, hphase, hcommit]
      exact h.uncommitted hdebts rfl (setJob_requests h.requests (jobOwns_finished job)) h.jobs
  | @commitRequest r fresh job l port db hjob hphase hfresh hcommit =>
      exact h.commitRequest hnew hjob hphase hfresh hcommit
  | deleteTunnel | updateTeam | poll =>
      exact h.uncommitted rfl rfl h.requests (setJob_jobs h.jobs trivial)
  | fail hjob => exact h.uncommitted rfl rfl h.requests (setJob_jobs h.jobs trivial)
  | @read r phase next hjob hwrites hread =>
      exact h.uncommitted rfl rfl h.requests
        (setJob_jobs h.jobs (phaseOwns_read (h.jobs r phase hjob) h.keyed hread))
  | @refuse r phase e hjob hcommit =>
      have hdebts : debtOf s.ops (Operations.Action.commit r) = [] := by
        simp only [debtOf, hjob, hcommit]
      exact h.uncommitted hdebts rfl h.requests (setJob_jobs h.jobs trivial)
  | @commit r phase next db hjob hcommit => exact h.commit hjob hcommit

/-- What an agent was sent does not depend on the sessions of others. -/
theorem current_congr {u v : State} {x : Nat} (h : Current st u x) (hops : v.ops = u.ops)
    (hsession : forall c session, v.conns x = some c -> v.sessions c = some session ->
      session.isOpen = true -> u.conns x = some c ∧ u.sessions c = some session) :
    Current st v x := by
  intro c session config hc hs hopen hview
  rw [hops] at hview
  rcases hsession c session hc hs hopen with ⟨hc', hs'⟩
  exact h c session config hc' hs' hopen hview

theorem notify (h : Inv st s) {i : Nat} {debt : Debt} (hdebt : s.debts[i]? = some debt) :
    Inv st { s with
      debts := s.debts.eraseIdx i, tasks := s.tasks ++ recipients s.ops.db debt } := by
  have hkept : forall x, Awaited s x -> Awaited { s with
      debts := s.debts.eraseIdx i, tasks := s.tasks ++ recipients s.ops.db debt } x := by
    rintro x (⟨other, hmem, hcovers⟩ | htask | hhandler)
    · rcases List.mem_iff_getElem?.mp hmem with ⟨j, hj⟩
      by_cases hij : j = i
      · rw [hij, hdebt] at hj
        cases hj
        exact Or.inr (Or.inl (List.mem_append_right _ (mem_recipients hcovers)))
      · have hleft := List.mem_eraseIdx_iff_getElem?.mpr ⟨j, hij, hj⟩
        exact Or.inl ⟨other, hleft, hcovers⟩
    · exact Or.inr (Or.inl (List.mem_append_left _ htask))
    · exact Or.inr (Or.inr hhandler)
  refine ⟨⟨h.keyed, h.requests, h.jobs, h.registered, h.handled⟩, fun x => ?_,
    fun c build hbuilding => ?_⟩
  · exact (h.current x).imp id (Or.imp_left (hkept x))
  · exact ⟨(h.building c build hbuilding).left,
      (h.building c build hbuilding).right.imp_right (hkept _)⟩

/-- A push starts while nothing is being built. -/
theorem pushed {u : State} {y : Nat} (h : Sound u) (hidle : u.building = none)
    (hcurrent : forall x, x ≠ y -> Current st u x ∨ Awaited u x) : Inv st (u.push y) := by
  unfold State.push
  split
  · rename_i hnone
    refine ⟨h, fun x => ?_, fun c build hbuilding => ?_⟩
    · by_cases hx : x = y
      · apply Or.inl
        intro c session config hc
        rw [hx, hnone] at hc
        cases hc
      · exact (hcurrent x hx).imp_right Or.inl
    · rw [hidle] at hbuilding
      cases hbuilding
  · rename_i c hc
    refine ⟨⟨h.keyed, h.requests, h.jobs, h.registered, h.handled⟩, fun x => ?_,
      fun c' build hbuilding => ?_⟩
    · by_cases hx : x = y
      · exact Or.inr (Or.inr ⟨c, _, rfl, hx.symm⟩)
      · exact (hcurrent x hx).imp_right Or.inl
    · cases hbuilding
      exact ⟨hc, Or.inl trivial⟩

theorem not_underWay {x : Nat} (hidle : s.building = none) : ¬ UnderWay s x := by
  rintro ⟨c, build, hbuilding, -⟩
  rw [hidle] at hbuilding
  cases hbuilding

theorem settled (h : Inv st s) (hidle : s.building = none) (x : Nat) :
    Current st s x ∨ Awaited s x := by
  rcases h.current x with hcurrent | hawaited | hunder
  · exact Or.inl hcurrent
  · exact Or.inr hawaited
  · exact absurd hunder (not_underWay hidle)

theorem task (h : Inv st s) {i y : Nat} (hidle : s.building = none)
    (htask : s.tasks[i]? = some y) :
    Inv st (State.push { s with tasks := s.tasks.eraseIdx i } y) := by
  have hsound : Sound { s with tasks := s.tasks.eraseIdx i } :=
    ⟨h.keyed, h.requests, h.jobs, h.registered, h.handled⟩
  apply pushed hsound hidle
  intro x hxy
  rcases h.settled hidle x with hcurrent | hcovered | hmem | hhandler
  · exact Or.inl hcurrent
  · exact Or.inr (Or.inl hcovered)
  · rcases List.mem_iff_getElem?.mp hmem with ⟨j, hj⟩
    have hij : j ≠ i := by
      intro hsame
      rw [hsame, htask] at hj
      exact hxy (Option.some.inj hj).symm
    exact Or.inr (Or.inr (Or.inl (List.mem_eraseIdx_iff_getElem?.mpr ⟨j, hij, hj⟩)))
  · exact Or.inr (Or.inr (Or.inr hhandler))

theorem greet (h : Inv st s) {i c : Nat} {session : Session} (hidle : s.building = none)
    (hhandler : s.handlers[i]? = some c) (hsession : s.sessions c = some session) :
    Inv st (State.push { s with handlers := s.handlers.eraseIdx i } session.agentId) := by
  have hhandled : forall c', c' ∈ s.handlers.eraseIdx i -> s.sessions c' ≠ none :=
    fun c' hc' => h.handled c' (List.mem_of_mem_eraseIdx hc')
  have hsound : Sound { s with handlers := s.handlers.eraseIdx i } :=
    ⟨h.keyed, h.requests, h.jobs, h.registered, hhandled⟩
  apply pushed hsound hidle
  intro x hx
  rcases h.settled hidle x with hcurrent | hcovered | htask | ⟨c', hc', hmem⟩
  · exact Or.inl hcurrent
  · exact Or.inr (Or.inl hcovered)
  · exact Or.inr (Or.inr (Or.inl htask))
  · rcases List.mem_iff_getElem?.mp hmem with ⟨j, hj⟩
    have hij : j ≠ i := by
      intro hsame
      rw [hsame, hhandler] at hj
      cases hj
      rcases h.registered x c hc' with ⟨old, hold, hagent⟩
      rw [hsession] at hold
      cases hold
      exact hx hagent.symm
    have hleft := List.mem_eraseIdx_iff_getElem?.mpr ⟨j, hij, hj⟩
    exact Or.inr (Or.inr (Or.inr ⟨c', hc', hleft⟩))

/-- A session is marked, and keeps its agent. -/
theorem sound_setSession (h : Sound s) {c : Nat} {old : Session}
    (hold : s.sessions c = some old) (session : Session) (hsame : session.agentId = old.agentId) :
    Sound (s.setSession c session) where
  keyed := h.keyed
  requests := h.requests
  jobs := h.jobs
  registered := by
    intro x c' hc'
    rcases h.registered x c' hc' with ⟨session', hsession', hx⟩
    by_cases hcc : c' = c
    · subst hcc
      rw [hold] at hsession'
      cases hsession'
      exact ⟨session, Function.update_self _ _ _, hsame.trans hx⟩
    · exact ⟨session', (Function.update_of_ne hcc _ _).trans hsession', hx⟩
  handled := by
    intro c' hc'
    by_cases hcc : c' = c
    · simp [hcc, State.setSession]
    · simp only [State.setSession, Function.update_of_ne hcc]
      exact h.handled c' hc'

/-- The session of another agent is another session. -/
theorem session_ne (h : Sound s) {x y c c' : Nat} (hx : s.conns x = some c)
    (hy : s.conns y = some c') (hne : x ≠ y) : c ≠ c' := by
  rintro rfl
  rcases h.registered x c hx with ⟨mine, hmine, hagent⟩
  rcases h.registered y c hy with ⟨other, hother, hagent'⟩
  rw [hmine] at hother
  cases hother
  exact hne (hagent.symm.trans hagent')

/-- The configuration that was built is sent. -/
theorem sent (h : Inv st s) {c : Nat} {build : Build} (hbuilding : s.building = some (c, build))
    {a : Agent} {rows : List Tunnel} {found : Option Team}
    (hread : build.read s.ops.db = Build.Next.built a rows found) :
    Inv st (State.send { s with building := none } c (a.generation, sentOf st rows found)) := by
  rcases h.building c build hbuilding with ⟨hconn, hfits⟩
  rcases h.registered build.agentId c hconn with ⟨old, hold, hagent⟩
  have hsend : State.send { s with building := none } c (a.generation, sentOf st rows found) =
      State.setSession { s with building := none } c
        (old.send (a.generation, sentOf st rows found)) := by
    simp only [State.send, hold]
  have hsame : (old.send (a.generation, sentOf st rows found)).agentId = old.agentId := by
    unfold Session.send
    split <;> rfl
  have hsound : Sound { s with building := none } :=
    ⟨h.keyed, h.requests, h.jobs, h.registered, h.handled⟩
  rw [hsend]
  refine ⟨sound_setSession hsound hold _ hsame, fun x => ?_, fun c' build' hbuilding' => ?_⟩
  · by_cases hx : x = build.agentId
    · subst hx
      rcases hfits with hfits | hawaited
      · have hview : view st s.ops.db a.id = some (a.generation, sentOf st rows found) :=
          Operations.view_of_built hfits hread
        rw [Build.agentId_of_built hread] at hview
        apply Or.inl
        intro c' session config hc' hsession hopen hconfig
        rw [show s.conns build.agentId = some c' from hc'] at hconn
        cases hconn
        rw [show view st s.ops.db build.agentId = some config from hconfig] at hview
        cases hview
        simp only [State.setSession, Function.update_self] at hsession
        cases hsession
        unfold Session.send at hopen ⊢
        split
        · exact List.getLast?_concat
        · rename_i hclosed
          rw [if_neg hclosed] at hopen
          exact absurd hopen hclosed
      · exact Or.inr (Or.inl hawaited)
    · rcases h.current x with hcurrent | hawaited | ⟨c', build', hbuilding', hagent'⟩
      · apply Or.inl
        apply current_congr hcurrent
        · rfl
        · intro c' session hc' hsession _
          have hne : c' ≠ c := session_ne h.toSound hc' hconn hx
          simp only [State.setSession, Function.update_of_ne hne] at hsession
          exact ⟨hc', hsession⟩
      · exact Or.inr (Or.inl hawaited)
      · rw [hbuilding] at hbuilding'
        cases hbuilding'
        exact absurd hagent'.symm hx
  · cases hbuilding'

theorem read (h : Inv st s) {c : Nat} {build : Build}
    (hbuilding : s.building = some (c, build)) : Inv st (s.read st c build) := by
  rcases h.building c build hbuilding with ⟨hconn, hfits⟩
  unfold State.read
  split
  · rename_i hgone
    refine ⟨⟨h.keyed, h.requests, h.jobs, h.registered, h.handled⟩, fun x => ?_,
      fun c' build' hbuilding' => ?_⟩
    · rcases h.current x with hcurrent | hawaited | ⟨c', build', hbuilding', rfl⟩
      · exact Or.inl hcurrent
      · exact Or.inr (Or.inl hawaited)
      · rw [hbuilding] at hbuilding'
        cases hbuilding'
        apply Or.inl
        intro _ _ config _ _ _ hconfig
        rw [show view st s.ops.db build.agentId = none from Operations.view_of_gone hgone] at hconfig
        cases hconfig
    · cases hbuilding'
  · rename_i next hread
    have hagent := Build.agentId_of_read hread
    refine ⟨⟨h.keyed, h.requests, h.jobs, h.registered, h.handled⟩, fun x => ?_,
      fun c' build' hbuilding' => ?_⟩
    · rcases h.current x with hcurrent | hawaited | ⟨c', build', hbuilding', rfl⟩
      · exact Or.inl hcurrent
      · exact Or.inr (Or.inl hawaited)
      · rw [hbuilding] at hbuilding'
        cases hbuilding'
        exact Or.inr (Or.inr ⟨c, next, rfl, hagent⟩)
    · cases hbuilding'
      rw [hagent]
      exact ⟨hconn, hfits.imp_left fun hfits => Operations.fits_read hfits hread⟩
  · rename_i a rows found hread
    exact h.sent hbuilding hread

theorem connect (h : Inv st s) {c agentId : Nat} (hidle : s.building = none)
    (hnew : s.sessions c = none) :
    Inv st { s.setSession c ⟨agentId, true, []⟩ with
      conns := Function.update s.conns agentId (some c)
      handlers := s.handlers ++ [c] } := by
  refine ⟨⟨h.keyed, h.requests, h.jobs, fun x c' hc' => ?_, fun c' hc' => ?_⟩, fun x => ?_,
    fun c' build hbuilding => ?_⟩
  · rcases lookup_started hc' with ⟨rfl, rfl⟩ | ⟨-, hkept⟩
    · exact ⟨_, Function.update_self _ _ _, rfl⟩
    · rcases h.registered x c' hkept with ⟨session, hsession, hx⟩
      have hcc : c' ≠ c := by
        intro hsame
        rw [hsame, hnew] at hsession
        cases hsession
      exact ⟨session, (Function.update_of_ne hcc _ _).trans hsession, hx⟩
  · by_cases hcc : c' = c
    · simp [hcc, State.setSession]
    · rcases List.mem_append.mp hc' with hold | hlast
      · simp only [State.setSession, Function.update_of_ne hcc]
        exact h.handled c' hold
      · exact absurd (List.mem_singleton.mp hlast) hcc
  · by_cases hx : x = agentId
    · subst hx
      exact Or.inr (Or.inl (Or.inr (Or.inr ⟨c, Function.update_self _ _ _,
        List.mem_append_right _ (List.mem_singleton_self c)⟩)))
    · rcases h.settled hidle x with hcurrent | hcovered | htask | ⟨c', hc', hmem⟩
      · apply Or.inl
        apply current_congr hcurrent
        · rfl
        · intro c' session hc' hsession _
          simp only [Function.update_of_ne hx] at hc'
          rcases lookup_started hsession with ⟨hcc, -⟩ | ⟨-, hkept⟩
          · rcases h.registered x c' hc' with ⟨old, hold, -⟩
            rw [hcc, hnew] at hold
            cases hold
          · exact ⟨hc', hkept⟩
      · exact Or.inr (Or.inl (Or.inl hcovered))
      · exact Or.inr (Or.inl (Or.inr (Or.inl htask)))
      · exact Or.inr (Or.inl (Or.inr (Or.inr ⟨c', (Function.update_of_ne hx _ _).trans hc',
          List.mem_append_left _ hmem⟩)))
  · rw [show s.building = some (c', build) from hbuilding] at hidle
    cases hidle

theorem drop (h : Inv st s) {c : Nat} {session : Session} (hsession : s.sessions c = some session) :
    Inv st (s.setSession c { session with isOpen := false }) := by
  refine ⟨sound_setSession h.toSound hsession { session with isOpen := false } rfl, fun x => ?_,
    h.building⟩
  apply (h.current x).imp_left
  intro hcurrent
  apply current_congr hcurrent
  · rfl
  · intro c' session' hc' hsession' hopen
    refine ⟨hc', ?_⟩
    rcases lookup_started hsession' with ⟨-, rfl⟩ | ⟨-, hkept⟩
    · cases hopen
    · exact hkept

theorem disconnect (h : Inv st s) {c : Nat} {session : Session} (hidle : s.building = none)
    (hsession : s.sessions c = some session) :
    Inv st { s with
      sessions := Function.update s.sessions c none
      handlers := s.handlers.filter (· ≠ c)
      conns := if s.conns session.agentId = some c then
          Function.update s.conns session.agentId none
        else s.conns } := by
  have hconn : forall x c', (if s.conns session.agentId = some c then
      Function.update s.conns session.agentId none else s.conns) x = some c' ->
      s.conns x = some c' ∧ c' ≠ c := by
    intro x c' hc'
    split at hc'
    · rename_i hmine
      rcases lookup_ended hc' with ⟨hother, hkept⟩
      refine ⟨hkept, fun hsame => hother ?_⟩
      rcases h.registered x c' hkept with ⟨session', hsession', hx⟩
      rw [hsame, hsession] at hsession'
      cases hsession'
      exact hx.symm
    · rename_i hnot
      refine ⟨hc', fun hsame => hnot ?_⟩
      rcases h.registered x c' hc' with ⟨session', hsession', hx⟩
      rw [hsame, hsession] at hsession'
      cases hsession'
      rw [hx, hc', hsame]
  refine ⟨⟨h.keyed, h.requests, h.jobs, fun x c' hc' => ?_, fun c' hc' => ?_⟩, fun x => ?_,
    fun c' build hbuilding => ?_⟩
  · rcases hconn x c' hc' with ⟨hkept, hcc⟩
    rcases h.registered x c' hkept with ⟨session', hsession', hx⟩
    exact ⟨session', (Function.update_of_ne hcc _ _).trans hsession', hx⟩
  · rcases List.mem_filter.mp hc' with ⟨hmem, hcc⟩
    simp only [Function.update_of_ne (of_decide_eq_true hcc)]
    exact h.handled c' hmem
  · -- an agent without a session has nothing to wait for
    by_cases hgone : (if s.conns session.agentId = some c then
        Function.update s.conns session.agentId none else s.conns) x = none
    · apply Or.inl
      intro c' session' config hc'
      exact absurd (hgone.symm.trans hc') (Option.some_ne_none c').symm
    · rcases Option.ne_none_iff_exists'.mp hgone with ⟨c', hc'⟩
      rcases hconn x c' hc' with ⟨hkept, hcc⟩
      rcases h.settled hidle x with hcurrent | hcovered | htask | ⟨other, hother, hmem⟩
      · apply Or.inl
        apply current_congr hcurrent
        · rfl
        · intro c'' session' hc'' hsession' _
          exact ⟨(hconn x c'' hc'').left, (lookup_ended hsession').right⟩
      · exact Or.inr (Or.inl (Or.inl hcovered))
      · exact Or.inr (Or.inl (Or.inr (Or.inl htask)))
      · rw [hkept] at hother
        cases hother
        refine Or.inr (Or.inl (Or.inr (Or.inr ⟨c', hc', ?_⟩)))
        exact List.mem_filter.mpr ⟨hmem, decide_eq_true hcc⟩
  · rw [show s.building = some (c', build) from hbuilding] at hidle
    cases hidle

theorem step {a : Action} (h : Inv st s) (hnew : NewNumber s a)
    (hstep : Push.step pl st node s a = some t) : Inv st t := by
  cases a with
  | operate action =>
      simp only [Push.step] at hstep
      split at hstep
      · cases hstep
      · rename_i ops hops
        cases hstep
        exact h.operate hnew hops
  | notify i =>
      simp only [Push.step] at hstep
      split at hstep
      · cases hstep
      · rename_i debt hdebt
        cases hstep
        exact h.notify hdebt
  | push i =>
      simp only [Push.step] at hstep
      split at hstep
      · rename_i y hidle hy
        cases hstep
        exact h.task hidle hy
      · cases hstep
  | connect c agentId =>
      simp only [Push.step] at hstep
      split at hstep
      · rename_i hguard
        cases hstep
        exact h.connect hguard.left hguard.right.left
      · cases hstep
  | greet i =>
      simp only [Push.step] at hstep
      split at hstep
      · rename_i c hidle hc
        split at hstep
        · cases hstep
        · rename_i session hsession
          cases hstep
          exact h.greet hidle hc hsession
      · cases hstep
  | read =>
      simp only [Push.step] at hstep
      split at hstep
      · cases hstep
      · rename_i c build hbuilding
        cases hstep
        exact h.read hbuilding
  | drop c =>
      simp only [Push.step] at hstep
      split at hstep
      · cases hstep
      · rename_i session hsession
        cases hstep
        exact h.drop hsession
  | disconnect c =>
      simp only [Push.step] at hstep
      split at hstep
      · rename_i session hidle hsession
        cases hstep
        exact h.disconnect hidle hsession
      · cases hstep

end Inv

section Runs

variable {pl : Platform} {st : Settings} {node : Nat -> Nat} {s t : State}

/-- Who is not about to be sent its configuration is up to date. -/
def UpToDate (st : Settings) (s : State) : Prop :=
  forall x, ¬ Awaited s x -> ¬ UnderWay s x -> Current st s x

theorem Inv.upToDate (h : Inv st s) : UpToDate st s := by
  intro x hawaited hunder
  rcases h.current x with hcurrent | hx | hx
  · exact hcurrent
  · exact absurd hx hawaited
  · exact absurd hx hunder

/--
In every state of a run, an agent that neither a request nor a task nor a new session is about
to push to, and none is pushing to, has been sent its current tunnels last, if no number of a
tunnel is given again while a request holds the tunnel that had it.
-/
theorem always_up_to_date {actions : List Action} (hs : Idle s)
    (hnew : (machine pl st node).Obeys NewNumber s actions) :
    (machine pl st node).Always (UpToDate st) s actions :=
  (Machine.always_of_obeys (I := Inv st) (fun _ _ _ h hG hstep => h.step hG hstep)
    (Inv.start hs) hnew).imp fun _ h => h.upToDate

/-- A connected agent's team is suspended by a poll, between the reads of a configuration. -/
def suspension : List Action :=
  [Action.connect 0 7, Action.greet 0, Action.read, Action.read] ++
    Operations.overrun.map Action.operate ++
    [Action.read, Action.notify 0, Action.push 0, Action.read, Action.read, Action.read]

def connectable : State where
  ops := Operations.oneTeam (some 10) [Operations.sshTunnel]
  debts := []
  tasks := []
  conns _ := none
  sessions _ := none
  handlers := []
  building := none

theorem idle_connectable : Idle connectable where
  ops := Operations.idle_oneTeam _ _
  keyed := by
    constructor
    · intro t u ht hu _
      rw [List.mem_singleton.mp ht, List.mem_singleton.mp hu]
    · intro a b ha hb _
      rw [List.mem_singleton.mp ha, List.mem_singleton.mp hb]
  debts := rfl
  tasks := rfl
  conns _ := rfl
  sessions _ := rfl
  handlers := rfl
  building := rfl

theorem newNumber_of_mem (a : Action) (ha : a ∈ suspension) (s : State) : NewNumber s a := by
  cases a with
  | operate action =>
      cases action with
      | tunnel action => simp [suspension, Operations.overrun, Operations.pollAlone] at ha
      | _ => trivial
  | _ => trivial

theorem always_up_to_date_suspension :
    ((machine asciiPlatform deployed fun _ => 1).exec connectable suspension).map
        (fun t => (t.sessions 0).map Session.sent) =
      some (some [(0, []), (0, [])]) ∧
    (machine asciiPlatform deployed fun _ => 1).Always (UpToDate deployed) connectable
      suspension := by
  constructor
  · decide +kernel
  · exact always_up_to_date idle_connectable (Machine.obeys_of_forall newNumber_of_mem connectable)

/-!
# Catching up
-/

/-- What is left to do once nobody commits any more. -/
def Own : Action -> Prop
  | Action.notify _ => True
  | Action.push _ => True
  | Action.greet _ => True
  | Action.read => True
  | _ => False

def Build.left : Build -> Nat
  | Build.agent _ => 3
  | Build.tunnels _ => 2
  | Build.team _ _ => 1

/-- A debt stands for at most as many tasks as there are agents, and itself; a push takes four
steps. -/
def State.left (s : State) : Nat :=
  s.debts.length * (4 * s.ops.db.agents.length + 5) + 4 * s.tasks.length +
    4 * s.handlers.length + (s.building.map fun b => Build.left b.2).getD 0

theorem recipients_length (db : Db) (debt : Debt) :
    (recipients db debt).length ≤ db.agents.length + 1 := by
  cases debt with
  | agent agentId => exact Nat.succ_le_succ (Nat.zero_le _)
  | teams ids =>
      rw [recipients, List.length_map]
      exact Nat.le_succ_of_le (List.length_filter_le _ _)

theorem left_push (s : State) (y : Nat) (hidle : s.building = none) :
    (s.push y).ops = s.ops ∧ (s.push y).left ≤ s.left + 3 := by
  unfold State.push
  split
  · exact ⟨rfl, Nat.le_add_right _ _⟩
  · refine ⟨rfl, ?_⟩
    simp only [State.left, hidle, Option.map_some, Option.map_none, Option.getD_some,
      Option.getD_none, Build.left]
    omega

theorem left_read {c : Nat} {build : Build} (hbuilding : s.building = some (c, build)) :
    (s.read st c build).ops = s.ops ∧ (s.read st c build).left < s.left := by
  have hleft : s.left = (s.debts.length * (4 * s.ops.db.agents.length + 5) + 4 * s.tasks.length +
      4 * s.handlers.length) + Build.left build := by
    simp [State.left, hbuilding]
  have hpos : 0 < Build.left build := by
    cases build <;> exact Nat.succ_pos _
  unfold State.read
  split
  · refine ⟨rfl, ?_⟩
    rw [hleft]
    simp only [State.left, Option.map_none, Option.getD_none]
    omega
  · rename_i next hread
    have hless : Build.left next < Build.left build := by
      cases build with
      | agent agentId =>
          simp only [Build.read] at hread
          split at hread <;> cases hread
          exact Nat.lt_succ_self 2
      | tunnels a =>
          cases hread
          exact Nat.lt_succ_self 1
      | team a rows => cases hread
    refine ⟨rfl, ?_⟩
    rw [hleft]
    simp only [State.left, Option.map_some, Option.getD_some]
    omega
  · rename_i a rows found hread
    unfold State.send
    split
    · refine ⟨rfl, ?_⟩
      rw [hleft]
      simp only [State.left, Option.map_none, Option.getD_none]
      omega
    · refine ⟨rfl, ?_⟩
      rw [hleft]
      simp only [State.left, State.setSession, Option.map_none, Option.getD_none]
      omega

theorem own_step (pl : Platform) (node : Nat -> Nat) (h : Inv st s) (hleft : 0 < s.left) :
    exists a t, Own a ∧ (machine pl st node).step s a = some t ∧ (Inv st t ∧ t.ops = s.ops) ∧
      t.left < s.left := by
  cases hbuilding : s.building with
  | some b =>
      rcases b with ⟨c, build⟩
      have hstep : step pl st node s Action.read = some (s.read st c build) := by
        simp only [step, hbuilding]
      obtain ⟨hops, hless⟩ : (s.read st c build).ops = s.ops ∧ (s.read st c build).left < s.left :=
        left_read hbuilding
      exact ⟨Action.read, _, trivial, hstep, ⟨h.read hbuilding, hops⟩, hless⟩
  | none =>
      cases hdebts : s.debts with
      | cons debt rest =>
          have hstep : step pl st node s (Action.notify 0) = some { s with
              debts := s.debts.eraseIdx 0, tasks := s.tasks ++ recipients s.ops.db debt } := by
            simp only [step, hdebts, List.getElem?_cons_zero]
          refine ⟨Action.notify 0, _, trivial, hstep, ⟨h.notify (by rw [hdebts]; rfl), rfl⟩, ?_⟩
          have hcount := recipients_length s.ops.db debt
          simp only [State.left, hdebts, List.eraseIdx_cons_zero, List.length_append,
            List.length_cons, Nat.succ_mul]
          omega
      | nil =>
          cases htasks : s.tasks with
          | cons y rest =>
              have hhead : s.tasks[0]? = some y := by rw [htasks]; rfl
              have hstep : step pl st node s (Action.push 0) =
                  some (State.push { s with tasks := s.tasks.eraseIdx 0 } y) := by
                simp only [step, hbuilding, hhead]
              rcases left_push { s with tasks := s.tasks.eraseIdx 0 } y hbuilding with
                ⟨hops, hless⟩
              refine ⟨Action.push 0, _, trivial, hstep, ⟨h.task hbuilding hhead, hops⟩, ?_⟩
              apply Nat.lt_of_le_of_lt hless
              simp only [State.left, htasks, List.eraseIdx_cons_zero, List.length_cons]
              omega
          | nil =>
              cases hhandlers : s.handlers with
              | nil => simp [State.left, hbuilding, hdebts, htasks, hhandlers] at hleft
              | cons c rest =>
                  have hhead : s.handlers[0]? = some c := by rw [hhandlers]; rfl
                  have hmem : c ∈ s.handlers := by rw [hhandlers]; exact List.mem_cons_self
                  rcases Option.ne_none_iff_exists'.mp (h.handled c hmem) with
                    ⟨session, hsession⟩
                  have hstep : step pl st node s (Action.greet 0) = some (State.push
                      { s with handlers := s.handlers.eraseIdx 0 } session.agentId) := by
                    simp only [step, hbuilding, hhead, hsession]
                  rcases left_push { s with handlers := s.handlers.eraseIdx 0 } session.agentId
                    hbuilding with ⟨hops, hless⟩
                  refine ⟨Action.greet 0, _, trivial, hstep,
                    ⟨h.greet hbuilding hhead hsession, hops⟩, ?_⟩
                  apply Nat.lt_of_le_of_lt hless
                  simp only [State.left, hhandlers, List.eraseIdx_cons_zero, List.length_cons]
                  omega

/--
Once nobody commits any more, the notifications and the pushes that are left, a bounded number
of steps, bring every agent that has a session up to date.
-/
theorem settles {actions : List Action} (hs : Idle s)
    (hexec : (machine pl st node).exec s actions = some t)
    (hnew : (machine pl st node).Obeys NewNumber s actions) :
    exists own u, (machine pl st node).Obeys (fun _ a => Own a) t own ∧ own.length ≤ t.left ∧
      (machine pl st node).exec t own = some u ∧ u.ops = t.ops ∧
      forall x, Current st u x := by
  have hinv : Inv st t := (Machine.always_of_obeys (I := Inv st)
    (fun _ _ _ h hG hstep => h.step hG hstep) (Inv.start hs) hnew).last hexec
  have hstep : forall v : State, (Inv st v ∧ v.ops = t.ops) -> 0 < v.left ->
      exists a w, Own a ∧ (machine pl st node).step v a = some w ∧ (Inv st w ∧ w.ops = t.ops) ∧
        w.left < v.left := by
    intro v hv hleft
    rcases own_step pl node hv.left hleft with ⟨a, w, hown, hvw, hw, hless⟩
    exact ⟨a, w, hown, hvw, ⟨hw.left, hw.right.trans hv.right⟩, hless⟩
  rcases Machine.exists_exec_of_measure hstep ⟨hinv, rfl⟩ with
    ⟨own, u, hown, hlength, hrun, ⟨hu, hops⟩, hzero⟩
  refine ⟨own, u, hown, hlength, hrun, hops, fun x => hu.upToDate x ?_ ?_⟩
  · simp only [State.left] at hzero
    rintro (⟨debt, hmem, -⟩ | hmem | ⟨c, -, hmem⟩)
    · have hpos := List.length_pos_of_mem hmem
      have hproduct : 0 < u.debts.length * (4 * u.ops.db.agents.length + 5) :=
        Nat.mul_pos hpos (Nat.succ_pos _)
      omega
    · have hpos := List.length_pos_of_mem hmem
      omega
    · have hpos := List.length_pos_of_mem hmem
      omega
  · rintro ⟨c, build, hbuilding, -⟩
    simp only [State.left, hbuilding, Option.map_some, Option.getD_some] at hzero
    cases build <;> simp only [Build.left] at hzero <;> omega

theorem settles_suspension :
    exists t own u, (machine asciiPlatform deployed fun _ => 1).exec connectable
        (suspension.take 11) = some t ∧
      (machine asciiPlatform deployed fun _ => 1).Obeys (fun _ a => Own a) t own ∧
      own.length ≤ t.left ∧
      (machine asciiPlatform deployed fun _ => 1).exec t own = some u ∧ u.ops = t.ops ∧
      forall x, Current deployed u x := by
  have hrun : ((machine asciiPlatform deployed fun _ => 1).exec connectable
      (suspension.take 11)).isSome = true := by decide +kernel
  rcases Option.isSome_iff_exists.mp hrun with ⟨t, ht⟩
  have hnew : (machine asciiPlatform deployed fun _ => 1).Obeys NewNumber connectable
      (suspension.take 11) := by
    apply Machine.obeys_of_forall
    intro a ha s
    exact newNumber_of_mem a (List.mem_of_mem_take ha) s
  rcases settles idle_connectable ht hnew with ⟨own, u, hown, hlength, hexec, hops, hcurrent⟩
  exact ⟨t, own, u, ht, hown, hlength, hexec, hops, hcurrent⟩

end Runs

end Push

end Api

end Panel
end RcTunnel
