import RcTunnel.Foundation.Table
import RcTunnel.Panel.Disjoint

/-!
# Requests in flight

A request to create or to update a tunnel reads the committed tables several
times, decides, and then writes and commits at once.  Between its steps other
requests take theirs.  A request that runs alone does what its endpoint does.
-/

namespace RcTunnel
namespace Panel

open Foundation

namespace Api

namespace Interleaved

/-- What a request writes. -/
inductive Write where
  | create (agentId : Nat) (body : TunnelBody)
  | update (tunnelId : Nat) (fields : TunnelFields)
deriving DecidableEq, Repr

/-- The rows a request holds in its session. -/
structure Loaded where
  agent : Agent
  tunnel : Option Tunnel
deriving DecidableEq, Repr

/-- The next read of a request, or its write. -/
inductive Phase where
  | tunnel
  | agent (t : Option Tunnel)
  | team (l : Loaded)
  | count (l : Loaded)
  | name (l : Loaded)
  | subdomain (l : Loaded)
  | domains (l : Loaded)
  | port (l : Loaded)
  | write (l : Loaded) (port : Option (Option Int))
  | finished
deriving DecidableEq, Repr

/-- History: the tunnels of the table that each rule was checked against. -/
structure Seen where
  subdomain : List Tunnel
  domains : List Tunnel
  port : List Tunnel
deriving DecidableEq, Repr

structure Job where
  user : User
  write : Write
  phase : Phase
  seen : Seen
deriving DecidableEq, Repr

structure State where
  db : Db
  jobs : Nat -> Option Job

inductive Action where
  | request (r : Nat) (user : User) (write : Write)
  | read (r : Nat)
  | commit (r fresh : Nat)
deriving DecidableEq, Repr

/-- The tunnel that a request leaves out of its checks. -/
def Write.own : Write -> Option Nat
  | Write.create _ _ => none
  | Write.update tunnelId _ => some tunnelId

/-- The subdomain that is asked for. -/
def Write.subdomain : Write -> Option Text
  | Write.create _ body => given body.subdomain
  | Write.update _ fields => given fields.subdomain.join

/-- The custom domains that are asked for; an update has none. -/
def Write.customDomains : Write -> Option Text
  | Write.create _ body => body.customDomains
  | Write.update _ _ => none

def start (user : User) (w : Write) : Job where
  user := user
  write := w
  phase :=
    match w with
    | Write.create _ _ => Phase.agent none
    | Write.update _ _ => Phase.tunnel
  seen := ⟨[], [], []⟩

/-- A column that is set to another value than the loaded one. -/
def changed [DecidableEq α] (field : Option α) (loaded : α) : Option α :=
  field.filter (· ≠ loaded)

section Steps

variable (pl : Platform) (st : Settings) (node : Nat -> Nat)

/-- The tables with the tunnels of one node; {lit}`node` gives the node of an agent, which
no request changes. -/
def onNode (n : Nat) (db : Db) : Db :=
  { db with tunnels := db.tunnels.filter fun t => node t.agentId = n }

/-- One read of {lit}`create_tunnel`, with the checks up to the next. -/
def readCreate (db : Db) (user : User) (agentId : Nat) (body : TunnelBody) :
    Phase -> Except Error Phase
  | Phase.agent t => do
      let _ ← requireName body.name
      let a ← found (db.agent? agentId) 404 "agent not found".toList
      checkTeamAccess a.teamId user
      return Phase.team ⟨a, t⟩
  | Phase.team l => do
      require (body.type.domain = true ->
          given body.subdomain ≠ none ∨ given body.customDomains ≠ none) 422
        (body.type.value ++ " requires subdomain or custom_domains".toList)
      checkHealthCheckType body.healthCheckType
      whenGiven body.subdomain (checkSubdomainLabels pl)
      whenGiven body.subdomain (checkSubdomainDepth st · (db.labelOf l.agent).isSome)
      return Phase.count l
  | Phase.count l => do
      require ((db.tunnels.filter fun t => t.agentId = agentId).length <
        st.maxTunnelsPerAgent) 422 ("tunnel limit reached for this agent (max ".toList ++
          Nat.toDigits 10 st.maxTunnelsPerAgent ++ ")".toList)
      return Phase.name l
  | Phase.name l => do
      require (forall t, t ∈ db.tunnels -> t.agentId = agentId -> t.name ≠ strip body.name)
        409 "tunnel name exists for agent".toList
      return Phase.subdomain l
  | Phase.subdomain l => do
      whenGiven body.subdomain (checkSubdomainUnique pl db · l.agent.teamId none)
      return Phase.domains l
  | Phase.domains l => do
      checkCustomDomains pl st db body.customDomains none
      return Phase.port l
  | Phase.port l => do
      let port ← assigned st (onNode node (node l.agent.id) db) body
      return Phase.write l (some port)
  | phase => Except.ok phase

/-- One read of {lit}`update_tunnel`. -/
def readUpdate (db : Db) (user : User) (tunnelId : Nat) (fields : TunnelFields) :
    Phase -> Except Error Phase
  | Phase.tunnel => do
      let t ← found (db.tunnel? tunnelId) 404 "tunnel not found".toList
      return Phase.agent (some t)
  | Phase.agent (some t) => do
      let a ← found (db.agent? t.agentId) 500 "Internal Server Error".toList
      checkTeamAccess a.teamId user
      checkHealthCheckType fields.healthCheckType.join
      whenGiven fields.subdomain.join (checkSubdomainLabels pl)
      return Phase.team ⟨a, some t⟩
  | Phase.team l => do
      whenGiven fields.subdomain.join
        (checkSubdomainDepth st · (db.labelOf l.agent).isSome)
      return Phase.subdomain l
  | Phase.subdomain l => do
      whenGiven fields.subdomain.join
        (checkSubdomainUnique pl db · l.agent.teamId (some tunnelId))
      return Phase.port l
  | Phase.port ⟨a, some t⟩ => do
      let port ← reassigned st (onNode node (node a.id) db) t fields.remotePort
      return Phase.write ⟨a, some t⟩ port
  | phase => Except.ok phase

def Job.read (db : Db) (job : Job) : Except Error Phase :=
  match job.write with
  | Write.create agentId body => readCreate pl st node db job.user agentId body job.phase
  | Write.update tunnelId fields => readUpdate pl st node db job.user tunnelId fields job.phase

/-- The table that a check has just read is remembered. -/
def Seen.after (db : Db) (seen : Seen) : Phase -> Seen
  | Phase.subdomain _ => { seen with subdomain := db.tunnels }
  | Phase.domains _ => { seen with domains := db.tunnels }
  | Phase.port _ => { seen with port := db.tunnels }
  | _ => seen

/-- {lit}`_bump`: the generation that was loaded, and one. -/
def bumpLoaded (agent : Agent) (agents : List Agent) : List Agent :=
  rewriteRow Agent.id agent.id (fun a => { a with generation := agent.generation + 1 }) agents

/-- The row that is inserted. -/
def inserted (fresh agentId : Nat) (body : TunnelBody) (port : Option Int) : Tunnel where
  id := fresh
  agentId := agentId
  name := strip body.name
  type := body.type
  remotePort := port
  subdomain := body.subdomain
  customDomains := body.customDomains
  enabled := true
  healthCheckType := body.healthCheckType
  bytesIn := 0
  bytesOut := 0
  lastTodayIn := 0
  lastTodayOut := 0

/-- The columns that are updated: those whose value is not the loaded one. -/
def updated (loaded : Tunnel) (fields : TunnelFields) (port : Option (Option Int))
    (t : Tunnel) : Tunnel :=
  { t with
    enabled := (changed fields.enabled.join loaded.enabled).getD t.enabled
    remotePort := (changed port loaded.remotePort).getD t.remotePort
    subdomain := (changed fields.subdomain loaded.subdomain).getD t.subdomain
    healthCheckType :=
      (changed fields.healthCheckType loaded.healthCheckType).getD t.healthCheckType }

/-- The write and the commit. -/
def Write.commit (db : Db) (fresh : Nat) (l : Loaded) (port : Option (Option Int)) :
    Write -> Except Error Db
  | Write.create agentId body => do
      -- uq_tunnel_agent_name
      constraint (forall t, t ∈ db.tunnels -> t.agentId = agentId -> t.name ≠ strip body.name)
      return { db with
        agents := bumpLoaded l.agent db.agents
        tunnels := db.tunnels ++ [inserted fresh agentId body port.join] }
  | Write.update tunnelId fields => do
      let _ ← found (db.tunnel? tunnelId) 500 "Internal Server Error".toList
      let loaded ← found l.tunnel 500 "Internal Server Error".toList
      constraint (fields.enabled ≠ some none)
      return { db with
        agents := bumpLoaded l.agent db.agents
        tunnels := rewriteRow Tunnel.id tunnelId (updated loaded fields port) db.tunnels }

def State.setJob (s : State) (r : Nat) (job : Job) : State :=
  { s with jobs := Function.update s.jobs r (some job) }

/-- A request that fails leaves the tables as they are. -/
def State.read (s : State) (r : Nat) (job : Job) : State :=
  match job.read pl st node s.db with
  | Except.error _ => s.setJob r { job with phase := Phase.finished }
  | Except.ok phase =>
      s.setJob r { job with phase := phase, seen := job.seen.after s.db job.phase }

def step (s : State) : Action -> Option State
  | Action.request r user w =>
      if s.jobs r = none then some (s.setJob r (start user w)) else none
  | Action.read r =>
      match s.jobs r with
      | none => none
      | some job =>
          match job.phase with
          | Phase.write _ _ | Phase.finished => none
          | _ => some (s.read pl st node r job)
  | Action.commit r fresh =>
      match s.jobs r with
      | none => none
      | some job =>
          match job.phase with
          | Phase.write l port =>
              if s.db.tunnel? fresh = none then
                match job.write.commit s.db fresh l port with
                | Except.error _ => some (s.setJob r { job with phase := Phase.finished })
                | Except.ok db =>
                    some { s.setJob r { job with phase := Phase.finished } with db := db }
              else
                none
          | _ => none

end Steps

/-!
# What is unique, and what keeps it
-/

/-- The team of an agent. -/
def teamOf (db : Db) (agentId : Nat) : Option (Option Nat) :=
  (db.agent? agentId).map Agent.teamId

/-- Two tunnels that may stand in one table. -/
structure Compatible (pl : Platform) (node : Nat -> Nat) (team : Nat -> Option (Option Nat))
    (t u : Tunnel) : Prop where
  ports : t.type.domain = false -> u.type.domain = false -> node t.agentId = node u.agentId ->
    forall p, t.remotePort = some p -> u.remotePort ≠ some p
  subdomains : team t.agentId = team u.agentId -> forall s, given t.subdomain = some s ->
    forall s', given u.subdomain = some s' -> pl.lower s ≠ pl.lower s'
  domains : forall d, d ∈ Platform.domains pl t.customDomains ->
    d ∉ Platform.domains pl u.customDomains

/-- No port of a node, no subdomain of a team and no custom domain is two tunnels'. -/
def Unique (pl : Platform) (node : Nat -> Nat) (db : Db) : Prop :=
  db.tunnels.Pairwise (Apart Tunnel.id (Compatible pl node (teamOf db)))

/-- The tunnels are unique and each is some agent's, and nothing is being asked. -/
structure Idle (pl : Platform) (node : Nat -> Nat) (s : State) : Prop where
  unique : Unique pl node s.db
  owned : forall t, t ∈ s.db.tunnels -> teamOf s.db t.agentId ≠ none
  quiet : forall r, s.jobs r = none

def machine (pl : Platform) (st : Settings) (node : Nat -> Nat) : Machine State Action where
  init := Idle pl node
  step := step pl st node

section Runs

variable {pl : Platform} {st : Settings} {node : Nat -> Nat}

/-!
# Every step
-/

theorem setJob_jobs (s : State) (r r' : Nat) (job : Job) :
    (s.setJob r job).jobs r' = if r' = r then some job else s.jobs r' :=
  Function.update_apply _ _ _ _

theorem step_cases {s t : State} {action : Action} (h : step pl st node s action = some t) :
    (exists r user w, action = Action.request r user w ∧ t = s.setJob r (start user w)) ∨
    (exists r job, action = Action.read r ∧ s.jobs r = some job ∧
      t = s.read pl st node r job) ∨
    (exists r fresh job l port, action = Action.commit r fresh ∧ s.jobs r = some job ∧
      job.phase = Phase.write l port ∧ s.db.tunnel? fresh = none ∧
      ((exists e, job.write.commit s.db fresh l port = Except.error e ∧
          t = s.setJob r { job with phase := Phase.finished }) ∨
        exists db, job.write.commit s.db fresh l port = Except.ok db ∧
          t = { s.setJob r { job with phase := Phase.finished } with db := db })) := by
  cases action with
  | request r user w =>
      simp only [step] at h
      split at h
      · cases h
        exact Or.inl ⟨r, user, w, rfl, rfl⟩
      · cases h
  | read r =>
      simp only [step] at h
      split at h
      · cases h
      · rename_i job hjob
        split at h
        · cases h
        · cases h
        · cases h
          exact Or.inr (Or.inl ⟨r, job, rfl, hjob, rfl⟩)
  | commit r fresh =>
      simp only [step] at h
      split at h
      · cases h
      · rename_i job hjob
        split at h
        · rename_i l port hphase
          split at h
          · rename_i hfresh
            refine Or.inr (Or.inr ⟨r, fresh, job, l, port, rfl, hjob, hphase, hfresh, ?_⟩)
            split at h
            · rename_i e hcommit
              cases h
              exact Or.inl ⟨e, hcommit, rfl⟩
            · rename_i db hcommit
              cases h
              exact Or.inr ⟨db, hcommit, rfl⟩
          · cases h
        · cases h

/-!
# A request that runs alone

Its reads all see one table, and it does what the endpoint does at once.
-/

section Alone

/-- The phases that read. -/
def Phase.reads : Phase -> Bool
  | Phase.write _ _ | Phase.finished => false
  | _ => true

/-- Reads of one table lead from a phase to another. -/
def ReadsTo (pl : Platform) (st : Settings) (node : Nat -> Nat) (db : Db) (user : User)
    (w : Write) : Nat -> Phase -> Phase -> Prop
  | 0, phase, last => phase = last
  | n + 1, phase, last => phase.reads = true ∧ exists next,
      Job.read pl st node db ⟨user, w, phase, ⟨[], [], []⟩⟩ = Except.ok next ∧
        ReadsTo pl st node db user w n next last

/-- The request is in the phase, whatever it has seen. -/
def State.At (s : State) (r : Nat) (user : User) (w : Write) (phase : Phase) : Prop :=
  exists seen, s.jobs r = some ⟨user, w, phase, seen⟩

variable {s : State} {r : Nat} {user : User} {w : Write} {phase last : Phase}

theorem step_read (hat : s.At r user w phase) (hreads : phase.reads = true) {next : Phase}
    (hread : Job.read pl st node s.db ⟨user, w, phase, ⟨[], [], []⟩⟩ = Except.ok next) :
    exists t, step pl st node s (Action.read r) = some t ∧ t.db = s.db ∧
      t.At r user w next := by
  rcases hat with ⟨seen, hjob⟩
  refine ⟨s.setJob r ⟨user, w, next, seen.after s.db phase⟩, ?_, rfl, ?_⟩
  · have hnext : s.read pl st node r ⟨user, w, phase, seen⟩ =
        s.setJob r ⟨user, w, next, seen.after s.db phase⟩ := by
      have hsame : Job.read pl st node s.db ⟨user, w, phase, seen⟩ = Except.ok next := hread
      unfold State.read
      rw [hsame]
    rw [← hnext]
    simp only [step, hjob]
    cases phase with
    | write l port => cases hreads
    | finished => cases hreads
    | tunnel | agent t | team l | count l | name l | subdomain l | domains l | port l => rfl
  · exact ⟨_, (setJob_jobs s r r _).trans (if_pos rfl)⟩

theorem exec_reads {n : Nat} (hat : s.At r user w phase)
    (hreads : ReadsTo pl st node s.db user w n phase last) :
    exists t, (machine pl st node).exec s (List.replicate n (Action.read r)) = some t ∧
      t.db = s.db ∧ t.At r user w last := by
  induction n generalizing s phase with
  | zero =>
      cases hreads
      exact ⟨s, rfl, rfl, hat⟩
  | succ n ih =>
      rcases hreads with ⟨hphase, next, hread, hrest⟩
      rcases step_read hat hphase hread with ⟨s', hstep, hdb, hat'⟩
      rw [← hdb] at hrest
      rcases ih hat' hrest with ⟨t, hexec, ht, hlast⟩
      refine ⟨t, ?_, ht.trans hdb, hlast⟩
      rw [List.replicate_succ, Machine.exec_cons_of_step _ _ hstep]
      exact hexec

theorem step_commit {l : Loaded} {port : Option (Option Int)} {fresh : Nat} {db : Db}
    (hat : s.At r user w (Phase.write l port)) (hfresh : s.db.tunnel? fresh = none)
    (hcommit : w.commit s.db fresh l port = Except.ok db) :
    exists t, (machine pl st node).step s (Action.commit r fresh) = some t ∧ t.db = db := by
  rcases hat with ⟨seen, hjob⟩
  refine ⟨{ s.setJob r ⟨user, w, Phase.finished, seen⟩ with db := db }, ?_, rfl⟩
  simp only [machine, step, hjob, hfresh, hcommit, if_pos]

theorem exec_alone {n : Nat} {l : Loaded} {port : Option (Option Int)} {fresh : Nat} {db : Db}
    (hidle : s.jobs r = none)
    (hreads : ReadsTo pl st node s.db user w n (start user w).phase (Phase.write l port))
    (hfresh : s.db.tunnel? fresh = none) (hcommit : w.commit s.db fresh l port = Except.ok db) :
    exists t, (machine pl st node).exec s (Action.request r user w ::
        (List.replicate n (Action.read r) ++ [Action.commit r fresh])) = some t ∧
      t.db = db := by
  have hrequest : (machine pl st node).step s (Action.request r user w) =
      some (s.setJob r (start user w)) := if_pos hidle
  have hat : (s.setJob r (start user w)).At r user w (start user w).phase :=
    ⟨_, (setJob_jobs s r r _).trans (if_pos rfl)⟩
  rcases exec_reads hat hreads with ⟨u, hexec, hdb, hlast⟩
  have hsame : u.db = s.db := hdb
  rw [← hsame] at hfresh hcommit
  have hwritten : exists t, (machine pl st node).step u (Action.commit r fresh) = some t ∧
      t.db = db := step_commit hlast hfresh hcommit
  rcases hwritten with ⟨t, hstep, ht⟩
  refine ⟨t, ?_, ht⟩
  rw [Machine.exec_cons_of_step _ _ hrequest]
  refine Machine.exec_append _ hexec ?_
  rw [Machine.exec_cons_of_step _ _ hstep]
  rfl

/-- All tunnels are on one node. -/
theorem onNode_self (hone : forall i j, node i = node j) (n : Nat) (db : Db) :
    onNode node (node n) db = db := by
  unfold onNode
  have hall : db.tunnels.filter (fun t => node t.agentId = node n) = db.tunnels :=
    List.filter_eq_self.mpr fun t _ => decide_eq_true (hone _ _)
  rw [hall]

/-- The generation that was loaded is the one that stands. -/
theorem bumpLoaded_eq {db : Db} {agentId : Nat} {a : Agent}
    (hkeys : forall a b, a ∈ db.agents -> b ∈ db.agents -> a.id = b.id -> a = b)
    (ha : db.agent? agentId = some a) :
    bumpLoaded a db.agents = (db.bump agentId).agents := by
  rcases agent_of_agent? ha with ⟨hmem, hid⟩
  unfold bumpLoaded Db.bump rewriteRow
  refine List.map_congr_left fun b hb => ?_
  rw [hid]
  split
  · rename_i hsame
    rw [hkeys a b hmem hb (hid.trans hsame.symm)]
  · rfl

theorem changed_getD [DecidableEq α] (field : Option α) (x : α) :
    (changed field x).getD x = field.getD x := by
  cases field with
  | none => rfl
  | some y =>
      unfold changed
      by_cases hsame : y = x
      · rw [Option.filter_some_neg (by simpa using hsame)]
        exact hsame.symm
      · rw [Option.filter_some_pos (by simpa using hsame)]

/-- Where the loaded row still stands, what has not changed is what is not set. -/
theorem updated_eq {db : Db} {tunnelId : Nat} {t : Tunnel}
    (hrows : forall t u, t ∈ db.tunnels -> u ∈ db.tunnels -> t.id = u.id -> t = u)
    (ht : db.tunnel? tunnelId = some t) {fields : TunnelFields} {port : Option (Option Int)} :
    rewriteRow Tunnel.id tunnelId (updated t fields port) db.tunnels =
      rewriteRow Tunnel.id tunnelId (fun t =>
        { t with
          enabled := fields.enabled.join.getD t.enabled
          remotePort := port.getD t.remotePort
          subdomain := fields.subdomain.getD t.subdomain
          healthCheckType := fields.healthCheckType.getD t.healthCheckType }) db.tunnels := by
  have hid : t.id = tunnelId := by simpa using List.find?_some ht
  unfold rewriteRow
  refine List.map_congr_left fun u hu => ?_
  split
  · rename_i hsame
    have hrow : u = t := hrows u t hu (List.mem_of_find?_eq_some ht) (hsame.trans hid.symm)
    subst hrow
    simp only [updated, changed_getD]
  · rfl

section Endpoints

variable {db : Db} {fresh : Nat} (hone : forall i j, node i = node j)
  (hkeys : forall a b, a ∈ s.db.agents -> b ∈ s.db.agents -> a.id = b.id -> a = b)
  (hidle : s.jobs r = none) (hfresh : s.db.tunnel? fresh = none)
include hone hkeys hidle hfresh

theorem exec_createTunnel {agentId : Nat} {body : TunnelBody}
    (h : createTunnel pl st s.db user fresh agentId body = Except.ok db) :
    exists t, (machine pl st node).exec s
        (Action.request r user (Write.create agentId body) ::
          (List.replicate 7 (Action.read r) ++ [Action.commit r fresh])) = some t ∧
      t.db = db := by
  simp only [createTunnel, bind_ok, pure_ok, found_ok] at h
  rcases h with ⟨name, hname, a, ha, u1, haccess, u2, hdomain, u3, hhealth, u4, hlabels, u5,
    hdepth, u6, hcount, u7, hunique, u8, hsubdomain, u9, hcustom, port, hport, rfl⟩
  have hstrip : name = strip body.name := by
    simp only [requireName, bind_ok, pure_ok] at hname
    rcases hname with ⟨-, -, -, -, rfl⟩
    rfl
  subst hstrip
  have hagent : readCreate pl st node s.db user agentId body (Phase.agent none) =
      Except.ok (Phase.team ⟨a, none⟩) :=
    bind_ok.mpr ⟨_, hname, bind_ok.mpr ⟨a, found_ok.mpr ha, bind_ok.mpr ⟨u1, haccess, rfl⟩⟩⟩
  have hteam : readCreate pl st node s.db user agentId body (Phase.team ⟨a, none⟩) =
      Except.ok (Phase.count ⟨a, none⟩) :=
    bind_ok.mpr ⟨u2, hdomain, bind_ok.mpr ⟨u3, hhealth, bind_ok.mpr ⟨u4, hlabels,
      bind_ok.mpr ⟨u5, hdepth, rfl⟩⟩⟩⟩
  have hassigned : assigned st (onNode node (node a.id) s.db) body = Except.ok port := by
    rw [onNode_self hone]
    exact hport
  have hreads : ReadsTo pl st node s.db user (Write.create agentId body) 7 (Phase.agent none)
      (Phase.write ⟨a, none⟩ (some port)) :=
    ⟨rfl, _, hagent, rfl, _, hteam, rfl, _, bind_ok.mpr ⟨u6, hcount, rfl⟩,
      rfl, _, bind_ok.mpr ⟨u7, hunique, rfl⟩, rfl, _, bind_ok.mpr ⟨u8, hsubdomain, rfl⟩,
      rfl, _, bind_ok.mpr ⟨u9, hcustom, rfl⟩, rfl, _, bind_ok.mpr ⟨port, hassigned, rfl⟩, rfl⟩
  refine exec_alone hidle hreads hfresh (bind_ok.mpr ⟨u7, ?_, ?_⟩)
  · exact constraint_ok.mpr (require_ok.mp hunique)
  · rw [bumpLoaded_eq hkeys ha]
    rfl

theorem exec_updateTunnel {tunnelId : Nat} {fields : TunnelFields}
    (hrows : forall t u, t ∈ s.db.tunnels -> u ∈ s.db.tunnels -> t.id = u.id -> t = u)
    (h : updateTunnel pl st s.db user tunnelId fields = Except.ok db) :
    exists t, (machine pl st node).exec s
        (Action.request r user (Write.update tunnelId fields) ::
          (List.replicate 5 (Action.read r) ++ [Action.commit r fresh])) = some t ∧
      t.db = db := by
  simp only [updateTunnel, bind_ok, pure_ok, found_ok] at h
  rcases h with ⟨t, ht, a, ha, u1, haccess, u2, hhealth, u3, hlabels, u4, hdepth, u5,
    hsubdomain, port, hport, u6, henabled, rfl⟩
  have hagent : readUpdate pl st node s.db user tunnelId fields (Phase.agent (some t)) =
      Except.ok (Phase.team ⟨a, some t⟩) :=
    bind_ok.mpr ⟨a, found_ok.mpr ha, bind_ok.mpr ⟨u1, haccess, bind_ok.mpr ⟨u2, hhealth,
      bind_ok.mpr ⟨u3, hlabels, rfl⟩⟩⟩⟩
  have hreassigned : reassigned st (onNode node (node a.id) s.db) t fields.remotePort =
      Except.ok port := by
    rw [onNode_self hone]
    exact hport
  have hreads : ReadsTo pl st node s.db user (Write.update tunnelId fields) 5 Phase.tunnel
      (Phase.write ⟨a, some t⟩ port) :=
    ⟨rfl, _, bind_ok.mpr ⟨t, found_ok.mpr ht, rfl⟩, rfl, _, hagent,
      rfl, _, bind_ok.mpr ⟨u4, hdepth, rfl⟩, rfl, _, bind_ok.mpr ⟨u5, hsubdomain, rfl⟩,
      rfl, _, bind_ok.mpr ⟨port, hreassigned, rfl⟩, rfl⟩
  refine exec_alone hidle hreads hfresh (bind_ok.mpr ⟨t, found_ok.mpr ht,
    bind_ok.mpr ⟨t, rfl, bind_ok.mpr ⟨u6, henabled, ?_⟩⟩⟩)
  rw [bumpLoaded_eq hkeys ha, updated_eq hrows ht]
  rfl

end Endpoints

end Alone

end Runs

end Interleaved

end Api

end Panel
end RcTunnel
