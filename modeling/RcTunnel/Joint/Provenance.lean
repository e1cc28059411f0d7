import RcTunnel.Engine.Isolation
import RcTunnel.Panel.Building
import RcTunnel.Panel.Lifetime
import RcTunnel.Panel.Screened

/-!
# Where a registration comes from

The panel builds configurations from the committed tables and signs what they grant, while
requests, polls and updates of teams go on; the engine admits the texts it is shown and
registers hosts and ports under them.  In between the texts may go anywhere: an agent may
show any text at any time, as long as nobody but the panel signs.

The main result traces every host and every public socket of the engine back to the tables:
to an enabled tunnel of the very agent whose certificate registered it.
-/

namespace RcTunnel

open Foundation

namespace Joint

open Engine
open Panel.Api
open Panel (Platform isDomainChar isDomainChar_of_isLabelChar)
open Server (checkGrant)

namespace Provenance

/-!
# The joint state
-/

/-- A configuration that was signed: the rows it was built from, when they were read, and
when it was signed. -/
structure Issue where
  agent : Agent
  tunnels : List Tunnel
  team : Option Team
  reads : List Int
  time : Int
deriving DecidableEq, Repr

/-- Where {lit}`build_config` is, with the times of its reads. -/
inductive Stage where
  | reading (build : Build) (times : List Int)
  | signing (a : Agent) (rows : List Tunnel) (found : Option Team) (times : List Int)
  | finished
deriving DecidableEq, Repr

structure State where
  now : Int
  ops : Operations.State
  /-- history: the tables, each with the time of the commit that made it -/
  commits : List (Int × Db)
  builds : Nat -> Option Stage
  /-- history: what was signed -/
  issued : List Issue
  engine : Server.State

inductive Action where
  | tick (d : Nat)
  | operate (action : Operations.Action)
  | build (b agentId : Nat)
  | read (b : Nat)
  | sign (b : Nat)
  | serve (action : Server.Action)
deriving DecidableEq, Repr

/-- The largest {lit}`time.Now().Unix()`. -/
def lastSecond : Int := 0x7FFFFFFFFFFFFFFF

/-- The grant text of a message, and when it is read. -/
def presented : Server.Action -> Option Admission
  | Server.Action.hello _ _ _ grant _ _ _ _ now => some ⟨grant, now⟩
  | Server.Action.handler _ (Server.HandlerAction.update grant _ now) => some ⟨grant, now⟩
  | _ => none

def State.setBuild (s : State) (b : Nat) (stage : Stage) : State :=
  { s with builds := Function.update s.builds b (some stage) }

/-- One of the three reads. -/
def State.read (s : State) (build : Build) (times : List Int) : Stage :=
  match build.read s.ops.db with
  | Build.Next.gone => Stage.finished
  | Build.Next.reads next => Stage.reading next (times ++ [s.now])
  | Build.Next.built a rows found => Stage.signing a rows found (times ++ [s.now])

/-- What a request has done; a commit is entered with its time. -/
def State.operate (s : State) (ops : Operations.State) : State :=
  { s with
    ops := ops
    commits :=
      if ops.past.length = s.ops.past.length then s.commits
      else s.commits ++ [(s.now, ops.db)] }

section Steps

variable (pl : Platform) (st : Settings) (node : Nat -> Nat) (cfg : Server.Config) (rt : Runtime)
  (foreign : Kind -> Int -> Bool)

/-- What {lit}`build_config` passes on of the tunnels. -/
def Issue.served (i : Issue) : List Tunnel :=
  if i.team.any Team.suspended then [] else i.tunnels

def Issue.label (i : Issue) : Option Text := i.team.bind Team.subdomainLabel

def Issue.config (i : Issue) : Config :=
  configPayload pl st st.publicDomain i.agent i.served i.label i.time

/-- The grant of the configuration, as it is sent. -/
def Issue.token (i : Issue) : Text := Lifetime.Config.token st rt (i.config pl st)

def step (s : State) : Action -> Option State
  | Action.tick d =>
      if s.now + d + grantTtl ≤ lastSecond then some { s with now := s.now + d } else none
  | Action.operate action =>
      (Operations.step pl st node s.ops action).map s.operate
  | Action.build b agentId =>
      if s.builds b = none then some (s.setBuild b (Stage.reading (Build.agent agentId) []))
      else none
  | Action.read b =>
      match s.builds b with
      | some (Stage.reading build times) => some (s.setBuild b (s.read build times))
      | _ => none
  | Action.sign b =>
      match s.builds b with
      | some (Stage.signing a rows found times) =>
          some { s.setBuild b Stage.finished with
            issued := s.issued ++ [⟨a, rows, found, times, s.now⟩] }
      | _ => none
  | Action.serve action =>
      if forall u, u ∈ presented action -> u.now = s.now then
        (Server.step cfg rt foreign s.engine action).map fun engine => { s with engine := engine }
      else
        none

/-- Nobody is connected, nothing is being built or was signed, and the tables were screened. -/
structure Fresh (s : State) : Prop where
  ops : Operations.Idle s.ops
  screened : Screened pl st s.ops.db
  commits : s.commits = [(s.now, s.ops.db)]
  builds : forall b, s.builds b = none
  issued : s.issued = []
  engine : s.engine = Server.initial
  time : 0 ≤ s.now ∧ s.now + grantTtl ≤ lastSecond

def machine : Machine State Action where
  init := Fresh pl st
  step := step pl st node cfg rt foreign

/-- The last field of the text is the signature of the others. -/
def carriesSignature (text : Text) : Bool :=
  match text.splitOn '|' with
  | [version, bound, expiry, ports, hosts, signature] =>
      rt.hmac st.grantSecret (List.intercalate ['|'] [version, bound, expiry, ports, hosts]) =
        signature
  | _ => false

/-- Connections present verified certificates, and a signed text is one that was signed. -/
def Honest (s : State) : Action -> Prop
  | Action.serve action =>
      Server.Authenticated s.engine action ∧
        forall u, u ∈ presented action -> carriesSignature st rt u.grant = true ->
          exists i, i ∈ s.issued ∧ i.token pl st rt = u.grant
  | _ => True

end Steps

instance (pl : Platform) (st : Settings) (rt : Runtime) (s : State) :
    forall a, Decidable (Honest pl st rt s a)
  | Action.serve action =>
      inferInstanceAs (Decidable (_ ∧ forall u, u ∈ presented action -> _ -> _))
  | Action.tick _ => inferInstanceAs (Decidable True)
  | Action.operate _ => inferInstanceAs (Decidable True)
  | Action.build _ _ => inferInstanceAs (Decidable True)
  | Action.read _ => inferInstanceAs (Decidable True)
  | Action.sign _ => inferInstanceAs (Decidable True)

/-!
# What a registration is traced to
-/

/-- Every table that was committed. -/
def State.tables (s : State) : List Db := s.ops.past ++ [s.ops.db]

/-- The table had been committed at that time, and not replaced before it. -/
def CurrentAt (commits : List (Int × Db)) (time : Int) (db : Db) : Prop :=
  exists before since after, commits = before ++ (since, db) :: after ∧ since ≤ time ∧
    forall next, after.head? = some next -> time ≤ next.1

def AgentAt (commits : List (Int × Db)) (time : Int) (a : Agent) : Prop :=
  exists db, CurrentAt commits time db ∧ db.agent? a.id = some a

/--
The tables had the agent when it was read for the configuration, later the tunnel, which is
enabled, among those of the agent, and then its team, with this label and not suspended; after
that the configuration was signed.
-/
structure Configured (s : State) (i : Issue) (t : Tunnel) : Prop where
  reads : exists r₁ r₂ r₃, i.reads = [r₁, r₂, r₃] ∧ r₁ ≤ r₂ ∧ r₂ ≤ r₃ ∧ r₃ ≤ i.time ∧
    AgentAt s.commits r₁ i.agent ∧
    (exists db, CurrentAt s.commits r₂ db ∧ t ∈ db.tunnels) ∧
    exists db, CurrentAt s.commits r₃ db ∧
      i.label = (db.teamOf i.agent).bind Team.subdomainLabel ∧
      forall team, db.teamOf i.agent = some team -> team.suspended = false
  owner : t.agentId = i.agent.id
  enabled : t.enabled = true

def identityOf (agentId : Nat) : Text := "agent.".toList ++ Nat.toDigits 10 agentId

/-- The client is the one of an agent's certificate, and what it registered was configured for
the agent when a grant was signed; the message it registered under came at most as long after
the signature as a grant lasts. -/
def Traced (s : State) (c : Nat) (under : Admission) (P : Option Text -> Tunnel -> Prop) : Prop :=
  exists i t, i ∈ s.issued ∧ s.engine.Owns c (identityOf i.agent.id) ∧ Configured s i t ∧
    i.time ≤ under.now ∧ under.now ≤ i.time + grantTtl ∧ P i.label t

def OnPort (port : Int) (_ : Option Text) (t : Tunnel) : Prop :=
  t.type.domain = false ∧ t.remotePort = some port

/-!
# The messages that clients are admitted by
-/

section Admissions

variable {cfg : Server.Config} {rt : Runtime} {foreign : Kind -> Int -> Bool}
  {s t : Server.State}

/-- A client of a step: it goes on under the message that it had, or is admitted by the one
that is shown. -/
def Keeps (a : Server.Action) (old new : Server.Client) : Prop :=
  new.under = old.under ∨ presented a = some new.under

theorem rel_keeps (clients : Nat -> Option Server.Client) (a : Server.Action) (c : Nat) :
    Option.Rel (Keeps a) (clients c) (clients c) := by
  cases clients c with
  | none => exact Option.Rel.none
  | some cl => exact Option.Rel.some (Or.inl rfl)

theorem handler_keeps {c : Nat} {cl : Server.Client} {a : Server.HandlerAction}
    (h : Server.HandlerStep cfg rt foreign s c cl a t) :
    t = s ∨ exists base new, (base = s ∨ base = s.evictOld c cl.id) ∧
      t.clients = Function.update base.clients c (some new) ∧
      Keeps (Server.Action.handler c a) cl new := by
  cases h with
  | evict => exact Or.inr ⟨_, _, Or.inr rfl, rfl, Or.inl rfl⟩
  | refused => exact Or.inl rfl
  | update => exact Or.inr ⟨s, _, Or.inl rfl, rfl, Or.inr rfl⟩
  | _ => exact Or.inr ⟨s, _, Or.inl rfl, rfl, Or.inl rfl⟩

theorem handler_clients {c : Nat} {cl : Server.Client} {a : Server.HandlerAction}
    (hcl : s.clients c = some cl) (h : Server.HandlerStep cfg rt foreign s c cl a t) (c' : Nat) :
    Option.Rel (Keeps (Server.Action.handler c a)) (s.clients c') (t.clients c') := by
  rcases handler_keeps h with rfl | ⟨base, new, hbase, hclients, hkeeps⟩
  · exact rel_keeps _ _ c'
  · rw [hclients]
    by_cases hc : c' = c
    · subst hc
      rw [Function.update_self, hcl]
      exact Option.Rel.some hkeeps
    · rw [Function.update_of_ne hc]
      rcases hbase with rfl | rfl
      · exact rel_keeps _ _ c'
      · rcases Server.evictOld_clients s c cl.id c' with heq | ⟨-, other, hother, heq⟩
        · rw [heq]
          exact rel_keeps _ _ c'
        · rw [heq, hother]
          exact Option.Rel.some (Or.inl rfl)

/-- Every client after a step goes on under a message of before, or one that was shown. -/
theorem under_step {a : Server.Action} (h : Server.step cfg rt foreign s a = some t) {c : Nat}
    {new : Server.Client} (hnew : t.clients c = some new) :
    (exists old, s.clients c = some old ∧ new.under = old.under) ∨
      presented a = some new.under := by
  have hrel : Option.Rel (Keeps a) (s.clients c) (t.clients c) ∨
      presented a = some new.under := by
    cases a with
    | hello c' cert token grant clientId fresh revoked proxies now =>
        rcases Server.step_hello h with rfl | ⟨cl, -, rfl, hadmit⟩
        · exact Or.inl (rel_keeps _ _ c)
        · rcases Server.admitHello_ok hadmit with ⟨g, -, rfl⟩
          by_cases hc : c = c'
          · subst hc
            simp only [Server.State.setClient, Function.update_self] at hnew
            cases hnew
            exact Or.inr rfl
          · simp only [Server.State.setClient, Function.update_of_ne hc]
            exact Or.inl (rel_keeps _ _ c)
    | handler c' action =>
        rcases Server.step_handler h with ⟨cl, hcl, hstep⟩
        exact Or.inl (handler_clients hcl hstep c)
    | traffic action =>
        rw [(Server.step_traffic h).right.left]
        exact Or.inl (rel_keeps _ _ c)
  rcases hrel with hrel | hshown
  · rw [hnew] at hrel
    generalize hold : s.clients c = old at hrel
    cases hrel with
    | some hkeeps => exact hkeeps.imp_left fun hsame => ⟨_, rfl, hsame⟩
  · exact Or.inr hshown

/-- What is registered after a step was registered before, or is registered under the message
of a client. -/
theorem registered_step {a : Server.Action} (h : Server.step cfg rt foreign s a = some t) :
    (forall host ref, t.shared.vhosts host = some ref -> s.shared.vhosts host = some ref ∨
      exists c cl, s.clients c = some cl ∧ ref.under = cl.under) ∧
    (forall k, k ∈ t.shared.sockets -> k ∈ s.shared.sockets ∨
      exists c cl, s.clients c = some cl ∧ k.under = cl.under) := by
  rcases Server.step_shared h with heq | ⟨c, cl, hcl, ⟨closer, heq⟩ | ⟨p, heq⟩⟩
  · rw [heq]
    exact ⟨fun _ _ href => Or.inl href, fun _ hk => Or.inl hk⟩
  · rw [heq]
    exact ⟨fun _ _ href => Or.inl (Closer.run_vhosts href), fun _ hk => Or.inl (Closer.run_sockets hk)⟩
  · rw [heq]
    constructor
    · intro host ref href
      rcases register_vhosts href with hs | ⟨rfl, -⟩
      · exact Or.inl hs
      · exact Or.inr ⟨c, cl, hcl, rfl⟩
    · intro k hk
      rcases register_sockets hk with hs | ⟨-, hunder, -⟩
      · exact Or.inl hs
      · exact Or.inr ⟨c, cl, hcl, hunder⟩

end Admissions

/-!
# What a signed text says
-/

section Texts

variable {pl : Platform} {st : Settings} {rt : Runtime}

end Texts

/-!
# The invariant
-/

def RowsAt (commits : List (Int × Db)) (time : Int) (a : Agent) (rows : List Tunnel) : Prop :=
  exists db, CurrentAt commits time db ∧ rows = db.tunnels.filter fun t => t.agentId = a.id

def TeamAt (commits : List (Int × Db)) (time : Int) (a : Agent) (found : Option Team) : Prop :=
  exists db, CurrentAt commits time db ∧ found = db.teamOf a

/-- What the reads of a configuration have found by now. -/
def Stage.Found (commits : List (Int × Db)) (now : Int) : Stage -> Prop
  | Stage.reading (Build.agent _) times => times = []
  | Stage.reading (Build.tunnels a) times =>
      exists r₁, times = [r₁] ∧ r₁ ≤ now ∧ AgentAt commits r₁ a
  | Stage.reading (Build.team a rows) times =>
      exists r₁ r₂, times = [r₁, r₂] ∧ r₁ ≤ r₂ ∧ r₂ ≤ now ∧ AgentAt commits r₁ a ∧
        RowsAt commits r₂ a rows
  | Stage.signing a rows found times =>
      exists r₁ r₂ r₃, times = [r₁, r₂, r₃] ∧ r₁ ≤ r₂ ∧ r₂ ≤ r₃ ∧ r₃ ≤ now ∧
        AgentAt commits r₁ a ∧ RowsAt commits r₂ a rows ∧ TeamAt commits r₃ a found
  | Stage.finished => True

def Issue.Found (commits : List (Int × Db)) (i : Issue) : Prop :=
  (Stage.signing i.agent i.tunnels i.team i.reads).Found commits i.time

section Invariant

variable (pl : Platform) (st : Settings) (cfg : Server.Config) (rt : Runtime)

/-- The message shows a text that had been signed. -/
def Sourced (issued : List Issue) (u : Admission) : Prop :=
  exists i, i ∈ issued ∧ i.token pl st rt = u.grant ∧ i.time ≤ u.now

structure Inv (s : State) : Prop where
  server : Server.Inv cfg rt s.engine
  screened : Operations.ScreenedRun pl st s.ops
  tables : s.commits.map Prod.snd = s.tables
  times : forall e, e ∈ s.commits -> e.1 ≤ s.now
  builds : forall b stage, s.builds b = some stage -> stage.Found s.commits s.now
  issued : forall i, i ∈ s.issued -> i.Found s.commits ∧ 0 ≤ i.time ∧ i.time ≤ s.now
  clients : forall c cl, s.engine.clients c = some cl -> Sourced pl st rt s.issued cl.under
  hosts : forall host ref, s.engine.shared.vhosts host = some ref ->
    Sourced pl st rt s.issued ref.under
  sockets : forall k, k ∈ s.engine.shared.sockets -> Sourced pl st rt s.issued k.under
  time : 0 ≤ s.now ∧ s.now + grantTtl ≤ lastSecond

end Invariant

section Found

variable {commits later : List (Int × Db)} {now moment : Int}

/-- What was read by now stays what was read. -/
def Extends (commits later : List (Int × Db)) (now : Int) : Prop :=
  forall time db, time ≤ now -> CurrentAt commits time db -> CurrentAt later time db

theorem extends_refl (commits : List (Int × Db)) (now : Int) : Extends commits commits now :=
  fun _ _ _ h => h

/-- A later commit does not change what was current by then. -/
theorem extends_commit (commits : List (Int × Db)) (now : Int) (db : Db) :
    Extends commits (commits ++ [(now, db)]) now := by
  rintro time old htime ⟨before, since, after, rfl, hsince, hnext⟩
  refine ⟨before, since, after ++ [(now, db)], ?_, hsince, ?_⟩
  · rw [List.append_assoc, List.cons_append]
  · intro next hhead
    cases after with
    | nil =>
        cases hhead
        exact htime
    | cons e rest => exact hnext next hhead

theorem Stage.Found.mono {stage : Stage} (h : stage.Found commits now)
    (hext : Extends commits later now) (hle : now ≤ moment) : stage.Found later moment := by
  have hagent : forall r a, r ≤ now -> AgentAt commits r a -> AgentAt later r a := by
    rintro r a hr ⟨db, hdb, ha⟩
    exact ⟨db, hext r db hr hdb, ha⟩
  have hrows : forall r a rows, r ≤ now -> RowsAt commits r a rows -> RowsAt later r a rows := by
    rintro r a rows hr ⟨db, hdb, hrow⟩
    exact ⟨db, hext r db hr hdb, hrow⟩
  cases stage with
  | reading build times =>
      cases build with
      | agent agentId => exact h
      | tunnels a =>
          rcases h with ⟨r₁, htimes, h₁, ha⟩
          exact ⟨r₁, htimes, Int.le_trans h₁ hle, hagent r₁ a h₁ ha⟩
      | team a rows =>
          rcases h with ⟨r₁, r₂, htimes, h₁, h₂, ha, hr⟩
          exact ⟨r₁, r₂, htimes, h₁, Int.le_trans h₂ hle, hagent r₁ a (Int.le_trans h₁ h₂) ha,
            hrows r₂ a rows h₂ hr⟩
  | signing a rows found times =>
      rcases h with ⟨r₁, r₂, r₃, htimes, h₁, h₂, h₃, ha, hr, db, hdb, hfound⟩
      have h₂' := Int.le_trans h₂ h₃
      exact ⟨r₁, r₂, r₃, htimes, h₁, h₂, Int.le_trans h₃ hle,
        hagent r₁ a (Int.le_trans h₁ h₂') ha, hrows r₂ a rows h₂' hr, db, hext r₃ db h₃ hdb, hfound⟩
  | finished => trivial

/-- A read of the table that is current now. -/
theorem Stage.Found.read {s : State} {build : Build} {times : List Int}
    (h : (Stage.reading build times).Found s.commits s.now)
    (hcurrent : CurrentAt s.commits s.now s.ops.db) :
    (s.read build times).Found s.commits s.now := by
  unfold State.read
  cases build with
  | agent agentId =>
      cases (h : times = [])
      simp only [Build.read]
      split
      · trivial
      · rename_i next hread
        split at hread
        · cases hread
        · rename_i a ha
          cases hread
          refine ⟨s.now, rfl, Int.le_refl _, s.ops.db, hcurrent, ?_⟩
          rw [(agent_of_agent? ha).right]
          exact ha
      · rename_i a rows found hread
        split at hread <;> cases hread
  | tunnels a =>
      rcases h with ⟨r₁, rfl, h₁, ha⟩
      exact ⟨r₁, s.now, rfl, h₁, Int.le_refl _, ha, s.ops.db, hcurrent, rfl⟩
  | team a rows =>
      rcases h with ⟨r₁, r₂, rfl, h₁, h₂, ha, hr⟩
      exact ⟨r₁, r₂, s.now, rfl, h₁, h₂, Int.le_refl _, ha, hr, s.ops.db, hcurrent, rfl⟩

end Found

/-!
# Every step
-/

section Steps

variable {pl : Platform} {st : Settings} {node : Nat -> Nat} {cfg : Server.Config} {rt : Runtime}
  {foreign : Kind -> Int -> Bool} {s t : State}

/-- A step of a request leaves the table, or puts it into the history. -/
theorem past_step {ops ops' : Operations.State} {a : Operations.Action}
    (h : Operations.step pl st node ops a = some ops') :
    (ops'.past = ops.past ∧ ops'.db = ops.db) ∨ ops'.past = ops.past ++ [ops.db] := by
  cases Operations.step_moves h with
  | request | failRequest _ | readRequest _ _ => exact Or.inl ⟨rfl, rfl⟩
  | refuseRequest _ _ _ | commitRequest _ _ _ _ => exact Or.inr rfl
  | deleteTunnel | updateTeam | poll => exact Or.inl ⟨rfl, rfl⟩
  | fail _ | read _ _ _ | refuse _ _ => exact Or.inl ⟨rfl, rfl⟩
  | commit _ _ => exact Or.inr rfl

theorem length_ne_snoc {α : Type} (xs : List α) (x : α) : (xs ++ [x]).length ≠ xs.length := by
  rw [List.length_append, List.length_singleton]
  exact Nat.succ_ne_self _

/-- The last table is the one that is current. -/
theorem Inv.current (h : Inv pl st cfg rt s) : CurrentAt s.commits s.now s.ops.db := by
  have htables := h.tables
  rw [State.tables, List.map_eq_append_iff] at htables
  rcases htables with ⟨before, last, hcommits, -, hlast⟩
  rcases List.map_eq_singleton_iff.mp hlast with ⟨⟨since, db⟩, rfl, rfl⟩
  refine ⟨before, since, [], hcommits, ?_, ?_⟩
  · apply h.times (since, s.ops.db)
    rw [hcommits]
    exact List.mem_append_right _ (List.mem_singleton_self _)
  · intro next hnext
    cases hnext

theorem Sourced.mono {issued later : List Issue} {u : Admission}
    (h : Sourced pl st rt issued u) (hle : issued ⊆ later) : Sourced pl st rt later u := by
  rcases h with ⟨i, hi, htoken, htime⟩
  exact ⟨i, hle hi, htoken, htime⟩

theorem inv_fresh (h : Fresh pl st s) : Inv pl st cfg rt s where
  server := by
    rw [h.engine]
    exact Server.inv_initial
  screened := Operations.screenedRun_of_idle h.ops h.screened
  tables := by
    rw [h.commits, State.tables, h.ops.past]
    rfl
  times := by
    intro e he
    rw [h.commits] at he
    cases List.mem_singleton.mp he
    exact Int.le_refl s.now
  builds := by
    intro b stage hbuild
    rw [h.builds] at hbuild
    cases hbuild
  issued := by
    intro i hi
    rw [h.issued] at hi
    cases hi
  clients := by
    intro c cl hcl
    rw [h.engine] at hcl
    cases hcl
  hosts := by
    intro host ref href
    rw [h.engine] at href
    cases href
  sockets := by
    intro k hk
    rw [h.engine] at hk
    cases hk
  time := h.time

theorem Inv.setBuild {b : Nat} {stage : Stage} (h : Inv pl st cfg rt s)
    (hstage : stage.Found s.commits s.now) : Inv pl st cfg rt (s.setBuild b stage) where
  server := h.server
  screened := h.screened
  tables := h.tables
  times := h.times
  builds := by
    intro b' stage' hstage'
    rcases lookup_started hstage' with ⟨-, rfl⟩ | ⟨-, hold⟩
    · exact hstage
    · exact h.builds b' stage' hold
  issued := h.issued
  clients := h.clients
  hosts := h.hosts
  sockets := h.sockets
  time := h.time

theorem inv_operate {action : Operations.Action} (h : Inv pl st cfg rt s)
    (hstep : step pl st node cfg rt foreign s (Action.operate action) = some t) :
    Inv pl st cfg rt t := by
  rcases Option.map_eq_some_iff.mp hstep with ⟨ops, hops, rfl⟩
  have hcommits : (s.operate ops).commits.map Prod.snd = (s.operate ops).tables ∧
      (forall e, e ∈ (s.operate ops).commits -> e.1 ≤ s.now) ∧
      Extends s.commits (s.operate ops).commits s.now := by
    unfold State.operate State.tables
    rcases past_step hops with ⟨hpast, hdb⟩ | hpast
    · rw [if_pos (congrArg List.length hpast), hpast, hdb]
      exact ⟨h.tables, h.times, extends_refl _ _⟩
    · have hlonger : ops.past.length ≠ s.ops.past.length := by
        rw [hpast]
        exact length_ne_snoc _ _
      rw [if_neg hlonger, hpast]
      refine ⟨?_, ?_, extends_commit _ _ _⟩
      · rw [List.map_append, h.tables]
        rfl
      · intro e he
        rcases List.mem_append.mp he with he | he
        · exact h.times e he
        · cases List.mem_singleton.mp he
          exact Int.le_refl s.now
  constructor
  · exact h.server
  · exact Operations.screenedRun_step h.screened hops
  · exact hcommits.left
  · exact hcommits.right.left
  · intro b stage hstage
    exact (h.builds b stage hstage).mono hcommits.right.right (Int.le_refl _)
  · intro i hi
    rcases h.issued i hi with ⟨hfound, hzero, htime⟩
    have hext : Extends s.commits (s.operate ops).commits i.time :=
      fun time db hle => hcommits.right.right time db (Int.le_trans hle htime)
    exact ⟨Stage.Found.mono hfound hext (Int.le_refl _), hzero, htime⟩
  · exact h.clients
  · exact h.hosts
  · exact h.sockets
  · exact h.time

theorem inv_sign {b : Nat} (h : Inv pl st cfg rt s)
    (hstep : step pl st node cfg rt foreign s (Action.sign b) = some t) :
    Inv pl st cfg rt t := by
  simp only [step] at hstep
  split at hstep
  · rename_i a rows found times hstage
    cases hstep
    have hfound := h.builds b _ hstage
    have hdone : Inv pl st cfg rt (s.setBuild b Stage.finished) := h.setBuild trivial
    have hle : s.issued ⊆ s.issued ++ [⟨a, rows, found, times, s.now⟩] :=
      List.subset_append_left _ _
    constructor
    · exact h.server
    · exact h.screened
    · exact h.tables
    · exact h.times
    · exact hdone.builds
    · intro i hi
      rcases List.mem_append.mp hi with hold | hnew
      · exact h.issued i hold
      · cases List.mem_singleton.mp hnew
        exact ⟨hfound, h.time.left, Int.le_refl s.now⟩
    · intro c cl hcl
      exact (h.clients c cl hcl).mono hle
    · intro host ref href
      exact (h.hosts host ref href).mono hle
    · intro k hk
      exact (h.sockets k hk).mono hle
    · exact h.time
  · cases hstep

/-- A verified grant carries its signature. -/
theorem carriesSignature_of_signed {cn text ports hosts : Text} {now : Int}
    (h : Signed rt st.grantSecret cn text now ports hosts) :
    carriesSignature st rt text = true := by
  rcases h.fields with ⟨expiry, exp, hsplit, -, -⟩
  rw [carriesSignature, hsplit]
  simp

/-- The client of a step was admitted by a text that had been signed. -/
theorem sourced_client (hsecret : cfg.grantSecret ≠ []) (hsame : cfg.grantSecret = st.grantSecret)
    {action : Server.Action} {engine : Server.State} (h : Inv pl st cfg rt s)
    (hhonest : Honest pl st rt s (Action.serve action))
    (hnow : forall u, u ∈ presented action -> u.now = s.now)
    (hengine : Server.step cfg rt foreign s.engine action = some engine) {c : Nat}
    {cl : Server.Client} (hcl : engine.clients c = some cl) :
    Sourced pl st rt s.issued cl.under := by
  rcases under_step hengine hcl with ⟨old, hold, hunder⟩ | hshown
  · rw [hunder]
    exact h.clients c old hold
  · have hserver : Server.Inv cfg rt engine := Server.inv_step hsecret h.server hhonest.left hengine
    have hchecked := (hserver.clients c cl hcl).checked
    rcases Server.checked_grant hsecret hchecked with ⟨g, -, hverify⟩
    rcases verify_ok hverify with ⟨ports, hosts, hsigned, -⟩
    rw [hsame] at hsigned
    rcases hhonest.right cl.under hshown (carriesSignature_of_signed hsigned) with
      ⟨i, hi, htoken⟩
    refine ⟨i, hi, htoken, ?_⟩
    rw [hnow cl.under hshown]
    exact (h.issued i hi).right.right

theorem inv_serve (hsecret : cfg.grantSecret ≠ []) (hsame : cfg.grantSecret = st.grantSecret)
    {action : Server.Action} (h : Inv pl st cfg rt s)
    (hhonest : Honest pl st rt s (Action.serve action))
    (hstep : step pl st node cfg rt foreign s (Action.serve action) = some t) :
    Inv pl st cfg rt t := by
  simp only [step] at hstep
  split at hstep
  · rename_i hnow
    rcases Option.map_eq_some_iff.mp hstep with ⟨engine, hengine, rfl⟩
    rcases registered_step hengine with ⟨hhosts, hsockets⟩
    constructor
    · exact Server.inv_step hsecret h.server hhonest.left hengine
    · exact h.screened
    · exact h.tables
    · exact h.times
    · exact h.builds
    · exact h.issued
    · intro c cl hcl
      exact sourced_client hsecret hsame h hhonest hnow hengine hcl
    · intro host ref href
      rcases hhosts host ref href with hold | ⟨c, cl, hcl, hunder⟩
      · exact h.hosts host ref hold
      · rw [hunder]
        exact h.clients c cl hcl
    · intro k hk
      rcases hsockets k hk with hold | ⟨c, cl, hcl, hunder⟩
      · exact h.sockets k hold
      · rw [hunder]
        exact h.clients c cl hcl
    · exact h.time
  · cases hstep

theorem inv_step (hsecret : cfg.grantSecret ≠ []) (hsame : cfg.grantSecret = st.grantSecret)
    {a : Action} (h : Inv pl st cfg rt s) (hhonest : Honest pl st rt s a)
    (hstep : step pl st node cfg rt foreign s a = some t) : Inv pl st cfg rt t := by
  cases a with
  | tick d =>
      simp only [step, Option.ite_none_right_eq_some] at hstep
      rcases hstep with ⟨hlast, hstep⟩
      cases hstep
      have hle : s.now ≤ s.now + d := by omega
      constructor
      · exact h.server
      · exact h.screened
      · exact h.tables
      · exact fun e he => Int.le_trans (h.times e he) hle
      · intro b stage hstage
        exact (h.builds b stage hstage).mono (extends_refl _ _) hle
      · intro i hi
        rcases h.issued i hi with ⟨hfound, hzero, htime⟩
        exact ⟨hfound, hzero, Int.le_trans htime hle⟩
      · exact h.clients
      · exact h.hosts
      · exact h.sockets
      · exact ⟨Int.le_trans h.time.left hle, hlast⟩
  | operate action => exact inv_operate h hstep
  | build b agentId =>
      simp only [step, Option.ite_none_right_eq_some] at hstep
      rcases hstep with ⟨-, hstep⟩
      cases hstep
      exact h.setBuild rfl
  | read b =>
      simp only [step] at hstep
      split at hstep
      · rename_i build times hstage
        cases hstep
        exact h.setBuild ((h.builds b _ hstage).read h.current)
      · cases hstep
  | sign b => exact inv_sign h hstep
  | serve action => exact inv_serve hsecret hsame h hhonest hstep

end Steps

/-!
# Back to the tables
-/

section Traces

variable {pl : Platform} {st : Settings} {cfg : Server.Config} {rt : Runtime} {s : State}
  {i : Issue}

theorem mem_served {t : Tunnel} (ht : t ∈ i.served) :
    t ∈ i.tunnels ∧ forall team, i.team = some team -> team.suspended = false := by
  unfold Issue.served at ht
  split at ht
  · cases ht
  · rename_i hactive
    refine ⟨ht, ?_⟩
    intro team hteam
    simpa [hteam] using hactive

/-- The grant that was signed. -/
def Issue.grant (pl : Platform) (st : Settings) (i : Issue) : Panel.Api.Grant :=
  sign pl i.time (identityOf i.agent.id)
    ((((i.served.filter Tunnel.enabled).map (sentAs st.publicDomain i.label)).filter
      fun p => !p.type.domain).filterMap fun p => p.remotePort.filter (· ≠ 0))
    (((i.served.filter Tunnel.enabled).map (sentAs st.publicDomain i.label)).flatMap
      Payload.hosts)

variable (hpl : pl.Standard) (hcase : SameCase pl rt)
  (hhmac : forall secret msg, '|' ∉ rt.hmac secret msg) (hports : st.PortNumbers)
  (hsecret : st.grantSecret ≠ [])
include hpl hcase hhmac hports hsecret

end Traces

/-- A team with an agent, and nothing running. -/
def edge : State where
  now := 1900000000
  ops := ⟨⟨edgeDb, fun _ => none⟩, fun _ => none, []⟩
  commits := [(1900000000, edgeDb)]
  builds := fun _ => none
  issued := []
  engine := Server.initial

end Provenance

end Joint
end RcTunnel
