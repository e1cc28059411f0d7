import RcTunnel.Panel.Accounting
import RcTunnel.Panel.TeamScope

/-!
# Usage and suspension

A team is suspended when what its tunnels have carried is over its quota.  The
usage is the sum over the tunnels that exist: deleting one takes what it carried
out of the sum.  A team that is over its quota gets under it again by deleting
tunnels, and the next poll resumes it.

The main result says that over polls and requests of users who are no admin the
usage never decreases, and no suspended team resumes, exactly when no request
deletes tunnels of the team that have carried traffic.
-/

namespace RcTunnel
namespace Panel

open Foundation

namespace Api

namespace Quota

inductive Action where
  | poll (answer : Option (List StatsEntry))
  | request (actor : Nat) (call : AgentCall)
deriving DecidableEq, Repr

/-- The engine's counters are not negative. -/
def Counters (answer : Option (List StatsEntry)) : Prop :=
  forall e, e ∈ answer.getD [] -> 0 ≤ e.bytes.1 ∧ 0 ≤ e.bytes.2

instance (answer : Option (List StatsEntry)) : Decidable (Counters answer) :=
  inferInstanceAs (Decidable (forall e, e ∈ answer.getD [] -> _))

section Steps

variable (pl : Platform) (st : Settings)

/-- A poll, or a request of a user who is no admin. -/
def step (s : Site) : Action -> Option Site
  | Action.poll answer =>
      if Counters answer then some { s with db := pollOnce (sampleOf answer) s.db } else none
  | Action.request actor call =>
      match s.db.user? actor with
      | none => some s
      | some user =>
          if user.role = Role.admin ∨ ¬ s.db.FreshFor call then
            none
          else
            match respond pl st s user call with
            | Except.error _ => some s
            | Except.ok reply => some reply.site

end Steps

/-!
# The usage of a team
-/

/-- What a tunnel has carried. -/
def carried (t : Tunnel) : Int := t.bytesIn + t.bytesOut

/-- The team of an agent, if it has one. -/
def teamIdOf (agents : List Agent) (agentId : Nat) : Option Nat :=
  (agents.find? fun a => a.id = agentId).bind Agent.teamId

/-- What a tunnel adds to the usage of a team. -/
def charge (agents : List Agent) (teamId : Nat) (t : Tunnel) : Int :=
  if teamIdOf agents t.agentId = some teamId then carried t else 0

theorem usage_eq_total (db : Db) (teamId : Nat) :
    db.usage teamId = total (charge db.agents teamId) db.tunnels := by
  have hfold : forall (tunnels : List Tunnel) (n : Int),
      (tunnels.filter fun t => teamIdOf db.agents t.agentId = some teamId).foldl
        (fun total t => total + (t.bytesIn + t.bytesOut)) n =
          n + total (charge db.agents teamId) tunnels := by
    intro tunnels
    induction tunnels with
    | nil =>
        intro n
        simp [total]
    | cons t rest ih =>
        intro n
        by_cases hteam : teamIdOf db.agents t.agentId = some teamId
        · rw [List.filter_cons_of_pos (by simp [hteam]), List.foldl_cons, ih]
          simp only [total, List.map_cons, List.sum_cons, charge, if_pos hteam, carried]
          omega
        · rw [List.filter_cons_of_neg (by simp [hteam]), ih]
          simp only [total, List.map_cons, List.sum_cons, charge, if_neg hteam]
          omega
  have hzero := hfold db.tunnels 0
  rw [Int.zero_add] at hzero
  exact hzero

/-- The keys are keys, no counter is negative, and a suspended team of the id is over
its quota. -/
structure Settled (teamId : Nat) (s : Site) : Prop where
  keyed : s.db.Keyed
  counted : forall t, t ∈ s.db.tunnels -> 0 ≤ t.bytesIn ∧ 0 ≤ t.bytesOut
  suspended : forall team, team ∈ s.db.teams -> team.id = teamId -> team.suspended = true ->
    overQuota team.quotaBytes (s.db.usage teamId) = true

def machine (pl : Platform) (st : Settings) (teamId : Nat) : Machine Site Action where
  init := Settled teamId
  step := step pl st

/-- A team of the id is suspended. -/
def Suspended (teamId : Nat) (db : Db) : Prop :=
  exists team, team ∈ db.teams ∧ team.id = teamId ∧ team.suspended = true

/-- The step does not lower the usage of the team, and does not resume it. -/
def Cumulative (pl : Platform) (st : Settings) (teamId : Nat) (s : Site) (a : Action) : Prop :=
  forall t, step pl st s a = some t ->
    s.db.usage teamId ≤ t.db.usage teamId ∧
      (Suspended teamId s.db -> Suspended teamId t.db)

/-- A request that deletes a tunnel of the team, or an agent with its tunnels, deletes
none that has carried traffic. -/
def Spares (teamId : Nat) (s : Site) : Action -> Prop
  | Action.request actor (AgentCall.deleteTunnel tunnelId) =>
      forall user, user ∈ s.db.user? actor -> forall t, t ∈ s.db.tunnel? tunnelId ->
        forall a, a ∈ s.db.agent? t.agentId -> Passes user a -> a.teamId = some teamId ->
          carried t = 0
  | Action.request actor (AgentCall.deleteAgent agentId) =>
      forall user, user ∈ s.db.user? actor -> forall a, a ∈ s.db.agent? agentId ->
        Passes user a -> a.teamId = some teamId ->
          forall t, t ∈ s.db.tunnels -> t.agentId = agentId -> carried t = 0
  | _ => True

section Runs

variable {pl : Platform} {st : Settings} {teamId : Nat} {s t : Site}

theorem charge_nonneg {agents : List Agent} {u : Tunnel} (h : 0 ≤ u.bytesIn ∧ 0 ≤ u.bytesOut) :
    0 ≤ charge agents teamId u := by
  unfold charge carried
  split
  · omega
  · exact Int.le_refl 0

theorem charge_congr {agents agents' : List Agent} {u : Tunnel}
    (h : teamIdOf agents' u.agentId = teamIdOf agents u.agentId) :
    charge agents' teamId u = charge agents teamId u := by
  unfold charge
  rw [h]

theorem overQuota_mono {quota : Option Int} {used used' : Int} (hle : used ≤ used')
    (h : overQuota quota used = true) : overQuota quota used' = true := by
  cases quota with
  | none => cases h
  | some cap =>
      simp only [overQuota, Option.any_some, decide_eq_true_eq] at h ⊢
      exact Int.lt_of_lt_of_le h hle

/-- Changing the name or the generation of an agent leaves it in its team. -/
theorem teamIdOf_rewrite {agents : List Agent} {id agentId : Nat} {f : Agent -> Agent}
    (hid : forall a, (f a).id = a.id) (hteam : forall a, (f a).teamId = a.teamId) :
    teamIdOf (rewriteRow Agent.id id f agents) agentId = teamIdOf agents agentId := by
  unfold teamIdOf
  rw [find?_rewriteRow hid]
  cases agents.find? fun a => a.id = agentId with
  | none => rfl
  | some a =>
      simp only [Option.map_some, Option.bind_some]
      split
      · exact hteam a
      · rfl

/-!
# What a request does to the usage
-/

/-- A request that deletes no tunnel keeps the tunnels' traffic and the quotas. -/
structure Adds (teamId : Nat) (db db' : Db) : Prop where
  teams : db'.teams = db.teams
  keyed : db'.Keyed
  counted : forall t, t ∈ db'.tunnels -> 0 ≤ t.bytesIn ∧ 0 ≤ t.bytesOut
  usage : db.usage teamId ≤ db'.usage teamId

theorem Settled.adds {db' : Db} {rows : Nat -> AgentRow} {revoked : List Nat}
    (h : Settled teamId s) (hadds : Adds teamId s.db db') :
    Settled teamId ⟨db', rows, revoked⟩ where
  keyed := hadds.keyed
  counted := hadds.counted
  suspended := by
    intro team hteam hid hsuspended
    rw [hadds.teams] at hteam
    exact overQuota_mono hadds.usage (h.suspended team hteam hid hsuspended)

theorem adds_self (h : Settled teamId s) : Adds teamId s.db s.db where
  teams := rfl
  keyed := h.keyed
  counted := h.counted
  usage := Int.le_refl _

theorem adds_bump (h : Settled teamId s) {agentId : Nat} {tunnels : List Tunnel}
    (hkeys : (tunnels.map Tunnel.id).Nodup)
    (hcounted : forall t, t ∈ tunnels -> 0 ≤ t.bytesIn ∧ 0 ≤ t.bytesOut)
    (hle : total (charge s.db.agents teamId) s.db.tunnels ≤
      total (charge s.db.agents teamId) tunnels) :
    Adds teamId s.db (Db.bump { s.db with tunnels := tunnels } agentId) where
  teams := rfl
  keyed := by
    constructor
    · exact nodup_keys_rewriteRow h.keyed.agents fun _ => rfl
    · exact hkeys
  counted := hcounted
  usage := by
    rw [usage_eq_total, usage_eq_total]
    apply Int.le_trans hle
    apply total_mono
    intro u _
    apply Int.le_of_eq
    apply (charge_congr _).symm
    exact teamIdOf_rewrite (fun _ => rfl) (fun _ => rfl)

theorem adds_createAgent {user : User} {fresh : Nat} {name : Text} {nodeId : Option Nat}
    {db' : Db} (h : Settled teamId s) (hfresh : s.db.agent? fresh = none)
    (hcreate : createAgent st s.db user fresh name nodeId = Except.ok db') :
    Adds teamId s.db db' := by
  simp only [createAgent, bind_ok, pure_ok] at hcreate
  rcases hcreate with ⟨name', -, _, -, _, -, _, -, rfl⟩
  constructor
  · rfl
  · constructor
    · exact nodup_keys_append h.keyed.agents hfresh
    · exact h.keyed.tunnels
  · exact h.counted
  · rw [usage_eq_total, usage_eq_total]
    apply total_mono
    intro u hu
    -- a tunnel of no agent may have become one of the new agent's
    cases hagent : s.db.agents.find? fun a => a.id = u.agentId with
    | none =>
        have hzero : charge s.db.agents teamId u = 0 := by
          simp [charge, teamIdOf, hagent]
        rw [hzero]
        exact charge_nonneg (h.counted u hu)
    | some a =>
        apply Int.le_of_eq
        apply (charge_congr _).symm
        simp [teamIdOf, List.find?_append, hagent]

theorem adds_updateAgent {user : User} {agentId : Nat} {name : Text} {db' : Db}
    (h : Settled teamId s) (hupdate : updateAgent s.db user agentId name = Except.ok db') :
    Adds teamId s.db db' := by
  simp only [updateAgent, bind_ok, pure_ok, found_ok] at hupdate
  rcases hupdate with ⟨name', -, a, -, _, -, _, -, rfl⟩
  constructor
  · rfl
  · constructor
    · exact nodup_keys_rewriteRow h.keyed.agents fun _ => rfl
    · exact h.keyed.tunnels
  · exact h.counted
  · rw [usage_eq_total, usage_eq_total]
    apply total_mono
    intro u _
    apply Int.le_of_eq
    apply (charge_congr _).symm
    exact teamIdOf_rewrite (fun _ => rfl) (fun _ => rfl)

theorem adds_createTunnel {user : User} {fresh agentId : Nat} {body : TunnelBody} {db' : Db}
    (h : Settled teamId s) (hfresh : s.db.tunnel? fresh = none)
    (hcreate : createTunnel pl st s.db user fresh agentId body = Except.ok db') :
    Adds teamId s.db db' := by
  simp only [createTunnel, bind_ok, pure_ok, found_ok] at hcreate
  rcases hcreate with ⟨name, -, a, -, _, -, _, -, _, -, _, -, _, -, _, -, _, -, _, -, _, -,
    port, -, rfl⟩
  apply adds_bump h
  · exact nodup_keys_append h.keyed.tunnels hfresh
  · intro u hu
    rcases List.mem_append.mp hu with hold | hnew
    · exact h.counted u hold
    · rw [List.mem_singleton.mp hnew]
      exact ⟨Int.le_refl 0, Int.le_refl 0⟩
  · rw [total_append]
    apply Int.le_add_of_nonneg_right
    apply total_nonneg
    intro u hu
    rw [List.mem_singleton.mp hu]
    exact charge_nonneg ⟨Int.le_refl 0, Int.le_refl 0⟩

theorem adds_updateTunnel {user : User} {tunnelId : Nat} {fields : TunnelFields} {db' : Db}
    (h : Settled teamId s)
    (hupdate : updateTunnel pl st s.db user tunnelId fields = Except.ok db') :
    Adds teamId s.db db' := by
  simp only [updateTunnel, bind_ok, pure_ok, found_ok] at hupdate
  rcases hupdate with ⟨u, -, a, -, _, -, _, -, _, -, _, -, _, -, port, -, _, -, rfl⟩
  apply adds_bump h
  · exact nodup_keys_rewriteRow h.keyed.tunnels fun _ => rfl
  · intro v hv
    rcases mem_rewriteRow hv with ⟨old, hold, ⟨-, rfl⟩ | ⟨-, rfl⟩⟩
    · exact h.counted old hold
    · exact h.counted v hold
  · unfold total rewriteRow
    rw [List.map_map]
    apply Int.le_of_eq
    congr 1
    apply List.map_congr_left
    intro v _
    simp only [Function.comp]
    split <;> rfl

/-- Deleting tunnels keeps the usage exactly when they have carried nothing for the team. -/
theorem usage_le_deleted (h : Settled teamId s) (agents : List Agent) (q : Tunnel -> Bool)
    (hteams : forall u, u ∈ s.db.tunnels -> q u = true ->
      teamIdOf agents u.agentId = teamIdOf s.db.agents u.agentId) :
    s.db.usage teamId ≤
        Db.usage { s.db with agents := agents, tunnels := s.db.tunnels.filter q } teamId <->
      forall u, u ∈ s.db.tunnels -> q u = false -> charge s.db.agents teamId u = 0 := by
  have hsame : total (charge agents teamId) (s.db.tunnels.filter q) =
      total (charge s.db.agents teamId) (s.db.tunnels.filter q) := by
    unfold total
    congr 1
    apply List.map_congr_left
    intro u hu
    rcases List.mem_filter.mp hu with ⟨hmem, hq⟩
    exact charge_congr (hteams u hmem hq)
  rw [usage_eq_total, usage_eq_total, hsame]
  exact total_le_filter_iff fun u hu => charge_nonneg (h.counted u hu)

/-!
# Deleting requests
-/

/-- The row of a team that is looked up by the tunnel's owner. -/
theorem teamIdOf_agent {agentId : Nat} {a : Agent} (h : s.db.agent? agentId = some a) :
    teamIdOf s.db.agents agentId = a.teamId := by
  have hfind : (s.db.agents.find? fun a => a.id = agentId) = some a := h
  simp [teamIdOf, hfind]

theorem charge_eq_zero_iff {u : Tunnel} {a : Agent} (h : s.db.agent? u.agentId = some a) :
    charge s.db.agents teamId u = 0 <-> (a.teamId = some teamId -> carried u = 0) := by
  unfold charge
  rw [teamIdOf_agent h]
  by_cases hteam : a.teamId = some teamId
  · simp [hteam]
  · simp [hteam]

theorem respond_deleteTunnel {user : User} {tunnelId : Nat} {u : Tunnel} {a : Agent}
    (hu : s.db.tunnel? tunnelId = some u) (ha : s.db.agent? u.agentId = some a)
    (hpass : Passes user a) :
    respond pl st s user (AgentCall.deleteTunnel tunnelId) = Except.ok
      ⟨{ s with db := Db.bump { s.db with
        tunnels := s.db.tunnels.filter fun t => t.id ≠ tunnelId } u.agentId },
        s.db.ownerOf tunnelId, [], []⟩ := by
  have hcheck : checkTeamAccess a.teamId user = Except.ok () := hpass
  simp [respond, deleteTunnel, hu, ha, hcheck, found, bind, Except.bind, pure, Except.pure]

theorem usage_deleteTunnel {tunnelId : Nat} {u : Tunnel} {a : Agent} (h : Settled teamId s)
    (hu : s.db.tunnel? tunnelId = some u) (ha : s.db.agent? u.agentId = some a) :
    s.db.usage teamId ≤ (Db.bump { s.db with
        tunnels := s.db.tunnels.filter fun t => t.id ≠ tunnelId } u.agentId).usage teamId <->
      (a.teamId = some teamId -> carried u = 0) := by
  have hdeleted := usage_le_deleted h (s.db.bump u.agentId).agents
    (fun t => t.id ≠ tunnelId) fun _ _ _ => teamIdOf_rewrite (fun _ => rfl) (fun _ => rfl)
  rw [← charge_eq_zero_iff ha]
  apply hdeleted.trans
  constructor
  · intro hall
    apply hall u (List.mem_of_find?_eq_some hu)
    have hid := List.find?_some hu
    simpa using hid
  · intro hzero v hv hid
    rw [h.keyed.tunnel_eq hu hv (by simpa using hid)]
    exact hzero

theorem respond_deleteAgent {user : User} {agentId : Nat} {a : Agent}
    (ha : s.db.agent? agentId = some a) (hpass : Passes user a) :
    respond pl st s user (AgentCall.deleteAgent agentId) = Except.ok
      ⟨{ s with
        db := { s.db with
          agents := s.db.agents.filter fun a => a.id ≠ agentId
          tunnels := s.db.tunnels.filter fun t => t.agentId ≠ agentId }
        revoked := s.revoked ++ Panel.deleteAgent (s.rows agentId) }, [], [], []⟩ := by
  have hcheck : checkTeamAccess a.teamId user = Except.ok () := hpass
  simp [respond, deleteAgent, ha, hcheck, found, bind, Except.bind, pure, Except.pure]

theorem usage_deleteAgent {agentId : Nat} {a : Agent} (h : Settled teamId s)
    (ha : s.db.agent? agentId = some a) :
    s.db.usage teamId ≤ Db.usage { s.db with
        agents := s.db.agents.filter fun a => a.id ≠ agentId
        tunnels := s.db.tunnels.filter fun t => t.agentId ≠ agentId } teamId <->
      (a.teamId = some teamId ->
        forall u, u ∈ s.db.tunnels -> u.agentId = agentId -> carried u = 0) := by
  have hteams : forall u, u ∈ s.db.tunnels -> decide (u.agentId ≠ agentId) = true ->
      teamIdOf (s.db.agents.filter fun a => a.id ≠ agentId) u.agentId =
        teamIdOf s.db.agents u.agentId := by
    intro u _ hne
    rw [decide_eq_true_eq] at hne
    unfold teamIdOf
    rw [List.find?_filter]
    congr 2
    funext a'
    by_cases hid : a'.id = u.agentId
    · simp [hid, hne]
    · simp [hid]
  apply (usage_le_deleted h _ _ hteams).trans
  have hzero : forall u, u.agentId = agentId ->
      (charge s.db.agents teamId u = 0 <-> (a.teamId = some teamId -> carried u = 0)) := by
    intro u hid
    apply charge_eq_zero_iff
    rw [hid]
    exact ha
  constructor
  · intro hall hteam u hu hid
    exact (hzero u hid).mp (hall u hu (by simp [hid])) hteam
  · intro hall u hu hid
    have hid : u.agentId = agentId := by simpa using hid
    exact (hzero u hid).mpr fun hteam => hall hteam u hu hid

/-- What the deletion leaves keeps the keys and the counters. -/
theorem settled_deleted {agents : List Agent} {q : Tunnel -> Bool} {rows : Nat -> AgentRow}
    {revoked : List Nat} (h : Settled teamId s) (hagents : (agents.map Agent.id).Nodup)
    (hle : s.db.usage teamId ≤
      Db.usage { s.db with agents := agents, tunnels := s.db.tunnels.filter q } teamId) :
    Settled teamId
      ⟨{ s.db with agents := agents, tunnels := s.db.tunnels.filter q }, rows, revoked⟩ := by
  apply h.adds
  constructor
  · rfl
  · exact ⟨hagents, nodup_keys_filter h.keyed.tunnels⟩
  · intro u hu
    exact h.counted u (List.mem_filter.mp hu).left
  · exact hle

/-!
# Every step
-/

/-- A request keeps the teams as they are, so it is the usage that counts. -/
theorem cumulative_iff_usage {a : Action} (hstep : step pl st s a = some t)
    (hteams : t.db.teams = s.db.teams) :
    Cumulative pl st teamId s a <-> s.db.usage teamId ≤ t.db.usage teamId := by
  constructor
  · intro h
    exact (h t hstep).left
  · intro hle u hu
    rw [hstep] at hu
    cases hu
    refine ⟨hle, fun hsuspended => ?_⟩
    rcases hsuspended with ⟨team, hteam, hrest⟩
    refine ⟨team, ?_, hrest⟩
    rw [hteams]
    exact hteam

theorem sample_nonneg {answer : Option (List StatsEntry)} (h : Counters answer)
    {agentId id : Nat} {today out : Int}
    (hsample : sampleOf answer agentId id = some (today, out)) : 0 ≤ today ∧ 0 ≤ out := by
  rcases Option.map_eq_some_iff.mp hsample with ⟨entry, hfound, hbytes⟩
  have hmem := List.mem_reverse.mp (List.mem_of_find?_eq_some hfound)
  rcases List.mem_map.mp hmem with ⟨e, he, rfl⟩
  have hcounters := h e he
  rw [show e.bytes = (today, out) from hbytes] at hcounters
  exact hcounters

/-- A poll only adds to the counters of a tunnel. -/
theorem counted_grows {answer : Option (List StatsEntry)} (hcounters : Counters answer)
    (u : Tunnel) :
    u.bytesIn ≤ (u.counted (sampleOf answer)).bytesIn ∧
      u.bytesOut ≤ (u.counted (sampleOf answer)).bytesOut := by
  constructor
  · exact Metering.le_bytesIn fun today out hsample =>
      (sample_nonneg hcounters hsample).left
  · exact Metering.le_bytesOut fun today out hsample =>
      (sample_nonneg hcounters hsample).right

theorem usage_poll {answer : Option (List StatsEntry)} (hcounters : Counters answer)
    (db : Db) : db.usage teamId ≤ (pollOnce (sampleOf answer) db).usage teamId := by
  rw [usage_eq_total, usage_eq_total]
  unfold total
  rw [Metering.pollOnce_tunnels, List.map_map]
  apply total_mono
  intro u _
  have hle := counted_grows hcounters u
  simp only [Function.comp, charge, Metering.counted_agentId]
  unfold carried
  split
  · rename_i hteam
    rw [if_pos (by exact hteam)]
    omega
  · rename_i hteam
    rw [if_neg (by exact hteam)]

theorem Settled.poll {answer : Option (List StatsEntry)} (h : Settled teamId s)
    (hcounters : Counters answer) :
    Settled teamId { s with db := pollOnce (sampleOf answer) s.db } := by
  constructor
  · constructor
    · exact h.keyed.agents
    · simp only [Metering.pollOnce_tunnels, List.map_map]
      have hids : (Tunnel.id ∘ Tunnel.counted (sampleOf answer)) = Tunnel.id := by
        funext u
        exact Metering.counted_id _ u
      rw [hids]
      exact h.keyed.tunnels
  · intro u hu
    rcases List.mem_map.mp hu with ⟨v, hv, rfl⟩
    have hle := counted_grows hcounters v
    have hpos := h.counted v hv
    omega
  · intro team hteam hid hsuspended
    rcases List.mem_map.mp hteam with ⟨old, hold, rfl⟩
    have hid' : old.id = teamId := hid
    subst hid'
    exact hsuspended

/-- A team that is over its quota before a poll stays suspended by it. -/
theorem suspended_poll {answer : Option (List StatsEntry)} (h : Settled teamId s)
    (hcounters : Counters answer) (hsuspended : Suspended teamId s.db) :
    Suspended teamId (pollOnce (sampleOf answer) s.db) := by
  rcases hsuspended with ⟨team, hteam, rfl, hflag⟩
  have hover := h.suspended team hteam rfl hflag
  exact ⟨_, List.mem_map.mpr ⟨team, hteam, rfl⟩, rfl,
    overQuota_mono (usage_poll hcounters s.db) hover⟩

/-- The calls that delete no tunnel add. -/
theorem adds_of_respond {user : User} {call : AgentCall} {reply : Reply}
    (h : Settled teamId s) (hfresh : s.db.FreshFor call)
    (hagent : forall agentId, call ≠ AgentCall.deleteAgent agentId)
    (htunnel : forall tunnelId, call ≠ AgentCall.deleteTunnel tunnelId)
    (hrespond : respond pl st s user call = Except.ok reply) :
    Adds teamId s.db reply.site.db := by
  cases call with
  | listAgents =>
      cases hrespond
      exact adds_self h
  | createAgent fresh name nodeId token =>
      simp only [respond, bind_ok, pure_ok] at hrespond
      rcases hrespond with ⟨db', hcreate, rfl⟩
      exact adds_createAgent h hfresh.right hcreate
  | updateAgent agentId name =>
      simp only [respond, bind_ok, pure_ok] at hrespond
      rcases hrespond with ⟨db', hupdate, rfl⟩
      exact adds_updateAgent h hupdate
  | deleteAgent agentId => exact absurd rfl (hagent agentId)
  | reissueToken agentId token =>
      simp only [respond, reissue, bind_ok, pure_ok] at hrespond
      rcases hrespond with ⟨site', ⟨_, -, a, -, rfl⟩, rfl⟩
      exact adds_self h
  | listTunnels agentId =>
      simp only [respond, bind_ok, pure_ok] at hrespond
      rcases hrespond with ⟨tunnels, -, rfl⟩
      exact adds_self h
  | createTunnel fresh agentId body =>
      simp only [respond, bind_ok, pure_ok] at hrespond
      rcases hrespond with ⟨db', hcreate, rfl⟩
      exact adds_createTunnel h hfresh.right hcreate
  | updateTunnel tunnelId fields =>
      simp only [respond, bind_ok, pure_ok] at hrespond
      rcases hrespond with ⟨db', hupdate, rfl⟩
      exact adds_updateTunnel h hupdate
  | deleteTunnel tunnelId => exact absurd rfl (htunnel tunnelId)

theorem step_request {actor : Nat} {call : AgentCall}
    (hstep : step pl st s (Action.request actor call) = some t) :
    (s.db.user? actor = none ∧ t = s) ∨
      exists user, s.db.user? actor = some user ∧ s.db.FreshFor call ∧
        ((exists e, respond pl st s user call = Except.error e ∧ t = s) ∨
          exists reply, respond pl st s user call = Except.ok reply ∧ t = reply.site) := by
  simp only [step] at hstep
  split at hstep
  · rename_i huser
    cases hstep
    exact Or.inl ⟨huser, rfl⟩
  · rename_i user huser
    apply Or.inr
    split at hstep
    · cases hstep
    · rename_i hallowed
      rw [not_or, not_not] at hallowed
      refine ⟨user, huser, hallowed.right, ?_⟩
      split at hstep
      · rename_i e hrespond
        cases hstep
        exact Or.inl ⟨e, hrespond, rfl⟩
      · rename_i reply hrespond
        cases hstep
        exact Or.inr ⟨reply, hrespond, rfl⟩

theorem spec_idle {a : Action} (h : Settled teamId s) (hstep : step pl st s a = some s)
    (hspares : Spares teamId s a) :
    (Cumulative pl st teamId s a <-> Spares teamId s a) ∧ Settled teamId s := by
  refine ⟨?_, h⟩
  rw [cumulative_iff_usage hstep rfl]
  exact ⟨fun _ => hspares, fun _ => Int.le_refl _⟩

theorem spec_deleteTunnel {actor tunnelId : Nat} (h : Settled teamId s)
    (hstep : step pl st s (Action.request actor (AgentCall.deleteTunnel tunnelId)) = some t) :
    (Cumulative pl st teamId s (Action.request actor (AgentCall.deleteTunnel tunnelId)) <->
      Spares teamId s (Action.request actor (AgentCall.deleteTunnel tunnelId))) ∧
    (Spares teamId s (Action.request actor (AgentCall.deleteTunnel tunnelId)) ->
      Settled teamId t) := by
  rcases step_request hstep with ⟨hnone, rfl⟩ | ⟨user, huser, -, hrequest⟩
  · have hspares : Spares teamId t (Action.request actor (AgentCall.deleteTunnel tunnelId)) := by
      intro user huser
      rw [hnone] at huser
      cases huser
    rcases spec_idle h hstep hspares with ⟨hiff, hsettled⟩
    exact ⟨hiff, fun _ => hsettled⟩
  · rcases hrequest with ⟨e, herror, rfl⟩ | ⟨reply, hok, rfl⟩
    · have hspares :
          Spares teamId t (Action.request actor (AgentCall.deleteTunnel tunnelId)) := by
        intro user' huser' u hu a ha hpass _
        rw [huser] at huser'
        cases huser'
        rw [respond_deleteTunnel hu ha hpass] at herror
        cases herror
      rcases spec_idle h hstep hspares with ⟨hiff, hsettled⟩
      exact ⟨hiff, fun _ => hsettled⟩
    · have hinv := hok
      simp only [respond, deleteTunnel, bind_ok, pure_ok, found_ok] at hinv
      rcases hinv with ⟨db', ⟨u, hu, a, ha, _, hpass, rfl⟩, rfl⟩
      have husage := usage_deleteTunnel h hu ha
      have hspares :
          Spares teamId s (Action.request actor (AgentCall.deleteTunnel tunnelId)) <->
            (a.teamId = some teamId -> carried u = 0) := by
        constructor
        · intro hall
          exact hall user huser u hu a ha hpass
        · intro hzero user' _ u' hu' a' ha' _
          rw [hu] at hu'
          cases hu'
          rw [ha] at ha'
          cases ha'
          exact hzero
      constructor
      · rw [cumulative_iff_usage hstep rfl, hspares]
        exact husage
      · intro hall
        exact settled_deleted h (nodup_keys_rewriteRow h.keyed.agents fun _ => rfl)
          (husage.mpr (hspares.mp hall))

theorem spec_deleteAgent {actor agentId : Nat} (h : Settled teamId s)
    (hstep : step pl st s (Action.request actor (AgentCall.deleteAgent agentId)) = some t) :
    (Cumulative pl st teamId s (Action.request actor (AgentCall.deleteAgent agentId)) <->
      Spares teamId s (Action.request actor (AgentCall.deleteAgent agentId))) ∧
    (Spares teamId s (Action.request actor (AgentCall.deleteAgent agentId)) ->
      Settled teamId t) := by
  rcases step_request hstep with ⟨hnone, rfl⟩ | ⟨user, huser, -, hrequest⟩
  · have hspares : Spares teamId t (Action.request actor (AgentCall.deleteAgent agentId)) := by
      intro user huser
      rw [hnone] at huser
      cases huser
    rcases spec_idle h hstep hspares with ⟨hiff, hsettled⟩
    exact ⟨hiff, fun _ => hsettled⟩
  · rcases hrequest with ⟨e, herror, rfl⟩ | ⟨reply, hok, rfl⟩
    · have hspares :
          Spares teamId t (Action.request actor (AgentCall.deleteAgent agentId)) := by
        intro user' huser' a ha hpass
        rw [huser] at huser'
        cases huser'
        rw [respond_deleteAgent ha hpass] at herror
        cases herror
      rcases spec_idle h hstep hspares with ⟨hiff, hsettled⟩
      exact ⟨hiff, fun _ => hsettled⟩
    · have hinv := hok
      simp only [respond, deleteAgent, bind_ok, pure_ok, found_ok] at hinv
      rcases hinv with ⟨db', ⟨a, ha, _, hpass, rfl⟩, rfl⟩
      have husage := usage_deleteAgent h ha
      have hspares :
          Spares teamId s (Action.request actor (AgentCall.deleteAgent agentId)) <->
            (a.teamId = some teamId ->
              forall u, u ∈ s.db.tunnels -> u.agentId = agentId -> carried u = 0) := by
        constructor
        · intro hall
          exact hall user huser a ha hpass
        · intro hzero user' _ a' ha' _
          rw [ha] at ha'
          cases ha'
          exact hzero
      constructor
      · rw [cumulative_iff_usage hstep rfl, hspares]
        exact husage
      · intro hall
        exact settled_deleted h (nodup_keys_filter h.keyed.agents)
          (husage.mpr (hspares.mp hall))

/-- A call that deletes no tunnel. -/
theorem spec_adding {actor : Nat} {call : AgentCall} (h : Settled teamId s)
    (hagent : forall agentId, call ≠ AgentCall.deleteAgent agentId)
    (htunnel : forall tunnelId, call ≠ AgentCall.deleteTunnel tunnelId)
    (hstep : step pl st s (Action.request actor call) = some t) :
    Cumulative pl st teamId s (Action.request actor call) ∧ Settled teamId t := by
  rcases step_request hstep with ⟨-, rfl⟩ | ⟨user, -, hfresh, hrequest⟩
  · exact ⟨(cumulative_iff_usage hstep rfl).mpr (Int.le_refl _), h⟩
  · rcases hrequest with ⟨e, -, rfl⟩ | ⟨reply, hok, rfl⟩
    · exact ⟨(cumulative_iff_usage hstep rfl).mpr (Int.le_refl _), h⟩
    · have hadds := adds_of_respond h hfresh hagent htunnel hok
      exact ⟨(cumulative_iff_usage hstep hadds.teams).mpr hadds.usage, h.adds hadds⟩

theorem step_spec {a : Action} (h : Settled teamId s) (hstep : step pl st s a = some t) :
    (Cumulative pl st teamId s a <-> Spares teamId s a) ∧
      (Spares teamId s a -> Settled teamId t) := by
  have hadding : forall {actor : Nat} {call : AgentCall},
      (forall agentId, call ≠ AgentCall.deleteAgent agentId) ->
      (forall tunnelId, call ≠ AgentCall.deleteTunnel tunnelId) ->
      step pl st s (Action.request actor call) = some t ->
      (Cumulative pl st teamId s (Action.request actor call) <-> True) ∧
        (True -> Settled teamId t) := by
    intro actor call hagent htunnel hrequest
    rcases spec_adding h hagent htunnel hrequest with ⟨hcumulative, hsettled⟩
    exact ⟨⟨fun _ => trivial, fun _ => hcumulative⟩, fun _ => hsettled⟩
  cases a with
  | poll answer =>
      have hpoll := hstep
      simp only [step] at hpoll
      split at hpoll
      · rename_i hcounters
        cases hpoll
        refine ⟨⟨fun _ => trivial, fun _ u hu => ?_⟩, fun _ => h.poll hcounters⟩
        rw [hstep] at hu
        cases hu
        exact ⟨usage_poll hcounters s.db, suspended_poll h hcounters⟩
      · cases hpoll
  | request actor call =>
      cases call with
      | deleteTunnel tunnelId => exact spec_deleteTunnel h hstep
      | deleteAgent agentId => exact spec_deleteAgent h hstep
      | listAgents => exact hadding (fun _ => by simp) (fun _ => by simp) hstep
      | createAgent fresh name nodeId token =>
          exact hadding (fun _ => by simp) (fun _ => by simp) hstep
      | updateAgent agentId name => exact hadding (fun _ => by simp) (fun _ => by simp) hstep
      | reissueToken agentId token =>
          exact hadding (fun _ => by simp) (fun _ => by simp) hstep
      | listTunnels agentId => exact hadding (fun _ => by simp) (fun _ => by simp) hstep
      | createTunnel fresh agentId body =>
          exact hadding (fun _ => by simp) (fun _ => by simp) hstep
      | updateTunnel tunnelId fields =>
          exact hadding (fun _ => by simp) (fun _ => by simp) hstep

/-- No step of a run lowers the usage of the team or resumes it exactly when none deletes
tunnels of the team that have carried traffic. -/
theorem cumulative_iff_spares {actions : List Action} (hs : Settled teamId s)
    (hexec : (machine pl st teamId).exec s actions = some t) :
    (machine pl st teamId).Obeys (Cumulative pl st teamId) s actions <->
      (machine pl st teamId).Obeys (Spares teamId) s actions := by
  have hkeep : forall s a t, Settled teamId s -> Spares teamId s a ->
      (machine pl st teamId).step s a = some t -> Settled teamId t := by
    intro s a t h hspares hstep
    exact (step_spec h hstep).right hspares
  have hsame : forall s a t, Settled teamId s ->
      (machine pl st teamId).step s a = some t ->
        (Cumulative pl st teamId s a <-> Spares teamId s a) := by
    intro s a t h hstep
    exact (step_spec h hstep).left
  exact Machine.obeys_iff_obeys hkeep hsame hs hexec

end Runs

/-- A tunnel of agent 3 that has carried this much. -/
def tunnelOf (id : Nat) (bytesIn : Int) : Tunnel where
  id := id
  agentId := 3
  name := 't' :: Nat.toDigits 10 id
  type := TunnelType.tcp
  remotePort := some (12000 + id)
  subdomain := none
  customDomains := none
  enabled := true
  healthCheckType := none
  bytesIn := bytesIn
  bytesOut := 0
  lastTodayIn := bytesIn
  lastTodayOut := 0

/-- A team over its quota, with a tunnel that has carried all of it and an idle one. -/
def overSite : Site where
  db :=
    { teams := [⟨1, "core".toList, some "core".toList, some 50, true⟩]
      users := [⟨2, "core@rc-tunnel.com".toList, Role.user, some 1⟩]
      agents := [⟨3, "edge-3".toList, some 1, 0⟩]
      tunnels := [tunnelOf 5 60, tunnelOf 6 0] }
  rows := fun _ => ⟨"token", true, none, none⟩
  revoked := []

theorem settled_overSite : Settled 1 overSite where
  keyed := ⟨by decide, by decide⟩
  counted := by decide
  suspended := by decide

/-- The team deletes its idle tunnel, and is polled. -/
theorem cumulative_of_idle_deleted :
    (machine asciiPlatform deployed 1).Obeys (Cumulative asciiPlatform deployed 1) overSite
      [Action.request 2 (AgentCall.deleteTunnel 6), Action.poll none] := by
  apply (cumulative_iff_spares settled_overSite rfl).mpr
  constructor
  · intro user _ u hu a _ _ _
    cases hu
    rfl
  · intro s' _
    exact ⟨trivial, fun _ _ => trivial⟩

/-- The team deletes the tunnel that has carried its quota, and the next poll resumes it. -/
def evasion : List Action := [Action.request 2 (AgentCall.deleteTunnel 5), Action.poll none]

theorem resumes_after_evasion :
    ¬ forall (teamId : Nat) (s t : Site) (actions : List Action), Settled teamId s ->
      (machine asciiPlatform deployed teamId).exec s actions = some t ->
        (machine asciiPlatform deployed teamId).Obeys
          (Cumulative asciiPlatform deployed teamId) s actions := by
  intro h
  have hobeys := h 1 overSite _ evasion settled_overSite rfl
  have hpoll := ((hobeys.right _ rfl).left _ rfl).right
  have hsuspended := hpoll ⟨_, List.mem_cons_self, rfl, rfl⟩
  rcases hsuspended with ⟨team, hteam, -, hflag⟩
  cases List.mem_singleton.mp hteam
  cases hflag

end Quota

end Api

end Panel
end RcTunnel
