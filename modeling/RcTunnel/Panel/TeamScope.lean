import Mathlib.Data.List.Nodup
import RcTunnel.Panel.AgentRow
import RcTunnel.Panel.Disjoint

/-!
# The agent and tunnel endpoints, and whose rows they touch

Every endpoint looks up the agent it is about and checks the team of the user
against the agent's.  The list of agents is filtered by a query of its own.  The
two agree for a user with a team; a user without one is listed the agents that
have no team either, which the check refuses.

The main result says when an agent is listed to a user exactly if the check
passes, and that a request touches no row, and notifies no agent, of another
team.
-/

namespace RcTunnel
namespace Panel

open Foundation

namespace Api

/-- The tables, with the certificate columns of the agents, and the revoked serials. -/
structure Site where
  db : Db
  rows : Nat -> AgentRow
  revoked : List Nat

/-- A request to the agent or tunnel endpoints, with the ids and the tokens it draws. -/
inductive AgentCall where
  | listAgents
  | createAgent (fresh : Nat) (name : Text) (nodeId : Option Nat) (token : String)
  | updateAgent (agentId : Nat) (name : Text)
  | deleteAgent (agentId : Nat)
  | reissueToken (agentId : Nat) (token : String)
  | listTunnels (agentId : Nat)
  | createTunnel (fresh agentId : Nat) (body : TunnelBody)
  | updateTunnel (tunnelId : Nat) (fields : TunnelFields)
  | deleteTunnel (tunnelId : Nat)
deriving DecidableEq, Repr

/-- What a request leaves, whom it notifies, and the rows it answers with. -/
structure Reply where
  site : Site
  notified : List Nat
  agents : List Agent
  tunnels : List Tunnel

/-- {lit}`list_agents`; without a team the query is for agents without one. -/
def listAgents (db : Db) (user : User) : List Agent :=
  if user.role = Role.admin then db.agents
  else db.agents.filter fun a => a.teamId = user.teamId

/-- {lit}`_agent_or_404`. -/
def agentOr404 (db : Db) (user : User) (agentId : Nat) : Except Error Agent := do
  let a ← found (db.agent? agentId) 404 "agent not found".toList
  checkTeamAccess a.teamId user
  return a

/-- {lit}`list_tunnels`. -/
def listTunnels (db : Db) (user : User) (agentId : Nat) : Except Error (List Tunnel) := do
  let _ ← agentOr404 db user agentId
  return db.tunnels.filter fun t => t.agentId = agentId

/-- The agent whose tunnel it is; its config is pushed after a change. -/
def Db.ownerOf (db : Db) (tunnelId : Nat) : List Nat :=
  ((db.tunnel? tunnelId).map Tunnel.agentId).toList

/-- {lit}`reissue_token`. -/
def reissue (site : Site) (user : User) (agentId : Nat) (token : String) :
    Except Error Site := do
  require (user.role = Role.admin ∨ user.role = Role.teamAdmin) 403
    "only a team admin can reissue tokens".toList
  let _ ← agentOr404 site.db user agentId
  let (row, lines) := Panel.reissueToken token (site.rows agentId)
  return { site with
    rows := Function.update site.rows agentId row
    revoked := site.revoked ++ lines }

section Requests

variable (pl : Platform) (st : Settings)

/-- The endpoints of {lit}`api/agents.py` and {lit}`api/tunnels.py` for a signed-in user. -/
def respond (site : Site) (user : User) : AgentCall -> Except Error Reply
  | AgentCall.listAgents => return ⟨site, [], listAgents site.db user, []⟩
  | AgentCall.createAgent fresh name nodeId token => do
      let db ← createAgent st site.db user fresh name nodeId
      let row : AgentRow := ⟨token, false, none, none⟩
      return ⟨{ site with db := db, rows := Function.update site.rows fresh row }, [],
        (db.agent? fresh).toList, []⟩
  | AgentCall.updateAgent agentId name => do
      let db ← updateAgent site.db user agentId name
      return ⟨{ site with db := db }, [], (db.agent? agentId).toList, []⟩
  | AgentCall.deleteAgent agentId => do
      let db ← deleteAgent site.db user agentId
      return ⟨{ site with
        db := db
        revoked := site.revoked ++ Panel.deleteAgent (site.rows agentId) }, [], [], []⟩
  | AgentCall.reissueToken agentId token => do
      let site ← reissue site user agentId token
      return ⟨site, [], (site.db.agent? agentId).toList, []⟩
  | AgentCall.listTunnels agentId => do
      let tunnels ← listTunnels site.db user agentId
      return ⟨site, [], [], tunnels⟩
  | AgentCall.createTunnel fresh agentId body => do
      let db ← createTunnel pl st site.db user fresh agentId body
      return ⟨{ site with db := db }, [agentId], [], (db.tunnel? fresh).toList⟩
  | AgentCall.updateTunnel tunnelId fields => do
      let db ← updateTunnel pl st site.db user tunnelId fields
      return ⟨{ site with db := db }, site.db.ownerOf tunnelId, [],
        (db.tunnel? tunnelId).toList⟩
  | AgentCall.deleteTunnel tunnelId => do
      let db ← deleteTunnel site.db user tunnelId
      return ⟨{ site with db := db }, site.db.ownerOf tunnelId, [], []⟩

end Requests

/-- The ids that a request draws are not in use. -/
def Db.FreshFor (db : Db) : AgentCall -> Prop
  | AgentCall.createAgent fresh _ _ _ => fresh ≠ 0 ∧ db.agent? fresh = none
  | AgentCall.createTunnel fresh _ _ => fresh ≠ 0 ∧ db.tunnel? fresh = none
  | _ => True

instance (db : Db) : forall call, Decidable (db.FreshFor call)
  | AgentCall.createAgent _ _ _ _ | AgentCall.createTunnel _ _ _ =>
      inferInstanceAs (Decidable (_ ∧ _))
  | AgentCall.listAgents | AgentCall.updateAgent _ _ | AgentCall.deleteAgent _
  | AgentCall.reissueToken _ _ | AgentCall.listTunnels _ | AgentCall.updateTunnel _ _
  | AgentCall.deleteTunnel _ => isTrue trivial

/-- The primary keys of agents and tunnels. -/
structure Db.Keyed (db : Db) : Prop where
  agents : (db.agents.map Agent.id).Nodup
  tunnels : (db.tunnels.map Tunnel.id).Nodup

/-!
# Rows of other teams
-/

/-- {lit}`check_team_access` passes for the agent. -/
def Passes (user : User) (a : Agent) : Prop :=
  checkTeamAccess a.teamId user = Except.ok ()

instance (user : User) (a : Agent) : Decidable (Passes user a) :=
  decidable_of_iff (user.role = Role.admin ∨ (a.teamId ≠ none ∧ a.teamId = user.teamId))
    require_ok.symm

/-- The agent of the id is one the check refuses the user. -/
def Db.hides (db : Db) (user : User) (agentId : Nat) : Bool :=
  (db.agent? agentId).any fun a => ¬ Passes user a

/-- What a request leaves as it was, and whom it does not notify. -/
structure Untouched (user : User) (site : Site) (reply : Reply) : Prop where
  agents : (reply.site.db.agents.filter fun a => site.db.hides user a.id) =
    site.db.agents.filter fun a => site.db.hides user a.id
  tunnels : (reply.site.db.tunnels.filter fun t => site.db.hides user t.agentId) =
    site.db.tunnels.filter fun t => site.db.hides user t.agentId
  rows : forall agentId, site.db.hides user agentId = true ->
    reply.site.rows agentId = site.rows agentId
  notified : forall agentId, agentId ∈ reply.notified ->
    exists a, site.db.agent? agentId = some a ∧ Passes user a

section Scope

variable {pl : Platform} {st : Settings} {user : User} {site : Site} {db : Db}

theorem passes_iff {a : Agent} :
    Passes user a <-> user.role = Role.admin ∨ (a.teamId ≠ none ∧ a.teamId = user.teamId) :=
  require_ok

theorem not_hides_of_passes {a : Agent} {agentId : Nat} (ha : db.agent? agentId = some a)
    (hpass : Passes user a) : db.hides user agentId = false := by
  simp [Db.hides, ha, hpass]

theorem not_hides_of_unknown {agentId : Nat} (h : db.agent? agentId = none) :
    db.hides user agentId = false := by
  simp [Db.hides, h]

/-- Two tunnels of one id are one. -/
theorem Db.Keyed.tunnel_eq (h : db.Keyed) {t u : Tunnel} {tunnelId : Nat}
    (hfound : db.tunnel? tunnelId = some t) (hu : u ∈ db.tunnels) (hid : u.id = tunnelId) :
    u = t := by
  have ht := List.mem_of_find?_eq_some hfound
  have htid := List.find?_some hfound
  rw [decide_eq_true_eq] at htid
  exact List.inj_on_of_nodup_map h.tunnels hu ht (hid.trans htid.symm)

/-- The rows of an agent are all that changing its generation touches. -/
theorem bump_agents {agentId : Nat} {p : Agent -> Bool}
    (hp : forall a, a.id = agentId -> p a = false) :
    (db.bump agentId).agents.filter p = db.agents.filter p := by
  unfold Db.bump
  apply filter_rewriteRow
  intro a _ hid
  exact ⟨hp a hid, hp _ hid⟩

/-!
# Every endpoint
-/

theorem untouched_self {agents : List Agent} {tunnels : List Tunnel} :
    Untouched user site ⟨site, [], agents, tunnels⟩ where
  agents := rfl
  tunnels := rfl
  rows := fun _ _ => rfl
  notified := by simp

theorem agentOr404_ok {agentId : Nat} {a : Agent}
    (h : agentOr404 db user agentId = Except.ok a) :
    db.agent? agentId = some a ∧ Passes user a := by
  simp only [agentOr404, bind_ok, pure_ok, found_ok] at h
  rcases h with ⟨a', hfound, _, hpass, rfl⟩
  exact ⟨hfound, hpass⟩

theorem hides_other {agentId other : Nat} (h : db.hides user agentId = false)
    (hother : db.hides user other = true) : other ≠ agentId := by
  rintro rfl
  rw [h] at hother
  cases hother

theorem untouched_createAgent {fresh : Nat} {name : Text} {nodeId : Option Nat}
    {token : String} {reply : Reply}
    (hfresh : site.db.FreshFor (AgentCall.createAgent fresh name nodeId token))
    (h : respond pl st site user (AgentCall.createAgent fresh name nodeId token) =
      Except.ok reply) : Untouched user site reply := by
  simp only [respond, createAgent, bind_ok, pure_ok] at h
  rcases h with ⟨db', ⟨name', -, _, -, _, -, _, -, rfl⟩, rfl⟩
  have hnew : site.db.hides user fresh = false := not_hides_of_unknown hfresh.right
  constructor
  · exact filter_appended hnew
  · rfl
  · intro agentId hhidden
    exact Function.update_of_ne (hides_other hnew hhidden) _ _
  · simp

theorem untouched_updateAgent {agentId : Nat} {name : Text} {reply : Reply}
    (h : respond pl st site user (AgentCall.updateAgent agentId name) = Except.ok reply) :
    Untouched user site reply := by
  simp only [respond, updateAgent, bind_ok, pure_ok, found_ok] at h
  rcases h with ⟨db', ⟨name', -, a, hfound, _, hpass, _, -, rfl⟩, rfl⟩
  have hshown := not_hides_of_passes hfound hpass
  constructor
  · apply filter_rewriteRow
    intro a' _ hid
    subst hid
    exact ⟨hshown, hshown⟩
  · rfl
  · intro _ _
    rfl
  · simp

theorem untouched_deleteAgent {agentId : Nat} {reply : Reply}
    (h : respond pl st site user (AgentCall.deleteAgent agentId) = Except.ok reply) :
    Untouched user site reply := by
  simp only [respond, deleteAgent, bind_ok, pure_ok, found_ok] at h
  rcases h with ⟨db', ⟨a, hfound, _, hpass, rfl⟩, rfl⟩
  have hshown := not_hides_of_passes hfound hpass
  constructor
  · apply filter_removed
    intro a' _ hhidden
    exact decide_eq_true (hides_other hshown hhidden)
  · apply filter_removed
    intro t _ hhidden
    exact decide_eq_true (hides_other hshown hhidden)
  · intro _ _
    rfl
  · simp

theorem untouched_reissueToken {agentId : Nat} {token : String} {reply : Reply}
    (h : respond pl st site user (AgentCall.reissueToken agentId token) = Except.ok reply) :
    Untouched user site reply := by
  simp only [respond, reissue, bind_ok, pure_ok] at h
  rcases h with ⟨site', ⟨_, -, a, hfound, rfl⟩, rfl⟩
  rcases agentOr404_ok hfound with ⟨hagent, hpass⟩
  have hshown := not_hides_of_passes hagent hpass
  constructor
  · rfl
  · rfl
  · intro other hhidden
    exact Function.update_of_ne (hides_other hshown hhidden) _ _
  · simp

theorem untouched_createTunnel {fresh agentId : Nat} {body : TunnelBody} {reply : Reply}
    (h : respond pl st site user (AgentCall.createTunnel fresh agentId body) =
      Except.ok reply) : Untouched user site reply := by
  simp only [respond, createTunnel, bind_ok, pure_ok, found_ok] at h
  rcases h with ⟨db', ⟨name, -, a, hfound, _, hpass, _, -, _, -, _, -, _, -, _, -, _, -,
    _, -, _, -, port, -, rfl⟩, rfl⟩
  have hshown := not_hides_of_passes hfound hpass
  constructor
  · apply bump_agents
    intro a' hid
    subst hid
    exact hshown
  · exact filter_appended hshown
  · intro _ _
    rfl
  · intro other hother
    rw [List.mem_singleton.mp hother]
    exact ⟨a, hfound, hpass⟩

theorem untouched_updateTunnel {tunnelId : Nat} {fields : TunnelFields} {reply : Reply}
    (hkeys : site.db.Keyed)
    (h : respond pl st site user (AgentCall.updateTunnel tunnelId fields) =
      Except.ok reply) : Untouched user site reply := by
  simp only [respond, updateTunnel, bind_ok, pure_ok, found_ok] at h
  rcases h with ⟨db', ⟨t, ht, a, hfound, _, hpass, _, -, _, -, _, -, _, -, port, -,
    _, -, rfl⟩, rfl⟩
  have hshown := not_hides_of_passes hfound hpass
  constructor
  · apply bump_agents
    intro a' hid
    rw [hid]
    exact hshown
  · apply filter_rewriteRow
    intro u hu hid
    rw [hkeys.tunnel_eq ht hu hid]
    exact ⟨hshown, hshown⟩
  · intro _ _
    rfl
  · intro other hother
    simp only [Db.ownerOf, ht, Option.map_some, Option.toList_some, List.mem_singleton]
      at hother
    subst hother
    exact ⟨a, hfound, hpass⟩

theorem untouched_deleteTunnel {tunnelId : Nat} {reply : Reply} (hkeys : site.db.Keyed)
    (h : respond pl st site user (AgentCall.deleteTunnel tunnelId) = Except.ok reply) :
    Untouched user site reply := by
  simp only [respond, deleteTunnel, bind_ok, pure_ok, found_ok] at h
  rcases h with ⟨db', ⟨t, ht, a, hfound, _, hpass, rfl⟩, rfl⟩
  have hshown := not_hides_of_passes hfound hpass
  constructor
  · apply bump_agents
    intro a' hid
    rw [hid]
    exact hshown
  · apply filter_removed
    intro u hu hhidden
    apply decide_eq_true
    intro hid
    rw [hkeys.tunnel_eq ht hu hid] at hhidden
    rw [hshown] at hhidden
    cases hhidden
  · intro _ _
    rfl
  · intro other hother
    simp only [Db.ownerOf, ht, Option.map_some, Option.toList_some, List.mem_singleton]
      at hother
    subst hother
    exact ⟨a, hfound, hpass⟩

theorem untouched_of_respond {call : AgentCall} {reply : Reply} (hkeys : site.db.Keyed)
    (hfresh : site.db.FreshFor call) (h : respond pl st site user call = Except.ok reply) :
    Untouched user site reply := by
  cases call with
  | listAgents =>
      cases h
      exact untouched_self
  | createAgent fresh name nodeId token => exact untouched_createAgent hfresh h
  | updateAgent agentId name => exact untouched_updateAgent h
  | deleteAgent agentId => exact untouched_deleteAgent h
  | reissueToken agentId token => exact untouched_reissueToken h
  | listTunnels agentId =>
      simp only [respond, bind_ok, pure_ok] at h
      rcases h with ⟨tunnels, -, rfl⟩
      exact untouched_self
  | createTunnel fresh agentId body => exact untouched_createTunnel h
  | updateTunnel tunnelId fields => exact untouched_updateTunnel hkeys h
  | deleteTunnel tunnelId => exact untouched_deleteTunnel hkeys h

/-!
# The list of agents
-/

/-- Every agent is in the answer to the list request exactly if the check passes. -/
def ListsOwn (pl : Platform) (st : Settings) (user : User) (site : Site) : Prop :=
  forall reply, respond pl st site user AgentCall.listAgents = Except.ok reply ->
    forall a, a ∈ site.db.agents -> (a ∈ reply.agents <-> Passes user a)

/-- The user has a team, or every agent has one. -/
def Teamed (user : User) (db : Db) : Prop :=
  user.teamId ≠ none ∨ forall a, a ∈ db.agents -> a.teamId ≠ none

/-- The query lists an agent that the check refuses only when neither it nor the user
has a team. -/
theorem listsOwn_iff (huser : user.role ≠ Role.admin) :
    ListsOwn pl st user site <-> Teamed user site.db := by
  have hlisted : forall a, a ∈ site.db.agents ->
      (a ∈ listAgents site.db user <-> a.teamId = user.teamId) := by
    intro a ha
    simp [listAgents, huser, ha]
  constructor
  · intro hlists
    by_cases hteam : user.teamId = none
    · apply Or.inr
      intro a ha hnone
      have hpass := (hlists _ rfl a ha).mp ((hlisted a ha).mpr (hnone.trans hteam.symm))
      rcases passes_iff.mp hpass with hadmin | ⟨hne, -⟩
      · exact huser hadmin
      · exact hne hnone
    · exact Or.inl hteam
  · intro hteamed reply hreply a ha
    cases hreply
    rw [hlisted a ha, passes_iff]
    constructor
    · intro heq
      apply Or.inr
      rcases hteamed with hteam | hagents
      · exact ⟨heq ▸ hteam, heq⟩
      · exact ⟨hagents a ha, heq⟩
    · intro hpass
      rcases hpass with hadmin | ⟨-, heq⟩
      · exact absurd hadmin huser
      · exact heq

/-- For a user who is no admin, the list of agents shows exactly those the check passes,
and each request leaves the rows of the others as they are and notifies none of them,
exactly when the user has a team or every agent has one. -/
theorem scoped_iff_teamed (huser : user.role ≠ Role.admin) (hkeys : site.db.Keyed)
    {call : AgentCall} (hfresh : site.db.FreshFor call) :
    (ListsOwn pl st user site ∧ forall reply,
      respond pl st site user call = Except.ok reply -> Untouched user site reply) <->
      Teamed user site.db := by
  rw [listsOwn_iff huser]
  constructor
  · intro h
    exact h.left
  · intro hteamed
    exact ⟨hteamed, fun reply hreply => untouched_of_respond hkeys hfresh hreply⟩

end Scope

/-- An agent of team 1, and one that an admin without a team has connected. -/
def mixedSite : Site where
  db :=
    { teams := [⟨1, "core".toList, some "core".toList, none, false⟩]
      users :=
        [⟨1, "root@rc-tunnel.com".toList, Role.admin, none⟩,
          ⟨2, "core@rc-tunnel.com".toList, Role.teamAdmin, some 1⟩,
          ⟨3, "new@rc-tunnel.com".toList, Role.user, none⟩]
      agents := [⟨1, "edge-1".toList, some 1, 0⟩, ⟨2, "edge-2".toList, none, 0⟩]
      tunnels := [] }
  rows := fun _ => ⟨"token", false, none, none⟩
  revoked := []

theorem keyed_mixedSite : mixedSite.db.Keyed where
  agents := by decide
  tunnels := by decide

def coreMember : User := ⟨2, "core@rc-tunnel.com".toList, Role.teamAdmin, some 1⟩

/-- The admin of team 1 deletes its agent. -/
theorem scoped_of_member :
    ListsOwn asciiPlatform deployed coreMember mixedSite ∧
      forall reply, respond asciiPlatform deployed mixedSite coreMember
          (AgentCall.deleteAgent 1) = Except.ok reply ->
        Untouched coreMember mixedSite reply := by
  have hfresh : mixedSite.db.FreshFor (AgentCall.deleteAgent 1) := trivial
  have hteamed : Teamed coreMember mixedSite.db := Or.inl (by decide)
  exact (scoped_iff_teamed (by decide) keyed_mixedSite hfresh).mpr hteamed

/-- A user without a team is listed the agent that has none. -/
theorem lists_teamless :
    ¬ forall (user : User) (site : Site) (call : AgentCall), user.role ≠ Role.admin ->
      site.db.Keyed -> site.db.FreshFor call ->
        ListsOwn asciiPlatform deployed user site ∧ forall reply,
          respond asciiPlatform deployed site user call = Except.ok reply ->
            Untouched user site reply := by
  intro h
  have hlists := (h ⟨3, "new@rc-tunnel.com".toList, Role.user, none⟩ mixedSite
    AgentCall.listAgents (by decide) keyed_mixedSite trivial).left
  have hpass := (hlists _ rfl ⟨2, "edge-2".toList, none, 0⟩ (by decide)).mp (by decide)
  rcases passes_iff.mp hpass with hadmin | ⟨hne, -⟩
  · cases hadmin
  · exact hne rfl

end Api

end Panel
end RcTunnel
