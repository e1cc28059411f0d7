import RcTunnel.Panel.Disjoint
import RcTunnel.Panel.Grants
import RcTunnel.Panel.Operations

/-!
# Building a configuration

A configuration is built from three reads, of the agent, of its tunnels and of its team, and
each of them sees what is committed by then.  What is built is what the tables of the last
read say, if no commit in between has changed the agent's row or its enabled tunnels; and a
commit changes those of the agents only whose generation it raises.
-/

namespace RcTunnel
namespace Panel

open Foundation

namespace Api

/-- The next read of {lit}`build_config`. -/
inductive Build where
  | agent (agentId : Nat)
  | tunnels (a : Agent)
  | team (a : Agent) (rows : List Tunnel)
deriving DecidableEq, Repr

/-- What a read leads to. -/
inductive Build.Next where
  /-- the agent is not found -/
  | gone
  | reads (next : Build)
  | built (a : Agent) (rows : List Tunnel) (found : Option Team)
deriving DecidableEq, Repr

def Build.read (db : Db) : Build -> Build.Next
  | Build.agent agentId =>
      match db.agent? agentId with
      | none => Next.gone
      | some a => Next.reads (Build.tunnels a)
  | Build.tunnels a =>
      Next.reads (Build.team a (db.tunnels.filter fun t => t.agentId = a.id))
  | Build.team a rows => Next.built a rows (db.teamOf a)

def Build.agentId : Build -> Nat
  | Build.agent agentId => agentId
  | Build.tunnels a => a.id
  | Build.team a _ => a.id

/-- The agent whose row was read. -/
def Build.reader? : Build -> Option Nat
  | Build.agent _ => none
  | Build.tunnels a => some a.id
  | Build.team a _ => some a.id

theorem Build.agentId_of_read {db : Db} {build next : Build}
    (h : build.read db = Build.Next.reads next) : next.agentId = build.agentId := by
  cases build with
  | agent agentId =>
      simp only [Build.read] at h
      split at h
      · cases h
      · rename_i a ha
        cases h
        have hid : a.id = agentId := key_of_find ha
        exact hid
  | tunnels a =>
      cases h
      rfl
  | team a rows => cases h

theorem Build.agentId_of_built {db : Db} {build : Build} {a : Agent} {rows : List Tunnel}
    {found : Option Team} (h : build.read db = Build.Next.built a rows found) :
    a.id = build.agentId := by
  cases build with
  | agent agentId =>
      simp only [Build.read] at h
      split at h <;> cases h
  | tunnels b => cases h
  | team b held =>
      cases h
      rfl

theorem Build.agentId_of_reader {build : Build} {x : Nat} (h : build.reader? = some x) :
    x = build.agentId := by
  cases build with
  | agent agentId => cases h
  | tunnels a => exact (Option.some.inj h).symm
  | team a rows => exact (Option.some.inj h).symm

section Contents

variable (pl : Platform) (st : Settings)

/-- The configuration that the rows make. -/
def configOf (a : Agent) (rows : List Tunnel) (found : Option Team) (now : Int) : Config :=
  configPayload pl st st.publicDomain a (if found.any Team.suspended then [] else rows)
    (found.bind Team.subdomainLabel) now

/-- The tunnels that it has. -/
def sentOf (rows : List Tunnel) (found : Option Team) : List Payload :=
  if found.any Team.suspended then [] else
    ((rows.filter Tunnel.enabled).map tunnelPayload).map
      (domainize st.publicDomain (found.bind Team.subdomainLabel))

variable {pl st}

/-- Reads that see one table build the configuration of that table. -/
theorem buildConfig_eq (db : Db) (agentId : Nat) (now : Int) :
    buildConfig pl st db agentId now = (db.agent? agentId).map fun a =>
      configOf pl st a (db.tunnels.filter fun t => t.agentId = agentId) (db.teamOf a) now := by
  unfold buildConfig
  cases db.agent? agentId with
  | none => rfl
  | some a => rfl

theorem configOf_tunnels {a : Agent} {rows : List Tunnel} {found : Option Team} {now : Int} :
    (configOf pl st a rows found now).tunnels = sentOf st rows found := by
  show ((if found.any Team.suspended then [] else rows : List Tunnel).filter
    Tunnel.enabled).map _ = _
  unfold sentOf
  split
  · rfl
  · rw [List.map_map]
    rfl

end Contents

namespace Operations

open Interleaved (bumpLoaded)

/-!
# What an agent is sent
-/

/-- The payloads of the enabled tunnels of an agent. -/
def offered (db : Db) (agentId : Nat) : List Payload :=
  (db.tunnels.filter fun t => t.agentId = agentId ∧ t.enabled = true).map tunnelPayload

/-- What an agent is sent. -/
def sends (st : Settings) (db : Db) (a : Agent) : List Payload :=
  if (db.teamOf a).any Team.suspended then []
  else (offered db a.id).map
    (domainize st.publicDomain ((db.teamOf a).bind Team.subdomainLabel))

/-- The generation and the tunnels that an agent is sent. -/
def view (st : Settings) (db : Db) (agentId : Nat) : Option (Nat × List Payload) :=
  (db.agent? agentId).map fun a => (a.generation, sends st db a)

section View

variable {st : Settings} {db db' : Db}

/-- What an agent is sent follows from its offered tunnels and its team. -/
theorem sends_congr {a a' : Agent} (hid : a'.id = a.id)
    (hoffered : offered db' a.id = offered db a.id) (hteam : db'.teamOf a' = db.teamOf a) :
    sends st db' a' = sends st db a := by
  unfold sends
  rw [hteam, hid, hoffered]

theorem offered_of_filter (db : Db) (agentId : Nat) :
    ((db.tunnels.filter fun t => t.agentId = agentId).filter Tunnel.enabled).map tunnelPayload =
      offered db agentId := by
  unfold offered
  rw [List.filter_filter]
  congr 1
  apply List.filter_congr
  intro t _
  cases t.enabled <;> simp

end View

/-!
# Reads that are not disturbed
-/

/-- The rows that a build has read are those of the tables. -/
def Fits (db : Db) : Build -> Prop
  | Build.agent _ => True
  | Build.tunnels a => db.agent? a.id = some a
  | Build.team a rows =>
      db.agent? a.id = some a ∧
        (rows.filter Tunnel.enabled).map tunnelPayload = offered db a.id

/-- The row of an agent and its enabled tunnels are the same in both tables. -/
def Steady (db db' : Db) (x : Nat) : Prop :=
  db'.agent? x = db.agent? x ∧ offered db' x = offered db x

section Reads

variable {st : Settings} {db db' : Db} {build : Build}

theorem fits_read {next : Build} (h : Fits db build) (hread : build.read db = Build.Next.reads next) :
    Fits db next := by
  cases build with
  | agent agentId =>
      simp only [Build.read] at hread
      split at hread
      · cases hread
      · rename_i a ha
        cases hread
        show db.agent? a.id = some a
        rw [key_of_find ha]
        exact ha
  | tunnels a =>
      cases hread
      exact ⟨h, offered_of_filter db a.id⟩
  | team a rows => cases hread

/-- What is built is what the agent is sent according to the tables of the last read. -/
theorem view_of_built {a : Agent} {rows : List Tunnel} {found : Option Team} (h : Fits db build)
    (hread : build.read db = Build.Next.built a rows found) :
    view st db a.id = some (a.generation, sentOf st rows found) := by
  cases build with
  | agent agentId =>
      simp only [Build.read] at hread
      split at hread <;> cases hread
  | tunnels b => cases hread
  | team b held =>
      cases hread
      unfold view
      rw [h.left, Option.map_some]
      unfold sends sentOf
      rw [h.right]

theorem view_of_gone (hread : build.read db = Build.Next.gone) :
    view st db build.agentId = none := by
  cases build with
  | agent agentId =>
      simp only [Build.read] at hread
      split at hread
      · rename_i hnone
        show (db.agent? agentId).map _ = none
        rw [hnone]
        rfl
      · cases hread
  | tunnels a => cases hread
  | team a rows => cases hread

theorem fits_steady (h : Fits db build)
    (hsteady : forall x, build.reader? = some x -> Steady db db' x) : Fits db' build := by
  cases build with
  | agent agentId => trivial
  | tunnels a => exact (hsteady a.id rfl).left.trans h
  | team a rows =>
      rcases hsteady a.id rfl with ⟨hagent, hoffered⟩
      exact ⟨hagent.trans h.left, h.right.trans hoffered.symm⟩

end Reads

/-!
# What a commit leaves alone
-/

/-- The agents whose generation is raised. -/
def Phase.bumps : Phase -> List Nat
  | Phase.delete _ a => [a.id]
  | Phase.update _ _ _ rows => rows.map Agent.id
  | _ => []

section Commits

variable {st : Settings} {db db' : Db} {x : Nat}

theorem steady_refl (x : Nat) : Steady db db x := ⟨rfl, rfl⟩

theorem agent_bumpLoaded (a : Agent) (db : Db) (tunnels : List Tunnel) (x : Nat) :
    Db.agent? { db with agents := bumpLoaded a db.agents, tunnels := tunnels } x =
      (db.agent? x).map fun b =>
        if b.id = a.id then { b with generation := a.generation + 1 } else b := by
  apply find?_rewriteRow
  intro _
  rfl

/-- A change to the tunnels of one agent leaves the others alone. -/
theorem steady_bumpLoaded {a : Agent} {tunnels : List Tunnel} (hx : x ≠ a.id)
    (hoffered : offered { db with tunnels := tunnels } x = offered db x) :
    Steady db { db with agents := bumpLoaded a db.agents, tunnels := tunnels } x := by
  refine ⟨?_, hoffered⟩
  rw [agent_bumpLoaded]
  cases hb : db.agent? x with
  | none => rfl
  | some b =>
      have hother : b.id ≠ a.id := by
        rw [key_of_find hb]
        exact hx
      rw [Option.map_some, if_neg hother]

theorem steady_commit {w : Interleaved.Write} {fresh : Nat} {l : Interleaved.Loaded}
    {port : Option (Option Int)} (hcommit : w.commit db fresh l port = Except.ok db')
    (hcreate : forall agentId body, w = Interleaved.Write.create agentId body ->
      l.agent.id = agentId)
    (hupdate : forall tunnelId, tunnelId ∈ w.own -> forall t, t ∈ db.tunnels ->
      t.id = tunnelId -> t.agentId = l.agent.id) (hx : x ≠ l.agent.id) : Steady db db' x := by
  cases w with
  | create agentId body =>
      simp only [Interleaved.Write.commit, bind_ok, pure_ok] at hcommit
      rcases hcommit with ⟨_, -, rfl⟩
      apply steady_bumpLoaded hx
      unfold offered
      congr 1
      apply filter_appended
      have hne : agentId ≠ x := by
        rw [← hcreate agentId body rfl]
        exact hx.symm
      simp [Interleaved.inserted, hne]
  | update tunnelId fields =>
      simp only [Interleaved.Write.commit, bind_ok, pure_ok] at hcommit
      rcases hcommit with ⟨_, -, _, -, _, -, rfl⟩
      apply steady_bumpLoaded hx
      unfold offered
      congr 1
      apply filter_rewriteRow
      intro t ht htid
      have howner := hupdate tunnelId rfl t ht htid
      constructor <;> simp [Interleaved.updated, howner, hx.symm]

theorem agent_bumpAll (rows : List Agent) (db : Db) (teams : List Team) (x : Nat) :
    Db.agent? { db with teams := teams, agents := bumpAll rows db.agents } x =
      (db.agent? x).map (bumpedFrom rows) := by
  apply find?_mapRow
  intro b
  unfold bumpedFrom
  split <;> rfl

theorem steady_bumpAll {rows : List Agent} {teams : List Team}
    (hx : forall a, a ∈ rows -> a.id ≠ x) :
    Steady db { db with teams := teams, agents := bumpAll rows db.agents } x := by
  refine ⟨?_, rfl⟩
  rw [agent_bumpAll]
  cases hb : db.agent? x with
  | none => rfl
  | some b =>
      have hnone : (rows.find? fun a => decide (a.id = b.id)) = none := by
        rw [List.find?_eq_none]
        intro a ha
        rw [key_of_find hb]
        simpa using hx a ha
      rw [Option.map_some, bumpedFrom, hnone]

/-- The counters are not sent. -/
theorem offered_map {f : Tunnel -> Tunnel}
    (hf : forall t, tunnelPayload (f t) = tunnelPayload t ∧ (f t).agentId = t.agentId ∧
      (f t).enabled = t.enabled) :
    offered { db with tunnels := db.tunnels.map f } x = offered db x := by
  unfold offered
  rw [List.filter_map, List.map_map]
  have hfilter : ((fun t : Tunnel => decide (t.agentId = x ∧ t.enabled = true)) ∘ f) =
      fun t => decide (t.agentId = x ∧ t.enabled = true) := by
    funext t
    simp only [Function.comp, (hf t).right.left, (hf t).right.right]
  rw [hfilter]
  apply List.map_congr_left
  intro t _
  exact (hf t).left

/-- A tunnel that is deleted is an agent's whose generation is raised. -/
def Phase.OwnsTunnel (db : Db) : Phase -> Prop
  | Phase.delete t a => forall u, u ∈ db.tunnels -> u.id = t.id -> u.agentId = a.id
  | _ => True

theorem steady_phase {phase next : Phase} (howns : phase.OwnsTunnel db)
    (hcommit : phase.commit db = Except.ok (db', next)) (hx : x ∉ phase.bumps) :
    Steady db db' x := by
  cases phase with
  | delete t a =>
      cases hcommit
      have hne : x ≠ a.id := fun hsame => hx (List.mem_singleton.mpr hsame)
      apply steady_bumpLoaded hne
      unfold offered
      congr 1
      apply filter_removed
      intro u hu hoffered
      simp only [decide_eq_true_eq] at hoffered ⊢
      intro hdeleted
      exact hne (hoffered.left.symm.trans (howns u hu hdeleted))
  | update loaded change suspended rows =>
      simp only [Phase.commit, bind_ok, pure_ok, Prod.mk.injEq] at hcommit
      rcases hcommit with ⟨_, -, _, -, _, -, rfl, -⟩
      apply steady_bumpAll
      intro a ha hsame
      exact hx (List.mem_map.mpr ⟨a, ha, hsame⟩)
  | count rows =>
      simp only [Phase.commit, bind_ok, pure_ok, Prod.mk.injEq] at hcommit
      rcases hcommit with ⟨_, -, rfl, -⟩
      refine ⟨rfl, ?_⟩
      apply offered_map
      intro t
      split <;> exact ⟨rfl, rfl, rfl⟩
  | flip flipped =>
      simp only [Phase.commit, bind_ok, pure_ok, Prod.mk.injEq] at hcommit
      rcases hcommit with ⟨_, -, rfl, -⟩
      exact steady_refl x
  | _ => cases hcommit

end Commits

end Operations

end Api

end Panel
end RcTunnel
