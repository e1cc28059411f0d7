import RcTunnel.Panel.Requests

/-!
# Requests that interleave

What a request has checked may not hold any more when it commits; of its rules
the database itself enforces only the names'.  The main result says exactly when
ports, subdomains and custom domains stay unique over an interleaved run.
-/

namespace RcTunnel
namespace Panel

open Foundation

namespace Api

namespace Interleaved

/-!
# What keeps the tunnels unique
-/

/-- The port that is written. -/
def Write.port (l : Loaded) (port : Option (Option Int)) : Write -> Option Int
  | Write.create _ _ => port.join
  | Write.update _ _ => (l.tunnel.bind fun t => changed port t.remotePort).join

/-- The subdomain that is written. -/
def Write.newSubdomain (l : Loaded) : Write -> Option Text
  | Write.create _ body => given body.subdomain
  | Write.update _ fields =>
      given (l.tunnel.bind fun t => changed fields.subdomain t.subdomain).join

/-- The tunnel that is written has a port of the node. -/
def Write.OnPort (db : Db) : Write -> Prop
  | Write.create _ body => body.type.domain = false
  | Write.update tunnelId _ => forall t, t ∈ db.tunnel? tunnelId -> t.type.domain = false

instance (db : Db) : forall w : Write, Decidable (w.OnPort db)
  | Write.create _ _ => inferInstanceAs (Decidable (_ = _))
  | Write.update tunnelId _ =>
      inferInstanceAs (Decidable (forall t, t ∈ db.tunnel? tunnelId -> t.type.domain = false))

/-- A tunnel that claims what is written stood, as it is, in the table that was checked for
it; and the database lower-cases its subdomain as Python does. -/
structure Checked (pl : Platform) (node : Nat -> Nat) (db : Db) (job : Job) (l : Loaded)
    (port : Option (Option Int)) (u : Tunnel) : Prop where
  port : job.write.OnPort db -> u.type.domain = false -> node u.agentId = node l.agent.id ->
    forall p, p ∈ job.write.port l port -> u.remotePort = some p -> u ∈ job.seen.port
  subdomain : teamOf db u.agentId = some l.agent.teamId ->
    forall s, s ∈ job.write.newSubdomain l -> forall s', s' ∈ given u.subdomain ->
      pl.lower s' = pl.lower s -> u ∈ job.seen.subdomain ∧ pl.sqlLower s' = pl.lower s'
  domains : forall d, d ∈ Platform.domains pl job.write.customDomains ->
    d ∈ Platform.domains pl u.customDomains -> u ∈ job.seen.domains

/-- The three rules of {lit}`Checked` one by one, each bounded by what it looks at. -/
instance Checked.decidable (pl : Platform) (node : Nat -> Nat) (db : Db) (job : Job) (l : Loaded)
    (port : Option (Option Int)) (u : Tunnel) : Decidable (Checked pl node db job l port u) :=
  have : Decidable (job.write.OnPort db -> u.type.domain = false ->
      node u.agentId = node l.agent.id -> forall p, p ∈ job.write.port l port ->
        u.remotePort = some p -> u ∈ job.seen.port) := inferInstance
  have : Decidable (teamOf db u.agentId = some l.agent.teamId ->
      forall s, s ∈ job.write.newSubdomain l -> forall s', s' ∈ given u.subdomain ->
        pl.lower s' = pl.lower s -> u ∈ job.seen.subdomain ∧ pl.sqlLower s' = pl.lower s') :=
    inferInstance
  have : Decidable (forall d, d ∈ Platform.domains pl job.write.customDomains ->
      d ∈ Platform.domains pl u.customDomains -> u ∈ job.seen.domains) :=
    decidable_of_iff (forall d, d ∈ Platform.domains pl job.write.customDomains ->
        (Platform.domains pl u.customDomains).contains d = true -> u ∈ job.seen.domains)
      (by simp only [List.contains_iff_mem])
  decidable_of_iff (_ ∧ _ ∧ _) ⟨fun h => ⟨h.left, h.right.left, h.right.right⟩,
    fun h => ⟨h.port, h.subdomain, h.domains⟩⟩

/-- The tunnels that are not written are all checked. -/
def AllChecked (pl : Platform) (node : Nat -> Nat) (db : Db) (job : Job) (l : Loaded)
    (port : Option (Option Int)) : Prop :=
  forall u, u ∈ db.tunnels -> some u.id ≠ job.write.own -> Checked pl node db job l port u

/-- A request whose commit succeeds has checked every tunnel that claims what it writes. -/
def Job.Current (pl : Platform) (node : Nat -> Nat) (db : Db) (fresh : Nat) (job : Job) : Prop :=
  match job.phase with
  | Phase.write l port =>
      (job.write.commit db fresh l port).isOk = true -> AllChecked pl node db job l port
  | _ => True

def Current (pl : Platform) (node : Nat -> Nat) (s : State) : Action -> Prop
  | Action.commit r fresh => forall job, job ∈ s.jobs r -> job.Current pl node s.db fresh
  | _ => True

instance AllChecked.decidable (pl : Platform) (node : Nat -> Nat) (db : Db) (job : Job)
    (l : Loaded) (port : Option (Option Int)) : Decidable (AllChecked pl node db job l port) :=
  inferInstanceAs (Decidable (forall u, u ∈ db.tunnels -> _ -> _))

instance Job.Current.decidable (pl : Platform) (node : Nat -> Nat) (db : Db) (fresh : Nat) :
    forall job : Job, Decidable (job.Current pl node db fresh)
  | ⟨_, _, Phase.write _ _, _⟩ => inferInstanceAs (Decidable (_ -> _))
  | ⟨_, _, Phase.tunnel, _⟩ | ⟨_, _, Phase.agent _, _⟩ | ⟨_, _, Phase.team _, _⟩
  | ⟨_, _, Phase.count _, _⟩ | ⟨_, _, Phase.name _, _⟩ | ⟨_, _, Phase.subdomain _, _⟩
  | ⟨_, _, Phase.domains _, _⟩ | ⟨_, _, Phase.port _, _⟩ | ⟨_, _, Phase.finished, _⟩ =>
      isTrue trivial

instance Current.decidable (pl : Platform) (node : Nat -> Nat) (s : State) :
    forall action, Decidable (Current pl node s action)
  | Action.commit r fresh =>
      inferInstanceAs (Decidable (forall job, job ∈ s.jobs r -> job.Current pl node s.db fresh))
  | Action.request _ _ _ | Action.read _ => isTrue trivial

/-!
# What a request knows
-/

/-- The loaded agent is the one whose tunnel is written. -/
def Write.OwnedBy (db : Db) (l : Loaded) : Write -> Prop
  | Write.create agentId _ => l.agent.id = agentId
  | Write.update tunnelId _ =>
      (forall t, t ∈ l.tunnel -> t.id = tunnelId) ∧
        (exists t, t ∈ db.tunnels ∧ t.id = tunnelId) ∧
          forall t, t ∈ db.tunnels -> t.id = tunnelId -> t.agentId = l.agent.id

/-- The loaded agent is that of the written tunnel, and in the team that was read. -/
structure Holds (db : Db) (l : Loaded) (w : Write) : Prop where
  team : teamOf db l.agent.id = some l.agent.teamId
  owner : w.OwnedBy db l

/-- The loaded tunnel is still there, and its agent's. -/
def HoldsTunnel (db : Db) (t : Tunnel) (w : Write) : Prop :=
  some t.id = w.own ∧ (exists u, u ∈ db.tunnels ∧ u.id = t.id) ∧
    forall u, u ∈ db.tunnels -> u.id = t.id -> u.agentId = t.agentId

/-- No other tunnel that was checked has the subdomain, as the database compares them. -/
def SubdomainFree (pl : Platform) (db : Db) (job : Job) (l : Loaded) : Prop :=
  forall s, job.write.subdomain = some s -> forall u, u ∈ job.seen.subdomain ->
    some u.id ≠ job.write.own -> teamOf db u.agentId = some l.agent.teamId ->
      u.subdomain.map pl.sqlLower ≠ some (pl.lower s)

def DomainsFree (pl : Platform) (job : Job) : Prop :=
  forall d, d ∈ Platform.domains pl job.write.customDomains ->
    forall u, u ∈ job.seen.domains -> some u.id ≠ job.write.own ->
      d ∉ Platform.domains pl u.customDomains

/-- The type of the tunnel is not known to be one of names. -/
def Write.MayBeOnPort : Write -> Prop
  | Write.create _ body => body.type.domain = false
  | Write.update _ _ => True

def PortFree (node : Nat -> Nat) (job : Job) (l : Loaded) (port : Option (Option Int)) : Prop :=
  job.write.MayBeOnPort -> forall p, port = some (some p) -> forall u, u ∈ job.seen.port ->
    some u.id ≠ job.write.own -> node u.agentId = node l.agent.id -> u.remotePort ≠ some p

/-- What the reads of a request have established. -/
def JobInv (pl : Platform) (node : Nat -> Nat) (db : Db) (job : Job) : Prop :=
  match job.phase with
  | Phase.tunnel | Phase.finished => True
  | Phase.agent t => forall row, row ∈ t -> HoldsTunnel db row job.write
  | Phase.team l | Phase.count l | Phase.name l | Phase.subdomain l => Holds db l job.write
  | Phase.domains l => Holds db l job.write ∧ SubdomainFree pl db job l
  | Phase.port l => Holds db l job.write ∧ SubdomainFree pl db job l ∧ DomainsFree pl job
  | Phase.write l port =>
      Holds db l job.write ∧ SubdomainFree pl db job l ∧ DomainsFree pl job ∧
        PortFree node job l port

structure Inv (pl : Platform) (node : Nat -> Nat) (s : State) : Prop where
  unique : Unique pl node s.db
  owned : forall t, t ∈ s.db.tunnels -> teamOf s.db t.agentId ≠ none
  jobs : forall r job, s.jobs r = some job -> JobInv pl node s.db job

section Proof

variable {pl : Platform} {st : Settings} {node : Nat -> Nat}

theorem changed_some [DecidableEq α] {field : Option α} {loaded x : α}
    (h : changed field loaded = some x) : field = some x :=
  (Option.filter_eq_some_iff.mp h).left

/-- The written port is the one that was assigned. -/
theorem port_of_written {w : Write} {l : Loaded} {port : Option (Option Int)} {p : Int}
    (h : p ∈ w.port l port) : port = some (some p) := by
  cases w with
  | create agentId body => exact Option.join_eq_some_iff.mp h
  | update tunnelId fields =>
      rcases Option.bind_eq_some_iff.mp (Option.join_eq_some_iff.mp h) with ⟨t, -, hchanged⟩
      exact changed_some hchanged

/-- The written subdomain is the one that was asked for. -/
theorem subdomain_of_written {w : Write} {l : Loaded} {s : Text}
    (h : s ∈ w.newSubdomain l) : w.subdomain = some s := by
  cases w with
  | create agentId body => exact h
  | update tunnelId fields =>
      rcases given_eq_some.mp h with ⟨hjoin, hne⟩
      rcases Option.bind_eq_some_iff.mp (Option.join_eq_some_iff.mp hjoin) with
        ⟨t, -, hchanged⟩
      refine given_eq_some.mpr ⟨?_, hne⟩
      rw [changed_some hchanged]
      rfl

section Free

variable {db : Db} {job : Job} {l : Loaded} {port : Option (Option Int)} {u : Tunnel}
  (hchecked : Checked pl node db job l port u) (hown : some u.id ≠ job.write.own)
include hchecked hown

theorem free_port (hfree : PortFree node job l port) (hport : job.write.OnPort db)
    (hmay : job.write.MayBeOnPort) (htype : u.type.domain = false)
    (hnode : node u.agentId = node l.agent.id) {p : Int}
    (hp : p ∈ job.write.port l port) : u.remotePort ≠ some p := by
  intro hclash
  have hseen := hchecked.port hport htype hnode p hp hclash
  exact hfree hmay p (port_of_written hp) u hseen hown hnode hclash

theorem free_subdomain (hfree : SubdomainFree pl db job l)
    (hteam : teamOf db u.agentId = some l.agent.teamId) {s s' : Text}
    (hs : s ∈ job.write.newSubdomain l) (hs' : given u.subdomain = some s') :
    pl.lower s' ≠ pl.lower s := by
  intro hclash
  rcases hchecked.subdomain hteam s hs s' hs' hclash with ⟨hseen, hlower⟩
  refine hfree s (subdomain_of_written hs) u hseen hown hteam ?_
  rw [(given_eq_some.mp hs').left]
  exact congrArg some (hlower.trans hclash)

theorem free_domains (hfree : DomainsFree pl job) {d : Text}
    (hd : d ∈ Platform.domains pl job.write.customDomains) :
    d ∉ Platform.domains pl u.customDomains := by
  intro hclash
  exact hfree d hd u (hchecked.domains d hd hclash) hown hclash

end Free

/-!
# What a commit leaves
-/

/-- The generation is all that a commit changes of the agents. -/
theorem teamOf_bumpLoaded (db : Db) (agent : Agent) (tunnels : List Tunnel) :
    teamOf { db with agents := bumpLoaded agent db.agents, tunnels := tunnels } =
      teamOf db := by
  funext agentId
  unfold teamOf Db.agent? bumpLoaded rewriteRow
  have hkey : ((fun a : Agent => decide (a.id = agentId)) ∘ fun a : Agent =>
      if a.id = agent.id then { a with generation := agent.generation + 1 } else a) =
      fun a => decide (a.id = agentId) := by
    funext a
    simp only [Function.comp]
    split <;> rfl
  have hteam : (Agent.teamId ∘ fun a : Agent =>
      if a.id = agent.id then { a with generation := agent.generation + 1 } else a) =
      Agent.teamId := by
    funext a
    simp only [Function.comp]
    split <;> rfl
  rw [List.find?_map, hkey, Option.map_map, hteam]

/-- Two tables of which the second has every tunnel of the first, with its agent. -/
structure Grown (db db' : Db) : Prop where
  teams : teamOf db' = teamOf db
  rows : forall t, t ∈ db.tunnels -> exists t', t' ∈ db'.tunnels ∧ t'.id = t.id
  owners : forall t', t' ∈ db'.tunnels ->
    (exists t, t ∈ db.tunnels ∧ t.id = t'.id ∧ t.agentId = t'.agentId) ∨
      forall t, t ∈ db.tunnels -> t.id ≠ t'.id

theorem grown_commit {db db' : Db} {w : Write} {fresh : Nat} {l : Loaded}
    {port : Option (Option Int)} (hfresh : db.tunnel? fresh = none)
    (h : w.commit db fresh l port = Except.ok db') : Grown db db' := by
  cases w with
  | create agentId body =>
      simp only [Write.commit, bind_ok, pure_ok] at h
      rcases h with ⟨-, -, rfl⟩
      refine ⟨teamOf_bumpLoaded _ _ _, ?_, ?_⟩
      · intro t ht
        exact ⟨t, List.mem_append_left _ ht, rfl⟩
      · intro t' ht'
        rcases List.mem_append.mp ht' with hold | hnew
        · exact Or.inl ⟨t', hold, rfl, rfl⟩
        · rw [List.mem_singleton.mp hnew]
          refine Or.inr fun t ht => ?_
          have hne := List.find?_eq_none.mp hfresh t ht
          rw [decide_eq_true_eq] at hne
          exact hne
  | update tunnelId fields =>
      simp only [Write.commit, bind_ok, pure_ok] at h
      rcases h with ⟨-, -, loaded, -, -, -, rfl⟩
      refine ⟨teamOf_bumpLoaded _ _ _, ?_, ?_⟩
      · intro t ht
        by_cases hid : t.id = tunnelId
        · exact ⟨_, rewritten_mem ht hid, rfl⟩
        · exact ⟨t, List.mem_map.mpr ⟨t, ht, if_neg hid⟩, rfl⟩
      · intro t' ht'
        rcases mem_rewriteRow ht' with ⟨old, hold, ⟨-, rfl⟩ | ⟨-, rfl⟩⟩
        · exact Or.inl ⟨old, hold, rfl, rfl⟩
        · exact Or.inl ⟨t', hold, rfl, rfl⟩

theorem Grown.ownedBy {db db' : Db} (h : Grown db db') {l : Loaded} {w : Write}
    (howner : w.OwnedBy db l) : w.OwnedBy db' l := by
  cases w with
  | create agentId body => exact howner
  | update tunnelId fields =>
      rcases howner with ⟨hloaded, ⟨t, ht, hid⟩, howners⟩
      refine ⟨hloaded, ?_, ?_⟩
      · rcases h.rows t ht with ⟨t', ht', hsame⟩
        exact ⟨t', ht', hsame.trans hid⟩
      · intro t' ht' hid'
        rcases h.owners t' ht' with ⟨old, hold, hsame, howner⟩ | hnew
        · rw [← howner]
          exact howners old hold (hsame.trans hid')
        · exact absurd (hid.trans hid'.symm) (hnew t ht)

theorem Grown.holds {db db' : Db} (h : Grown db db') {l : Loaded} {w : Write}
    (hholds : Holds db l w) : Holds db' l w where
  team := by
    rw [h.teams]
    exact hholds.team
  owner := h.ownedBy hholds.owner

theorem Grown.holdsTunnel {db db' : Db} (h : Grown db db') {row : Tunnel} {w : Write}
    (hholds : HoldsTunnel db row w) : HoldsTunnel db' row w := by
  rcases hholds with ⟨hown, ⟨t, ht, hid⟩, howners⟩
  refine ⟨hown, ?_, ?_⟩
  · rcases h.rows t ht with ⟨t', ht', hsame⟩
    exact ⟨t', ht', hsame.trans hid⟩
  · intro t' ht' hid'
    rcases h.owners t' ht' with ⟨old, hold, hsame, howner⟩ | hnew
    · rw [← howner]
      exact howners old hold (hsame.trans hid')
    · exact absurd (hid.trans hid'.symm) (hnew t ht)

theorem Grown.jobInv {db db' : Db} (h : Grown db db') {job : Job}
    (hjob : JobInv pl node db job) : JobInv pl node db' job := by
  unfold JobInv at hjob ⊢
  have hfree : forall l, SubdomainFree pl db job l -> SubdomainFree pl db' job l := by
    intro l hl
    unfold SubdomainFree
    rw [h.teams]
    exact hl
  split at hjob
  · trivial
  · trivial
  · exact fun row hrow => h.holdsTunnel (hjob row hrow)
  · exact h.holds hjob
  · exact h.holds hjob
  · exact h.holds hjob
  · exact h.holds hjob
  · exact ⟨h.holds hjob.left, hfree _ hjob.right⟩
  · exact ⟨h.holds hjob.left, hfree _ hjob.right.left, hjob.right.right⟩
  · exact ⟨h.holds hjob.left, hfree _ hjob.right.left, hjob.right.right⟩

theorem Compatible.symm {team : Nat -> Option (Option Nat)} {t u : Tunnel}
    (h : Compatible pl node team t u) : Compatible pl node team u t where
  ports hu ht hnode p hp hclash := h.ports ht hu hnode.symm p hclash hp
  subdomains hteam s hs s' hs' hclash := h.subdomains hteam.symm s' hs' s hs hclash.symm
  domains d hd hclash := h.domains d hclash hd

theorem Holds.of_create {db : Db} {l : Loaded} {w : Write} (h : Holds db l w) {agentId : Nat}
    {body : TunnelBody} (hw : w = Write.create agentId body) : l.agent.id = agentId := by
  subst hw
  exact h.owner

theorem Holds.of_update {db : Db} {l : Loaded} {w : Write} (h : Holds db l w) {tunnelId : Nat}
    {fields : TunnelFields} (hw : w = Write.update tunnelId fields) {t : Tunnel}
    (ht : t ∈ db.tunnels) (hid : t.id = tunnelId) : t.agentId = l.agent.id := by
  subst hw
  exact h.owner.right.right t ht hid

/-- What is known of a request that is about to commit. -/
structure Ready (pl : Platform) (node : Nat -> Nat) (db : Db) (job : Job) (l : Loaded)
    (port : Option (Option Int)) : Prop where
  unique : Unique pl node db
  holds : Holds db l job.write
  subdomain : SubdomainFree pl db job l
  domains : DomainsFree pl job
  port : PortFree node job l port

section Commit

variable {db : Db} {job : Job} {l : Loaded} {port : Option (Option Int)}

theorem compatible_inserted {fresh agentId : Nat} {body : TunnelBody}
    (h : Ready pl node db job l port) (hw : job.write = Write.create agentId body)
    {u : Tunnel} (hchecked : Checked pl node db job l port u) :
    Compatible pl node (teamOf db) (inserted fresh agentId body port.join) u := by
  have hown : some u.id ≠ job.write.own := by
    rw [hw]
    exact nofun
  have howner := h.holds.of_create hw
  constructor
  · intro htype hu hnode p hp
    have hport : job.write.OnPort db ∧ job.write.MayBeOnPort := by
      rw [hw]
      exact ⟨htype, htype⟩
    have hsame : node u.agentId = node l.agent.id := by
      rw [howner]
      exact hnode.symm
    refine free_port hchecked hown h.port hport.left hport.right hu hsame ?_
    rw [hw]
    exact hp
  · intro hsame s hs s' hs' hclash
    have hteam : teamOf db u.agentId = some l.agent.teamId := by
      rw [← h.holds.team, howner]
      exact hsame.symm
    refine free_subdomain hchecked hown h.subdomain hteam ?_ hs' hclash.symm
    rw [hw]
    exact hs
  · intro d hd
    refine free_domains hchecked hown h.domains ?_
    rw [hw]
    exact hd

theorem checked_inserted {fresh agentId : Nat} {body : TunnelBody}
    (hw : job.write = Write.create agentId body) (hholds : Holds db l job.write)
    {u : Tunnel} (h : Compatible pl node (teamOf db) (inserted fresh agentId body port.join) u) :
    Checked pl node db job l port u := by
  have howner := hholds.of_create hw
  constructor
  · intro hport hu hnode p hp hclash
    rw [hw] at hport hp
    rw [howner] at hnode
    exact absurd hclash (h.ports hport hu hnode.symm p hp)
  · intro hteam s hs s' hs' hclash
    rw [hw] at hs
    rw [← hholds.team, howner] at hteam
    exact absurd hclash.symm (h.subdomains hteam.symm s hs s' hs')
  · intro d hd hclash
    rw [hw] at hd
    exact absurd hclash (h.domains d hd)

theorem unique_inserted {fresh agentId : Nat} {body : TunnelBody} {agents : List Agent}
    (h : Ready pl node db job l port) (hw : job.write = Write.create agentId body)
    (hfresh : db.tunnel? fresh = none)
    (hteams : teamOf { db with
      agents := agents
      tunnels := db.tunnels ++ [inserted fresh agentId body port.join] } = teamOf db) :
    Unique pl node { db with
        agents := agents
        tunnels := db.tunnels ++ [inserted fresh agentId body port.join] } <->
      AllChecked pl node db job l port := by
  unfold Unique
  rw [hteams]
  constructor
  · intro hunique u hu _
    have hapart := (List.pairwise_append.mp hunique).right.right u hu _ List.mem_cons_self
    exact checked_inserted hw h.holds hapart.right.right
  · intro hchecked
    refine pairwise_append_row h.unique fun u hu => ?_
    have hown : some u.id ≠ job.write.own := by
      rw [hw]
      exact nofun
    have hcompatible : Compatible pl node (teamOf db) (inserted fresh agentId body port.join) u :=
      compatible_inserted h hw (hchecked u hu hown)
    have hne := List.find?_eq_none.mp hfresh u hu
    rw [decide_eq_true_eq] at hne
    exact ⟨hne, hcompatible.symm, hcompatible⟩

section Update

variable {tunnelId : Nat} {fields : TunnelFields} {loaded t : Tunnel}
  (hw : job.write = Write.update tunnelId fields) (hloaded : l.tunnel = some loaded)
  (ht : t ∈ db.tunnels) (hid : t.id = tunnelId)
include hw hloaded

/-- The port of the row: the written one, or the one it had. -/
theorem port_updated {p : Int} (hp : (updated loaded fields port t).remotePort = some p) :
    p ∈ job.write.port l port ∨ t.remotePort = some p := by
  have hset : (changed port loaded.remotePort).getD t.remotePort = some p := hp
  cases hchanged : changed port loaded.remotePort with
  | none =>
      rw [hchanged] at hset
      exact Or.inr hset
  | some value =>
      rw [hchanged] at hset
      refine Or.inl ?_
      rw [hw]
      show (l.tunnel.bind fun t => changed port t.remotePort).join = some p
      rw [hloaded, Option.bind_some, hchanged]
      exact hset

theorem written_port {p : Int} (hp : p ∈ job.write.port l port) :
    (updated loaded fields port t).remotePort = some p := by
  rw [hw] at hp
  have hjoin : (l.tunnel.bind fun t => changed port t.remotePort).join = some p := hp
  rw [hloaded, Option.bind_some, Option.join_eq_some_iff] at hjoin
  show (changed port loaded.remotePort).getD t.remotePort = some p
  rw [hjoin]
  rfl

theorem subdomain_updated {s : Text}
    (hs : given (updated loaded fields port t).subdomain = some s) :
    s ∈ job.write.newSubdomain l ∨ given t.subdomain = some s := by
  have hset : given ((changed fields.subdomain loaded.subdomain).getD t.subdomain) =
      some s := hs
  cases hchanged : changed fields.subdomain loaded.subdomain with
  | none =>
      rw [hchanged] at hset
      exact Or.inr hset
  | some value =>
      rw [hchanged] at hset
      refine Or.inl ?_
      rw [hw]
      show given (l.tunnel.bind fun t => changed fields.subdomain t.subdomain).join = some s
      rw [hloaded, Option.bind_some, hchanged]
      exact hset

theorem written_subdomain {s : Text} (hs : s ∈ job.write.newSubdomain l) :
    given (updated loaded fields port t).subdomain = some s := by
  rw [hw] at hs
  have hjoin : given (l.tunnel.bind fun t => changed fields.subdomain t.subdomain).join =
      some s := hs
  rw [hloaded, Option.bind_some] at hjoin
  cases hchanged : changed fields.subdomain loaded.subdomain with
  | none =>
      rw [hchanged] at hjoin
      cases hjoin
  | some value =>
      rw [hchanged] at hjoin
      show given ((changed fields.subdomain loaded.subdomain).getD t.subdomain) = some s
      rw [hchanged]
      exact hjoin

include ht hid

theorem compatible_updated (h : Ready pl node db job l port) (hfound : db.tunnel? tunnelId = some t)
    {u : Tunnel} (hu : u ∈ db.tunnels) (hne : u.id ≠ tunnelId)
    (hchecked : Checked pl node db job l port u) :
    Compatible pl node (teamOf db) (updated loaded fields port t) u := by
  have hown : some u.id ≠ job.write.own := by
    rw [hw]
    simpa [Write.own] using hne
  have hbase : Compatible pl node (teamOf db) t u :=
    apart_of_mem h.unique ht hu (by rw [hid]; exact hne.symm)
  have howner := h.holds.of_update hw ht hid
  constructor
  · intro htype hutype hnode p hp
    rcases port_updated hw hloaded hp with hwritten | hkept
    · have hsame : node u.agentId = node l.agent.id := by
        rw [← howner]
        exact hnode.symm
      refine free_port hchecked hown h.port ?_ ?_ hutype hsame hwritten
      · rw [hw]
        intro row hrow
        rw [hfound] at hrow
        cases hrow
        exact htype
      · rw [hw]
        trivial
    · exact hbase.ports htype hutype hnode p hkept
  · intro hsame s hs s' hs' hclash
    rcases subdomain_updated hw hloaded hs with hwritten | hkept
    · have hteam : teamOf db u.agentId = some l.agent.teamId := by
        rw [← h.holds.team, ← howner]
        exact hsame.symm
      exact free_subdomain hchecked hown h.subdomain hteam hwritten hs' hclash.symm
    · exact hbase.subdomains hsame s hkept s' hs' hclash
  · exact hbase.domains

theorem checked_updated (hholds : Holds db l job.write)
    (hfound : db.tunnel? tunnelId = some t) {u : Tunnel}
    (h : Compatible pl node (teamOf db) (updated loaded fields port t) u) :
    Checked pl node db job l port u := by
  have howner := hholds.of_update hw ht hid
  constructor
  · intro hport hutype hnode p hp hclash
    rw [hw] at hport
    rw [← howner] at hnode
    exact absurd hclash
      (h.ports (hport t hfound) hutype hnode.symm p (written_port hw hloaded hp))
  · intro hteam s hs s' hs' hclash
    rw [← hholds.team, ← howner] at hteam
    exact absurd hclash.symm (h.subdomains hteam.symm s (written_subdomain hw hloaded hs) s' hs')
  · intro d hd hclash
    rw [hw] at hd
    cases hd

theorem unique_updated {agents : List Agent} (h : Ready pl node db job l port)
    (hfound : db.tunnel? tunnelId = some t)
    (hteams : teamOf { db with
      agents := agents
      tunnels := rewriteRow Tunnel.id tunnelId (updated loaded fields port) db.tunnels } =
        teamOf db) :
    Unique pl node { db with
        agents := agents
        tunnels := rewriteRow Tunnel.id tunnelId (updated loaded fields port) db.tunnels } <->
      AllChecked pl node db job l port := by
  have hself : forall u : Tunnel, some u.id ≠ job.write.own <-> u.id ≠ tunnelId := by
    intro u
    rw [hw]
    simp [Write.own]
  unfold Unique
  rw [hteams]
  constructor
  · intro hunique u hu hown
    have hne := (hself u).mp hown
    have hu' : u ∈ rewriteRow Tunnel.id tunnelId (updated loaded fields port) db.tunnels :=
      List.mem_map.mpr ⟨u, hu, if_neg hne⟩
    have hcompatible := apart_of_mem hunique (rewritten_mem ht hid) hu'
      (by show t.id ≠ u.id; rw [hid]; exact hne.symm)
    exact checked_updated hw hloaded ht hid h.holds hfound hcompatible
  · intro hchecked
    refine pairwise_rewriteRow h.unique (fun _ => rfl) fun row hrow hrowId u hu hne => ?_
    have hsame : row = t := eq_of_key_eq h.unique hrow ht (hrowId.trans hid.symm)
    subst hsame
    have hcompatible := compatible_updated hw hloaded ht hid h hfound hu hne
      (hchecked u hu ((hself u).mpr hne))
    exact ⟨hcompatible, hcompatible.symm⟩

end Update

/-- After a commit the tunnels are unique exactly if every claim was checked. -/
theorem unique_commit {db' : Db} {fresh : Nat} (h : Ready pl node db job l port)
    (hfresh : db.tunnel? fresh = none)
    (hcommit : job.write.commit db fresh l port = Except.ok db') :
    Unique pl node db' <-> AllChecked pl node db job l port := by
  cases hw : job.write with
  | create agentId body =>
      rw [hw] at hcommit
      simp only [Write.commit, bind_ok, pure_ok] at hcommit
      rcases hcommit with ⟨-, -, rfl⟩
      exact unique_inserted h hw hfresh (teamOf_bumpLoaded _ _ _)
  | update tunnelId fields =>
      rw [hw] at hcommit
      simp only [Write.commit, bind_ok, pure_ok, found_ok] at hcommit
      rcases hcommit with ⟨t, hfound, loaded, hloaded, -, -, rfl⟩
      have hid : t.id = tunnelId := by simpa using List.find?_some hfound
      exact unique_updated hw hloaded (List.mem_of_find?_eq_some hfound) hid h hfound
        (teamOf_bumpLoaded _ _ _)

end Commit

/-!
# What a read establishes
-/

section Read

variable {db : Db}

theorem teamOf_agent {agentId : Nat} {a : Agent} (h : db.agent? agentId = some a) :
    a.id = agentId ∧ teamOf db a.id = some a.teamId := by
  have hid := (agent_of_agent? h).right
  constructor
  · exact hid
  · unfold teamOf
    rw [hid, h]
    rfl

section Established

variable {job : Job} {l : Loaded}

theorem subdomainFree_of_check (asked : Option Text) {u : Unit}
    (hasked : job.write.subdomain = given asked) (hseen : job.seen.subdomain = db.tunnels)
    (h : whenGiven asked (checkSubdomainUnique pl db · l.agent.teamId job.write.own) =
      Except.ok u) : SubdomainFree pl db job l := by
  intro s hs t ht hown hteam
  rw [hseen] at ht
  have hunique := require_ok.mp (whenGiven_ok h (hasked.symm.trans hs))
  rcases Option.map_eq_some_iff.mp hteam with ⟨a, ha, hsame⟩
  exact hunique t ht hown a ha hsame

theorem domainsFree_of_check {u : Unit} (hseen : job.seen.domains = db.tunnels)
    (h : checkCustomDomains pl st db job.write.customDomains job.write.own = Except.ok u) :
    DomainsFree pl job := by
  intro d hd t ht hown
  rw [hseen] at ht
  exact (checkCustomDomains_ok h).right t ht hown d hd

theorem portFree_of_unused {port : Option (Option Int)}
    (howned : forall t, t ∈ db.tunnels -> teamOf db t.agentId ≠ none)
    (hseen : job.seen.port = db.tunnels)
    (hunused : job.write.MayBeOnPort -> forall p, port = some (some p) ->
      p ∉ (onNode node (node l.agent.id) db).usedPorts job.write.own) :
    PortFree node job l port := by
  intro hmay p hp u hu hown hnode hclash
  rw [hseen] at hu
  have hagent : db.agent? u.agentId ≠ none := by
    intro hnone
    refine howned u hu ?_
    unfold teamOf
    rw [hnone]
    rfl
  have hmem : u ∈ (onNode node (node l.agent.id) db).tunnels :=
    List.mem_filter.mpr ⟨hu, decide_eq_true hnode⟩
  refine hunused hmay p hp (List.mem_filterMap.mpr ⟨u, List.mem_filter.mpr ⟨hmem, ?_⟩, hclash⟩)
  exact decide_eq_true ⟨hown, hagent⟩

end Established

variable {user : User} {seen : Seen} {phase phase' : Phase}

theorem jobInv_readCreate {agentId : Nat} {body : TunnelBody}
    (howned : forall t, t ∈ db.tunnels -> teamOf db t.agentId ≠ none)
    (h : JobInv pl node db ⟨user, Write.create agentId body, phase, seen⟩)
    (hread : readCreate pl st node db user agentId body phase = Except.ok phase') :
    JobInv pl node db ⟨user, Write.create agentId body, phase', seen.after db phase⟩ := by
  cases phase with
  | tunnel =>
      cases hread
      trivial
  | agent t =>
      simp only [readCreate, bind_ok, pure_ok, found_ok] at hread
      rcases hread with ⟨-, -, a, ha, -, -, rfl⟩
      have hagent := teamOf_agent ha
      exact ⟨hagent.right, hagent.left⟩
  | team l =>
      simp only [readCreate, bind_ok, pure_ok] at hread
      rcases hread with ⟨-, -, -, -, -, -, -, -, rfl⟩
      exact h
  | count l =>
      simp only [readCreate, bind_ok, pure_ok] at hread
      rcases hread with ⟨-, -, rfl⟩
      exact h
  | name l =>
      simp only [readCreate, bind_ok, pure_ok] at hread
      rcases hread with ⟨-, -, rfl⟩
      exact h
  | subdomain l =>
      simp only [readCreate, bind_ok, pure_ok] at hread
      rcases hread with ⟨u, hcheck, rfl⟩
      exact ⟨h, subdomainFree_of_check body.subdomain rfl rfl hcheck⟩
  | domains l =>
      simp only [readCreate, bind_ok, pure_ok] at hread
      rcases hread with ⟨u, hcheck, rfl⟩
      exact ⟨h.left, h.right, domainsFree_of_check rfl hcheck⟩
  | port l =>
      simp only [readCreate, bind_ok, pure_ok] at hread
      rcases hread with ⟨port, hassigned, rfl⟩
      refine ⟨h.left, h.right.left, h.right.right, portFree_of_unused howned rfl ?_⟩
      intro htype p hp
      exact assigned_ok hassigned htype (Option.some.inj hp)
  | write l port =>
      cases hread
      exact h
  | finished =>
      cases hread
      trivial

theorem jobInv_readUpdate {tunnelId : Nat} {fields : TunnelFields}
    (hunique : Unique pl node db)
    (howned : forall t, t ∈ db.tunnels -> teamOf db t.agentId ≠ none)
    (h : JobInv pl node db ⟨user, Write.update tunnelId fields, phase, seen⟩)
    (hread : readUpdate pl st node db user tunnelId fields phase = Except.ok phase') :
    JobInv pl node db ⟨user, Write.update tunnelId fields, phase', seen.after db phase⟩ := by
  cases phase with
  | tunnel =>
      simp only [readUpdate, bind_ok, pure_ok, found_ok] at hread
      rcases hread with ⟨t, ht, rfl⟩
      have hmem := List.mem_of_find?_eq_some ht
      have hid : t.id = tunnelId := by simpa using List.find?_some ht
      intro row hrow
      cases hrow
      refine ⟨congrArg some hid, ⟨t, hmem, rfl⟩, fun u hu hsame => ?_⟩
      rw [eq_of_key_eq hunique hu hmem hsame]
  | agent row =>
      cases row with
      | none =>
          cases hread
          exact h
      | some t =>
          simp only [readUpdate, bind_ok, pure_ok, found_ok] at hread
          rcases hread with ⟨a, ha, -, -, -, -, -, -, rfl⟩
          have hagent := teamOf_agent ha
          rcases h t rfl with ⟨hown, ⟨u, hu, hid⟩, howners⟩
          have hsame : t.id = tunnelId := Option.some.inj hown
          refine ⟨hagent.right, ?_, ⟨u, hu, hid.trans hsame⟩, ?_⟩
          · intro row hrow
            cases hrow
            exact hsame
          · intro v hv hvid
            exact (howners v hv (hvid.trans hsame.symm)).trans hagent.left.symm
  | team l =>
      simp only [readUpdate, bind_ok, pure_ok] at hread
      rcases hread with ⟨-, -, rfl⟩
      exact h
  | count l =>
      cases hread
      exact h
  | name l =>
      cases hread
      exact h
  | subdomain l =>
      simp only [readUpdate, bind_ok, pure_ok] at hread
      rcases hread with ⟨u, hcheck, rfl⟩
      refine ⟨h, subdomainFree_of_check fields.subdomain.join rfl rfl hcheck, ?_⟩
      intro d hd
      cases hd
  | domains l =>
      cases hread
      exact h
  | port l =>
      rcases l with ⟨a, row⟩
      cases row with
      | none =>
          cases hread
          exact h
      | some t =>
          simp only [readUpdate, bind_ok, pure_ok] at hread
          rcases hread with ⟨port, hreassigned, rfl⟩
          refine ⟨h.left, h.right.left, h.right.right, portFree_of_unused howned rfl ?_⟩
          intro _ p hp
          have hid : t.id = tunnelId := h.left.owner.left t rfl
          have hunused := reassigned_ok hreassigned hp
          rw [hid] at hunused
          exact hunused
  | write l port =>
      cases hread
      exact h
  | finished =>
      cases hread
      trivial

/-- What a read that succeeds has established. -/
theorem jobInv_read {job : Job} (hunique : Unique pl node db)
    (howned : forall t, t ∈ db.tunnels -> teamOf db t.agentId ≠ none)
    (h : JobInv pl node db job) (hread : job.read pl st node db = Except.ok phase') :
    JobInv pl node db { job with phase := phase', seen := job.seen.after db job.phase } := by
  rcases job with ⟨user, w, phase, seen⟩
  cases w with
  | create agentId body => exact jobInv_readCreate howned h hread
  | update tunnelId fields => exact jobInv_readUpdate hunique howned h hread

theorem jobInv_start (user : User) (w : Write) : JobInv pl node db (start user w) := by
  cases w with
  | create agentId body =>
      intro row hrow
      cases hrow
  | update tunnelId fields => trivial

end Read

/-!
# Every step
-/

theorem current_commit {s : State} {r fresh : Nat} {job : Job} {l : Loaded}
    {port : Option (Option Int)} (hjob : s.jobs r = some job)
    (hphase : job.phase = Phase.write l port) :
    Current pl node s (Action.commit r fresh) <->
      ((job.write.commit s.db fresh l port).isOk = true ->
        AllChecked pl node s.db job l port) := by
  have hiff : job.Current pl node s.db fresh <->
      ((job.write.commit s.db fresh l port).isOk = true ->
        AllChecked pl node s.db job l port) := by
    unfold Job.Current
    rw [hphase]
  rw [← hiff]
  constructor
  · intro h
    exact h job hjob
  · intro h job' hjob'
    rw [hjob] at hjob'
    cases hjob'
    exact h

theorem Inv.setJob {s : State} (h : Inv pl node s) {r : Nat} {job : Job}
    (hjob : JobInv pl node s.db job) : Inv pl node (s.setJob r job) where
  unique := h.unique
  owned := h.owned
  jobs := by
    intro r' job' hjob'
    rw [setJob_jobs] at hjob'
    split at hjob'
    · cases hjob'
      exact hjob
    · exact h.jobs r' job' hjob'

theorem Inv.finished {s : State} (h : Inv pl node s) (r : Nat) (job : Job) :
    Inv pl node (s.setJob r { job with phase := Phase.finished }) :=
  h.setJob trivial

theorem Inv.read {s : State} (h : Inv pl node s) {r : Nat} {job : Job}
    (hjob : s.jobs r = some job) : Inv pl node (s.read pl st node r job) := by
  unfold State.read
  cases hread : job.read pl st node s.db with
  | error e => exact h.finished r job
  | ok phase => exact h.setJob (jobInv_read h.unique h.owned (h.jobs r job hjob) hread)

theorem Inv.ready {s : State} (h : Inv pl node s) {r : Nat} {job : Job} {l : Loaded}
    {port : Option (Option Int)} (hjob : s.jobs r = some job)
    (hphase : job.phase = Phase.write l port) : Ready pl node s.db job l port := by
  have hjobInv := h.jobs r job hjob
  unfold JobInv at hjobInv
  rw [hphase] at hjobInv
  exact ⟨h.unique, hjobInv.left, hjobInv.right.left, hjobInv.right.right.left,
    hjobInv.right.right.right⟩

theorem owned_commit {db db' : Db} {w : Write} {fresh : Nat} {l : Loaded}
    {port : Option (Option Int)}
    (howned : forall t, t ∈ db.tunnels -> teamOf db t.agentId ≠ none) (hholds : Holds db l w)
    (h : w.commit db fresh l port = Except.ok db') :
    forall t, t ∈ db'.tunnels -> teamOf db' t.agentId ≠ none := by
  intro t ht
  cases w with
  | create agentId body =>
      simp only [Write.commit, bind_ok, pure_ok] at h
      rcases h with ⟨-, -, rfl⟩
      rw [teamOf_bumpLoaded]
      rcases List.mem_append.mp ht with hold | hnew
      · exact howned t hold
      · rw [List.mem_singleton.mp hnew]
        show teamOf db agentId ≠ none
        rw [← hholds.of_create rfl, hholds.team]
        exact Option.some_ne_none _
  | update tunnelId fields =>
      simp only [Write.commit, bind_ok, pure_ok] at h
      rcases h with ⟨-, -, loaded, -, -, -, rfl⟩
      rw [teamOf_bumpLoaded]
      rcases mem_rewriteRow ht with ⟨old, hold, ⟨-, rfl⟩ | ⟨-, rfl⟩⟩
      · exact howned old hold
      · exact howned t hold

theorem Inv.commit {s : State} {db : Db} (h : Inv pl node s) {r fresh : Nat} {job : Job}
    {l : Loaded} {port : Option (Option Int)} (hready : Ready pl node s.db job l port)
    (hfresh : s.db.tunnel? fresh = none)
    (hcommit : job.write.commit s.db fresh l port = Except.ok db) (hunique : Unique pl node db) :
    Inv pl node { s.setJob r { job with phase := Phase.finished } with db := db } where
  unique := hunique
  owned := owned_commit h.owned hready.holds hcommit
  jobs := by
    intro r' job' hjob'
    exact (grown_commit hfresh hcommit).jobInv ((h.finished r job).jobs r' job' hjob')

theorem inv_step {s t : State} {action : Action} (h : Inv pl node s)
    (hcurrent : Current pl node s action) (hstep : step pl st node s action = some t) :
    Inv pl node t := by
  rcases step_cases hstep with ⟨r, user, w, rfl, rfl⟩ | ⟨r, job, rfl, hjob, rfl⟩ |
    ⟨r, fresh, job, l, port, rfl, hjob, hphase, hfresh, houtcome⟩
  · exact h.setJob (jobInv_start user w)
  · exact h.read hjob
  · rcases houtcome with ⟨e, -, rfl⟩ | ⟨db, hcommit, rfl⟩
    · exact h.finished r job
    · have hready := h.ready hjob hphase
      have hok : (job.write.commit s.db fresh l port).isOk = true := by
        rw [hcommit]
        rfl
      have hchecked := (current_commit hjob hphase).mp hcurrent hok
      exact h.commit hready hfresh hcommit ((unique_commit hready hfresh hcommit).mpr hchecked)

/-- Only a commit can put the tables in conflict, and an unchecked one always does. -/
theorem not_unique_step {s t : State} {action : Action} (h : Inv pl node s)
    (hcurrent : ¬ Current pl node s action) (hstep : step pl st node s action = some t) :
    ¬ Unique pl node t.db := by
  rcases step_cases hstep with ⟨r, user, w, rfl, rfl⟩ | ⟨r, job, rfl, hjob, rfl⟩ |
    ⟨r, fresh, job, l, port, rfl, hjob, hphase, hfresh, houtcome⟩
  · exact absurd trivial hcurrent
  · exact absurd trivial hcurrent
  · rw [current_commit hjob hphase] at hcurrent
    rcases houtcome with ⟨e, hcommit, -⟩ | ⟨db, hcommit, rfl⟩
    · rw [hcommit] at hcurrent
      exact absurd nofun hcurrent
    · intro hunique
      refine hcurrent fun _ => ?_
      exact (unique_commit (h.ready hjob hphase) hfresh hcommit).mp hunique

theorem inv_of_idle {s : State} (h : Idle pl node s) : Inv pl node s where
  unique := h.unique
  owned := h.owned
  jobs := by
    intro r job hjob
    rw [h.quiet r] at hjob
    cases hjob

/-- Over every interleaving: the tunnels are unique in every committed state exactly if
every request that commits has checked all that claim what it writes. -/
theorem unique_iff_current {s t : State} {actions : List Action}
    (hidle : (machine pl st node).init s)
    (hexec : (machine pl st node).exec s actions = some t) :
    (machine pl st node).Always (fun u => Unique pl node u.db) s actions <->
      (machine pl st node).Obeys (Current pl node) s actions :=
  Machine.always_iff_obeys (I := Inv pl node) (fun _ h => h.unique)
    (fun _ _ _ h hcurrent hstep => inv_step h hcurrent hstep)
    (fun _ _ _ h hcurrent hstep => not_unique_step h hcurrent hstep) (inv_of_idle hidle) hexec

/-- Since the checks of a request that commits no tunnel has changed, and the database
lower-cases the subdomains as Python does. -/
def Undisturbed (pl : Platform) (s : State) : Action -> Prop
  | Action.commit r _ => forall job, job ∈ s.jobs r ->
      job.seen.port = s.db.tunnels ∧ job.seen.subdomain = s.db.tunnels ∧
        (job.write.customDomains ≠ none -> job.seen.domains = s.db.tunnels) ∧
          forall u, u ∈ s.db.tunnels -> forall x, x ∈ given u.subdomain ->
            pl.sqlLower x = pl.lower x
  | _ => True

theorem current_of_undisturbed {s : State} {action : Action} (h : Undisturbed pl s action) :
    Current pl node s action := by
  cases action with
  | request r user w => trivial
  | read r => trivial
  | commit r fresh =>
      intro job hjob
      rcases h job hjob with ⟨hport, hsubdomain, hdomains, hlower⟩
      rcases job with ⟨user, w, phase, seen⟩
      cases phase with
      | write l port =>
          intro _ u hu _
          constructor
          · intro _ _ _ _ _ _
            rw [hport]
            exact hu
          · intro _ _ _ x hx _
            rw [hsubdomain]
            exact ⟨hu, hlower u hu x hx⟩
          · intro d hd _
            rw [hdomains]
            · exact hu
            · intro hnone
              rw [hnone] at hd
              cases hd
      | tunnel | agent t | team l | count l | name l | subdomain l | domains l | port l
      | finished => trivial

/-- Requests that do not disturb each other leave the tunnels unique. -/
theorem unique_of_undisturbed {s : State} {actions : List Action} (hidle : Idle pl node s)
    (h : (machine pl st node).Obeys (Undisturbed pl) s actions) :
    (machine pl st node).Always (fun t => Unique pl node t.db) s actions := by
  have hcurrent : (machine pl st node).Obeys (Current pl node) s actions :=
    h.imp fun _ _ => current_of_undisturbed
  have hinv : (machine pl st node).Always (Inv pl node) s actions :=
    Machine.always_of_obeys (fun _ _ _ h hcurrent hstep => inv_step h hcurrent hstep)
      (inv_of_idle hidle) hcurrent
  exact hinv.imp fun _ h => h.unique

end Proof

/-!
# Two requests
-/

/-- A team with two agents and no tunnel. -/
def twoAgents : Db where
  teams := [⟨1, "core".toList, none, none, false⟩]
  users := [⟨1, "root@rc-tunnel.com".toList, Role.admin, some 1⟩]
  agents := [⟨1, "edge-1".toList, some 1, 0⟩, ⟨2, "edge-2".toList, some 1, 0⟩]
  tunnels := []

def root : User := ⟨1, "root@rc-tunnel.com".toList, Role.admin, some 1⟩

def idle : State := ⟨twoAgents, fun _ => none⟩

/-- A tunnel that has a port, a subdomain and a custom domain. -/
def shell (port : Int) (subdomain customDomains : Text) : TunnelBody where
  name := "shell".toList
  type := TunnelType.tcp
  remotePort := some port
  subdomain := some subdomain
  customDomains := some customDomains
  healthCheckType := none

def sshBody : TunnelBody := shell 2222 "ssh".toList "ssh.example.org".toList

def gitBody : TunnelBody := shell 2223 "git".toList "git.example.org".toList

/-- Both requests read all they check before the first of them commits. -/
def crossed (first second : TunnelBody) : List Action :=
  [Action.request 1 root (Write.create 1 first), Action.request 2 root (Write.create 2 second)] ++
    List.replicate 7 (Action.read 1) ++ List.replicate 7 (Action.read 2) ++
      [Action.commit 1 1, Action.commit 2 2]

theorem idle_twoAgents : Idle asciiPlatform (fun _ => 1) idle where
  unique := List.Pairwise.nil
  owned := fun _ ht => absurd ht List.not_mem_nil
  quiet := fun _ => rfl

/-- Two requests that ask for different names and ports. -/
theorem unique_crossed :
    exists t, (machine asciiPlatform deployed fun _ => 1).exec idle (crossed sshBody gitBody) =
        some t ∧ t.db.tunnels.length = 2 ∧
      (machine asciiPlatform deployed fun _ => 1).Always
        (fun u => Unique asciiPlatform (fun _ => 1) u.db) idle (crossed sshBody gitBody) := by
  have hrun : ((machine asciiPlatform deployed fun _ => 1).exec idle
      (crossed sshBody gitBody)).any (fun t => decide (t.db.tunnels.length = 2)) = true := by
    decide +kernel
  have hcurrent : (machine asciiPlatform deployed fun _ => 1).Obeys
      (Current asciiPlatform fun _ => 1) idle (crossed sshBody gitBody) := by decide +kernel
  rcases (Option.any_eq_true _ _).mp hrun with ⟨t, hexec, htunnels⟩
  exact ⟨t, hexec, of_decide_eq_true htunnels,
    (unique_iff_current idle_twoAgents hexec).mpr hcurrent⟩

/-- Two requests that ask for the same names and the same port: both are granted. -/
theorem conflict_crossed :
    exists t, (machine asciiPlatform deployed fun _ => 1).init idle ∧
      (machine asciiPlatform deployed fun _ => 1).exec idle (crossed sshBody sshBody) = some t ∧
      t.db.tunnels = [inserted 1 1 sshBody (some 2222), inserted 2 2 sshBody (some 2222)] ∧
      ¬ Unique asciiPlatform (fun _ => 1) t.db := by
  have hrun : ((machine asciiPlatform deployed fun _ => 1).exec idle
      (crossed sshBody sshBody)).any (fun t => decide (t.db.tunnels =
        [inserted 1 1 sshBody (some 2222), inserted 2 2 sshBody (some 2222)])) = true := by
    decide +kernel
  rcases (Option.any_eq_true _ _).mp hrun with ⟨t, hexec, htunnels⟩
  have htunnels := of_decide_eq_true htunnels
  refine ⟨t, idle_twoAgents, hexec, htunnels, fun hunique => ?_⟩
  unfold Unique at hunique
  rw [htunnels] at hunique
  have hapart := (List.pairwise_cons.mp hunique).left _ List.mem_cons_self
  exact hapart.right.left.ports rfl rfl rfl 2222 rfl rfl

end Interleaved

end Api

end Panel
end RcTunnel
