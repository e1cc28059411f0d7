import RcTunnel.Foundation.Versions
import RcTunnel.Panel.Building

/-!
# What a generation number identifies

The generation of an agent is raised by the requests that change its tunnels or the label
of its team, from the value that the request has loaded.  Suspending a team or resuming
it changes what its agents are sent and raises nothing.  A config message has the generation
of its first read, and the tunnels of later ones.

The main result says that a generation identifies what is sent if no operation raises a
generation that was raised since it was loaded, or that a message under way has read, and no
team with an enabled tunnel is suspended or resumed.
-/

namespace RcTunnel
namespace Panel

open Foundation

namespace Api

namespace Operations

open Interleaved (changed bumpLoaded)

/-!
# Config messages
-/

/-- A config message for the agent. -/
structure Message where
  agentId : Nat
  config : Config

structure Sending where
  ops : State
  builds : List Build
  /-- history: the messages that were built, by their last reads -/
  messages : List Message

inductive SendAction where
  | operate (action : Action)
  | build (agentId : Nat)
  /-- the next read of a build; the grant is signed after the last one -/
  | read (i : Nat) (now : Int)
deriving DecidableEq, Repr

section Messages

variable (pl : Platform) (st : Settings) (node : Nat -> Nat)

def Sending.read (s : Sending) (i : Nat) (now : Int) (build : Build) : Sending :=
  match build.read s.ops.db with
  | Build.Next.gone => { s with builds := s.builds.eraseIdx i }
  | Build.Next.reads next => { s with builds := s.builds.set i next }
  | Build.Next.built a rows found =>
      { s with
        builds := s.builds.eraseIdx i
        messages := s.messages ++ [⟨a.id, configOf pl st a rows found now⟩] }

def send (s : Sending) : SendAction -> Option Sending
  | SendAction.operate action =>
      (step pl st node s.ops action).map fun ops => { s with ops := ops }
  | SendAction.build agentId => some { s with builds := s.builds ++ [Build.agent agentId] }
  | SendAction.read i now => (s.builds[i]?).map (s.read pl st i now)

/-- Nothing is being asked or built, and nothing was committed or built yet. -/
structure Quiet (s : Sending) : Prop where
  ops : Idle s.ops
  builds : s.builds = []
  messages : s.messages = []

def sendMachine : Machine Sending SendAction where
  init := Quiet
  step := send pl st node

end Messages

/-- Of two messages for an agent, the later one has the larger generation, or the same with
the same tunnels. -/
def InOrder (earlier later : Message) : Prop :=
  earlier.agentId = later.agentId ->
    earlier.config.generation ≤ later.config.generation ∧
      (earlier.config.generation = later.config.generation ->
        earlier.config.tunnels = later.config.tunnels)

def Identifies (s : Sending) : Prop := s.messages.Pairwise InOrder

/-!
# Raising a generation
-/

/-- The generation that was loaded is the committed one. -/
def Stands (db : Db) (a : Agent) : Prop :=
  forall b, b ∈ db.agent? a.id -> b.generation = a.generation

/-- No agent of the team has an enabled tunnel. -/
def NoTunnels (db : Db) (teamId : Nat) : Prop :=
  forall a, a ∈ db.agents -> a.teamId = some teamId ->
    forall t, t ∈ db.tunnels -> t.agentId = a.id -> t.enabled = false

/-- A write raises the committed generations of the agents whose tunnels it changes, and
changes the suspension of a team without raising any only if it has no enabled tunnel. -/
def Phase.Raises (db : Db) : Phase -> Prop
  | Phase.delete t a =>
      Stands db a ∧ forall u, u ∈ db.tunnels -> u.id = t.id -> u.agentId = a.id
  | Phase.update loaded change suspended rows =>
      if relabels loaded change = true then
        forall a, a ∈ rows -> Stands db a
      else
        suspended ≠ loaded.suspended -> forall t, t ∈ db.teams -> t.id = loaded.id ->
          t.suspended ≠ suspended -> NoTunnels db loaded.id
  | Phase.flip flipped => forall f, f ∈ flipped -> forall t, t ∈ db.teams -> t.id = f.1 ->
      t.suspended ≠ f.2 -> NoTunnels db f.1
  | _ => True

def RaisesTunnel (db : Db) (w : Interleaved.Write) (l : Interleaved.Loaded) : Prop :=
  Stands db l.agent ∧ forall tunnelId, tunnelId ∈ w.own -> forall t, t ∈ db.tunnels ->
    t.id = tunnelId -> t.agentId = l.agent.id

/-- The agents whose rows were read for a message that is under way. -/
def Sending.readers (s : Sending) : List Nat := s.builds.filterMap Build.reader?

def Phase.Orderly (db : Db) (readers : List Nat) (phase : Phase) : Prop :=
  (phase.commit db).isOk = true ->
    phase.Raises db ∧ forall x, x ∈ phase.bumps -> readers.contains x = false

def JobOrderly (db : Db) (readers : List Nat) (fresh : Nat) (job : Interleaved.Job) : Prop :=
  match job.phase with
  | Interleaved.Phase.write l port =>
      (job.write.commit db fresh l port).isOk = true ->
        RaisesTunnel db job.write l ∧ readers.contains l.agent.id = false
  | _ => True

/-- A commit that succeeds raises what it has to, and raises no generation that was read for
a message under way. -/
def Orderly (s : Sending) : SendAction -> Prop
  | SendAction.operate (Action.tunnel (Interleaved.Action.commit r fresh)) =>
      forall job, job ∈ s.ops.tunnels.jobs r -> JobOrderly s.ops.db s.readers fresh job
  | SendAction.operate (Action.commit r) =>
      forall phase, phase ∈ s.ops.jobs r -> phase.Orderly s.ops.db s.readers
  | _ => True

instance (db : Db) (a : Agent) : Decidable (Stands db a) :=
  inferInstanceAs (Decidable (forall b, b ∈ db.agent? a.id -> _))

instance (db : Db) (teamId : Nat) : Decidable (NoTunnels db teamId) :=
  inferInstanceAs (Decidable (forall a, a ∈ db.agents -> _))

instance Phase.Raises.decidable (db : Db) : forall phase : Phase, Decidable (phase.Raises db)
  | Phase.delete _ _ => inferInstanceAs (Decidable (_ ∧ forall u, u ∈ db.tunnels -> _))
  | Phase.update loaded change suspended rows =>
      if hlabel : relabels loaded change = true then
        decidable_of_iff (forall a, a ∈ rows -> Stands db a)
          (by simp only [Phase.Raises, if_pos hlabel])
      else
        decidable_of_iff (suspended ≠ loaded.suspended -> forall t, t ∈ db.teams ->
            t.id = loaded.id -> t.suspended ≠ suspended -> NoTunnels db loaded.id)
          (by simp only [Phase.Raises, if_neg hlabel])
  | Phase.flip flipped => inferInstanceAs (Decidable (forall f, f ∈ flipped ->
      forall t, t ∈ db.teams -> t.id = f.1 -> t.suspended ≠ f.2 -> NoTunnels db f.1))
  | Phase.tunnel _ _ | Phase.owner _ _ | Phase.team _ _ _ | Phase.name _ _
  | Phase.label _ _ _ | Phase.usage _ _ | Phase.agents _ _ _ | Phase.tunnels _
  | Phase.count _ | Phase.teams | Phase.usages _ _ | Phase.finished => isTrue trivial

instance RaisesTunnel.decidable (db : Db) (w : Interleaved.Write) (l : Interleaved.Loaded) :
    Decidable (RaisesTunnel db w l) :=
  inferInstanceAs (Decidable (Stands db _ ∧ forall tunnelId, tunnelId ∈ w.own ->
    forall t, t ∈ db.tunnels -> _))

instance Phase.Orderly.decidable (db : Db) (readers : List Nat) (phase : Phase) :
    Decidable (phase.Orderly db readers) :=
  inferInstanceAs (Decidable (_ -> _ ∧ forall x, x ∈ phase.bumps -> _))

instance JobOrderly.decidable (db : Db) (readers : List Nat) (fresh : Nat) :
    forall job, Decidable (JobOrderly db readers fresh job)
  | ⟨_, _, Interleaved.Phase.write _ _, _⟩ => inferInstanceAs (Decidable (_ -> _ ∧ _))
  | ⟨_, _, Interleaved.Phase.tunnel, _⟩ | ⟨_, _, Interleaved.Phase.agent _, _⟩
  | ⟨_, _, Interleaved.Phase.team _, _⟩ | ⟨_, _, Interleaved.Phase.count _, _⟩
  | ⟨_, _, Interleaved.Phase.name _, _⟩ | ⟨_, _, Interleaved.Phase.subdomain _, _⟩
  | ⟨_, _, Interleaved.Phase.domains _, _⟩ | ⟨_, _, Interleaved.Phase.port _, _⟩
  | ⟨_, _, Interleaved.Phase.finished, _⟩ => isTrue trivial

instance Orderly.decidable (s : Sending) : DecidablePred (Orderly s)
  | SendAction.operate (Action.tunnel (Interleaved.Action.commit r _)) =>
      inferInstanceAs (Decidable (forall job, job ∈ s.ops.tunnels.jobs r -> _))
  | SendAction.operate (Action.commit r) =>
      inferInstanceAs (Decidable (forall phase, phase ∈ s.ops.jobs r -> _))
  | SendAction.operate (Action.tunnel (Interleaved.Action.request _ _ _))
  | SendAction.operate (Action.tunnel (Interleaved.Action.read _))
  | SendAction.operate (Action.deleteTunnel _ _ _) | SendAction.operate (Action.updateTeam _ _ _ _)
  | SendAction.operate (Action.poll _ _) | SendAction.operate (Action.read _)
  | SendAction.build _ | SendAction.read _ _ => isTrue trivial

section View

variable {st : Settings} {db db' : Db}

/-- An agent keeps its number with what it is sent, or gets a larger one. -/
theorem allAdvance_of {f : Agent -> Agent} (hagents : forall id, db'.agent? id =
      (db.agent? id).map f)
    (hkeep : forall id a, db.agent? id = some a -> a.generation < (f a).generation ∨
      ((f a).generation = a.generation ∧ sends st db' (f a) = sends st db a)) :
    AllAdvance (view st) db db' := by
  intro id v hv
  rcases Option.map_eq_some_iff.mp hv with ⟨a, ha, rfl⟩
  refine ⟨((f a).generation, sends st db' (f a)), ?_, ?_⟩
  · unfold view
    rw [hagents, ha]
    rfl
  · rcases hkeep id a ha with hlt | ⟨hgen, hsends⟩
    · exact Advances.of_lt hlt
    · rw [hgen, hsends]
      exact Advances.refl _

end View

/-!
# Every commit
-/

section Commits

variable {pl : Platform} {st : Settings} {db db' : Db}

/-- Raising the committed generation of an agent covers any change to its tunnels. -/
theorem advance_bumpLoaded {a : Agent} {tunnels : List Tunnel} (hstands : Stands db a)
    (hother : forall id, id ≠ a.id ->
      offered { db with tunnels := tunnels } id = offered db id) :
    AllAdvance (view st) db
      { db with agents := bumpLoaded a db.agents, tunnels := tunnels } := by
  apply allAdvance_of (f := fun b =>
    if b.id = a.id then { b with generation := a.generation + 1 } else b)
  · exact agent_bumpLoaded a db tunnels
  · intro id b hb
    by_cases hid : b.id = a.id
    · apply Or.inl
      rw [if_pos hid]
      have hcurrent := hstands b (hid ▸ key_of_find hb ▸ hb)
      show b.generation < a.generation + 1
      omega
    · rw [if_neg hid]
      exact Or.inr ⟨rfl, sends_congr rfl (hother b.id hid) rfl⟩

theorem advance_commit {w : Interleaved.Write} {fresh : Nat} {l : Interleaved.Loaded}
    {port : Option (Option Int)} (hcommit : w.commit db fresh l port = Except.ok db')
    (hstands : Stands db l.agent)
    (hcreate : forall agentId body, w = Interleaved.Write.create agentId body ->
      l.agent.id = agentId)
    (hupdate : forall tunnelId, tunnelId ∈ w.own -> forall t, t ∈ db.tunnels ->
      t.id = tunnelId -> t.agentId = l.agent.id) : AllAdvance (view st) db db' := by
  have hother : forall id, id ≠ l.agent.id -> offered db' id = offered db id := by
    intro id hid
    exact (steady_commit hcommit hcreate hupdate hid).right
  cases w with
  | create agentId body =>
      simp only [Interleaved.Write.commit, bind_ok, pure_ok] at hcommit
      rcases hcommit with ⟨_, -, rfl⟩
      exact advance_bumpLoaded hstands hother
  | update tunnelId fields =>
      simp only [Interleaved.Write.commit, bind_ok, pure_ok] at hcommit
      rcases hcommit with ⟨_, -, _, -, _, -, rfl⟩
      exact advance_bumpLoaded hstands hother

/-- The counters are not sent. -/
theorem advance_count {f : Tunnel -> Tunnel}
    (hpayload : forall t, tunnelPayload (f t) = tunnelPayload t ∧
      (f t).agentId = t.agentId ∧ (f t).enabled = t.enabled) :
    AllAdvance (view st) db { db with tunnels := db.tunnels.map f } := by
  apply allAdvance_of (f := id)
  · intro id
    show db.agent? id = (db.agent? id).map _
    rw [Option.map_id]
    rfl
  · intro id a _
    exact Or.inr ⟨rfl, sends_congr rfl (offered_map hpayload) rfl⟩

theorem offered_noTunnels {teamId : Nat} {a : Agent} (h : NoTunnels db teamId)
    (ha : a ∈ db.agents) (hteam : a.teamId = some teamId) : offered db a.id = [] := by
  unfold offered
  rw [List.filter_eq_nil_iff.mpr]
  · rfl
  · intro t ht hoffered
    rw [decide_eq_true_eq] at hoffered
    rw [h a ha hteam t ht hoffered.left] at hoffered
    exact Bool.false_ne_true hoffered.right

/-- Without enabled tunnels nothing is sent. -/
theorem sends_nil {a : Agent} (h : offered db a.id = []) : sends st db a = [] := by
  unfold sends
  rw [h]
  split <;> rfl

/-- The change of a team keeps what the agent is sent. -/
def KeepsTeam (db : Db) (g : Team -> Team) (a : Agent) : Prop :=
  forall t, db.teamOf a = some t -> (g t).subdomainLabel = t.subdomainLabel ∧
    ((g t).suspended = t.suspended ∨ offered db a.id = [])

theorem sends_keepsTeam {g : Team -> Team} {agents : List Agent} {a : Agent}
    (hid : forall t, (g t).id = t.id) (hkeeps : KeepsTeam db g a) :
    sends st { db with teams := db.teams.map g, agents := agents } a = sends st db a := by
  have hteam : Db.teamOf { db with teams := db.teams.map g, agents := agents } a =
      (db.teamOf a).map g := by
    unfold Db.teamOf Db.team?
    cases a.teamId with
    | none => rfl
    | some teamId => exact find?_mapRow hid
  have hoffered : offered { db with teams := db.teams.map g, agents := agents } a.id =
      offered db a.id := rfl
  cases ht : db.teamOf a with
  | none =>
      rw [ht] at hteam
      exact sends_congr rfl hoffered (hteam.trans ht.symm)
  | some t =>
      rcases hkeeps t ht with ⟨hlabel, hsuspended | hnone⟩
      · rw [ht] at hteam
        unfold sends
        rw [hteam, ht, hoffered]
        simp only [Option.map_some, Option.any_some, Option.bind_some, hlabel, hsuspended]
      · rw [sends_nil hnone, sends_nil (hoffered.trans hnone)]

/-- Raising the committed generations of some agents covers a change of the teams that
keeps what the others are sent. -/
theorem advance_teams {g : Team -> Team} {rows : List Agent}
    (hid : forall t, (g t).id = t.id) (hstands : forall a, a ∈ rows -> Stands db a)
    (hkeeps : forall b, b ∈ db.agents -> (forall a, a ∈ rows -> a.id ≠ b.id) ->
      KeepsTeam db g b) :
    AllAdvance (view st) db
      { db with teams := db.teams.map g, agents := bumpAll rows db.agents } := by
  apply allAdvance_of (f := bumpedFrom rows)
  · exact agent_bumpAll rows db _
  · intro id b hb
    unfold bumpedFrom
    split
    · rename_i hnone
      refine Or.inr ⟨rfl, sends_keepsTeam hid (hkeeps b (List.mem_of_find?_eq_some hb) ?_)⟩
      intro a ha
      exact of_decide_eq_false (Bool.eq_false_iff.mpr (List.find?_eq_none.mp hnone a ha))
    · rename_i a ha
      apply Or.inl
      have haid : a.id = b.id := key_of_find ha
      have hcurrent := hstands a (List.mem_of_find?_eq_some ha) b
        (by rw [haid, key_of_find hb]; exact hb)
      show b.generation < a.generation + 1
      omega

theorem bumpAll_nil (agents : List Agent) : bumpAll [] agents = agents :=
  (List.map_congr_left fun _ _ => rfl).trans (List.map_id agents)

theorem ownsTunnel_of_raises {phase : Phase} (h : phase.Raises db) : phase.OwnsTunnel db := by
  cases phase with
  | delete t a => exact h.right
  | _ => trivial

/-!
# What an operation knows when it writes
-/

/-- An update that sets another label has loaded all agents of the team, and another
update none. -/
def Phase.Covers (db : Db) : Phase -> Prop
  | Phase.agents loaded change _ => relabels loaded change = true
  | Phase.update loaded change _ rows =>
      if relabels loaded change = true then
        forall b, b ∈ db.agents -> b.teamId = some loaded.id ->
          exists a, a ∈ rows ∧ a.id = b.id
      else
        rows = []
  | _ => True

theorem teamOf_id {b : Agent} {t : Team} (h : db.teamOf b = some t) : b.teamId = some t.id := by
  rcases Option.bind_eq_some_iff.mp h with ⟨teamId, hteam, ht⟩
  rw [hteam, key_of_find ht]

theorem changed_loaded [DecidableEq α] (x : α) : changed (some x) x = none :=
  Option.filter_some_neg (by simp)

theorem changed_other [DecidableEq α] {x loaded : α} (h : x ≠ loaded) :
    changed (some x) loaded = some x :=
  Option.filter_some_pos (by simpa using h)

/-- A label that is not another than the loaded one is not written. -/
theorem label_kept {loaded t : Team} {change : TeamChange} {suspended : Bool}
    (h : relabels loaded change = false) :
    (Team.updated loaded change suspended t).subdomainLabel = t.subdomainLabel := by
  have hnone : changed change.subdomainLabel loaded.subdomainLabel = none := by
    cases hlabel : change.subdomainLabel with
    | none => rfl
    | some l =>
        have hsame : l = loaded.subdomainLabel := by
          simpa [relabels, hlabel] using h
        rw [hsame]
        exact changed_loaded _
  show (changed change.subdomainLabel loaded.subdomainLabel).getD t.subdomainLabel = _
  rw [hnone]
  rfl

theorem suspended_kept {loaded t : Team} {change : TeamChange} {suspended : Bool} :
    (Team.updated loaded change suspended t).suspended = t.suspended ∨
      suspended ≠ loaded.suspended ∧ t.suspended ≠ suspended := by
  show (changed (some suspended) loaded.suspended).getD t.suspended = t.suspended ∨ _
  by_cases hloaded : suspended = loaded.suspended
  · subst hloaded
    rw [changed_loaded]
    exact Or.inl rfl
  · rw [changed_other hloaded]
    by_cases ht : t.suspended = suspended
    · exact Or.inl ht.symm
    · exact Or.inr ⟨hloaded, ht⟩

theorem advance_update {loaded : Team} {change : TeamChange} {suspended : Bool}
    {rows : List Agent}
    (hraises : (Phase.update loaded change suspended rows).Raises db)
    (hcovers : (Phase.update loaded change suspended rows).Covers db) :
    AllAdvance (view st) db { db with
      teams := rewriteRow Team.id loaded.id (Team.updated loaded change suspended) db.teams
      agents := bumpAll rows db.agents } := by
  simp only [Phase.Raises, Phase.Covers] at hraises hcovers
  have hid : forall t : Team, (if t.id = loaded.id then
      Team.updated loaded change suspended t else t).id = t.id := by
    intro t
    split <;> rfl
  cases hlabel : relabels loaded change with
  | true =>
      rw [if_pos hlabel] at hraises hcovers
      apply advance_teams hid hraises
      intro b hb hunloaded t ht
      have hother : t.id ≠ loaded.id := by
        intro hsame
        rcases hcovers b hb (hsame ▸ teamOf_id ht) with ⟨a, ha, hab⟩
        exact hunloaded a ha hab
      beta_reduce
      rw [if_neg hother]
      exact ⟨rfl, Or.inl rfl⟩
  | false =>
      have hnot : ¬ relabels loaded change = true := by simp [hlabel]
      rw [if_neg hnot] at hraises hcovers
      subst hcovers
      apply advance_teams hid (fun a ha => absurd ha List.not_mem_nil)
      intro b hb _ t ht
      beta_reduce
      by_cases hsame : t.id = loaded.id
      · rw [if_pos hsame]
        refine ⟨label_kept hlabel, ?_⟩
        rcases suspended_kept with hkept | ⟨hwritten, hflips⟩
        · exact Or.inl hkept
        · have hmem : t ∈ db.teams := by
            rcases Option.bind_eq_some_iff.mp ht with ⟨_, -, hfound⟩
            exact List.mem_of_find?_eq_some hfound
          have hnone := hraises hwritten t hmem hsame hflips
          exact Or.inr (offered_noTunnels hnone hb (hsame ▸ teamOf_id ht))
      · rw [if_neg hsame]
        exact ⟨rfl, Or.inl rfl⟩

theorem advance_flip {flipped : List (Nat × Bool)}
    (hraises : (Phase.flip flipped).Raises db) :
    AllAdvance (view st) db { db with
      teams := db.teams.map fun t =>
        match flipped.find? fun f => f.1 = t.id with
        | none => t
        | some f => { t with suspended := f.2 } } := by
  rw [← bumpAll_nil db.agents]
  apply advance_teams
  · intro t
    split <;> rfl
  · intro a ha
    cases ha
  · intro b hb _ t ht
    beta_reduce
    split
    · exact ⟨rfl, Or.inl rfl⟩
    · rename_i f hf
      refine ⟨rfl, ?_⟩
      have hid : f.1 = t.id := key_of_find hf
      by_cases hsame : t.suspended = f.2
      · exact Or.inl hsame.symm
      · have hmem : t ∈ db.teams := by
          rcases Option.bind_eq_some_iff.mp ht with ⟨_, -, hfound⟩
          exact List.mem_of_find?_eq_some hfound
        have hnone := hraises f (List.mem_of_find?_eq_some hf) t hmem hid.symm hsame
        exact Or.inr (offered_noTunnels hnone hb (hid ▸ teamOf_id ht))

theorem advance_phase {phase next : Phase} (hraises : phase.Raises db)
    (hcovers : phase.Covers db) (hcommit : phase.commit db = Except.ok (db', next)) :
    AllAdvance (view st) db db' := by
  cases phase with
  | delete t a =>
      have hother : forall id, id ≠ a.id -> offered db' id = offered db id := by
        intro id hid
        have hnot : id ∉ (Phase.delete t a).bumps := fun hmem => hid (List.mem_singleton.mp hmem)
        exact (steady_phase (ownsTunnel_of_raises hraises) hcommit hnot).right
      cases hcommit
      exact advance_bumpLoaded hraises.left hother
  | update loaded change suspended rows =>
      simp only [Phase.commit, bind_ok, pure_ok, Prod.mk.injEq] at hcommit
      rcases hcommit with ⟨_, -, _, -, _, -, rfl, -⟩
      exact advance_update hraises hcovers
  | count rows =>
      simp only [Phase.commit, bind_ok, pure_ok, Prod.mk.injEq] at hcommit
      rcases hcommit with ⟨_, -, rfl, -⟩
      apply advance_count
      intro t
      split <;> exact ⟨rfl, rfl, rfl⟩
  | flip flipped =>
      simp only [Phase.commit, bind_ok, pure_ok, Prod.mk.injEq] at hcommit
      rcases hcommit with ⟨_, -, rfl, -⟩
      exact advance_flip hraises
  | _ => cases hcommit

/-- The agents after a commit are those before, in their teams. -/
def SameAgents (db db' : Db) : Prop :=
  forall b', b' ∈ db'.agents -> exists b, b ∈ db.agents ∧ b.id = b'.id ∧ b.teamId = b'.teamId

theorem sameAgents_map {f : Agent -> Agent} {agents : List Agent}
    (hf : forall b, (f b).id = b.id ∧ (f b).teamId = b.teamId)
    (hagents : db.agents = agents) (hmap : db'.agents = agents.map f) : SameAgents db db' := by
  intro b' hb'
  rw [hmap] at hb'
  rcases List.mem_map.mp hb' with ⟨b, hb, rfl⟩
  exact ⟨b, hagents ▸ hb, (hf b).left.symm, (hf b).right.symm⟩

theorem sameAgents_bumpLoaded {a : Agent} (h : db'.agents = bumpLoaded a db.agents) :
    SameAgents db db' := by
  apply sameAgents_map _ rfl h
  intro b
  split <;> exact ⟨rfl, rfl⟩

theorem sameAgents_commit {w : Interleaved.Write} {fresh : Nat} {l : Interleaved.Loaded}
    {port : Option (Option Int)} (hcommit : w.commit db fresh l port = Except.ok db') :
    SameAgents db db' := by
  cases w with
  | create agentId body =>
      simp only [Interleaved.Write.commit, bind_ok, pure_ok] at hcommit
      rcases hcommit with ⟨_, -, rfl⟩
      exact sameAgents_bumpLoaded rfl
  | update tunnelId fields =>
      simp only [Interleaved.Write.commit, bind_ok, pure_ok] at hcommit
      rcases hcommit with ⟨_, -, _, -, _, -, rfl⟩
      exact sameAgents_bumpLoaded rfl

theorem sameAgents_refl (h : db'.agents = db.agents) : SameAgents db db' := by
  intro b hb
  exact ⟨b, h ▸ hb, rfl, rfl⟩

theorem sameAgents_phase {phase next : Phase} (hcommit : phase.commit db = Except.ok (db', next)) :
    SameAgents db db' := by
  cases phase with
  | delete t a =>
      cases hcommit
      exact sameAgents_bumpLoaded rfl
  | update loaded change suspended rows =>
      simp only [Phase.commit, bind_ok, pure_ok, Prod.mk.injEq] at hcommit
      rcases hcommit with ⟨_, -, _, -, _, -, rfl, -⟩
      apply sameAgents_map _ rfl rfl
      intro b
      unfold bumpedFrom
      split <;> exact ⟨rfl, rfl⟩
  | count rows =>
      simp only [Phase.commit, bind_ok, pure_ok, Prod.mk.injEq] at hcommit
      rcases hcommit with ⟨_, -, rfl, -⟩
      exact sameAgents_refl rfl
  | flip flipped =>
      simp only [Phase.commit, bind_ok, pure_ok, Prod.mk.injEq] at hcommit
      rcases hcommit with ⟨_, -, rfl, -⟩
      exact sameAgents_refl rfl
  | _ => cases hcommit

theorem covers_committed {phase : Phase} (hsame : SameAgents db db') (h : phase.Covers db) :
    phase.Covers db' := by
  cases phase with
  | update loaded change suspended rows =>
      simp only [Phase.Covers] at h ⊢
      split at h
      · rename_i hlabel
        rw [if_pos hlabel]
        intro b' hb' hteam
        rcases hsame b' hb' with ⟨b, hb, hid, hteamId⟩
        rcases h b hb (hteamId.trans hteam) with ⟨a, ha, hab⟩
        exact ⟨a, ha, hab.trans hid⟩
      · rename_i hlabel
        rw [if_neg hlabel]
        exact h
  | agents loaded change suspended => exact h
  | _ => trivial

theorem covers_next {phase next : Phase} (hcommit : phase.commit db = Except.ok (db', next)) :
    next.Covers db' := by
  cases phase with
  | delete t a =>
      cases hcommit
      trivial
  | update loaded change suspended rows =>
      simp only [Phase.commit, bind_ok, pure_ok, Prod.mk.injEq] at hcommit
      rcases hcommit with ⟨_, -, _, -, _, -, -, rfl⟩
      trivial
  | count rows =>
      simp only [Phase.commit, bind_ok, pure_ok, Prod.mk.injEq] at hcommit
      rcases hcommit with ⟨_, -, -, rfl⟩
      trivial
  | flip flipped =>
      simp only [Phase.commit, bind_ok, pure_ok, Prod.mk.injEq] at hcommit
      rcases hcommit with ⟨_, -, -, rfl⟩
      trivial
  | _ => cases hcommit

theorem covers_read {phase next : Phase} (h : phase.Covers db)
    (hread : phase.read pl db = Except.ok next) : next.Covers db := by
  cases phase with
  | agents loaded change suspended =>
      cases hread
      simp only [Phase.Covers] at h ⊢
      rw [if_pos h]
      intro b hb hteam
      exact ⟨b, List.mem_filter.mpr ⟨hb, decide_eq_true hteam⟩, rfl⟩
  | usage loaded change =>
      simp only [Phase.read] at hread
      split at hread
      · rename_i hlabel
        cases hread
        exact hlabel
      · rename_i hlabel
        cases hread
        exact (if_neg hlabel).mpr rfl
  | tunnel user tunnelId =>
      simp only [Phase.read, bind_ok, pure_ok] at hread
      rcases hread with ⟨_, -, rfl⟩
      trivial
  | owner user t =>
      simp only [Phase.read, bind_ok, pure_ok] at hread
      rcases hread with ⟨_, -, _, -, rfl⟩
      trivial
  | team user teamId fields =>
      simp only [Phase.read, bind_ok, pure_ok] at hread
      rcases hread with ⟨_, -, _, -, _, -, rfl⟩
      trivial
  | name loaded fields =>
      simp only [Phase.read, bind_ok, pure_ok] at hread
      rcases hread with ⟨_, -, rfl⟩
      trivial
  | label loaded name fields =>
      simp only [Phase.read, bind_ok, pure_ok] at hread
      rcases hread with ⟨_, -, rfl⟩
      trivial
  | usages todo flipped =>
      cases todo <;> cases hread <;> trivial
  | delete t a => cases hread; exact h
  | update loaded change suspended rows => cases hread; exact h
  | tunnels answer => cases hread; trivial
  | count rows => cases hread; trivial
  | teams => cases hread; trivial
  | flip flipped => cases hread; trivial
  | finished => cases hread; trivial

end Commits

/-!
# The tunnels that are created
-/

/-- The rows that a request to create or update a tunnel has loaded. -/
def loaded : Interleaved.Phase -> Option Interleaved.Loaded
  | Interleaved.Phase.team l | Interleaved.Phase.count l | Interleaved.Phase.name l
  | Interleaved.Phase.subdomain l | Interleaved.Phase.domains l | Interleaved.Phase.port l
  | Interleaved.Phase.write l _ => some l
  | _ => none

/-- A request that creates a tunnel has loaded the agent that it is created for. -/
def LoadsOwner (job : Interleaved.Job) : Prop :=
  forall agentId body, job.write = Interleaved.Write.create agentId body ->
    forall l, loaded job.phase = some l -> l.agent.id = agentId

section Requests

variable {pl : Platform} {st : Settings} {node : Nat -> Nat} {db : Db}

theorem loadsOwner_read {job : Interleaved.Job} {phase : Interleaved.Phase}
    (h : LoadsOwner job) (hread : job.read pl st node db = Except.ok phase) :
    LoadsOwner { job with phase := phase } := by
  intro agentId body hwrite l hl
  change job.write = _ at hwrite
  change loaded phase = some l at hl
  unfold Interleaved.Job.read at hread
  rw [hwrite] at hread
  simp only at hread
  have hkept := h agentId body hwrite
  cases hphase : job.phase with
  | agent t =>
      rw [hphase] at hread
      simp only [Interleaved.readCreate, bind_ok, found_ok, pure_ok] at hread
      rcases hread with ⟨_, -, a, ha, _, -, rfl⟩
      cases hl
      exact key_of_find ha
  | team l' =>
      rw [hphase] at hread hkept
      simp only [Interleaved.readCreate, bind_ok, pure_ok] at hread
      rcases hread with ⟨_, -, _, -, _, -, _, -, rfl⟩
      exact hkept l hl
  | count l' | name l' | subdomain l' | domains l' | port l' =>
      rw [hphase] at hread hkept
      simp only [Interleaved.readCreate, bind_ok, pure_ok] at hread
      rcases hread with ⟨_, -, rfl⟩
      exact hkept l hl
  | _ =>
      rw [hphase] at hread hkept
      cases hread
      exact hkept l hl

end Requests

/-!
# Every run
-/

structure Inv (st : Settings) (s : Sending) : Prop where
  requests : forall r job, s.ops.tunnels.jobs r = some job -> LoadsOwner job
  jobs : forall r phase, s.ops.jobs r = some phase -> phase.Covers s.ops.db
  fits : forall build, build ∈ s.builds -> Fits s.ops.db build
  /-- an agent is sent the same still, or has a larger generation -/
  reached : forall m, m ∈ s.messages -> exists w, view st s.ops.db m.agentId = some w ∧
    Advances (m.config.generation, m.config.tunnels) w
  ordered : Identifies s

section Runs

variable {pl : Platform} {st : Settings} {node : Nat -> Nat} {s t : Sending}

theorem inv_of_quiet (h : Quiet s) : Inv st s where
  requests := by
    intro r job hjob
    rw [h.ops.requests] at hjob
    cases hjob
  jobs := by
    intro r phase hphase
    rw [h.ops.jobs] at hphase
    cases hphase
  fits := by
    intro build hbuild
    rw [h.builds] at hbuild
    cases hbuild
  reached := by
    intro m hm
    rw [h.messages] at hm
    cases hm
  ordered := by
    unfold Identifies
    rw [h.messages]
    exact List.Pairwise.nil

/-- An operation goes on, with a commit or without one. -/
theorem Inv.operated (h : Inv st s) {ops : State}
    (hrequests : forall r job, ops.tunnels.jobs r = some job -> LoadsOwner job)
    (hjobs : forall r phase, ops.jobs r = some phase -> phase.Covers ops.db)
    (hadvance : AllAdvance (view st) s.ops.db ops.db)
    (hsteady : forall x, x ∈ s.readers -> Steady s.ops.db ops.db x) :
    Inv st { s with ops := ops } where
  requests := hrequests
  jobs := hjobs
  fits := by
    intro build hbuild
    apply fits_steady (h.fits build hbuild)
    intro x hx
    exact hsteady x (List.mem_filterMap.mpr ⟨build, hbuild, hx⟩)
  reached := by
    intro m hm
    rcases h.reached m hm with ⟨v, hv, hmv⟩
    rcases hadvance m.agentId v hv with ⟨w, hw, hvw⟩
    exact ⟨w, hw, hmv.trans hvw⟩
  ordered := h.ordered

theorem Inv.uncommitted (h : Inv st s) {ops : State} (hdb : ops.db = s.ops.db)
    (hrequests : forall r job, ops.tunnels.jobs r = some job -> LoadsOwner job)
    (hjobs : forall r phase, ops.jobs r = some phase -> phase.Covers s.ops.db) :
    Inv st { s with ops := ops } := by
  apply h.operated hrequests
  · rw [hdb]
    exact hjobs
  · rw [hdb]
    exact AllAdvance.refl _ _
  · rw [hdb]
    exact fun x _ => steady_refl x

theorem covers_setJob {ops : State} {db : Db} {r : Nat} {phase : Phase}
    (h : forall r' phase', ops.jobs r' = some phase' -> phase'.Covers db)
    (hcovers : phase.Covers db) :
    forall r' phase', (ops.setJob r phase).jobs r' = some phase' -> phase'.Covers db := by
  intro r' phase' hphase'
  rcases lookup_started hphase' with ⟨-, rfl⟩ | ⟨-, hold⟩
  · exact hcovers
  · exact h r' phase' hold

theorem loadsOwner_setJob {tunnels : Interleaved.State} {r : Nat} {job : Interleaved.Job}
    (h : forall r' job', tunnels.jobs r' = some job' -> LoadsOwner job')
    (hloads : LoadsOwner job) :
    forall r' job', (tunnels.setJob r job).jobs r' = some job' -> LoadsOwner job' := by
  intro r' job' hjob'
  rcases lookup_started hjob' with ⟨-, rfl⟩ | ⟨-, hold⟩
  · exact hloads
  · exact h r' job' hold

theorem loadsOwner_finished (job : Interleaved.Job) :
    LoadsOwner { job with phase := Interleaved.Phase.finished } := by
  intro _ _ _ l hl
  cases hl

/-- What is raised was not read for a message under way. -/
theorem apart_readers {bumped : List Nat}
    (h : forall x, x ∈ bumped -> s.readers.contains x = false) {x : Nat} (hx : x ∈ s.readers) :
    x ∉ bumped := by
  intro hmem
  have hnot := h x hmem
  rw [List.contains_iff_mem.mpr hx] at hnot
  cases hnot

/-- A tunnel request that commits raises the generation of its agent. -/
theorem Inv.commitRequest {r fresh : Nat} {job : Interleaved.Job} {l : Interleaved.Loaded}
    {port : Option (Option Int)} {db : Db} (h : Inv st s)
    (hjob : s.ops.tunnels.jobs r = some job)
    (hphase : job.phase = Interleaved.Phase.write l port)
    (hcommit : job.write.commit s.ops.db fresh l port = Except.ok db)
    (horderly : JobOrderly s.ops.db s.readers fresh job) :
    Inv st { s with ops := { s.ops with
      tunnels := { s.ops.tunnels.setJob r { job with phase := Interleaved.Phase.finished } with
        db := db }
      past := s.ops.past ++ [s.ops.db] } } := by
  simp only [JobOrderly, hphase, hcommit] at horderly
  rcases horderly rfl with ⟨⟨hstands, howned⟩, hapart⟩
  have hcreate : forall agentId body,
      job.write = Interleaved.Write.create agentId body -> l.agent.id = agentId := by
    intro agentId body hwrite
    exact h.requests r job hjob agentId body hwrite l (by rw [hphase]; rfl)
  apply h.operated
  · exact loadsOwner_setJob h.requests (loadsOwner_finished job)
  · intro r' phase hphase'
    exact covers_committed (sameAgents_commit hcommit) (h.jobs r' phase hphase')
  · exact advance_commit hcommit hstands hcreate howned
  · intro x hx
    apply steady_commit hcommit hcreate howned
    rintro rfl
    rw [List.contains_iff_mem.mpr hx] at hapart
    cases hapart

/-- So does a request or a poll that commits, if it changes what an agent is sent. -/
theorem Inv.commit {r : Nat} {phase next : Phase} {db : Db} (h : Inv st s)
    (hjob : s.ops.jobs r = some phase) (hcommit : phase.commit s.ops.db = Except.ok (db, next))
    (horderly : phase.Orderly s.ops.db s.readers) :
    Inv st { s with ops := (s.ops.committed db).setJob r next } := by
  rw [Phase.Orderly, hcommit] at horderly
  rcases horderly rfl with ⟨hraises, hapart⟩
  apply h.operated
  · exact h.requests
  · apply covers_setJob _ (covers_next hcommit)
    intro r' phase' hphase'
    exact covers_committed (sameAgents_phase hcommit) (h.jobs r' phase' hphase')
  · exact advance_phase hraises (h.jobs r phase hjob) hcommit
  · intro x hx
    exact steady_phase (ownsTunnel_of_raises hraises) hcommit (apart_readers hapart hx)

theorem inv_operate {action : Action} {ops : State} (h : Inv st s)
    (horderly : Orderly s (SendAction.operate action))
    (hstep : step pl st node s.ops action = some ops) : Inv st { s with ops := ops } := by
  cases step_moves hstep with
  | @request r user w =>
      apply h.uncommitted
      · rfl
      · apply loadsOwner_setJob h.requests
        intro agentId body hwrite l hl
        cases w <;> cases hl
      · exact h.jobs
  | @failRequest r job hjob =>
      exact h.uncommitted rfl (loadsOwner_setJob h.requests (loadsOwner_finished job)) h.jobs
  | @readRequest r job phase hjob hread =>
      have hloads := loadsOwner_read (h.requests r job hjob) hread
      exact h.uncommitted rfl (loadsOwner_setJob h.requests hloads) h.jobs
  | @refuseRequest r fresh job l port e hjob hphase hcommit =>
      exact h.uncommitted rfl (loadsOwner_setJob h.requests (loadsOwner_finished job)) h.jobs
  | @commitRequest r fresh job l port db hjob hphase hfresh hcommit =>
      exact h.commitRequest hjob hphase hcommit (horderly job hjob)
  | deleteTunnel | updateTeam | poll =>
      exact h.uncommitted rfl h.requests (covers_setJob h.jobs trivial)
  | fail hjob => exact h.uncommitted rfl h.requests (covers_setJob h.jobs trivial)
  | @read r phase next hjob hwrites hread =>
      exact h.uncommitted rfl h.requests
        (covers_setJob h.jobs (covers_read (h.jobs r phase hjob) hread))
  | refuse hjob hcommit => exact h.uncommitted rfl h.requests (covers_setJob h.jobs trivial)
  | @commit r phase next db hjob hcommit => exact h.commit hjob hcommit (horderly phase hjob)

/-- A message is built by its last read. -/
theorem Inv.built (h : Inv st s) {i : Nat} {build : Build} {now : Int} {a : Agent}
    {rows : List Tunnel} {found : Option Team} (hbuild : s.builds[i]? = some build)
    (hread : build.read s.ops.db = Build.Next.built a rows found) :
    Inv st { s with
      builds := s.builds.eraseIdx i
      messages := s.messages ++ [⟨a.id, configOf pl st a rows found now⟩] } := by
  have hview : view st s.ops.db a.id = some (a.generation, sentOf st rows found) :=
    view_of_built (h.fits build (List.mem_of_getElem? hbuild)) hread
  constructor
  · exact h.requests
  · exact h.jobs
  · intro other hother
    exact h.fits other (List.mem_of_mem_eraseIdx hother)
  · intro m hm
    rcases List.mem_append.mp hm with hold | hnew
    · exact h.reached m hold
    · cases List.mem_singleton.mp hnew
      refine ⟨_, hview, ?_⟩
      rw [configOf_tunnels]
      exact Advances.refl _
  · apply List.pairwise_append.mpr
    refine ⟨h.ordered, List.pairwise_singleton _ _, ?_⟩
    intro earlier hearlier later hlater hsame
    cases List.mem_singleton.mp hlater
    rcases h.reached earlier hearlier with ⟨w, hw, hadvances⟩
    rw [hsame] at hw
    rw [show view st s.ops.db a.id = _ from hview] at hw
    cases hw
    show _ ∧ (_ -> _ = (configOf pl st a rows found now).tunnels)
    rw [configOf_tunnels]
    exact hadvances

theorem inv_read {i : Nat} {now : Int} (h : Inv st s)
    (hstep : send pl st node s (SendAction.read i now) = some t) : Inv st t := by
  rcases Option.map_eq_some_iff.mp hstep with ⟨build, hbuild, rfl⟩
  unfold Sending.read
  split
  · refine ⟨h.requests, h.jobs, ?_, h.reached, h.ordered⟩
    intro other hother
    exact h.fits other (List.mem_of_mem_eraseIdx hother)
  · rename_i next hread
    refine ⟨h.requests, h.jobs, ?_, h.reached, h.ordered⟩
    intro other hother
    rcases List.mem_or_eq_of_mem_set hother with hold | rfl
    · exact h.fits other hold
    · exact fits_read (h.fits build (List.mem_of_getElem? hbuild)) hread
  · rename_i a rows found hread
    exact h.built hbuild hread

theorem inv_send {a : SendAction} (h : Inv st s) (horderly : Orderly s a)
    (hstep : send pl st node s a = some t) : Inv st t := by
  cases a with
  | operate action =>
      rcases Option.map_eq_some_iff.mp hstep with ⟨ops, hops, rfl⟩
      exact inv_operate h horderly hops
  | build agentId =>
      cases hstep
      refine ⟨h.requests, h.jobs, ?_, h.reached, h.ordered⟩
      intro other hother
      rcases List.mem_append.mp hother with hold | hnew
      · exact h.fits other hold
      · cases List.mem_singleton.mp hnew
        trivial
  | read i now => exact inv_read h hstep

/--
As long as every write raises the committed generations of the agents whose tunnels or
label it changes, and none that was read for a message under way, and no team with an enabled
tunnel is suspended or resumed, a config message built later has the larger generation, or
the same with the same tunnels.
-/
theorem identifies_of_orderly {actions : List SendAction} (hs : Quiet s)
    (hobeys : (sendMachine pl st node).Obeys Orderly s actions) :
    (sendMachine pl st node).Always Identifies s actions :=
  (Machine.always_of_obeys (I := Inv st) (fun _ _ _ h hG hstep => inv_send h hG hstep)
    (inv_of_quiet hs) hobeys).imp fun _ h => h.ordered

end Runs

/-!
# A team that is renamed, and one that is suspended
-/

def root : User := ⟨1, "root@rc-tunnel.com".toList, Role.admin, some 1⟩

/-- A team with a quota, and its agent with the tunnels. -/
def oneTeam (quota : Option Int) (tunnels : List Tunnel) : State where
  tunnels :=
    { db :=
        { teams := [⟨1, "core".toList, some "core".toList, quota, false⟩]
          users := [root]
          agents := [⟨7, "edge-7".toList, some 1, 0⟩]
          tunnels := tunnels }
      jobs := fun _ => none }
  jobs _ := none
  past := []

theorem idle_oneTeam (quota : Option Int) (tunnels : List Tunnel) : Idle (oneTeam quota tunnels) where
  requests _ := rfl
  jobs _ := rfl
  past := rfl

def sshBody : TunnelBody where
  name := "ssh".toList
  type := TunnelType.tcp
  remotePort := some 2222
  subdomain := none
  customDomains := none
  healthCheckType := none

/-- A poll whose reads and writes follow one another. -/
def pollAlone (r : Nat) (answer : Option (List StatsEntry)) : List Action :=
  [Action.poll r answer, Action.read r, Action.commit r, Action.read r, Action.read r,
    Action.read r, Action.commit r]

/-- A config message for the agent, when no other is under way. -/
def buildAlone : List SendAction :=
  [SendAction.build 7, SendAction.read 0 0, SendAction.read 0 0, SendAction.read 0 0]

/-- A tunnel is created while a poll counts and a message is built, the team is renamed, and
the tunnel deleted. -/
def upkeep : List SendAction :=
  [SendAction.build 7, SendAction.read 0 0] ++
  ([Action.tunnel (Interleaved.Action.request 0 root (Interleaved.Write.create 7 sshBody)),
    Action.poll 0 none, Action.read 0] ++
  List.replicate 7 (Action.tunnel (Interleaved.Action.read 0)) ++
  [Action.commit 0]).map SendAction.operate ++
  [SendAction.read 0 0, SendAction.read 0 0] ++
  [Action.tunnel (Interleaved.Action.commit 0 1), Action.read 0, Action.read 0, Action.read 0,
    Action.commit 0].map SendAction.operate ++
  buildAlone ++
  ([Action.updateTeam 1 root 1 ⟨some (some "edge".toList), none, none⟩] ++
    List.replicate 5 (Action.read 1) ++ [Action.commit 1]).map SendAction.operate ++
  buildAlone ++
  [Action.deleteTunnel 2 root 1, Action.read 2, Action.read 2,
    Action.commit 2].map SendAction.operate ++
  buildAlone

def sendingFrom (ops : State) : Sending := ⟨ops, [], []⟩

theorem quiet_sendingFrom {ops : State} (h : Idle ops) : Quiet (sendingFrom ops) where
  ops := h
  builds := rfl
  messages := rfl

/-- The generations of the messages and the numbers of their tunnels. -/
def contents (s : Sending) : List (Nat × Nat) :=
  s.messages.map fun m => (m.config.generation, m.config.tunnels.length)

theorem identifies_of_upkeep :
    (exists t, (sendMachine asciiPlatform deployed fun _ => 1).exec
        (sendingFrom (oneTeam none [])) upkeep = some t ∧
      contents t = [(0, 0), (1, 1), (2, 1), (3, 0)]) ∧
    (sendMachine asciiPlatform deployed fun _ => 1).Always Identifies
      (sendingFrom (oneTeam none [])) upkeep := by
  have hend : ((sendMachine asciiPlatform deployed fun _ => 1).exec
      (sendingFrom (oneTeam none [])) upkeep).map contents =
        some [(0, 0), (1, 1), (2, 1), (3, 0)] := by decide +kernel
  constructor
  · exact Option.map_eq_some_iff.mp hend
  · exact identifies_of_orderly (quiet_sendingFrom (idle_oneTeam none [])) (by decide +kernel)

def sshTunnel : Tunnel where
  id := 1
  agentId := 7
  name := "ssh".toList
  type := TunnelType.tcp
  remotePort := some 2222
  subdomain := none
  customDomains := none
  enabled := true
  healthCheckType := none
  bytesIn := 0
  bytesOut := 0
  lastTodayIn := 0
  lastTodayOut := 0

/-- A poll that finds the team over its quota. -/
def overrun : List Action :=
  pollAlone 0 (some [⟨some "agent.7".toList, some "t1".toList, some 11, some 0⟩])

/-- The poll suspends the team, and the agent is sent no tunnels under the generation under
which it was sent one. -/
theorem same_generation_of_overrun :
    exists t, (sendMachine asciiPlatform deployed fun _ => 1).exec
        (sendingFrom (oneTeam (some 10) [sshTunnel]))
        (buildAlone ++ overrun.map SendAction.operate ++ buildAlone) = some t ∧
      (t.messages.map fun m => (m.agentId, m.config.generation, m.config.tunnels)) =
        [(7, 0, [tunnelPayload sshTunnel]), (7, 0, [])] ∧
      ¬ Identifies t := by
  have hend : ((sendMachine asciiPlatform deployed fun _ => 1).exec
      (sendingFrom (oneTeam (some 10) [sshTunnel]))
      (buildAlone ++ overrun.map SendAction.operate ++ buildAlone)).map (fun t =>
        t.messages.map fun m => (m.agentId, m.config.generation, m.config.tunnels)) =
      some [(7, 0, [tunnelPayload sshTunnel]), (7, 0, [])] := by decide +kernel
  rcases Option.map_eq_some_iff.mp hend with ⟨t, hexec, hsent⟩
  refine ⟨t, hexec, hsent, fun h => ?_⟩
  rcases List.map_eq_cons_iff.mp hsent with ⟨m, rest, hmessages, hm, hrest⟩
  rcases List.map_eq_cons_iff.mp hrest with ⟨m', last, hlast, hm', -⟩
  simp only [Prod.mk.injEq] at hm hm'
  rw [Identifies, hmessages, hlast] at h
  have hordered := List.rel_of_pairwise_cons h List.mem_cons_self
  have hsame := (hordered (hm.left.trans hm'.left.symm)).right
    (hm.right.left.trans hm'.right.left.symm)
  rw [hm.right.right, hm'.right.right] at hsame
  cases hsame

end Operations

end Api

end Panel
end RcTunnel
