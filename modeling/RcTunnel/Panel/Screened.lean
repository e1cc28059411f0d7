import RcTunnel.Panel.Interleaved
import RcTunnel.Panel.Operations
import RcTunnel.Panel.Registrable

/-!
# What the tables hold was checked

A request checks the names and the port of a tunnel at one time and writes them at another,
and other requests, deletions, updates of teams and polls commit in between.  None of them
writes a name that was not checked, so every table that was ever committed holds checked
names only.
-/

namespace RcTunnel
namespace Panel

open Foundation

namespace Api

/-- The label of a team has the characters of a label. -/
def IsLabel (label : Option Text) : Prop :=
  forall l, given label = some l -> forall c, c ∈ l -> isLabelChar c = true

/-- The names of every tunnel and every team, and the ports, have passed the checks. -/
structure Screened (pl : Platform) (st : Settings) (db : Db) : Prop where
  spelled : forall t, t ∈ db.tunnels -> Spelled pl t
  ports : forall t, t ∈ db.tunnels -> t.type.domain = false -> forall p, t.remotePort = some p ->
    st.PortAllowed p
  labels : forall t, t ∈ db.teams -> IsLabel t.subdomainLabel

/-- Tables whose tunnels have the same names and ports, or are gone, and whose teams have
their labels. -/
theorem Screened.of_rows {pl : Platform} {st : Settings} {db db' : Db}
    (h : Screened pl st db)
    (htunnels : forall t, t ∈ db'.tunnels -> exists u, u ∈ db.tunnels ∧ t.type = u.type ∧
      t.subdomain = u.subdomain ∧ t.customDomains = u.customDomains ∧
        t.remotePort = u.remotePort)
    (hteams : forall t, t ∈ db'.teams -> IsLabel t.subdomainLabel) : Screened pl st db' where
  spelled := by
    intro t ht
    rcases htunnels t ht with ⟨u, hu, -, hsubdomain, hcustom, -⟩
    constructor
    · rw [hsubdomain]
      exact (h.spelled u hu).subdomain
    · rw [hcustom]
      exact (h.spelled u hu).custom
  ports := by
    intro t ht
    rcases htunnels t ht with ⟨u, hu, htype, -, -, hport⟩
    rw [htype, hport]
    exact h.ports u hu
  labels := hteams

namespace Operations

section Checks

variable (pl : Platform) (st : Settings)

def IsSubdomain (asked : Option Text) : Prop :=
  forall s, given asked = some s -> Subdomain pl s

def AreDomains (asked : Option Text) : Prop :=
  forall d, d ∈ pieces (asked.getD []) -> matchFqdn (pl.lower d) = true

/-- What a request to create a tunnel has checked before its next read or its write. -/
def CreateScreened (body : TunnelBody) : Interleaved.Phase -> Prop
  | Interleaved.Phase.count _ => IsSubdomain pl body.subdomain
  | Interleaved.Phase.name _ => IsSubdomain pl body.subdomain
  | Interleaved.Phase.subdomain _ => IsSubdomain pl body.subdomain
  | Interleaved.Phase.domains _ => IsSubdomain pl body.subdomain
  | Interleaved.Phase.port _ => IsSubdomain pl body.subdomain ∧ AreDomains pl body.customDomains
  | Interleaved.Phase.write _ port =>
      IsSubdomain pl body.subdomain ∧ AreDomains pl body.customDomains ∧
        (body.type.domain = false -> forall p, port.join = some p -> st.PortAllowed p)
  | _ => True

/-- What a request to update one has checked. -/
def UpdateScreened (fields : TunnelFields) : Interleaved.Phase -> Prop
  | Interleaved.Phase.tunnel => True
  | Interleaved.Phase.agent _ => True
  | Interleaved.Phase.write _ port =>
      IsSubdomain pl fields.subdomain.join ∧ (forall p, port = some (some p) -> st.PortAllowed p)
  | Interleaved.Phase.finished => True
  | _ => IsSubdomain pl fields.subdomain.join

def JobScreened (w : Interleaved.Write) (phase : Interleaved.Phase) : Prop :=
  match w with
  | Interleaved.Write.create _ body => CreateScreened pl st body phase
  | Interleaved.Write.update _ fields => UpdateScreened pl st fields phase

/-- What an update of a team has checked. -/
def PhaseScreened : Phase -> Prop
  | Phase.usage _ change => IsLabel change.subdomainLabel.join
  | Phase.agents _ change _ => IsLabel change.subdomainLabel.join
  | Phase.update _ change _ _ => IsLabel change.subdomainLabel.join
  | _ => True

end Checks

section Reads

variable {pl : Platform} {st : Settings} {node : Nat -> Nat} {db : Db} {user : User}
  {phase next : Interleaved.Phase}

theorem isSubdomain_checked {asked : Option Text} {u : Unit}
    (h : whenGiven asked (checkSubdomainLabels pl) = Except.ok u) : IsSubdomain pl asked := by
  intro s hs
  exact checkSubdomainLabels_ok (whenGiven_ok h hs)

theorem screened_readCreate {agentId : Nat} {body : TunnelBody}
    (h : CreateScreened pl st body phase)
    (hread : Interleaved.readCreate pl st node db user agentId body phase = Except.ok next) :
    CreateScreened pl st body next := by
  cases phase with
  | agent t =>
      simp only [Interleaved.readCreate, bind_ok, pure_ok] at hread
      rcases hread with ⟨-, -, -, -, -, -, rfl⟩
      trivial
  | team l =>
      simp only [Interleaved.readCreate, bind_ok, pure_ok] at hread
      rcases hread with ⟨-, -, -, -, u, hlabels, -, -, rfl⟩
      exact isSubdomain_checked hlabels
  | count l =>
      simp only [Interleaved.readCreate, bind_ok, pure_ok] at hread
      rcases hread with ⟨-, -, rfl⟩
      exact h
  | name l =>
      simp only [Interleaved.readCreate, bind_ok, pure_ok] at hread
      rcases hread with ⟨-, -, rfl⟩
      exact h
  | subdomain l =>
      simp only [Interleaved.readCreate, bind_ok, pure_ok] at hread
      rcases hread with ⟨-, -, rfl⟩
      exact h
  | domains l =>
      simp only [Interleaved.readCreate, bind_ok, pure_ok] at hread
      rcases hread with ⟨u, hcustom, rfl⟩
      exact ⟨h, checkCustomDomains_fqdn hcustom⟩
  | port l =>
      simp only [Interleaved.readCreate, bind_ok, pure_ok] at hread
      rcases hread with ⟨port, hassigned, rfl⟩
      refine ⟨h.left, h.right, ?_⟩
      intro htype p hp
      rw [assigned, if_neg (by simpa using htype)] at hassigned
      simp only [bind_ok, pure_ok] at hassigned
      rcases hassigned with ⟨q, hallowed, rfl⟩
      cases hp
      exact allocatePort_allowed hallowed
  | tunnel =>
      cases hread
      trivial
  | write l port =>
      cases hread
      exact h
  | finished =>
      cases hread
      trivial

theorem screened_readUpdate {tunnelId : Nat} {fields : TunnelFields}
    (h : UpdateScreened pl st fields phase)
    (hread : Interleaved.readUpdate pl st node db user tunnelId fields phase = Except.ok next) :
    UpdateScreened pl st fields next := by
  cases phase with
  | tunnel =>
      simp only [Interleaved.readUpdate, bind_ok, pure_ok] at hread
      rcases hread with ⟨-, -, rfl⟩
      trivial
  | agent t =>
      cases t with
      | none =>
          cases hread
          trivial
      | some t =>
          simp only [Interleaved.readUpdate, bind_ok, pure_ok] at hread
          rcases hread with ⟨-, -, -, -, -, -, u, hlabels, rfl⟩
          exact isSubdomain_checked hlabels
  | team l =>
      simp only [Interleaved.readUpdate, bind_ok, pure_ok] at hread
      rcases hread with ⟨-, -, rfl⟩
      exact h
  | subdomain l =>
      simp only [Interleaved.readUpdate, bind_ok, pure_ok] at hread
      rcases hread with ⟨-, -, rfl⟩
      exact h
  | port l =>
      rcases l with ⟨a, t⟩
      cases t with
      | none =>
          cases hread
          exact h
      | some t =>
          simp only [Interleaved.readUpdate, bind_ok, pure_ok] at hread
          rcases hread with ⟨port, hport, rfl⟩
          rcases reassigned_cases hport with ⟨hsame, hallowed⟩
          refine ⟨h, ?_⟩
          intro p hp
          exact hallowed p (hsame.symm.trans hp)
  | count l =>
      cases hread
      exact h
  | name l =>
      cases hread
      exact h
  | domains l =>
      cases hread
      exact h
  | write l port =>
      cases hread
      exact h
  | finished =>
      cases hread
      trivial

theorem screened_read {job : Interleaved.Job} (h : JobScreened pl st job.write job.phase)
    (hread : job.read pl st node db = Except.ok next) : JobScreened pl st job.write next := by
  rcases job with ⟨user, w, phase, seen⟩
  cases w with
  | create agentId body => exact screened_readCreate h hread
  | update tunnelId fields => exact screened_readUpdate h hread

theorem phaseScreened_read {phase next : Phase} (h : PhaseScreened phase)
    (hread : phase.read pl db = Except.ok next) : PhaseScreened next := by
  cases phase with
  | tunnel user tunnelId =>
      simp only [Phase.read, bind_ok, pure_ok] at hread
      rcases hread with ⟨-, -, rfl⟩
      trivial
  | owner user t =>
      simp only [Phase.read, bind_ok, pure_ok] at hread
      rcases hread with ⟨-, -, -, -, rfl⟩
      trivial
  | team user teamId fields =>
      simp only [Phase.read, bind_ok, pure_ok] at hread
      rcases hread with ⟨-, -, -, -, -, -, rfl⟩
      trivial
  | name loaded fields =>
      simp only [Phase.read, bind_ok, pure_ok] at hread
      rcases hread with ⟨-, -, rfl⟩
      trivial
  | label loaded name fields =>
      simp only [Phase.read, bind_ok, pure_ok] at hread
      rcases hread with ⟨-, -, rfl⟩
      intro l hl
      exact relabelled_label hl
  | usage loaded change =>
      simp only [Phase.read] at hread
      split at hread
      · cases hread
        exact h
      · cases hread
        exact h
  | agents loaded change suspended =>
      cases hread
      exact h
  | usages todo flipped =>
      cases todo with
      | nil =>
          cases hread
          trivial
      | cons t rest =>
          simp only [Phase.read] at hread
          cases hread
          trivial
  | update loaded change suspended agents =>
      cases hread
      exact h
  | tunnels answer =>
      cases hread
      trivial
  | delete t a =>
      cases hread
      trivial
  | count rows =>
      cases hread
      trivial
  | teams =>
      cases hread
      trivial
  | flip flipped =>
      cases hread
      trivial
  | finished =>
      cases hread
      trivial

end Reads

section Commits

variable {pl : Platform} {st : Settings} {db db' : Db}

theorem screened_commit {w : Interleaved.Write} {fresh : Nat} {l : Interleaved.Loaded}
    {port : Option (Option Int)} (h : Screened pl st db)
    (hjob : JobScreened pl st w (Interleaved.Phase.write l port))
    (hcommit : w.commit db fresh l port = Except.ok db') : Screened pl st db' := by
  cases w with
  | create agentId body =>
      simp only [Interleaved.Write.commit, bind_ok, pure_ok] at hcommit
      rcases hcommit with ⟨-, -, rfl⟩
      rcases hjob with ⟨hsubdomain, hcustom, hport⟩
      constructor
      · intro t ht
        rcases List.mem_append.mp ht with hold | hnew
        · exact h.spelled t hold
        · cases List.mem_singleton.mp hnew
          exact ⟨hsubdomain, hcustom⟩
      · intro t ht htype p hp
        rcases List.mem_append.mp ht with hold | hnew
        · exact h.ports t hold htype p hp
        · cases List.mem_singleton.mp hnew
          exact hport htype p hp
      · exact h.labels
  | update tunnelId fields =>
      simp only [Interleaved.Write.commit, bind_ok, pure_ok, found_ok] at hcommit
      rcases hcommit with ⟨-, -, loaded, -, -, -, rfl⟩
      rcases hjob with ⟨hsubdomain, hport⟩
      constructor
      · intro t ht
        rcases mem_rewriteRow ht with ⟨old, hold, ⟨-, rfl⟩ | ⟨-, rfl⟩⟩
        · refine ⟨?_, (h.spelled old hold).custom⟩
          intro s hs
          cases hchanged : Interleaved.changed fields.subdomain loaded.subdomain with
          | none =>
              apply (h.spelled old hold).subdomain s
              rw [← hs]
              simp [Interleaved.updated, hchanged]
          | some written =>
              apply hsubdomain s
              rw [Interleaved.changed_some hchanged, ← hs]
              simp [Interleaved.updated, hchanged]
        · exact h.spelled t hold
      · intro t ht htype p hp
        rcases mem_rewriteRow ht with ⟨old, hold, ⟨-, rfl⟩ | ⟨-, rfl⟩⟩
        · cases hchanged : Interleaved.changed port loaded.remotePort with
          | none =>
              apply h.ports old hold htype p
              rw [← hp]
              simp [Interleaved.updated, hchanged]
          | some written =>
              apply hport p
              rw [Interleaved.changed_some hchanged, ← hp]
              simp [Interleaved.updated, hchanged]
        · exact h.ports t hold htype p hp
      · exact h.labels

theorem screened_phase {phase next : Phase} (h : Screened pl st db) (hphase : PhaseScreened phase)
    (hcommit : phase.commit db = Except.ok (db', next)) :
    Screened pl st db' ∧ PhaseScreened next := by
  cases phase with
  | delete t a =>
      simp only [Phase.commit, pure_ok, Prod.mk.injEq] at hcommit
      rcases hcommit with ⟨rfl, rfl⟩
      refine ⟨h.of_rows ?_ h.labels, trivial⟩
      intro u hu
      exact ⟨u, (List.mem_filter.mp hu).left, rfl, rfl, rfl, rfl⟩
  | update loaded change suspended rows =>
      simp only [Phase.commit, bind_ok, pure_ok, Prod.mk.injEq] at hcommit
      rcases hcommit with ⟨-, -, -, -, -, -, rfl, rfl⟩
      refine ⟨⟨h.spelled, h.ports, ?_⟩, trivial⟩
      intro t ht
      rcases mem_rewriteRow ht with ⟨old, hold, ⟨-, rfl⟩ | ⟨-, rfl⟩⟩
      · cases hchanged : Interleaved.changed change.subdomainLabel loaded.subdomainLabel with
        | none => simpa [Team.updated, hchanged] using h.labels old hold
        | some written =>
            rw [PhaseScreened, Interleaved.changed_some hchanged] at hphase
            simpa [Team.updated, hchanged] using hphase
      · exact h.labels t hold
  | count rows =>
      simp only [Phase.commit, bind_ok, pure_ok, Prod.mk.injEq] at hcommit
      rcases hcommit with ⟨-, -, rfl, rfl⟩
      refine ⟨h.of_rows ?_ h.labels, trivial⟩
      intro t ht
      rcases List.mem_map.mp ht with ⟨u, hu, rfl⟩
      refine ⟨u, hu, ?_⟩
      split
      · exact ⟨rfl, rfl, rfl, rfl⟩
      · exact ⟨rfl, rfl, rfl, rfl⟩
  | flip flipped =>
      simp only [Phase.commit, bind_ok, pure_ok, Prod.mk.injEq] at hcommit
      rcases hcommit with ⟨-, -, rfl, rfl⟩
      refine ⟨⟨h.spelled, h.ports, ?_⟩, trivial⟩
      intro t ht
      rcases List.mem_map.mp ht with ⟨u, hu, rfl⟩
      split
      · exact h.labels u hu
      · exact h.labels u hu
  | _ => cases hcommit

end Commits

/-!
# Every run
-/

/-- Every table that was committed is screened, and what is in flight was checked. -/
structure ScreenedRun (pl : Platform) (st : Settings) (s : State) : Prop where
  history : forall db, db ∈ s.past ++ [s.db] -> Screened pl st db
  requests : forall r job, s.tunnels.jobs r = some job ->
    JobScreened pl st job.write job.phase
  jobs : forall r phase, s.jobs r = some phase -> PhaseScreened phase

section Runs

variable {pl : Platform} {st : Settings} {node : Nat -> Nat} {s t : State}

theorem ScreenedRun.current (h : ScreenedRun pl st s) : Screened pl st s.db :=
  h.history s.db (List.mem_append_right _ (List.mem_singleton_self _))

theorem screenedRun_of_idle (h : Idle s) (hdb : Screened pl st s.db) : ScreenedRun pl st s where
  history := by
    intro db hmem
    rw [h.past] at hmem
    cases List.mem_singleton.mp hmem
    exact hdb
  requests := by
    intro r job hjob
    rw [h.requests] at hjob
    cases hjob
  jobs := by
    intro r phase hphase
    rw [h.jobs] at hphase
    cases hphase

theorem ScreenedRun.setJob {r : Nat} {phase : Phase} (h : ScreenedRun pl st s)
    (hphase : PhaseScreened phase) : ScreenedRun pl st (s.setJob r phase) where
  history := h.history
  requests := h.requests
  jobs := by
    intro r' phase' hphase'
    rcases lookup_started hphase' with ⟨-, rfl⟩ | ⟨-, hold⟩
    · exact hphase
    · exact h.jobs r' phase' hold

theorem ScreenedRun.committed {db : Db} (h : ScreenedRun pl st s) (hdb : Screened pl st db) :
    ScreenedRun pl st (s.committed db) where
  history := by
    intro db' hmem
    rcases List.mem_append.mp hmem with hold | hnew
    · exact h.history db' hold
    · cases List.mem_singleton.mp hnew
      exact hdb
  requests := h.requests
  jobs := h.jobs

theorem ScreenedRun.request {r : Nat} {job : Interleaved.Job} (h : ScreenedRun pl st s)
    (hjob : JobScreened pl st job.write job.phase) :
    ScreenedRun pl st { s with tunnels := s.tunnels.setJob r job } where
  history := h.history
  requests := by
    intro r' job' hjob'
    rcases lookup_started hjob' with ⟨-, rfl⟩ | ⟨-, hold⟩
    · exact hjob
    · exact h.requests r' job' hold
  jobs := h.jobs

theorem jobScreened_finished (w : Interleaved.Write) :
    JobScreened pl st w Interleaved.Phase.finished := by
  cases w with
  | create agentId body => trivial
  | update tunnelId fields => trivial

theorem jobScreened_start (user : User) (w : Interleaved.Write) :
    JobScreened pl st w (Interleaved.start user w).phase := by
  cases w with
  | create agentId body => trivial
  | update tunnelId fields => trivial

theorem screenedRun_step {a : Action} (h : ScreenedRun pl st s)
    (hstep : step pl st node s a = some t) : ScreenedRun pl st t := by
  cases step_moves hstep with
  | @request r user w => exact h.request (jobScreened_start user w)
  | @failRequest r job hjob => exact h.request (jobScreened_finished job.write)
  | @readRequest r job phase hjob hread =>
      have hnext : JobScreened pl st job.write phase := screened_read (h.requests r job hjob) hread
      exact h.request hnext
  | @refuseRequest r fresh job l port e hjob hphase hcommit =>
      exact (h.request (jobScreened_finished job.write)).committed h.current
  | @commitRequest r fresh job l port db hjob hphase hfresh hcommit =>
      have hscreened := h.requests r job hjob
      rw [hphase] at hscreened
      exact (h.request (jobScreened_finished job.write)).committed
        (screened_commit h.current hscreened hcommit)
  | deleteTunnel | updateTeam | poll => exact h.setJob trivial
  | fail hjob => exact h.setJob trivial
  | @read r phase next hjob hwrites hread =>
      exact h.setJob (phaseScreened_read (h.jobs r phase hjob) hread)
  | refuse hjob hcommit => exact h.setJob trivial
  | @commit r phase next db hjob hcommit =>
      rcases screened_phase h.current (h.jobs r phase hjob) hcommit with ⟨hdb, hnext⟩
      exact (h.committed hdb).setJob hnext

end Runs

end Operations

end Api

end Panel
end RcTunnel
