import RcTunnel.Panel.Grants

/-!
# Tenants and what is signed for them

The tables keep the teams' labels apart, the custom domains and the ports of
the tunnels apart, every subdomain a chain of labels and every custom domain
outside the apex.  Two agents that are not of one team can then be signed the
same host in one way only: one of them has no label, and the name of its tunnel
is the name of the other's tunnel with the other's label.
-/

namespace RcTunnel
namespace Panel

open Foundation

namespace Api

section Tenancy

variable (pl : Platform) (st : Settings)

/-!
# The invariant of the tables
-/

/-- The teams have different labels. -/
def LabelsApart (t u : Team) : Prop :=
  forall l, given t.subdomainLabel = some l -> given u.subdomainLabel ≠ some l

/-- The tunnels have different custom domains and different ports. -/
structure ClaimsApart (t u : Tunnel) : Prop where
  domains : forall d, d ∈ Platform.domains pl t.customDomains ->
    d ∉ Platform.domains pl u.customDomains
  ports : t.type.domain = false -> u.type.domain = false ->
    forall p, t.remotePort = some p -> u.remotePort ≠ some p

/-- The names of a tunnel are its own. -/
structure Named (t : Tunnel) : Prop where
  subdomain : forall s, given t.subdomain = some s -> Subdomain pl s
  custom : forall d, d ∈ Platform.domains pl t.customDomains -> ¬ UnderApex pl st d

structure Tenants (db : Db) : Prop where
  teams : db.teams.Pairwise (Apart Team.id LabelsApart)
  labels : forall t, t ∈ db.teams -> forall l, given t.subdomainLabel = some l ->
    forall c, c ∈ l -> isLabelChar c = true
  owners : forall t, t ∈ db.tunnels -> exists a, a ∈ db.agents ∧ a.id = t.agentId
  tunnels : db.tunnels.Pairwise (Apart Tunnel.id (ClaimsApart pl))
  named : forall t, t ∈ db.tunnels -> Named pl st t

variable {pl st}

theorem tenants_emptyDb : Tenants pl st emptyDb where
  teams := List.Pairwise.nil
  labels := by
    intro t ht
    cases ht
  owners := by
    intro t ht
    cases ht
  tunnels := List.Pairwise.nil
  named := by
    intro t ht
    cases ht

theorem Tenants.withUsers {db : Db} (h : Tenants pl st db) (users : List User) :
    Tenants pl st { db with users := users } :=
  ⟨h.teams, h.labels, h.owners, h.tunnels, h.named⟩

theorem Tenants.mapAgents {db : Db} (h : Tenants pl st db) {g : Agent -> Agent}
    (hg : forall a, (g a).id = a.id) : Tenants pl st { db with agents := db.agents.map g } := by
  refine ⟨h.teams, h.labels, ?_, h.tunnels, h.named⟩
  intro t ht
  rcases h.owners t ht with ⟨a, ha, hid⟩
  exact ⟨g a, List.mem_map_of_mem ha, (hg a).trans hid⟩

theorem Tenants.appendAgent {db : Db} (h : Tenants pl st db) (a : Agent) :
    Tenants pl st { db with agents := db.agents ++ [a] } := by
  refine ⟨h.teams, h.labels, ?_, h.tunnels, h.named⟩
  intro t ht
  rcases h.owners t ht with ⟨b, hb, hid⟩
  exact ⟨b, List.mem_append_left _ hb, hid⟩

theorem Tenants.bump {db : Db} (h : Tenants pl st db) (agentId : Nat) :
    Tenants pl st (db.bump agentId) := by
  refine h.mapAgents fun a => ?_
  split <;> rfl

theorem Tenants.filterTeams {db : Db} (h : Tenants pl st db) (p : Team -> Bool) :
    Tenants pl st { db with teams := db.teams.filter p } :=
  ⟨h.teams.filter p, fun t ht => h.labels t (List.mem_of_mem_filter ht), h.owners,
    h.tunnels, h.named⟩

theorem Tenants.filterTunnels {db : Db} (h : Tenants pl st db) (p : Tunnel -> Bool) :
    Tenants pl st { db with tunnels := db.tunnels.filter p } :=
  ⟨h.teams, h.labels, fun t ht => h.owners t (List.mem_of_mem_filter ht),
    h.tunnels.filter p, fun t ht => h.named t (List.mem_of_mem_filter ht)⟩

theorem Tenants.mapTeams {db : Db} (h : Tenants pl st db) {f : Team -> Team}
    (hid : forall t, (f t).id = t.id)
    (hlabel : forall t, (f t).subdomainLabel = t.subdomainLabel) :
    Tenants pl st { db with teams := db.teams.map f } := by
  refine ⟨pairwise_map_row h.teams hid ?_, ?_, h.owners, h.tunnels, h.named⟩
  · intro t u hapart
    unfold LabelsApart
    rw [hlabel, hlabel]
    exact hapart
  · intro u hu
    rcases List.mem_map.mp hu with ⟨t, ht, rfl⟩
    rw [hlabel]
    exact h.labels t ht

/-- The columns of a tunnel that the invariant reads are the same. -/
structure SameClaims (t u : Tunnel) : Prop where
  id : t.id = u.id
  agentId : t.agentId = u.agentId
  type : t.type = u.type
  remotePort : t.remotePort = u.remotePort
  subdomain : t.subdomain = u.subdomain
  customDomains : t.customDomains = u.customDomains

theorem Tenants.mapTunnels {db : Db} (h : Tenants pl st db) {f : Tunnel -> Tunnel}
    (hf : forall t, SameClaims (f t) t) :
    Tenants pl st { db with tunnels := db.tunnels.map f } := by
  refine ⟨h.teams, h.labels, ?_, pairwise_map_row h.tunnels (fun t => (hf t).id) ?_, ?_⟩
  · intro u hu
    rcases List.mem_map.mp hu with ⟨t, ht, rfl⟩
    rw [(hf t).agentId]
    exact h.owners t ht
  · intro t u hapart
    constructor
    · rw [(hf t).customDomains, (hf u).customDomains]
      exact hapart.domains
    · rw [(hf t).type, (hf u).type, (hf t).remotePort, (hf u).remotePort]
      exact hapart.ports
  · intro u hu
    rcases List.mem_map.mp hu with ⟨t, ht, rfl⟩
    constructor
    · rw [(hf t).subdomain]
      exact (h.named t ht).subdomain
    · rw [(hf t).customDomains]
      exact (h.named t ht).custom

/-- An agent is deleted with its tunnels. -/
theorem Tenants.removeAgent {db : Db} (h : Tenants pl st db) (id : Nat) :
    Tenants pl st { db with
      agents := db.agents.filter fun a => a.id ≠ id
      tunnels := db.tunnels.filter fun t => t.agentId ≠ id } := by
  have hrest := h.filterTunnels fun t => t.agentId ≠ id
  refine ⟨hrest.teams, hrest.labels, ?_, hrest.tunnels, hrest.named⟩
  intro t ht
  rcases h.owners t (List.mem_of_mem_filter ht) with ⟨a, ha, hid⟩
  have hne : t.agentId ≠ id := by simpa using (List.mem_filter.mp ht).right
  exact ⟨a, List.mem_filter.mpr ⟨ha, by simpa [hid] using hne⟩, hid⟩

/-- The label is made of label characters and no listed team has it. -/
structure Free (teams : List Team) (label : Option Text) : Prop where
  chars : forall l, given label = some l -> forall c, c ∈ l -> isLabelChar c = true
  unused : forall l, given label = some l -> forall t, t ∈ teams ->
    given t.subdomainLabel ≠ some l

theorem Tenants.appendTeam {db : Db} (h : Tenants pl st db) {team : Team}
    (hfresh : db.team? team.id = none) (hfree : Free db.teams team.subdomainLabel) :
    Tenants pl st { db with teams := db.teams ++ [team] } := by
  refine ⟨pairwise_append_row h.teams ?_, ?_, h.owners, h.tunnels, h.named⟩
  · intro t ht
    refine ⟨?_, ?_, ?_⟩
    · simpa using List.find?_eq_none.mp hfresh t ht
    · intro l hl hteam
      exact hfree.unused l hteam t ht hl
    · intro l hteam
      exact hfree.unused l hteam t ht
  · intro t ht
    rcases List.mem_append.mp ht with ht | ht
    · exact h.labels t ht
    · rw [List.mem_singleton.mp ht]
      exact hfree.chars

/-- A team is rewritten; its label stays, or is one the others do not have. -/
theorem Tenants.rewriteTeam {db : Db} (h : Tenants pl st db) {id : Nat} {f : Team -> Team}
    (hid : forall t, (f t).id = t.id)
    (hlabel : forall t, t ∈ db.teams -> t.id = id -> (f t).subdomainLabel = t.subdomainLabel ∨
      Free (db.teams.filter fun u => u.id ≠ id) (f t).subdomainLabel) :
    Tenants pl st { db with teams := rewriteRow Team.id id f db.teams } := by
  refine ⟨pairwise_rewriteRow h.teams hid ?_, ?_, h.owners, h.tunnels, h.named⟩
  · intro t ht htid u hu huid
    rcases hlabel t ht htid with hsame | hfree
    · have hapart := apart_of_mem h.teams ht hu (by rw [htid]; exact Ne.symm huid)
      have hapart' := apart_of_mem h.teams hu ht (by rw [htid]; exact huid)
      unfold LabelsApart at *
      rw [hsame]
      exact ⟨hapart, hapart'⟩
    · have hmem : u ∈ db.teams.filter fun u => u.id ≠ id :=
        List.mem_filter.mpr ⟨hu, by simpa using huid⟩
      refine ⟨fun l hl => hfree.unused l hl u hmem, fun l hl hteam => ?_⟩
      exact hfree.unused l hteam u hmem hl
  · intro t ht
    rcases mem_rewriteRow ht with ⟨old, hold, ⟨hidOld, rfl⟩ | ⟨-, rfl⟩⟩
    · rcases hlabel old hold hidOld with hsame | hfree
      · rw [hsame]
        exact h.labels old hold
      · exact hfree.chars
    · exact h.labels t hold

theorem Tenants.appendTunnel {db : Db} (h : Tenants pl st db) {t : Tunnel}
    (hfresh : db.tunnel? t.id = none) (howner : exists a, a ∈ db.agents ∧ a.id = t.agentId)
    (hnamed : Named pl st t)
    (hapart : forall u, u ∈ db.tunnels -> ClaimsApart pl u t ∧ ClaimsApart pl t u) :
    Tenants pl st { db with tunnels := db.tunnels ++ [t] } := by
  refine ⟨h.teams, h.labels, ?_, pairwise_append_row h.tunnels ?_, ?_⟩
  · intro u hu
    rcases List.mem_append.mp hu with hu | hu
    · exact h.owners u hu
    · rw [List.mem_singleton.mp hu]
      exact howner
  · intro u hu
    exact ⟨by simpa using List.find?_eq_none.mp hfresh u hu, hapart u hu⟩
  · intro u hu
    rcases List.mem_append.mp hu with hu | hu
    · exact h.named u hu
    · rw [List.mem_singleton.mp hu]
      exact hnamed

theorem Tenants.rewriteTunnel {db : Db} (h : Tenants pl st db) {id : Nat}
    {f : Tunnel -> Tunnel} (hid : forall t, (f t).id = t.id)
    (howner : forall t, (f t).agentId = t.agentId)
    (hnamed : forall t, t ∈ db.tunnels -> t.id = id -> Named pl st (f t))
    (hapart : forall t, t ∈ db.tunnels -> t.id = id -> forall u, u ∈ db.tunnels -> u.id ≠ id ->
      ClaimsApart pl (f t) u ∧ ClaimsApart pl u (f t)) :
    Tenants pl st { db with tunnels := rewriteRow Tunnel.id id f db.tunnels } := by
  refine ⟨h.teams, h.labels, ?_, pairwise_rewriteRow h.tunnels hid hapart, ?_⟩
  · intro u hu
    rcases mem_rewriteRow hu with ⟨old, hold, ⟨-, rfl⟩ | ⟨-, rfl⟩⟩
    · rw [howner]
      exact h.owners old hold
    · exact h.owners u hold
  · intro u hu
    rcases mem_rewriteRow hu with ⟨old, hold, ⟨hidOld, rfl⟩ | ⟨-, rfl⟩⟩
    · exact hnamed old hold hidOld
    · exact h.named u hold

/-!
# What the requests do to the teams
-/

theorem free_of_unused {teams : List Team} {label : Option Text}
    (hchars : forall l, given label = some l -> forall c, c ∈ l -> isLabelChar c = true)
    (hunused : forall l, l ∈ given label -> forall t, t ∈ teams ->
      t.subdomainLabel ≠ some l) : Free teams label where
  chars := hchars
  unused := by
    intro l hl t ht hlabel
    exact hunused l hl t ht (given_eq_some.mp hlabel).left

theorem slug_label {name l : Text} (h : given (slug pl name) = some l) :
    forall c, c ∈ l -> isLabelChar c = true :=
  (slug_chars (given_eq_some.mp h).left).right

theorem relabelled_label {name : Option Text} {field : Option (Option Text)} {l : Text}
    (h : given (relabelled pl name field).join = some l) :
    forall c, c ∈ l -> isLabelChar c = true := by
  have hlabel := Option.join_eq_some_iff.mp (given_eq_some.mp h).left
  unfold relabelled at hlabel
  rcases Option.map_eq_some_iff.mp hlabel with ⟨asked, -, hasked⟩
  cases hgiven : given asked with
  | none =>
      simp only [hgiven] at hasked
      have hsome : given asked = some l :=
        given_eq_some.mpr ⟨hasked, (given_eq_some.mp h).right⟩
      rw [hgiven] at hsome
      cases hsome
  | some t =>
      simp only [hgiven] at hasked
      exact (slug_chars hasked).right

theorem tenants_createTeam {db db' : Db} {fresh : Nat} {name : Text} {asked : Option Text}
    {quota : Option Int} (hdb : Tenants pl st db) (hfresh : db.team? fresh = none)
    (h : createTeam pl db fresh name asked quota = Except.ok db') : Tenants pl st db' := by
  simp only [createTeam, bind_ok, require_ok, pure_ok] at h
  rcases h with ⟨name, -, -, -, -, -, -, hunused, rfl⟩
  refine hdb.appendTeam hfresh (free_of_unused ?_ ?_)
  · intro l hl
    cases hasked : given asked with
    | none =>
        simp only [hasked] at hl
        exact slug_label hl
    | some t =>
        simp only [hasked] at hl
        exact slug_label hl
  · intro l hl
    exact hunused l (given_eq_some.mp hl).left

theorem tenants_updateTeam {db db' : Db} {teamId : Nat} {fields : TeamFields}
    (hdb : Tenants pl st db) (h : updateTeam pl db teamId fields = Except.ok db') :
    Tenants pl st db' := by
  simp only [updateTeam, bind_ok, require_ok, pure_ok, constraint_ok, found_ok] at h
  rcases h with ⟨newName, -, team, -, name, -, -, hunused, -, -, rfl⟩
  refine (hdb.rewriteTeam ?_ ?_).mapAgents ?_
  · intro t
    rfl
  · intro t ht hid
    cases hlabel : relabelled pl name fields.subdomainLabel with
    | none => exact Or.inl rfl
    | some label =>
        refine Or.inr (free_of_unused ?_ ?_)
        · intro l hl
          have hrelabelled : given (relabelled pl name fields.subdomainLabel).join = some l := by
            rw [hlabel]
            exact hl
          exact relabelled_label hrelabelled
        · intro l hl u hu
          rcases List.mem_filter.mp hu with ⟨hu, huid⟩
          refine hunused l ?_ u hu (by simpa using huid)
          rw [hlabel]
          exact hl
  · intro a
    split <;> rfl

/-!
# What the requests do to the tunnels
-/

theorem whenGiven_ok {t : Option Text} {check : Text -> Except Error Unit} {u : Unit}
    (h : whenGiven t check = Except.ok u) {s : Text} (hs : given t = some s) :
    check s = Except.ok u := by
  unfold whenGiven at h
  rw [hs] at h
  exact h

theorem checkSubdomainLabels_ok {s : Text} {u : Unit}
    (h : checkSubdomainLabels pl s = Except.ok u) : Subdomain pl s := by
  simp only [checkSubdomainLabels, bind_ok, require_ok] at h
  rcases h with ⟨-, hlabels, -⟩
  exact hlabels

theorem domainError_none {d : Text} (h : domainError pl st d = none) :
    ¬ UnderApex pl st d := by
  intro hunder
  unfold domainError at h
  rw [if_pos hunder] at h
  split at h <;> cases h

theorem checkCustomDomains_ok {db : Db} {custom : Option Text} {excluded : Option Nat}
    {u : Unit} (h : checkCustomDomains pl st db custom excluded = Except.ok u) :
    (forall d, d ∈ Platform.domains pl custom -> ¬ UnderApex pl st d) ∧
      forall t, t ∈ db.tunnels -> some t.id ≠ excluded ->
        forall d, d ∈ Platform.domains pl custom ->
          d ∉ Platform.domains pl t.customDomains := by
  simp only [checkCustomDomains, bind_ok, require_ok] at h
  rcases h with ⟨-, -, -, hvalid, hunclaimed⟩
  constructor
  · intro d hd
    exact domainError_none (List.findSome?_eq_none_iff.mp hvalid d hd)
  · intro t ht hne d hd hclash
    have hnone := hunclaimed t (List.mem_filter.mpr ⟨ht, by simpa using hne⟩)
    have hfree := List.filter_eq_nil_iff.mp hnone d hd
    exact hfree (List.contains_iff_mem.mpr hclash)

theorem Tenants.mem_usedPorts {db : Db} (h : Tenants pl st db) {t : Tunnel} {p : Int}
    {excluded : Option Nat} (ht : t ∈ db.tunnels) (hne : some t.id ≠ excluded)
    (hp : t.remotePort = some p) : p ∈ db.usedPorts excluded := by
  rcases h.owners t ht with ⟨a, ha, hid⟩
  have hagent : db.agent? t.agentId ≠ none := by
    intro hnone
    exact List.find?_eq_none.mp hnone a ha (by simpa using hid)
  unfold Db.usedPorts
  exact List.mem_filterMap.mpr
    ⟨t, List.mem_filter.mpr ⟨ht, by simpa using ⟨hne, hagent⟩⟩, hp⟩

theorem allocatePort_ok {db : Db} {preferred : Option Int} {excluded : Option Nat} {p : Int}
    (h : allocatePort st db preferred excluded = Except.ok p) :
    p ∉ db.usedPorts excluded := by
  unfold allocatePort at h
  cases preferred with
  | none =>
      have hfree := List.find?_some (found_ok.mp h)
      simpa using hfree
  | some q =>
      simp only [bind_ok, require_ok, pure_ok] at h
      rcases h with ⟨-, -, -, hfree, rfl⟩
      exact hfree

theorem assigned_ok {db : Db} {body : TunnelBody} {port : Option Int}
    (h : assigned st db body = Except.ok port) (htype : body.type.domain = false) {p : Int}
    (hp : port = some p) : p ∉ db.usedPorts none := by
  unfold assigned at h
  rw [htype, if_neg (by simp)] at h
  simp only [bind_ok, pure_ok] at h
  rcases h with ⟨q, hfree, rfl⟩
  cases hp
  exact allocatePort_ok hfree

theorem reassigned_ok {db : Db} {t : Tunnel} {field port : Option (Option Int)}
    (h : reassigned st db t field = Except.ok port) {p : Int} (hp : port = some (some p)) :
    p ∉ db.usedPorts (some t.id) := by
  subst hp
  unfold reassigned at h
  split at h
  · simp only [bind_ok, pure_ok] at h
    rcases h with ⟨q, hfree, hq⟩
    cases hq
    exact allocatePort_ok hfree
  · rename_i hnot
    rw [pure_ok] at h
    exact absurd h (hnot p)

theorem tenants_createTunnel {db db' : Db} {user : User} {fresh agentId : Nat}
    {body : TunnelBody} (hdb : Tenants pl st db) (hfresh : db.tunnel? fresh = none)
    (h : createTunnel pl st db user fresh agentId body = Except.ok db') :
    Tenants pl st db' := by
  simp only [createTunnel, bind_ok, require_ok, pure_ok, found_ok] at h
  rcases h with ⟨name, -, a, ha, -, -, -, -, -, -, u, hlabels, -, -, -, -, -, -, -, -, v,
    hcustom, port, hport, rfl⟩
  have hcustom := checkCustomDomains_ok hcustom
  refine (hdb.appendTunnel hfresh ⟨a, agent_of_agent? ha⟩ ⟨?_, hcustom.left⟩ ?_).bump agentId
  · intro s hs
    exact checkSubdomainLabels_ok (whenGiven_ok hlabels hs)
  · intro u hu
    have hdomains := hcustom.right u hu (by simp)
    refine ⟨⟨fun d hd hclash => hdomains d hclash hd, ?_⟩, ⟨hdomains, ?_⟩⟩
    · intro _ htype p hp hclash
      exact assigned_ok hport htype hclash (hdb.mem_usedPorts hu (by simp) hp)
    · intro htype _ p hp hclash
      exact assigned_ok hport htype hp (hdb.mem_usedPorts hu (by simp) hclash)

theorem tenants_updateTunnel {db db' : Db} {user : User} {tunnelId : Nat}
    {fields : TunnelFields} (hdb : Tenants pl st db)
    (h : updateTunnel pl st db user tunnelId fields = Except.ok db') :
    Tenants pl st db' := by
  simp only [updateTunnel, bind_ok, pure_ok, constraint_ok, found_ok] at h
  rcases h with ⟨t, ht, a, ha, -, -, -, -, u, hlabels, -, -, -, -, port, hport, -, -, rfl⟩
  refine (hdb.rewriteTunnel ?_ ?_ ?_ ?_).bump t.agentId
  · intro u
    rfl
  · intro u
    rfl
  · intro u hu hid
    refine ⟨?_, (hdb.named u hu).custom⟩
    intro s hs
    cases hfield : fields.subdomain with
    | none =>
        rw [hfield] at hs
        exact (hdb.named u hu).subdomain s hs
    | some subdomain =>
        rw [hfield] at hs hlabels
        exact checkSubdomainLabels_ok (whenGiven_ok hlabels hs)
  · intro u hu hid v hv hne
    have huv := apart_of_mem hdb.tunnels hu hv (by rw [hid]; exact Ne.symm hne)
    have hvu := apart_of_mem hdb.tunnels hv hu (by rw [hid]; exact hne)
    have htid : t.id = tunnelId := by simpa using List.find?_some ht
    cases hset : port with
    | none => exact ⟨⟨huv.domains, huv.ports⟩, ⟨hvu.domains, hvu.ports⟩⟩
    | some newPort =>
        have hused : forall p, v.remotePort = some p -> newPort ≠ some p := by
          intro p hp hnew
          have hfree := reassigned_ok hport (hset.trans (congrArg some hnew))
          exact hfree (hdb.mem_usedPorts hv (by rw [htid]; simpa using hne) hp)
        refine ⟨⟨huv.domains, ?_⟩, ⟨hvu.domains, ?_⟩⟩
        · intro _ _ p hp hclash
          exact hused p hclash hp
        · intro _ _ p hp
          exact hused p hp

/-!
# Every step
-/

theorem tenants_serve {db db' : Db} {user : User} {call : Call} (hdb : Tenants pl st db)
    (hfresh : db.Fresh call) (h : serve pl st db user call = Except.ok db') :
    Tenants pl st db' := by
  cases call with
  | createTeam fresh name label quota =>
      simp only [serve, bind_ok] at h
      rcases h with ⟨-, -, h⟩
      exact tenants_createTeam hdb hfresh.right h
  | updateTeam teamId fields =>
      simp only [serve, bind_ok] at h
      rcases h with ⟨-, -, h⟩
      exact tenants_updateTeam hdb h
  | deleteTeam teamId =>
      simp only [serve, deleteTeam, bind_ok, pure_ok] at h
      rcases h with ⟨-, -, -, -, -, -, -, -, rfl⟩
      exact hdb.filterTeams _
  | addMember teamId userId =>
      simp only [serve, addMember, bind_ok, pure_ok] at h
      rcases h with ⟨-, -, -, -, -, -, rfl⟩
      exact hdb.withUsers _
  | createUser fresh email role teamId =>
      simp only [serve, createUser, bind_ok, pure_ok] at h
      rcases h with ⟨-, -, -, -, -, -, rfl⟩
      exact hdb.withUsers _
  | updateUserRole userId role =>
      simp only [serve, updateUserRole, bind_ok, pure_ok] at h
      rcases h with ⟨-, -, -, -, -, -, rfl⟩
      exact hdb.withUsers _
  | deleteUser userId =>
      simp only [serve, deleteUser, bind_ok, pure_ok] at h
      rcases h with ⟨-, -, -, -, -, -, rfl⟩
      exact hdb.withUsers _
  | updateMe email =>
      simp only [serve, updateMe, bind_ok, pure_ok] at h
      rcases h with ⟨-, -, rfl⟩
      exact hdb.withUsers _
  | createAgent fresh name nodeId =>
      simp only [serve, createAgent, bind_ok, pure_ok] at h
      rcases h with ⟨name, -, -, -, -, -, -, -, rfl⟩
      exact hdb.appendAgent _
  | updateAgent agentId name =>
      simp only [serve, updateAgent, bind_ok, pure_ok] at h
      rcases h with ⟨name, -, a, -, -, -, -, -, rfl⟩
      refine hdb.mapAgents fun a => ?_
      split <;> rfl
  | deleteAgent agentId =>
      simp only [serve, deleteAgent, bind_ok, pure_ok] at h
      rcases h with ⟨a, -, -, -, rfl⟩
      exact hdb.removeAgent agentId
  | createTunnel fresh agentId body => exact tenants_createTunnel hdb hfresh.right h
  | updateTunnel tunnelId fields => exact tenants_updateTunnel hdb h
  | deleteTunnel tunnelId =>
      simp only [serve, deleteTunnel, bind_ok, pure_ok] at h
      rcases h with ⟨t, -, a, -, -, -, rfl⟩
      exact (hdb.filterTunnels _).bump t.agentId

theorem tenants_pollOnce {db : Db} (hdb : Tenants pl st db) (traffic : Traffic) :
    Tenants pl st (pollOnce traffic db) := by
  refine (hdb.mapTunnels fun t => ?_).mapTeams ?_ ?_
  · unfold Tunnel.counted
    split <;> exact ⟨rfl, rfl, rfl, rfl, rfl, rfl⟩
  · intro t
    rfl
  · intro t
    rfl

theorem free_defaultName {teams : List Team}
    (h : forall t, t ∈ teams -> t.subdomainLabel ≠ some defaultName) :
    Free teams (some defaultName) := by
  have hchars : forall c, c ∈ defaultName -> isLabelChar c = true :=
    List.all_eq_true.mp (by decide)
  apply free_of_unused
  · intro l hl
    cases (given_eq_some.mp hl).left
    exact hchars
  · intro l hl
    cases (given_eq_some.mp hl).left
    exact h

theorem Tenants.labelDefault {db : Db} (h : Tenants pl st db) (id : Nat)
    (hunused : forall t, t ∈ db.teams -> t.subdomainLabel ≠ some defaultName) :
    Tenants pl st { db with
      teams := rewriteRow Team.id id (fun t => { t with subdomainLabel := some defaultName })
        db.teams } := by
  apply h.rewriteTeam
  · intro t
    rfl
  · intro t ht hid
    refine Or.inr (free_defaultName ?_)
    intro u hu
    exact hunused u (List.mem_of_mem_filter hu)

theorem tenants_seedDefaultTeam {db db' : Db} {fresh : Nat} (hdb : Tenants pl st db)
    (hfresh : db.team? fresh = none) (h : seedDefaultTeam db fresh = some db') :
    Tenants pl st db' := by
  unfold seedDefaultTeam at h
  by_cases husers : db.users = []
  · simp only [husers, if_true, Option.some.injEq] at h
    rw [← h]
    exact hdb
  · cases hteam : db.teams.find? fun t => t.name = defaultName with
    | none =>
        simp only [hteam, husers, if_false, if_true, Option.bind_none, true_and] at h
        split at h
        · cases h
        · rename_i hunused
          cases h
          let added : Team := ⟨fresh, defaultName, none, none, false⟩
          have hadded : Tenants pl st { db with teams := db.teams ++ [added] } :=
            hdb.appendTeam hfresh (free_of_unused nofun nofun)
          refine ((hadded.labelDefault fresh ?_).withUsers _).mapAgents ?_
          · intro t ht hlabel
            rcases List.mem_append.mp ht with ht | ht
            · exact hunused ⟨t, ht, hlabel⟩
            · rw [List.mem_singleton.mp ht] at hlabel
              cases hlabel
          · intro a
            rfl
    | some team =>
        by_cases hlabel : given team.subdomainLabel = none
        · simp only [hteam, husers, hlabel, if_false, if_true, Option.bind_some, true_and,
            List.append_nil, reduceCtorEq] at h
          split at h
          · cases h
          · rename_i hunused
            cases h
            refine ((hdb.labelDefault team.id ?_).withUsers _).mapAgents ?_
            · intro t ht hlabel
              exact hunused ⟨t, ht, hlabel⟩
            · intro a
              rfl
        · simp only [hteam, husers, hlabel, if_false, Option.bind_some, false_and] at h
          cases h
          refine (hdb.mapAgents (g := fun a => { a with
            teamId := a.teamId.orElse fun _ => some team.id }) ?_).withUsers _
          intro a
          rfl

theorem subdomain_of_isLabel (hpl : pl.Standard) {s : Text} (hlabels : labels s = [s])
    (hlabel : isLabel s = true) : Subdomain pl s := by
  intro label hmem
  rw [hlabels, List.mem_singleton] at hmem
  have hchars : forall c, c ∈ s -> isLabelChar c = true := by
    simp only [isLabel, Bool.and_eq_true, List.all_eq_true] at hlabel
    exact hlabel.left.left
  rw [hmem, lower_of_isLabelChar hpl hchars, matchLabel, matchesToEnd, hlabel, Bool.true_or]

theorem tenants_demoDb (hpl : pl.Standard) : Tenants pl st demoDb := by
  have hdemo : Subdomain pl "demo".toList := subdomain_of_isLabel hpl (by decide) (by decide)
  refine ⟨List.pairwise_singleton _ _, ?_, ?_, ?_, ?_⟩
  · intro t ht l hl
    rw [List.mem_singleton.mp ht] at hl
    cases (given_eq_some.mp hl).left
    exact List.all_eq_true.mp (by decide)
  · decide
  · refine List.pairwise_pair.mpr ⟨by decide, ⟨?_, ?_⟩, ⟨?_, ?_⟩⟩
    · exact fun d hd => nomatch hd
    · exact fun htype => nomatch htype
    · exact fun d hd => nomatch hd
    · exact fun _ htype => nomatch htype
  · intro t ht
    constructor
    · intro s hs
      rcases List.mem_cons.mp ht with rfl | ht
      · cases (given_eq_some.mp hs).left
        exact hdemo
      · rw [List.mem_singleton.mp ht] at hs
        cases hs
    · intro d hd
      rcases List.mem_cons.mp ht with rfl | ht
      · cases hd
      · rw [List.mem_singleton.mp ht] at hd
        cases hd

theorem tenants_step {db db' : Db} {action : Action} (hdb : Tenants pl st db)
    (h : step pl st db action = some db') : Tenants pl st db' := by
  cases action with
  | request request =>
      unfold step at h
      simp only at h
      split at h
      · rename_i hfresh
        split at h
        · cases h
          exact hdb
        · rename_i hhandle
          cases h
          simp only [handle, bind_ok] at hhandle
          rcases hhandle with ⟨-, -, user, -, hserve⟩
          exact tenants_serve hdb hfresh hserve
      · cases h
  | poll traffic =>
      cases h
      exact tenants_pollOnce hdb traffic
  | restart fresh =>
      unfold step at h
      simp only at h
      split at h
      · rename_i hfresh
        exact tenants_seedDefaultTeam hdb hfresh.right h
      · cases h
  | bootstrap fresh email =>
      unfold step bootstrapAdmin at h
      simp only at h
      split at h
      · cases h
        split <;> exact hdb.withUsers _
      · cases h

end Tenancy

end Api

end Panel
end RcTunnel
