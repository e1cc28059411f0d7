import RcTunnel.Foundation.Separated
import RcTunnel.Panel.Tenancy

/-!
# Grants of different tenants

The ports signed for agents that are not of one team differ, and so do the
custom domains.  A subdomain stands under the label of its team, and no two
labels are the same.  An agent without a label is the exception: its names stand
right under the apex, where the labels of the teams are.  The main result says
exactly when a host is then signed twice.
-/

namespace RcTunnel
namespace Panel

open Foundation

namespace Api

section Disjoint

variable (pl : Platform) (st : Settings)

/-- The two agents are of one team. -/
def Db.Together (db : Db) (a b : Agent) : Prop :=
  exists team, db.teamOf a = some team ∧ db.teamOf b = some team

/-- Grants of agents that are not of one team share no port and no host. -/
def GrantsDisjoint (db : Db) : Prop :=
  forall i j a b now now' g g', i ≠ j -> db.agent? i = some a -> db.agent? j = some b ->
    ¬ db.Together a b -> Signs pl st db i now g -> Signs pl st db j now' g' ->
      (forall p, p ∈ g.ports -> p ∉ g'.ports) ∧
        forall h, h ∈ g.hosts -> forall h', h' ∈ g'.hosts -> pl.lower h ≠ pl.lower h'

/-- A subdomain with the label it stands under. -/
def qualified (label : Option Text) (s : Text) : Text :=
  match label with
  | some l => s ++ '.' :: l
  | none => s

/-- The agent is sent a domain tunnel with the subdomain. -/
def SentSubdomain (db : Db) (a : Agent) (s : Text) : Prop :=
  exists t, Served db a t ∧ t.type.domain = true ∧ given t.subdomain = some s

/-- An agent without a label has a subdomain that is another tenant's subdomain
with its label. -/
def RootClash (db : Db) : Prop :=
  exists a b s s', a.id ≠ b.id ∧ db.agent? a.id = some a ∧ db.agent? b.id = some b ∧
    ¬ db.Together a b ∧ db.labelOf a = none ∧ SentSubdomain db a s ∧
      SentSubdomain db b s' ∧ pl.lower s = pl.lower (qualified (db.labelOf b) s')

variable {pl st}

/-!
# The names under the apex
-/

theorem labelOf_eq_some {db : Db} {a : Agent} {l : Text} (h : db.labelOf a = some l) :
    exists team, db.teamOf a = some team ∧ team ∈ db.teams ∧
      given team.subdomainLabel = some l := by
  rcases Option.bind_eq_some_iff.mp h with ⟨team, hteam, hl⟩
  rcases Option.bind_eq_some_iff.mp hteam with ⟨id, -, hfind⟩
  exact ⟨team, hteam, List.mem_of_find?_eq_some hfind, hl⟩

theorem hostOf_qualified (db : Db) (a : Agent) (s : Text) :
    db.hostOf st a s = qualified (db.labelOf a) s ++ '.' :: st.publicDomain := by
  unfold Db.hostOf suffix qualified
  cases hlabel : db.labelOf a with
  | none => rfl
  | some l =>
      rcases labelOf_eq_some hlabel with ⟨team, -, -, hl⟩
      have hgiven : given (some l) = some l :=
        given_eq_some.mpr ⟨rfl, (given_eq_some.mp hl).right⟩
      simp [hgiven]

theorem lower_hostOf (hpl : pl.Standard) (db : Db) (a : Agent) (s : Text) :
    pl.lower (db.hostOf st a s) =
      pl.lower (qualified (db.labelOf a) s) ++ '.' :: pl.lower st.publicDomain := by
  rw [hostOf_qualified, lower_dot hpl]

theorem lower_hostOf_inj (hpl : pl.Standard) {db : Db} {a b : Agent} {s s' : Text} :
    pl.lower (db.hostOf st a s) = pl.lower (db.hostOf st b s') <->
      pl.lower (qualified (db.labelOf a) s) = pl.lower (qualified (db.labelOf b) s') := by
  rw [lower_hostOf hpl, lower_hostOf hpl, List.append_left_inj]

theorem underApex_hostOf (hpl : pl.Standard) (db : Db) (a : Agent) (s : Text) :
    UnderApex pl st (pl.lower (db.hostOf st a s)) := by
  rw [lower_hostOf hpl]
  exact Or.inr (List.suffix_append _ _)

section Tables

variable {db : Db} (hdb : Tenants pl st db)
include hdb

theorem claimsApart_of_served {a b : Agent} {t u : Tunnel} (ht : Served db a t)
    (hu : Served db b u) (hne : a.id ≠ b.id) : ClaimsApart pl t u := by
  apply apart_of_mem hdb.tunnels ht.mem hu.mem
  intro hid
  have hsame := eq_of_key_eq hdb.tunnels ht.mem hu.mem hid
  exact hne (ht.owner.symm.trans ((congrArg Tunnel.agentId hsame).trans hu.owner))

theorem ports_disjoint {a b : Agent} {now now' : Int} {p : Int} (hne : a.id ≠ b.id)
    (hp : p ∈ (db.grantOf pl st now a).ports) : p ∉ (db.grantOf pl st now' b).ports := by
  intro hp'
  rcases (mem_grant_ports pl st).mp hp with ⟨t, ht, htype, hport, -⟩
  rcases (mem_grant_ports pl st).mp hp' with ⟨u, hu, htype', hport', -⟩
  exact (claimsApart_of_served hdb ht hu hne).ports htype htype' p hport hport'

theorem suffix_chars {a : Agent} {c : Char} (hc : c ∈ suffix st.publicDomain (db.labelOf a)) :
    isDomainChar c = true := by
  unfold suffix at hc
  split at hc
  · rename_i l hl
    rcases labelOf_eq_some (given_eq_some.mp hl).left with ⟨team, -, hteam, hlabel⟩
    rcases List.mem_append.mp hc with hc | hc
    · exact isDomainChar_of_isLabelChar (hdb.labels team hteam l hlabel c hc)
    · rcases List.mem_cons.mp hc with rfl | hc
      · rfl
      · exact List.all_eq_true.mp st.oneDomain c hc
  · exact List.all_eq_true.mp st.oneDomain c hc

variable (hpl : pl.Standard)
include hpl

theorem piece_hostOf {a : Agent} : forall t, t ∈ db.tunnels -> t.type.domain = true ->
    forall s, given t.subdomain = some s -> Piece (db.hostOf st a s) := by
  intro t ht _ s hs
  exact piece_of_subdomain hpl ((hdb.named t ht).subdomain s hs) (given_eq_some.mp hs).right
    fun _ hc => suffix_chars hdb hc

/-- Two labelled agents whose names agree are of one team. -/
theorem together_of_qualified_eq {a b : Agent} {s s' l l' : Text}
    (hl : db.labelOf a = some l) (hl' : db.labelOf b = some l')
    (heq : pl.lower (qualified (some l) s) = pl.lower (qualified (some l') s')) :
    db.Together a b := by
  rcases labelOf_eq_some hl with ⟨team, hteam, hmem, hlabel⟩
  rcases labelOf_eq_some hl' with ⟨team', hteam', hmem', hlabel'⟩
  have hchars := hdb.labels team hmem l hlabel
  have hchars' := hdb.labels team' hmem' l' hlabel'
  have hsame : l = l' := by
    simp only [qualified, lower_dot hpl, lower_of_isLabelChar hpl hchars,
      lower_of_isLabelChar hpl hchars'] at heq
    apply last_sep_inj heq
    · intro hdot
      cases hchars '.' hdot
    · intro hdot
      cases hchars' '.' hdot
  have hteams : team = team' := by
    apply eq_of_key_eq hdb.teams hmem hmem'
    by_contra hne
    exact apart_of_mem hdb.teams hmem hmem' hne l hlabel (hsame ▸ hlabel')
  exact ⟨team, hteam, hteams ▸ hteam'⟩

/-- Two subdomains with one full name are a clash under the apex. -/
theorem rootClash_of_hostOf_eq {a b : Agent} {s s' : Text} (ha : db.agent? a.id = some a)
    (hb : db.agent? b.id = some b) (hne : a.id ≠ b.id) (hapart : ¬ db.Together a b)
    (hs : SentSubdomain db a s) (hs' : SentSubdomain db b s')
    (heq : pl.lower (db.hostOf st a s) = pl.lower (db.hostOf st b s')) :
    RootClash pl db := by
  have heq := (lower_hostOf_inj hpl).mp heq
  cases hl : db.labelOf a with
  | none =>
      refine ⟨a, b, s, s', hne, ha, hb, hapart, hl, hs, hs', ?_⟩
      rw [hl] at heq
      exact heq
  | some l =>
      cases hl' : db.labelOf b with
      | none =>
          refine ⟨b, a, s', s, hne.symm, hb, ha, ?_, hl', hs', hs, ?_⟩
          · intro h
            rcases h with ⟨team, hteam, hteam'⟩
            exact hapart ⟨team, hteam', hteam⟩
          · rw [hl'] at heq
            exact heq.symm
      | some l' =>
          rw [hl, hl'] at heq
          exact absurd (together_of_qualified_eq hdb hpl hl hl' heq) hapart

/-!
# The hosts that are signed
-/

theorem mem_hosts_iff {a : Agent} {now : Int} {host : Text} :
    host ∈ (db.grantOf pl st now a).hosts <->
      (exists s, SentSubdomain db a s ∧ host = pl.lower (db.hostOf st a s)) ∨
        exists t, Served db a t ∧ t.type.domain = true ∧
          host ∈ Platform.domains pl t.customDomains := by
  rw [mem_grant_hosts (piece_hostOf hdb hpl)]
  constructor
  · intro h
    rcases h with ⟨d, ⟨t, ht, htype, ⟨s, hs, rfl⟩ | hd⟩, rfl⟩
    · exact Or.inl ⟨s, ⟨t, ht, htype, hs⟩, rfl⟩
    · exact Or.inr ⟨t, ht, htype, List.mem_map_of_mem hd⟩
  · intro h
    rcases h with ⟨s, ⟨t, ht, htype, hs⟩, rfl⟩ | ⟨t, ht, htype, hd⟩
    · exact ⟨_, ⟨t, ht, htype, Or.inl ⟨s, hs, rfl⟩⟩, rfl⟩
    · rcases List.mem_map.mp hd with ⟨d, hpiece, rfl⟩
      exact ⟨d, ⟨t, ht, htype, Or.inr hpiece⟩, rfl⟩

theorem lower_host {a : Agent} {now : Int} {host : Text}
    (h : host ∈ (db.grantOf pl st now a).hosts) : pl.lower host = host := by
  rcases (mem_grant_hosts (piece_hostOf hdb hpl)).mp h with ⟨d, -, rfl⟩
  exact hpl.lower_lower d

theorem rootClash_of_host {a b : Agent} {now now' : Int} {host : Text}
    (ha : db.agent? a.id = some a) (hb : db.agent? b.id = some b) (hne : a.id ≠ b.id)
    (hapart : ¬ db.Together a b) (h : host ∈ (db.grantOf pl st now a).hosts)
    (h' : host ∈ (db.grantOf pl st now' b).hosts) : RootClash pl db := by
  rcases (mem_hosts_iff hdb hpl).mp h with ⟨s, hs, rfl⟩ | ⟨t, ht, htype, hd⟩
  · rcases (mem_hosts_iff hdb hpl).mp h' with ⟨s', hs', heq⟩ | ⟨u, hu, -, hd'⟩
    · exact rootClash_of_hostOf_eq hdb hpl ha hb hne hapart hs hs' heq
    · exact absurd (underApex_hostOf hpl db a s) ((hdb.named u hu.mem).custom _ hd')
  · rcases (mem_hosts_iff hdb hpl).mp h' with ⟨s', hs', rfl⟩ | ⟨u, hu, -, hd'⟩
    · exact absurd (underApex_hostOf hpl db b s') ((hdb.named t ht.mem).custom _ hd)
    · exact absurd hd' ((claimsApart_of_served hdb ht hu hne).domains _ hd)

theorem grantsDisjoint_of_tenants :
    GrantsDisjoint pl st db <-> st.grantSecret = [] ∨ ¬ RootClash pl db := by
  constructor
  · intro hdisjoint
    by_cases hsecret : st.grantSecret = []
    · exact Or.inl hsecret
    · apply Or.inr
      intro hcase
      rcases hcase with ⟨a, b, s, s', hne, ha, hb, hapart, hlabel, hs, hs', heq⟩
      have hsign : Signs pl st db a.id 0 (db.grantOf pl st 0 a) :=
        (signs_iff pl st).mpr ⟨hsecret, a, ha, rfl⟩
      have hsign' : Signs pl st db b.id 0 (db.grantOf pl st 0 b) :=
        (signs_iff pl st).mpr ⟨hsecret, b, hb, rfl⟩
      have hhost : pl.lower (db.hostOf st a s) ∈ (db.grantOf pl st 0 a).hosts :=
        (mem_hosts_iff hdb hpl).mpr (Or.inl ⟨s, hs, rfl⟩)
      have hhost' : pl.lower (db.hostOf st b s') ∈ (db.grantOf pl st 0 b).hosts :=
        (mem_hosts_iff hdb hpl).mpr (Or.inl ⟨s', hs', rfl⟩)
      have hsame : pl.lower (db.hostOf st a s) = pl.lower (db.hostOf st b s') := by
        rw [lower_hostOf_inj hpl, hlabel]
        exact heq
      exact (hdisjoint a.id b.id a b 0 0 _ _ hne ha hb hapart hsign hsign').right _ hhost _
        hhost' (congrArg pl.lower hsame)
  · intro hclash i j a b now now' g g' hne ha hb hapart hsign hsign'
    rcases (signs_iff pl st).mp hsign with ⟨hsecret, a', ha', rfl⟩
    rcases (signs_iff pl st).mp hsign' with ⟨-, b', hb', rfl⟩
    rw [ha] at ha'
    rw [hb] at hb'
    cases ha'
    cases hb'
    have hida := (agent_of_agent? ha).right
    have hidb := (agent_of_agent? hb).right
    subst hida
    subst hidb
    refine ⟨fun p hp => ports_disjoint hdb hne hp, ?_⟩
    intro h hh h' hh' heq
    rw [lower_host hdb hpl hh, lower_host hdb hpl hh'] at heq
    subst heq
    exact hclash.elim hsecret fun hnot =>
      hnot (rootClash_of_host hdb hpl ha hb hne hapart hh hh')

end Tables

/-!
# Reachable databases
-/

theorem tenants_of_reachable (hpl : pl.Standard) {db : Db}
    (h : (machine pl st).Reachable db) : Tenants pl st db := by
  apply h.invariant
  · intro db hcase
    rcases hcase with rfl | rfl
    · exact tenants_emptyDb
    · exact tenants_demoDb hpl
  · intro db action db' hdb hstep
    exact tenants_step hdb hstep

/-- The grants are disjoint in exactly the reachable databases in which no agent
without a label has the name of another tenant's subdomain. -/
theorem grantsDisjoint_iff_noRootClash (hpl : pl.Standard) {db : Db}
    (h : (machine pl st).Reachable db) :
    GrantsDisjoint pl st db <-> st.grantSecret = [] ∨ ¬ RootClash pl db :=
  grantsDisjoint_of_tenants (tenants_of_reachable hpl h) hpl

end Disjoint

/-!
# Two deployments

Two teams with an agent each, in one deployment both with a label and in the
other the second with a name no label can be made of.
-/

/-- Lower-casing of ASCII letters. -/
def asciiPlatform : Platform where
  lowerChar c := [c.toLower]
  sqlLower t := t.map Char.toLower

theorem toLower_toLower (c : Char) : c.toLower.toLower = c.toLower := by
  by_cases hupper : 65 ≤ c.toNat ∧ c.toNat ≤ 90
  · apply toLower_eq_self
    rw [toNat_toLower hupper]
    omega
  · rw [toLower_eq_self hupper, toLower_eq_self hupper]

theorem standard_asciiPlatform : asciiPlatform.Standard where
  ascii := by
    intro c _
    rfl
  space := by
    intro c hc
    rw [isSpace_iff] at hc
    exact congrArg (fun d => [d]) (toLower_eq_self (by omega))
  lowered := by
    intro c d hd
    rw [List.mem_singleton.mp hd]
    exact congrArg (fun d => [d]) (toLower_toLower c)

def deployed : Settings where
  publicDomain := "rc-tunnel.com".toList
  oneDomain := by decide
  subdomainMaxDepth := 5
  maxTunnelsPerAgent := 100
  maxCustomDomains := 10
  tcpPortMin := 10000
  tcpPortMax := 60000
  portAllowMin := 1024
  portAllowMax := 65535
  grantSecret := "secret".toList
  systemNode := 1
  foreignKeys := true

/-- Two teams are set up, each with a team admin. -/
def setUp (name : Text) : List Action :=
  [Action.bootstrap 1 "root@rc-tunnel.com".toList,
    Action.request ⟨1, Role.admin, Call.createTeam 1 "b".toList none none⟩,
    Action.request ⟨1, Role.admin, Call.createTeam 2 name none none⟩,
    Action.request ⟨1, Role.admin, Call.createUser 2 "b@rc-tunnel.com".toList
      Role.teamAdmin (some 1)⟩,
    Action.request ⟨1, Role.admin, Call.createUser 3 "c@rc-tunnel.com".toList
      Role.teamAdmin (some 2)⟩]

/-- A team admin connects an agent and creates a tunnel on it. -/
def publish (user agentId : Nat) (body : TunnelBody) : List Action :=
  [Action.request ⟨user, Role.teamAdmin, Call.createAgent agentId
      ("edge-".toList ++ Nat.toDigits 10 agentId) none⟩,
    Action.request ⟨user, Role.teamAdmin, Call.createTunnel agentId agentId body⟩]

def web (subdomain : Text) : TunnelBody where
  name := "web".toList
  type := TunnelType.http
  remotePort := none
  subdomain := some subdomain
  customDomains := none
  healthCheckType := none

/-- Both teams have a label, and each publishes the same subdomain. -/
theorem grantsDisjoint_of_labelled_teams :
    exists db, (machine asciiPlatform deployed).exec emptyDb
        (setUp "c".toList ++ publish 2 1 (web "foo".toList) ++ publish 3 2 (web "foo".toList)) =
          some db ∧
      db.tunnels.length = 2 ∧ GrantsDisjoint asciiPlatform deployed db := by
  have hrun : ((machine asciiPlatform deployed).exec emptyDb
      (setUp "c".toList ++ publish 2 1 (web "foo".toList) ++
        publish 3 2 (web "foo".toList))).any (fun db => decide (db.tunnels.length = 2 ∧
          forall a, a ∈ db.agents -> db.labelOf a ≠ none)) = true := by decide +kernel
  rcases (Option.any_eq_true _ _).mp hrun with ⟨db, hexec, hlabels⟩
  rcases of_decide_eq_true hlabels with ⟨htunnels, hlabels⟩
  refine ⟨db, hexec, htunnels, ?_⟩
  refine (grantsDisjoint_iff_noRootClash standard_asciiPlatform
    ⟨emptyDb, _, Or.inl rfl, hexec⟩).mpr (Or.inr ?_)
  intro h
  rcases h with ⟨a, b, s, s', -, ha, -, -, hnone, -⟩
  exact hlabels a (agent_of_agent? ha).left hnone

/-- The second team's name makes no label, and its admin publishes the first
team's name right under the apex. -/
theorem host_signed_for_two_teams :
    exists db, (machine asciiPlatform deployed).exec emptyDb
        (setUp "東京".toList ++ publish 2 1 (web "foo".toList) ++
          publish 3 2 (web "foo.b".toList)) = some db ∧
      ¬ GrantsDisjoint asciiPlatform deployed db := by
  let a : Agent := ⟨1, "edge-1".toList, some 1, 1⟩
  let b : Agent := ⟨2, "edge-2".toList, some 2, 1⟩
  let host := "foo.b.rc-tunnel.com".toList
  have hrun : ((machine asciiPlatform deployed).exec emptyDb
      (setUp "東京".toList ++ publish 2 1 (web "foo".toList) ++
        publish 3 2 (web "foo.b".toList))).any (fun db => decide (
          db.agent? 1 = some a ∧ db.agent? 2 = some b ∧ db.teamOf a ≠ db.teamOf b ∧
            host ∈ (db.grantOf asciiPlatform deployed 0 a).hosts ∧
              host ∈ (db.grantOf asciiPlatform deployed 0 b).hosts)) = true := by
    decide +kernel
  rcases (Option.any_eq_true _ _).mp hrun with ⟨db, hexec, hshared⟩
  rcases of_decide_eq_true hshared with ⟨ha, hb, hteams, hhost, hhost'⟩
  refine ⟨db, hexec, ?_⟩
  intro hdisjoint
  have hapart : ¬ db.Together a b := by
    intro h
    rcases h with ⟨team, hteam, hteam'⟩
    exact hteams (hteam.trans hteam'.symm)
  have hsign : Signs asciiPlatform deployed db 1 0 (db.grantOf asciiPlatform deployed 0 a) :=
    (signs_iff asciiPlatform deployed).mpr ⟨by decide, a, ha, rfl⟩
  have hsign' : Signs asciiPlatform deployed db 2 0 (db.grantOf asciiPlatform deployed 0 b) :=
    (signs_iff asciiPlatform deployed).mpr ⟨by decide, b, hb, rfl⟩
  exact (hdisjoint 1 2 a b 0 0 _ _ (by decide) ha hb hapart hsign hsign').right host hhost host
    hhost' rfl

end Api

end Panel
end RcTunnel
