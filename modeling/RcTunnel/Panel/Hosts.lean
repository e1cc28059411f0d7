import RcTunnel.Engine.Origin
import RcTunnel.Panel.Legible

/-!
# From a host back to its tunnel

The panel looks a host up in two ways: {lit}`_lookup_by_host` walks the tunnels, and
{lit}`_build_hostmap` makes a table of all their names.  Both write the rule for the names
out again, in lower case, while the engine lower-cases what the agent has registered.

The main results say that the check for certificates accepts the names of the tunnels and
no other host, and that, unless two tunnels share a name, both lookups give the tunnel
whose registration takes the requests.
-/

namespace RcTunnel
namespace Panel

open Foundation

namespace Api

/-!
# The two lookups
-/

def Db.domainTunnels (db : Db) : List Tunnel := db.tunnels.filter fun t => t.type.domain

/-- What {lit}`_build_hostmap` says of a host. -/
structure HostEntry where
  agent : Text
  tunnel : Text
  teamId : Option Nat
deriving DecidableEq, Repr

section Lookups

variable (pl : Platform) (st : Settings)

/-- The list {lit}`fqdns` of both lookups. -/
def lookupFqdns (label : Option Text) (t : Tunnel) : List Text :=
  let named := match given t.subdomain with
    | some s => [pl.lower (s ++ '.' :: suffix st.publicDomain label)]
    | none => []
  let custom := match given t.customDomains with
    | some d => (pieces d).map pl.lower
    | none => []
  named ++ custom

/-- The loop of {lit}`_lookup_by_host`. -/
def lookupLoop (db : Db) (host : Text) :
    List Tunnel -> Except Error (Option Tunnel × Option Team)
  | [] => return (none, none)
  | t :: rest => do
      let a ← found (db.agent? t.agentId) 500 "Internal Server Error".toList
      let team := db.teamOf a
      if (lookupFqdns pl st (team.bind Team.subdomainLabel) t).contains host then
        return (some t, team)
      else
        lookupLoop db host rest

/-- {lit}`_lookup_by_host`. -/
def lookupByHost (db : Db) (host : Text) : Except Error (Option Tunnel × Option Team) :=
  lookupLoop pl st db (((pl.lower host).splitOn ':').headD []) db.domainTunnels

/-- {lit}`ondemand_check`, up to the status of its answer. -/
def ondemandCheck (db : Db) (domain : Text) : Except Error Nat :=
  let host := (strip (pl.lower domain)).rdropWhile (· = '.')
  if host = st.publicDomain then
    return 200
  else if ¬ ('.' :: st.publicDomain) <:+ host then
    return 403
  else do
    let (tunnel, _) ← lookupByHost pl st db host
    return if tunnel.isSome then 200 else 403

/-- The loop of {lit}`_build_hostmap`; a later tunnel overwrites an earlier one. -/
def hostmapLoop (db : Db) :
    List Tunnel -> (Text -> Option HostEntry) -> Except Error (Text -> Option HostEntry)
  | [], out => return out
  | t :: rest, out => do
      let agent ← found (db.agent? t.agentId) 500 "Internal Server Error".toList
      let team := db.teamOf agent
      let fqdns := lookupFqdns pl st (team.bind Team.subdomainLabel) t
      hostmapLoop db rest
        (fqdns.foldl
          (fun out f => Function.update out f (some ⟨agent.name, t.name, agent.teamId⟩)) out)

/-- {lit}`_build_hostmap`. -/
def buildHostmap (db : Db) : Except Error (Text -> Option HostEntry) :=
  hostmapLoop pl st db db.domainTunnels fun _ => none

/-!
# What the lookups are for
-/

/-- The team of the agent of a tunnel. -/
def Db.teamFor (db : Db) (t : Tunnel) : Option Team := (db.agent? t.agentId).bind db.teamOf

def Db.entryFor (db : Db) (t : Tunnel) : Option HostEntry :=
  (db.agent? t.agentId).map fun a => ⟨a.name, t.name, a.teamId⟩

/-- The names that {lit}`_domainize` builds for a tunnel. -/
def Db.names (db : Db) (t : Tunnel) : List Text :=
  (tunnelPayload t).fqdns st.publicDomain ((db.teamFor t).bind Team.subdomainLabel)

/-- The host is a name of the tunnel, up to case. -/
def NamedBy (db : Db) (t : Tunnel) (host : Text) : Prop :=
  exists f, f ∈ db.names st t ∧ pl.lower f = pl.lower host

/-- The test of both loops. -/
def Db.lists (db : Db) (host : Text) (t : Tunnel) : Bool :=
  ((db.names st t).map pl.lower).contains host

/-- No two tunnels share a name. -/
def Unshared (db : Db) : Prop :=
  forall t, t ∈ db.domainTunnels -> forall u, u ∈ db.domainTunnels ->
    forall f, f ∈ db.names st t -> NamedBy pl st db u f -> t = u

instance (db : Db) : Decidable (Unshared pl st db) :=
  inferInstanceAs (Decidable (forall t, t ∈ db.domainTunnels -> forall u, u ∈ db.domainTunnels ->
    forall f, f ∈ db.names st t -> (exists g, g ∈ db.names st u ∧ pl.lower g = pl.lower f) ->
      t = u))

/-- A host name under the apex. -/
structure HostName (host : Text) : Prop where
  ascii : forall c, c ∈ host -> c.toNat < 128
  port : ':' ∉ host
  stripped : Stripped host
  last : host.getLast? ≠ some '.'
  under : ('.' :: pl.lower st.publicDomain) <:+ pl.lower host

/-- The proxy that a tunnel is registered as. -/
def Db.registration (db : Db) (localAddr : Payload -> Text) (t : Tunnel) : Engine.ProxySpec :=
  renderProxy localAddr
    (sentAs st.publicDomain ((db.teamFor t).bind Team.subdomainLabel) t)

/-- Requests for the host reach the proxy. -/
def Takes (rt : Engine.Runtime) (p : Engine.ProxySpec) (host : Text) : Prop :=
  Engine.Server.vhostKey rt host ∈ p.hosts.map rt.toLower

/-- An agent of the database is sent the proxy. -/
def Pushed (db : Db) (p : Engine.ProxySpec) : Prop :=
  exists agentId now cfg localAddr, buildConfig pl st db agentId now = some cfg ∧
    p ∈ renderRctc localAddr cfg.tunnels

/-- The engine has heard of nothing but what the agents of the database are sent. -/
def Synced (rt : Engine.Runtime) (db : Db) (s : Engine.Server.State) : Prop :=
  exists cfg foreign actions,
    (forall a, a ∈ actions -> forall p, p ∈ Engine.Server.Action.proxies a -> Pushed pl st db p) ∧
      (Engine.Server.machine cfg rt foreign).exec Engine.Server.initial actions = some s

/-- The tunnel that a host resolves to, in the panel and in the engine. -/
structure Resolves (rt : Engine.Runtime) (db : Db) (host : Text) (tunnel : Option Tunnel) :
    Prop where
  lookup : lookupByHost pl st db host = Except.ok (tunnel, tunnel.bind db.teamFor)
  hostmap : exists out, buildHostmap pl st db = Except.ok out ∧
    out (pl.lower host) = tunnel.bind db.entryFor
  registered : forall t localAddr, tunnel = some t <->
    t ∈ db.domainTunnels ∧ Takes rt (db.registration st localAddr t) host
  received : forall s, Synced pl st rt db s -> forall ref,
    s.shared.vhosts (Engine.Server.vhostKey rt host) = some ref ->
      exists t localAddr, tunnel = some t ∧ ref.spec = db.registration st localAddr t

end Lookups

/-!
# The loops
-/

section Loops

variable {pl : Platform} {st : Settings} {db : Db}

/-- Both lookups write out the names of {lit}`_domainize`, in lower case. -/
theorem lookupFqdns_eq (label : Option Text) (t : Tunnel) :
    lookupFqdns pl st label t =
      ((tunnelPayload t).fqdns st.publicDomain label).map pl.lower := by
  have hsubdomain : (tunnelPayload t).subdomain = t.subdomain := rfl
  have hcustom : (tunnelPayload t).customDomains = t.customDomains := rfl
  unfold lookupFqdns Payload.fqdns givenPieces
  rw [hsubdomain, hcustom]
  cases given t.subdomain with
  | none =>
      cases given t.customDomains with
      | none => rfl
      | some d => rfl
  | some s =>
      cases given t.customDomains with
      | none => rfl
      | some d => rfl

theorem agent?_of_tenants (hdb : Tenants pl st db) {t : Tunnel} (ht : t ∈ db.domainTunnels) :
    exists a, db.agent? t.agentId = some a := by
  rcases hdb.owners t (List.mem_of_mem_filter ht) with ⟨a, ha, hid⟩
  apply Option.ne_none_iff_exists'.mp
  intro hnone
  have hnot := List.find?_eq_none.mp hnone a ha
  exact hnot (by simpa using hid)

theorem teamFor_eq {t : Tunnel} {a : Agent} (ha : db.agent? t.agentId = some a) :
    db.teamFor t = db.teamOf a := by
  unfold Db.teamFor
  rw [ha, Option.bind_some]

theorem names_eq {t : Tunnel} {a : Agent} (ha : db.agent? t.agentId = some a) :
    lookupFqdns pl st ((db.teamOf a).bind Team.subdomainLabel) t =
      (db.names st t).map pl.lower := by
  rw [lookupFqdns_eq, Db.names, teamFor_eq ha]

variable {host : Text}

theorem lookupLoop_eq {tunnels : List Tunnel}
    (howned : forall t, t ∈ tunnels -> exists a, db.agent? t.agentId = some a) :
    lookupLoop pl st db host tunnels =
      Except.ok (tunnels.find? (db.lists pl st host),
        (tunnels.find? (db.lists pl st host)).bind db.teamFor) := by
  induction tunnels with
  | nil => rfl
  | cons t rest ih =>
      rcases howned t List.mem_cons_self with ⟨a, ha⟩
      have hrest := ih fun u hu => howned u (List.mem_cons_of_mem t hu)
      simp only [lookupLoop, ha, found, bind, Except.bind, names_eq ha]
      by_cases hnamed : db.lists pl st host t = true
      · rw [List.find?_cons_of_pos hnamed, Option.bind_some, teamFor_eq ha]
        exact if_pos hnamed
      · rw [List.find?_cons_of_neg hnamed]
        exact (if_neg hnamed).trans hrest

/-- Setting a few names to one entry. -/
theorem foldl_update {names : List Text} {out : Text -> Option HostEntry} {e : HostEntry} :
    names.foldl (fun out f => Function.update out f (some e)) out host =
      if names.contains host then some e else out host := by
  induction names generalizing out with
  | nil => rfl
  | cons f rest ih =>
      rw [List.foldl_cons, ih]
      by_cases hrest : rest.contains host = true
      · simp_all
      · by_cases hf : host = f
        · subst hf
          simp
        · simp_all [Function.update_of_ne]

/-- The last tunnel that has the name is the one the table names. -/
theorem hostmapLoop_eq {tunnels : List Tunnel} {out : Text -> Option HostEntry}
    (howned : forall t, t ∈ tunnels -> exists a, db.agent? t.agentId = some a) :
    exists made, hostmapLoop pl st db tunnels out = Except.ok made ∧ forall host,
      made host =
        ((tunnels.reverse.find? (db.lists pl st host)).bind db.entryFor).or (out host) := by
  induction tunnels generalizing out with
  | nil => exact ⟨out, rfl, fun _ => rfl⟩
  | cons t rest ih =>
      rcases howned t List.mem_cons_self with ⟨a, ha⟩
      have hentry : db.entryFor t = some ⟨a.name, t.name, a.teamId⟩ := by
        unfold Db.entryFor
        rw [ha, Option.map_some]
      rcases ih fun u hu => howned u (List.mem_cons_of_mem t hu) with ⟨made, hmade, hmap⟩
      refine ⟨made, ?_, fun host => ?_⟩
      · simp only [hostmapLoop, ha, found, bind, Except.bind, names_eq ha]
        exact hmade
      · have hset : (if ((db.names st t).map pl.lower).contains host then
            some ⟨a.name, t.name, a.teamId⟩ else out host) =
              (([t].find? (db.lists pl st host)).bind db.entryFor).or (out host) := by
          by_cases hnamed : db.lists pl st host t = true
          · rw [List.find?_cons_of_pos hnamed, Option.bind_some, hentry]
            exact if_pos hnamed
          · rw [List.find?_cons_of_neg hnamed]
            exact if_neg hnamed
        rw [hmap, foldl_update, hset, List.reverse_cons, List.find?_append]
        cases hfind : rest.reverse.find? (db.lists pl st host) with
        | none => rfl
        | some u =>
            have hu : u ∈ rest := List.mem_reverse.mp (List.mem_of_find?_eq_some hfind)
            rcases howned u (List.mem_cons_of_mem t hu) with ⟨b, hb⟩
            simp [Db.entryFor, hb]

end Loops

/-!
# Host names in lower case
-/

section HostNames

variable {pl : Platform} {st : Settings} {rt : Engine.Runtime} {host : Text}

/-- What is lower-cased to a character that is no letter is that character. -/
theorem eq_of_toLower {c d : Char} (h : c.toLower = d) (hd : ¬ (97 ≤ d.toNat ∧ d.toNat ≤ 122)) :
    c = d := by
  by_cases hcase : 65 ≤ c.toNat ∧ c.toNat ≤ 90
  · have hcode := toNat_toLower hcase
    rw [h] at hcode
    omega
  · rw [toLower_eq_self hcase] at h
    exact h

theorem isSpace_toLower (c : Char) : isSpace c.toLower = isSpace c := by
  by_cases hcase : 65 ≤ c.toNat ∧ c.toNat ≤ 90
  · have hcode := toNat_toLower hcase
    rw [Bool.eq_iff_iff, isSpace_iff, isSpace_iff]
    omega
  · rw [toLower_eq_self hcase]

theorem toLower_of_ascii (h : forall c, c ∈ host -> c.toNat < 128) :
    rt.toLower host = host.map Char.toLower := by
  apply List.map_congr_left
  intro c hc
  have hlt : c.val < 128 := UInt32.lt_iff_toNat_lt.mpr (h c hc)
  exact if_pos hlt

variable (hpl : pl.Standard) (hhost : HostName pl st host)
include hpl hhost

theorem HostName.lower : pl.lower host = host.map Char.toLower := by
  unfold Platform.lower
  rw [List.map_eq_flatMap]
  apply List.flatMap_congr
  intro c hc
  exact hpl.ascii c (hhost.ascii c hc)

theorem HostName.port_lower : ':' ∉ pl.lower host := by
  rw [hhost.lower hpl]
  intro hmem
  rcases List.mem_map.mp hmem with ⟨c, hc, hlower⟩
  exact hhost.port (eq_of_toLower hlower (by decide) ▸ hc)

theorem HostName.stripped_lower : Stripped (pl.lower host) := by
  rw [hhost.lower hpl]
  constructor
  · intro c hc
    rw [List.head?_map] at hc
    rcases Option.map_eq_some_iff.mp hc with ⟨d, hd, rfl⟩
    rw [isSpace_toLower]
    exact hhost.stripped.left d hd
  · intro c hc
    rw [List.getLast?_map] at hc
    rcases Option.map_eq_some_iff.mp hc with ⟨d, hd, rfl⟩
    rw [isSpace_toLower]
    exact hhost.stripped.right d hd

/-- {lit}`ondemand_check` strips nothing from a host name. -/
theorem HostName.bare :
    (strip (pl.lower host)).rdropWhile (· = '.') = pl.lower host := by
  rw [strip_eq_self (hhost.stripped_lower hpl), List.rdropWhile_eq_self_iff]
  intro hne hdot
  have hlast := List.getLast?_eq_some_getLast hne
  rw [of_decide_eq_true hdot, hhost.lower hpl, List.getLast?_map] at hlast
  rcases Option.map_eq_some_iff.mp hlast with ⟨c, hc, hlower⟩
  exact hhost.last (eq_of_toLower hlower (by decide) ▸ hc)

/-- The panel and the engine look up the same key. -/
theorem HostName.vhostKey : Engine.Server.vhostKey rt host = pl.lower host := by
  unfold Engine.Server.vhostKey
  rw [toLower_of_ascii hhost.ascii, ← hhost.lower hpl, List.takeWhile_eq_self_iff]
  intro c hc
  rw [decide_eq_true_eq]
  rintro rfl
  exact hhost.port_lower hpl hc

theorem HostName.lookup {db : Db} (howned : forall t, t ∈ db.domainTunnels ->
    exists a, db.agent? t.agentId = some a) {asked : Text}
    (hasked : pl.lower asked = pl.lower host) :
    lookupByHost pl st db asked =
      Except.ok (db.domainTunnels.find? (db.lists pl st (pl.lower host)),
        (db.domainTunnels.find? (db.lists pl st (pl.lower host))).bind db.teamFor) := by
  unfold lookupByHost
  rw [hasked, List.splitOn_eq_singleton (hhost.port_lower hpl), List.headD_cons]
  exact lookupLoop_eq howned

end HostNames

/-!
# Panel and engine
-/

section Mirror

variable {pl : Platform} {st : Settings} {rt : Engine.Runtime} {db : Db} {host : Text}

theorem lists_iff {t : Tunnel} :
    db.lists pl st (pl.lower host) t = true <-> NamedBy pl st db t host := by
  unfold Db.lists NamedBy
  rw [List.contains_iff_mem, List.mem_map]

/-- The registration of a tunnel has its names. -/
theorem registration_hosts (hpl : pl.Standard) (hdb : Tenants pl st db) {t : Tunnel}
    (ht : t ∈ db.domainTunnels) (localAddr : Payload -> Text) :
    (db.registration st localAddr t).hosts = db.names st t := by
  have hdomain : (tunnelPayload t).type.domain = true := (List.mem_filter.mp ht).right
  rcases agent?_of_tenants hdb ht with ⟨a, ha⟩
  unfold Db.registration sentAs
  rw [renderProxy_hosts hdomain]
  apply domainize_hosts hdomain
  intro s hs
  rw [teamFor_eq ha, ← hostOf_eq]
  exact piece_hostOf hdb hpl t (List.mem_of_mem_filter ht) hdomain s hs

/-- The proxies with hosts that the agents are sent are registrations of tunnels. -/
theorem registration_of_pushed {p : Engine.ProxySpec} (h : Pushed pl st db p)
    (hhosts : p.hosts ≠ []) :
    exists t localAddr, t ∈ db.domainTunnels ∧ p = db.registration st localAddr t := by
  rcases h with ⟨agentId, now, cfg, localAddr, hcfg, hp⟩
  rcases List.mem_map.mp hp with ⟨payload, hpayload, rfl⟩
  rcases buildConfig_tunnels hcfg hpayload with ⟨a, t, ha, ht, howner, rfl⟩
  refine ⟨t, localAddr, List.mem_filter.mpr ⟨ht, ?_⟩, ?_⟩
  · by_contra hdomain
    apply hhosts
    have htype : (sentAs st.publicDomain ((db.teamOf a).bind Team.subdomainLabel) t).type =
        t.type := domainize_type ..
    simp [Engine.ProxySpec.hosts, renderProxy, htype, hdomain]
  · rw [← howner] at ha
    rw [Db.registration, teamFor_eq ha]

section Reachable

variable (hpl : pl.Standard) (hcase : SameCase pl rt) (hdb : (machine pl st).Reachable db)
include hpl hdb

theorem plain_names {t : Tunnel} (ht : t ∈ db.domainTunnels) {f : Text}
    (hf : f ∈ db.names st t) : Plain pl f := by
  have hmem := List.mem_of_mem_filter ht
  rcases agent?_of_tenants (tenants_of_reachable hpl hdb) ht with ⟨a, ha⟩
  unfold Db.names at hf
  rw [teamFor_eq ha, mem_fqdns] at hf
  simp only [← hostOf_eq] at hf
  exact plain_of_name hpl hdb hmem hf

variable (hhost : HostName pl st host)
include hhost

include hcase in
/-- A registration takes the requests for the names of its tunnel. -/
theorem takes_iff {t : Tunnel} (ht : t ∈ db.domainTunnels) (localAddr : Payload -> Text) :
    Takes rt (db.registration st localAddr t) host <-> NamedBy pl st db t host := by
  unfold Takes NamedBy
  rw [hhost.vhostKey hpl, registration_hosts hpl (tenants_of_reachable hpl hdb) ht, List.mem_map]
  constructor
  · rintro ⟨f, hf, hlower⟩
    rw [(plain_names hpl hdb ht hf).toLower hpl hcase] at hlower
    exact ⟨f, hf, hlower⟩
  · rintro ⟨f, hf, hlower⟩
    refine ⟨f, hf, ?_⟩
    rw [(plain_names hpl hdb ht hf).toLower hpl hcase]
    exact hlower

/-- On-demand certificates are for the names of the tunnels. -/
theorem ondemandCheck_iff (hapex : pl.lower st.publicDomain = st.publicDomain) :
    ondemandCheck pl st db host = Except.ok 200 <->
      exists t, t ∈ db.domainTunnels ∧ NamedBy pl st db t host := by
  have hunder : ('.' :: st.publicDomain) <:+ pl.lower host := hapex ▸ hhost.under
  have hnot : pl.lower host ≠ st.publicDomain := by
    intro heq
    have hlength := hunder.length_le
    rw [heq, List.length_cons] at hlength
    omega
  have howned : forall t, t ∈ db.domainTunnels -> exists a, db.agent? t.agentId = some a :=
    fun t ht => agent?_of_tenants (tenants_of_reachable hpl hdb) ht
  unfold ondemandCheck
  simp only [hhost.bare hpl, if_neg hnot, not_true_eq_false, hunder, if_false,
    hhost.lookup hpl howned (hpl.lower_lower host)]
  simp only [← lists_iff, bind, Except.bind, pure, Except.pure]
  cases hfind : db.domainTunnels.find? (db.lists pl st (pl.lower host)) with
  | none =>
      rw [List.find?_eq_none] at hfind
      simpa using hfind
  | some t =>
      refine iff_of_true rfl ⟨t, List.mem_of_find?_eq_some hfind, List.find?_some hfind⟩

end Reachable

/--
On the system node, the check for certificates accepts a host under the apex exactly when
it is a name of a tunnel; and when no two tunnels share a name, the panel's two lookups and
the engine resolve it to the same tunnel.
-/
theorem mirrors_of_reachable (hpl : pl.Standard) (hcase : SameCase pl rt)
    (hapex : pl.lower st.publicDomain = st.publicDomain) (hdb : (machine pl st).Reachable db)
    (hhost : HostName pl st host) :
    (ondemandCheck pl st db host = Except.ok 200 <->
      exists t, t ∈ db.domainTunnels ∧ NamedBy pl st db t host) ∧
    (Unshared pl st db -> exists tunnel, Resolves pl st rt db host tunnel) := by
  refine ⟨ondemandCheck_iff hpl hdb hhost hapex, fun hunshared => ?_⟩
  have howned : forall t, t ∈ db.domainTunnels -> exists a, db.agent? t.agentId = some a :=
    fun t ht => agent?_of_tenants (tenants_of_reachable hpl hdb) ht
  have hunique : forall t, t ∈ db.domainTunnels -> forall u, u ∈ db.domainTunnels ->
      db.lists pl st (pl.lower host) t = true -> db.lists pl st (pl.lower host) u = true ->
        t = u := by
    intro t ht u hu hlists hlists'
    rcases lists_iff.mp hlists with ⟨f, hf, hlower⟩
    rcases lists_iff.mp hlists' with ⟨g, hg, hlower'⟩
    exact hunshared t ht u hu f hf ⟨g, hg, hlower'.trans hlower.symm⟩
  have hfound := find?_of_unique hunique
  have hregistered : forall t localAddr,
      db.domainTunnels.find? (db.lists pl st (pl.lower host)) = some t <->
        t ∈ db.domainTunnels ∧ Takes rt (db.registration st localAddr t) host := by
    intro t localAddr
    rw [hfound, lists_iff]
    exact and_congr_right fun ht => (takes_iff hpl hcase hdb hhost ht localAddr).symm
  refine ⟨db.domainTunnels.find? (db.lists pl st (pl.lower host)),
    hhost.lookup hpl howned rfl, ?_, hregistered, ?_⟩
  · rcases hostmapLoop_eq howned with ⟨made, hmade, hmap⟩
    refine ⟨made, hmade, ?_⟩
    rw [hmap, find?_reverse_of_unique hunique, Option.or_none]
  · rintro s ⟨cfg, foreign, actions, hactions, hexec⟩ ref href
    have horigin : Engine.Server.Origin rt (Pushed pl st db) s :=
      Engine.Server.origin_of_messages hactions hexec
    rcases horigin.hosts _ ref href with ⟨hpushed, htakes⟩
    have hhosts : ref.spec.hosts ≠ [] := by
      intro hnil
      rw [hnil] at htakes
      cases htakes
    rcases registration_of_pushed hpushed hhosts with ⟨t, localAddr, ht, hspec⟩
    refine ⟨t, localAddr, (hregistered t localAddr).mpr ⟨ht, ?_⟩, hspec⟩
    rw [← hspec]
    exact htakes

end Mirror

theorem hostName_foo : HostName asciiPlatform deployed "Foo.b.rc-tunnel.com".toList where
  ascii := by
    have hall : "Foo.b.rc-tunnel.com".toList.all (fun c => decide (c.toNat < 128)) = true := by
      decide
    simpa only [List.all_eq_true, decide_eq_true_eq] using hall
  port := by decide
  stripped := by
    constructor
    · intro c hc
      cases (show some 'F' = some c from hc)
      rfl
    · intro c hc
      cases (show some 'm' = some c from hc)
      rfl
  last := by decide
  under := by decide

/-- Two teams publish one subdomain, each under its label. -/
theorem mirrors_of_labelled_teams :
    exists db, (machine asciiPlatform deployed).exec emptyDb
        (setUp "c".toList ++ publish 2 1 (web "foo".toList) ++ publish 3 2 (web "foo".toList)) =
          some db ∧
      ondemandCheck asciiPlatform deployed db "Foo.b.rc-tunnel.com".toList = Except.ok 200 ∧
      exists tunnel, Resolves asciiPlatform deployed nodeRuntime db
        "Foo.b.rc-tunnel.com".toList tunnel := by
  have hrun : ((machine asciiPlatform deployed).exec emptyDb
      (setUp "c".toList ++ publish 2 1 (web "foo".toList) ++
        publish 3 2 (web "foo".toList))).any (fun db => decide
          (Unshared asciiPlatform deployed db ∧ exists t, t ∈ db.domainTunnels ∧
            exists f, f ∈ db.names deployed t ∧
              asciiPlatform.lower f = asciiPlatform.lower "Foo.b.rc-tunnel.com".toList)) =
                true := by
    decide +kernel
  rcases (Option.any_eq_true _ _).mp hrun with ⟨db, hexec, hdb⟩
  rcases of_decide_eq_true hdb with ⟨hunshared, hnamed⟩
  rcases mirrors_of_reachable standard_asciiPlatform sameCase_asciiPlatform (by decide)
    ⟨emptyDb, _, Or.inl rfl, hexec⟩ hostName_foo with ⟨hcheck, hresolves⟩
  exact ⟨db, hexec, hcheck.mpr hnamed, hresolves hunshared⟩

end Api

end Panel
end RcTunnel
