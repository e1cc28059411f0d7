import Mathlib.Data.List.Dedup
import Mathlib.Data.List.Sort
import RcTunnel.Panel.Database

/-!
# The configuration and the grant of an agent

The panel sends an agent the tunnels that are enabled, each domain tunnel with
its full domain names, and signs a grant for their ports and hosts.  The names
pass through one text, joined by commas and split again.
-/

namespace RcTunnel
namespace Panel

namespace Api

/-!
# The payload of a tunnel
-/

/-- The message of a tunnel, without the options passed on as they are. -/
structure Payload where
  id : Nat
  name : Text
  proxyName : Text
  type : TunnelType
  remotePort : Option Int
  subdomain : Option Text
  customDomains : Option Text
  healthCheckType : Option Text
deriving DecidableEq, Repr

/-- {lit}`tunnel_payload`. -/
def tunnelPayload (t : Tunnel) : Payload where
  id := t.id
  name := t.name
  proxyName := 't' :: Nat.toDigits 10 t.id
  type := t.type
  remotePort := t.remotePort
  subdomain := t.subdomain
  customDomains := t.customDomains
  healthCheckType := t.healthCheckType

/-- What follows the subdomain of a tunnel. -/
def suffix (subdomainHost : Text) (teamLabel : Option Text) : Text :=
  match given teamLabel with
  | some label => label ++ '.' :: subdomainHost
  | none => subdomainHost

/-- The domains of a text that is given. -/
def givenPieces (d : Option Text) : List Text :=
  match given d with
  | some t => pieces t
  | none => []

/-- The full domain names of a payload. -/
def Payload.fqdns (subdomainHost : Text) (teamLabel : Option Text) (p : Payload) :
    List Text :=
  let named := match given p.subdomain with
    | some s => [s ++ '.' :: suffix subdomainHost teamLabel]
    | none => []
  named ++ givenPieces p.customDomains

/-- {lit}`_domainize`. -/
def domainize (subdomainHost : Text) (teamLabel : Option Text) (p : Payload) : Payload :=
  if p.type.domain then
    let fqdns := p.fqdns subdomainHost teamLabel
    { p with
      subdomain := none
      customDomains := if fqdns = [] then none else some (List.intercalate [','] fqdns) }
  else
    p

/-!
# The grant
-/

/-- What a grant says. -/
structure Grant where
  cn : Text
  exp : Int
  ports : List Int
  hosts : List Text
deriving DecidableEq, Repr

/-- {lit}`GRANT_TTL`. -/
def grantTtl : Int := 7 * 24 * 3600

section Grants

variable (pl : Platform) (st : Settings)

/-- {lit}`grant.sign`, up to the writing of the token. -/
def sign (now : Int) (cn : Text) (ports : List Int) (hosts : List Text) : Grant where
  cn := cn
  exp := now + grantTtl
  ports := ports.dedup.insertionSort (· ≤ ·)
  hosts := ((((hosts.map strip).filter (· ≠ [])).map pl.lower).dedup).insertionSort
    fun s t => textLe s t

/-- The text that is signed. -/
def Grant.message (g : Grant) : Text :=
  List.intercalate ['|']
    ["v1".toList, g.cn, (toString g.exp).toList,
      List.intercalate [','] (g.ports.map fun p => (toString p).toList),
      List.intercalate [','] g.hosts]

/-- The token of a grant, given the keyed hash in its base64 form. -/
def Grant.token (hmac : Text -> Text -> Text) (secret : Text) (g : Grant) : Text :=
  g.message ++ '|' :: hmac secret g.message

/-!
# The configuration
-/

/-- A config message, without the address of the node. -/
structure Config where
  generation : Nat
  grant : Option Grant
  tunnels : List Payload
deriving DecidableEq, Repr

/-- The hosts of a payload. -/
def Payload.hosts (p : Payload) : List Text :=
  if p.type.domain then givenPieces p.customDomains else []

/-- {lit}`config_payload`, for a node that publishes under the host. -/
def configPayload (subdomainHost : Text) (agent : Agent) (tunnels : List Tunnel)
    (teamLabel : Option Text) (now : Int) : Config :=
  let enabled := tunnels.filter Tunnel.enabled
  let outTunnels := enabled.map fun t =>
    domainize subdomainHost teamLabel (tunnelPayload t)
  let ports := (outTunnels.filter fun p => !p.type.domain).filterMap fun p =>
    p.remotePort.filter (· ≠ 0)
  let hosts := outTunnels.flatMap Payload.hosts
  { generation := agent.generation
    grant :=
      if st.grantSecret = [] then
        none
      else
        some (sign pl now ("agent.".toList ++ Nat.toDigits 10 agent.id) ports hosts)
    tunnels := outTunnels }

/-- {lit}`build_config`; the system node publishes under the public domain. -/
def buildConfig (db : Db) (agentId : Nat) (now : Int) : Option Config :=
  match db.agent? agentId with
  | none => none
  | some agent =>
      let tunnels := db.tunnels.filter fun t => t.agentId = agentId
      let team := db.teamOf agent
      let label := team.bind Team.subdomainLabel
      let tunnels := if team.any Team.suspended then [] else tunnels
      some (configPayload pl st st.publicDomain agent tunnels label now)

/-!
# What is signed

The hosts that were joined into one text are the hosts that are split from it,
as long as each of them is one piece.
-/

/-- The tunnel is in the configuration of the agent. -/
structure Served (db : Db) (a : Agent) (t : Tunnel) : Prop where
  mem : t ∈ db.tunnels
  owner : t.agentId = a.id
  enabled : t.enabled = true
  active : forall team, db.teamOf a = some team -> team.suspended = false

/-- The full name of a subdomain of an agent's tunnel. -/
def Db.hostOf (db : Db) (a : Agent) (s : Text) : Text :=
  s ++ '.' :: suffix st.publicDomain (db.labelOf a)

theorem givenPieces_eq (d : Option Text) : givenPieces d = pieces (d.getD []) := by
  cases d with
  | none => rfl
  | some t =>
      cases t with
      | nil => rfl
      | cons c rest => rfl

theorem mem_fqdns {host name : Text} {label : Option Text} {p : Payload} :
    name ∈ p.fqdns host label <->
      (exists s, given p.subdomain = some s ∧ name = s ++ '.' :: suffix host label) ∨
        name ∈ pieces (p.customDomains.getD []) := by
  unfold Payload.fqdns
  rw [givenPieces_eq]
  cases given p.subdomain with
  | none => simp
  | some s => simp

theorem domainize_hosts {host : Text} {label : Option Text} {p : Payload}
    (hdomain : p.type.domain = true)
    (hpiece : forall s, given p.subdomain = some s -> Piece (s ++ '.' :: suffix host label)) :
    (domainize host label p).hosts = p.fqdns host label := by
  have hfqdns : forall d, d ∈ p.fqdns host label -> Piece d := by
    intro d hd
    rcases mem_fqdns.mp hd with ⟨s, hs, rfl⟩ | hd
    · exact hpiece s hs
    · exact piece_of_mem hd
  unfold domainize Payload.hosts
  rw [if_pos hdomain]
  simp only [hdomain, if_true, givenPieces_eq]
  by_cases hnil : p.fqdns host label = []
  · rw [if_pos hnil]
    exact hnil.symm
  · rw [if_neg hnil]
    exact pieces_join hfqdns

@[simp] theorem domainize_type (host : Text) (label : Option Text) (p : Payload) :
    (domainize host label p).type = p.type := by
  unfold domainize
  split <;> rfl

@[simp] theorem domainize_remotePort (host : Text) (label : Option Text) (p : Payload) :
    (domainize host label p).remotePort = p.remotePort := by
  unfold domainize
  split <;> rfl

theorem mem_sign_ports {now : Int} {cn : Text} {ports : List Int} {hosts : List Text}
    {p : Int} : p ∈ (sign pl now cn ports hosts).ports <-> p ∈ ports := by
  simp [sign]

theorem mem_sign_hosts {now : Int} {cn : Text} {ports : List Int} {hosts : List Text}
    {h : Text} : h ∈ (sign pl now cn ports hosts).hosts <->
      exists d, d ∈ hosts ∧ strip d ≠ [] ∧ h = pl.lower (strip d) := by
  simp only [sign, List.mem_insertionSort, List.mem_dedup, List.mem_map, List.mem_filter]
  constructor
  · intro hcase
    rcases hcase with ⟨_, ⟨⟨d, hd, rfl⟩, hne⟩, rfl⟩
    exact ⟨d, hd, by simpa using hne, rfl⟩
  · intro hcase
    rcases hcase with ⟨d, hd, hne, rfl⟩
    exact ⟨strip d, ⟨⟨d, hd, rfl⟩, by simpa using hne⟩, rfl⟩

/-- The tunnels that are in the configuration of an agent. -/
def Db.served (db : Db) (a : Agent) : List Tunnel :=
  (if (db.teamOf a).any Team.suspended then
    []
  else
    db.tunnels.filter fun t => t.agentId = a.id).filter Tunnel.enabled

theorem mem_served {db : Db} {a : Agent} {t : Tunnel} :
    t ∈ db.served a <-> Served db a t := by
  unfold Db.served
  cases hteam : db.teamOf a with
  | none =>
      simp only [Option.any_none, Bool.false_eq_true, if_false, List.mem_filter,
        decide_eq_true_eq]
      exact ⟨fun h => ⟨h.left.left, h.left.right, h.right, by simp [hteam]⟩,
        fun h => ⟨⟨h.mem, h.owner⟩, h.enabled⟩⟩
  | some team =>
      cases hsuspended : team.suspended with
      | true =>
          simp only [Option.any_some, hsuspended, if_true, List.filter_nil,
            List.not_mem_nil, false_iff]
          intro h
          simp [h.active team hteam] at hsuspended
      | false =>
          simp only [Option.any_some, hsuspended, Bool.false_eq_true, if_false,
            List.mem_filter, decide_eq_true_eq]
          refine ⟨fun h => ⟨h.left.left, h.left.right, h.right, ?_⟩,
            fun h => ⟨⟨h.mem, h.owner⟩, h.enabled⟩⟩
          intro team' hteam'
          rw [hteam] at hteam'
          cases hteam'
          exact hsuspended

theorem agent_of_agent? {db : Db} {id : Nat} {a : Agent} (h : db.agent? id = some a) :
    a ∈ db.agents ∧ a.id = id :=
  ⟨List.mem_of_find?_eq_some h, by simpa using List.find?_some h⟩

/-- The payloads an agent is sent. -/
def Db.payloads (db : Db) (a : Agent) : List Payload :=
  (db.served a).map fun t =>
    domainize st.publicDomain ((db.teamOf a).bind Team.subdomainLabel) (tunnelPayload t)

/-- The grant of an agent. -/
def Db.grantOf (db : Db) (now : Int) (a : Agent) : Grant :=
  sign pl now ("agent.".toList ++ Nat.toDigits 10 a.id)
    (((db.payloads st a).filter fun p => !p.type.domain).filterMap fun p =>
      p.remotePort.filter (· ≠ 0))
    ((db.payloads st a).flatMap Payload.hosts)

/-- The panel signs the grant for the agent. -/
def Signs (db : Db) (agentId : Nat) (now : Int) (g : Grant) : Prop :=
  exists c, buildConfig pl st db agentId now = some c ∧ c.grant = some g

theorem signs_iff {db : Db} {agentId : Nat} {now : Int} {g : Grant} :
    Signs pl st db agentId now g <->
      st.grantSecret ≠ [] ∧ exists a, db.agent? agentId = some a ∧
        g = db.grantOf pl st now a := by
  unfold Signs buildConfig
  cases hagent : db.agent? agentId with
  | none => simp
  | some a =>
      have hid := (agent_of_agent? hagent).right
      by_cases hsecret : st.grantSecret = []
      · simp [configPayload, hsecret]
      · simp only [configPayload, hsecret, if_false, Option.some.injEq, exists_eq_left',
          ne_eq, not_false_eq_true, true_and]
        unfold Db.grantOf Db.payloads Db.served
        rw [hid]
        exact eq_comm

theorem mem_grant_ports {db : Db} {now : Int} {a : Agent} {p : Int} :
    p ∈ (db.grantOf pl st now a).ports <->
      exists t, Served db a t ∧ t.type.domain = false ∧ t.remotePort = some p ∧ p ≠ 0 := by
  unfold Db.grantOf
  rw [mem_sign_ports]
  simp only [Db.payloads, List.mem_filterMap, List.mem_filter, List.mem_map, mem_served]
  constructor
  · intro h
    rcases h with ⟨_, ⟨⟨t, ht, rfl⟩, htype⟩, hport⟩
    rw [domainize_remotePort] at hport
    rcases Option.filter_eq_some_iff.mp hport with ⟨hport, hne⟩
    exact ⟨t, ht, by simpa [tunnelPayload] using htype, hport, by simpa using hne⟩
  · intro h
    rcases h with ⟨t, ht, htype, hport, hne⟩
    refine ⟨_, ⟨⟨t, ht, rfl⟩, by simpa [tunnelPayload] using htype⟩, ?_⟩
    rw [domainize_remotePort]
    exact Option.filter_eq_some_iff.mpr ⟨hport, by simpa using hne⟩

theorem suffix_given (host : Text) (label : Option Text) :
    suffix host (given label) = suffix host label := by
  unfold suffix given
  rw [Option.filter_filter]
  simp

theorem hostOf_eq (db : Db) (a : Agent) (s : Text) :
    db.hostOf st a s =
      s ++ '.' :: suffix st.publicDomain ((db.teamOf a).bind Team.subdomainLabel) := by
  have hlabel : db.labelOf a = given ((db.teamOf a).bind Team.subdomainLabel) := by
    unfold Db.labelOf
    cases db.teamOf a with
    | none => rfl
    | some team => rfl
  unfold Db.hostOf
  rw [hlabel, suffix_given]

/-- A name of one of the agent's tunnels, as it is joined with the others. -/
def NameOf (db : Db) (a : Agent) (d : Text) : Prop :=
  exists t, Served db a t ∧ t.type.domain = true ∧
    ((exists s, given t.subdomain = some s ∧ d = db.hostOf st a s) ∨
      d ∈ pieces (t.customDomains.getD []))

section Hosts

variable {pl st}
variable {db : Db} {a : Agent} (hpiece : forall t, t ∈ db.tunnels -> t.type.domain = true ->
  forall s, given t.subdomain = some s -> Piece (db.hostOf st a s))
include hpiece

theorem mem_payloads_hosts {d : Text} :
    d ∈ (db.payloads st a).flatMap Payload.hosts <-> NameOf st db a d := by
  have hpayload : forall t, Served db a t -> t.type.domain = true ->
      (d ∈ (domainize st.publicDomain ((db.teamOf a).bind Team.subdomainLabel)
        (tunnelPayload t)).hosts <->
        (exists s, given t.subdomain = some s ∧ d = db.hostOf st a s) ∨
          d ∈ pieces (t.customDomains.getD [])) := by
    intro t ht hdomain
    rw [domainize_hosts hdomain fun s hs => by
      rw [← hostOf_eq]
      exact hpiece t ht.mem hdomain s hs, mem_fqdns]
    simp only [hostOf_eq]
    exact Iff.rfl
  unfold Db.payloads NameOf
  rw [List.flatMap_map]
  simp only [List.mem_flatMap, mem_served]
  constructor
  · intro h
    rcases h with ⟨t, ht, hd⟩
    by_cases hdomain : t.type.domain = true
    · exact ⟨t, ht, hdomain, (hpayload t ht hdomain).mp hd⟩
    · have htype : ¬ (tunnelPayload t).type.domain = true := hdomain
      unfold Payload.hosts at hd
      rw [domainize_type, if_neg htype] at hd
      cases hd
  · intro h
    rcases h with ⟨t, ht, hdomain, hd⟩
    exact ⟨t, ht, (hpayload t ht hdomain).mpr hd⟩

theorem piece_of_nameOf {d : Text} (h : NameOf st db a d) : Piece d := by
  rcases h with ⟨t, ht, hdomain, ⟨s, hs, rfl⟩ | hd⟩
  · exact hpiece t ht.mem hdomain s hs
  · exact piece_of_mem hd

theorem mem_grant_hosts {now : Int} {host : Text} :
    host ∈ (db.grantOf pl st now a).hosts <->
      exists d, NameOf st db a d ∧ host = pl.lower d := by
  unfold Db.grantOf
  rw [mem_sign_hosts]
  constructor
  · intro h
    rcases h with ⟨d, hd, -, rfl⟩
    have hname := (mem_payloads_hosts hpiece).mp hd
    exact ⟨d, hname, by rw [(piece_of_nameOf hpiece hname).right.left]⟩
  · intro h
    rcases h with ⟨d, hname, rfl⟩
    have hd := piece_of_nameOf hpiece hname
    refine ⟨d, (mem_payloads_hosts hpiece).mpr hname, ?_, ?_⟩
    · rw [hd.right.left]
      exact hd.right.right
    · rw [hd.right.left]

end Hosts

end Grants

end Api

end Panel
end RcTunnel
