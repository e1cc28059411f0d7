import RcTunnel.Engine.Registration
import RcTunnel.Panel.Disjoint

/-!
# What the panel signs and the engine reads

The panel sends its agent a configuration with a signed grant, the agent renders
the configuration for its engine client, and the engine verifies the grant and
asks it about every proxy.  The texts of the tunnels pass through all three.
-/

namespace RcTunnel
namespace Panel

open Foundation

namespace Api

/-!
# What the agent renders
-/

/-- A proxy of {lit}`_render_rctc`; the local address is resolved on the agent. -/
def renderProxy (localAddr : Payload -> Text) (p : Payload) : Engine.ProxySpec where
  name := if p.proxyName = [] then p.name else p.proxyName
  type := p.type.value
  localAddr := localAddr p
  remotePort := if p.type.domain then 0 else (p.remotePort.filter (· ≠ 0)).getD 0
  subdomain := if p.type.domain then (given p.subdomain).getD [] else []
  customDomains := if p.type.domain then givenPieces p.customDomains else []

/-- The proxies of {lit}`_render_rctc`. -/
def renderRctc (localAddr : Payload -> Text) (tunnels : List Payload) :
    List Engine.ProxySpec :=
  tunnels.map (renderProxy localAddr)

theorem renderProxy_kind (localAddr : Payload -> Text) (p : Payload) :
    (p.type.domain = true -> (renderProxy localAddr p).kind? = some Engine.Kind.vhost) ∧
      (p.type.domain = false -> (renderProxy localAddr p).kind? = some Engine.Kind.tcp ∨
        (renderProxy localAddr p).kind? = some Engine.Kind.udp) := by
  unfold Engine.ProxySpec.kind? renderProxy
  cases p.type with
  | tcp => exact ⟨nofun, fun _ => Or.inl rfl⟩
  | udp => exact ⟨nofun, fun _ => Or.inr rfl⟩
  | http => exact ⟨fun _ => rfl, nofun⟩
  | https => exact ⟨fun _ => rfl, nofun⟩

/-- The proxy of a domain tunnel has the hosts of its payload. -/
theorem renderProxy_hosts {localAddr : Payload -> Text} {host : Text} {label : Option Text}
    {p : Payload} (hdomain : p.type.domain = true) :
    (renderProxy localAddr (domainize host label p)).hosts =
      (domainize host label p).hosts := by
  unfold Engine.ProxySpec.hosts renderProxy Payload.hosts
  rw [domainize_type, hdomain]
  unfold domainize
  rw [if_pos hdomain]
  simp [given]

theorem renderProxy_port {localAddr : Payload -> Text} {host : Text} {label : Option Text}
    {p : Payload} {port : Int} (hdomain : p.type.domain = false)
    (hport : p.remotePort = some port) :
    (renderProxy localAddr (domainize host label p)).remotePort = port := by
  unfold renderProxy
  rw [domainize_type, hdomain, domainize_remotePort, hport]
  by_cases hzero : port = 0
  · simp [hzero, Option.filter]
  · simp [hzero, Option.filter]

/-!
# Texts with separators
-/

theorem toList_toString (n : Int) : (toString n).toList = Engine.itoa n := by
  cases n with
  | ofNat m => exact Nat.toList_repr
  | negSucc m =>
      show ("-" ++ (m + 1).repr).toList = _
      rw [String.toList_append, Nat.toList_repr]
      rfl

/-- A port that {lit}`strconv.Atoi` reads. -/
def Readable (n : Int) : Prop := -0x8000000000000000 ≤ n ∧ n ≤ 0x7FFFFFFFFFFFFFFF

theorem grantPorts_joined {ports : List Int} (h : forall p, p ∈ ports -> Readable p) :
    Engine.grantPorts (List.intercalate [','] (ports.map fun p => (toString p).toList)) =
      ports := by
  simp only [toList_toString]
  unfold Engine.grantPorts
  cases ports with
  | nil => rfl
  | cons first rest =>
      rw [if_neg, List.splitOn_intercalate _ _ (by simp)]
      · rw [List.filterMap_map]
        refine (List.filterMap_congr fun p hp => ?_).trans List.filterMap_some
        exact Engine.parseInt_itoa (h p hp).left (h p hp).right
      · intro t ht hcomma
        rcases List.mem_map.mp ht with ⟨p, -, rfl⟩
        exact Engine.not_mem_itoa (by decide) (by decide) p hcomma
      · refine joined_ne_nil (by simp) fun t ht => ?_
        rcases List.mem_map.mp ht with ⟨p, -, rfl⟩
        exact Engine.itoa_ne_nil p

theorem grantHosts_joined {rt : Engine.Runtime} {hosts : List Text}
    (h : forall t, t ∈ hosts -> ',' ∉ t ∧ t ≠ []) :
    Engine.grantHosts rt (List.intercalate [','] hosts) = hosts.map rt.toLower := by
  unfold Engine.grantHosts
  cases hosts with
  | nil => rfl
  | cons first rest =>
      rw [if_neg, List.splitOn_intercalate _ (fun t ht => (h t ht).left) (by simp)]
      exact joined_ne_nil (by simp) fun t ht => (h t ht).right

/-- The identity of an agent is one field. -/
theorem not_mem_identity (id : Nat) : '|' ∉ "agent.".toList ++ Nat.toDigits 10 id := by
  intro hmem
  rcases List.mem_append.mp hmem with hpunctuation | hdigits
  · exact absurd hpunctuation (by decide)
  · exact absurd (Nat.isDigit_of_mem_toDigits (by decide) (by decide) hdigits) (by decide)

/-- No field of a token holds the separator. -/
theorem splitOn_token {rt : Engine.Runtime} {secret : Text} {g : Grant}
    (hhmac : forall msg, '|' ∉ rt.hmac secret msg) (hcn : '|' ∉ g.cn)
    (hhosts : forall t, t ∈ g.hosts -> '|' ∉ t) :
    (g.token rt.hmac secret).splitOn '|' =
      ["v1".toList, g.cn, (toString g.exp).toList,
        List.intercalate [','] (g.ports.map fun p => (toString p).toList),
        List.intercalate [','] g.hosts, rt.hmac secret g.message] := by
  have hports' : '|' ∉ List.intercalate [','] (g.ports.map fun p => (toString p).toList) := by
    intro hbar
    rcases mem_joined hbar with heq | ⟨t, ht, hc⟩
    · cases heq
    · rcases List.mem_map.mp ht with ⟨p, -, rfl⟩
      rw [toList_toString] at hc
      exact Engine.not_mem_itoa (by decide) (by decide) p hc
  have hhosts' : '|' ∉ List.intercalate [','] g.hosts := by
    intro hbar
    rcases mem_joined hbar with heq | ⟨t, ht, hc⟩
    · cases heq
    · exact hhosts t ht hc
  have hexp' : '|' ∉ (toString g.exp).toList := by
    rw [toList_toString]
    exact Engine.not_mem_itoa (by decide) (by decide) g.exp
  have htoken : g.token rt.hmac secret = List.intercalate ['|']
      ["v1".toList, g.cn, (toString g.exp).toList,
        List.intercalate [','] (g.ports.map fun p => (toString p).toList),
        List.intercalate [','] g.hosts, rt.hmac secret g.message] := by
    simp [Grant.token, Grant.message]
  rw [htoken]
  refine List.splitOn_intercalate _ ?_ (by simp)
  simp only [List.forall_mem_cons]
  exact ⟨by decide, hcn, hexp', hports', hhosts', hhmac _, by simp⟩

/-- The engine reads a grant of the panel as it was signed; what it answers then depends
on the time only. -/
theorem verify_signed {rt : Engine.Runtime} {secret : Text} {g : Grant} {now : Int}
    (hhmac : forall msg, '|' ∉ rt.hmac secret msg) (hcn : '|' ∉ g.cn)
    (hexp : Readable g.exp) (hhosts : forall t, t ∈ g.hosts -> '|' ∉ t) :
    Engine.verify rt secret (g.token rt.hmac secret) g.cn now =
      if g.exp < now then
        Except.error "grant expired".toList
      else
        Except.ok
          ⟨g.cn,
            Engine.grantPorts (List.intercalate [','] (g.ports.map fun p => (toString p).toList)),
            Engine.grantHosts rt (List.intercalate [','] g.hosts)⟩ := by
  have hmessage : rt.hmac secret g.message = rt.hmac secret (List.intercalate ['|']
      ["v1".toList, g.cn, (toString g.exp).toList,
        List.intercalate [','] (g.ports.map fun p => (toString p).toList),
        List.intercalate [','] g.hosts]) := rfl
  unfold Engine.verify
  rw [splitOn_token hhmac hcn hhosts]
  simp only
  rw [if_neg (by simp), if_neg (by rw [hmessage]; simp), if_neg (by simp), toList_toString,
    Engine.parseInt_itoa hexp.left hexp.right]

/-- Up to its expiry the engine reads its ports and its hosts back. -/
theorem verify_token {rt : Engine.Runtime} {secret : Text} {g : Grant} {now : Int}
    (hhmac : forall msg, '|' ∉ rt.hmac secret msg) (hcn : '|' ∉ g.cn)
    (hexp : Readable g.exp) (hports : forall p, p ∈ g.ports -> Readable p)
    (hhosts : forall t, t ∈ g.hosts -> ',' ∉ t ∧ '|' ∉ t ∧ t ≠ []) (hnow : now ≤ g.exp) :
    Engine.verify rt secret (g.token rt.hmac secret) g.cn now =
      Except.ok ⟨g.cn, g.ports, g.hosts.map rt.toLower⟩ := by
  rw [verify_signed hhmac hcn hexp fun t ht => (hhosts t ht).right.left,
    if_neg (Int.not_lt.mpr hnow), grantPorts_joined hports,
    grantHosts_joined fun t ht => ⟨(hhosts t ht).left, (hhosts t ht).right.right⟩]

/-!
# Names that pass the validators

Lower-cased, they are ASCII texts of domain characters, but for newlines before a
dot or at the end.
-/

/-- Outside ASCII, what Python lower-cases to ASCII characters is one of them, and Go
lower-cases it to the same. -/
structure SameCase (pl : Platform) (rt : Engine.Runtime) : Prop where
  same : forall c : Char, 128 ≤ c.toNat ->
    (forall d, d ∈ pl.lowerChar c -> d.toNat < 128) -> pl.lowerChar c = [rt.unicodeLower c]

/-- The characters of a host name when it is lower-cased. -/
def Plain (pl : Platform) (t : Text) : Prop :=
  forall c, c ∈ pl.lower t -> isDomainChar c = true ∨ c = '\n'

section Names

variable {pl : Platform}

theorem Plain.ascii {t : Text} (h : Plain pl t) {c : Char} (hc : c ∈ pl.lower t) :
    c.toNat < 128 := by
  rcases h c hc with hdomain | rfl
  · rw [isDomainChar_iff] at hdomain
    omega
  · decide

theorem Plain.not_mem {t : Text} (h : Plain pl t) {sep : Char}
    (hsep : isDomainChar sep = false) (hne : sep ≠ '\n') : sep ∉ pl.lower t := by
  intro hmem
  rcases h sep hmem with hdomain | heq
  · rw [hsep] at hdomain
    cases hdomain
  · exact hne heq

theorem plain_of_matchFqdn {t : Text} (h : matchFqdn (pl.lower t) = true) : Plain pl t :=
  fun _ hc => chars_of_matchFqdn h hc

variable (hpl : pl.Standard)
include hpl

theorem plain_of_domainChars {t : Text} (h : forall c, c ∈ t -> isDomainChar c = true) :
    Plain pl t := by
  intro c hc
  rcases List.mem_flatMap.mp hc with ⟨b, hb, hmem⟩
  have hdomain := h b hb
  have hcode := isDomainChar_iff.mp hdomain
  rw [hpl.ascii b (by omega)] at hmem
  rw [List.mem_singleton.mp hmem]
  apply Or.inl
  by_cases hupper : 65 ≤ b.toNat ∧ b.toNat ≤ 90
  · have hcodeLower := toNat_toLower hupper
    rw [isDomainChar_iff]
    omega
  · rw [toLower_eq_self hupper]
    exact hdomain

theorem plain_of_subdomain {s : Text} (h : Subdomain pl s) : Plain pl s := by
  intro c hc
  rcases List.mem_flatMap.mp hc with ⟨b, hb, hmem⟩
  rcases mem_labels_of_mem hb with rfl | ⟨label, hlabel, hlabelMem⟩
  · rw [hpl.ascii '.' (by decide)] at hmem
    rw [List.mem_singleton.mp hmem]
    exact Or.inl rfl
  · have hlower : c ∈ pl.lower label := List.mem_flatMap.mpr ⟨b, hlabelMem, hmem⟩
    exact (chars_of_matchLabel (h label hlabel) hlower).imp_left isDomainChar_of_isLabelChar

theorem Plain.under {s tail : Text} (hs : Plain pl s) (htail : Plain pl tail) :
    Plain pl (s ++ '.' :: tail) := by
  intro c hc
  rw [lower_dot hpl] at hc
  rcases List.mem_append.mp hc with hc | hc
  · exact hs c hc
  · rcases List.mem_cons.mp hc with rfl | hc
    · exact Or.inl rfl
    · exact htail c hc

/-- The engine lower-cases a plain name as the panel does. -/
theorem Plain.toLower {rt : Engine.Runtime} (hcase : SameCase pl rt) {t : Text}
    (h : Plain pl t) : rt.toLower t = pl.lower t := by
  unfold Platform.lower Engine.Runtime.toLower
  rw [List.map_eq_flatMap]
  refine List.flatMap_congr fun c hc => ?_
  by_cases hascii : c.toNat < 128
  · have hlt : c.val < 128 := UInt32.lt_iff_toNat_lt.mpr hascii
    rw [hpl.ascii c hascii, if_pos hlt]
  · have hlt : ¬ c.val < 128 := fun hlt => hascii (UInt32.lt_iff_toNat_lt.mp hlt)
    have hsame := hcase.same c (by omega) fun d hd =>
      h.ascii (List.mem_flatMap.mpr ⟨c, hc, hd⟩)
    rw [hsame, if_neg hlt]

theorem Plain.lowered {t : Text} (h : Plain pl t) : Plain pl (pl.lower t) := by
  unfold Plain
  rw [hpl.lower_lower]
  exact h

omit hpl in
theorem Plain.single {t : Text} (h : Plain pl t) {c : Char} (hc : c ∈ t) : Plain pl [c] := by
  intro d hd
  have hmem : d ∈ pl.lowerChar c := by simpa [Platform.lower] using hd
  exact h d (List.mem_flatMap.mpr ⟨c, hc, hmem⟩)

theorem Plain.alike {rt : Engine.Runtime} (hcase : SameCase pl rt) {c : Char}
    (h : Plain pl [c]) : rt.toLower (pl.lowerChar c) = rt.toLower [c] := by
  have hsingle : pl.lower [c] = pl.lowerChar c := by simp [Platform.lower]
  rw [h.toLower hpl hcase, ← hsingle, (h.lowered hpl).toLower hpl hcase, hpl.lower_lower]

theorem alike_of_ascii {rt : Engine.Runtime} {c : Char} (hascii : c.toNat < 128) :
    rt.toLower (pl.lowerChar c) = rt.toLower [c] := by
  have hlow : c.toLower.toNat < 128 := by
    by_cases hupper : 65 ≤ c.toNat ∧ c.toNat ≤ 90
    · have hcode := toNat_toLower hupper
      omega
    · rwa [toLower_eq_self hupper]
  have hlt : c.val < 128 := UInt32.lt_iff_toNat_lt.mpr hascii
  have hlowlt : c.toLower.val < 128 := UInt32.lt_iff_toNat_lt.mpr hlow
  rw [hpl.ascii c hascii]
  unfold Engine.Runtime.toLower
  rw [List.map_singleton, List.map_singleton, if_pos hlt, if_pos hlowlt, toLower_toLower]

theorem Plain.bar {c : Char} (h : Plain pl [c]) : c ≠ '|' := by
  rintro rfl
  apply h.not_mem (by decide : isDomainChar '|' = false) (by decide)
  simp [Platform.lower, hpl.ascii '|' (by decide)]

end Names

/-!
# Tunnels that are accepted
-/

/-- The port was chosen in the allowed range, or drawn from the pool. -/
def Settings.PortAllowed (st : Settings) (p : Int) : Prop :=
  (st.portAllowMin ≤ p ∧ p ≤ st.portAllowMax) ∨ (st.tcpPortMin ≤ p ∧ p ≤ st.tcpPortMax)

/-- Both ranges are of port numbers. -/
structure Settings.PortNumbers (st : Settings) : Prop where
  allowed : 0 < st.portAllowMin ∧ st.portAllowMax ≤ 65535
  pool : 0 < st.tcpPortMin ∧ st.tcpPortMax ≤ 65535

/-- A tunnel that {lit}`create_tunnel` has made. -/
def Accepted (pl : Platform) (st : Settings) (t : Tunnel) : Prop :=
  exists db user fresh agentId body db' new,
    createTunnel pl st db user fresh agentId body = Except.ok db' ∧
      db'.tunnels = db.tunnels ++ [new] ∧ SameClaims t new

/-- What {lit}`create_tunnel` has checked of a tunnel. -/
structure Vetted (pl : Platform) (st : Settings) (t : Tunnel) : Prop where
  port : t.type.domain = false -> exists p, t.remotePort = some p ∧ st.PortAllowed p
  subdomain : forall s, given t.subdomain = some s -> Subdomain pl s
  custom : forall d, d ∈ pieces (t.customDomains.getD []) -> matchFqdn (pl.lower d) = true

section Accepted

variable {pl : Platform} {st : Settings}

theorem allocatePort_allowed {db : Db} {preferred : Option Int} {excluded : Option Nat}
    {p : Int} (h : allocatePort st db preferred excluded = Except.ok p) :
    st.PortAllowed p := by
  unfold allocatePort at h
  cases preferred with
  | none =>
      have hmem := List.mem_of_find?_eq_some (found_ok.mp h)
      rcases List.mem_map.mp hmem with ⟨i, hi, rfl⟩
      have hbelow : exists n : Nat, (n : Int) < st.tcpPortMax + 1 - st.tcpPortMin ∧
          i = (n : Int) := by
        simpa using hi
      rcases hbelow with ⟨n, hn, rfl⟩
      exact Or.inr (by omega)
  | some q =>
      simp only [bind_ok, require_ok, pure_ok] at h
      rcases h with ⟨-, hrange, -, -, rfl⟩
      exact Or.inl hrange

theorem checkCustomDomains_fqdn {db : Db} {custom : Option Text} {excluded : Option Nat}
    {u : Unit} (h : checkCustomDomains pl st db custom excluded = Except.ok u) :
    forall d, d ∈ pieces (custom.getD []) -> matchFqdn (pl.lower d) = true := by
  simp only [checkCustomDomains, bind_ok, require_ok] at h
  rcases h with ⟨-, -, -, hvalid, -⟩
  intro d hd
  have hnone := List.findSome?_eq_none_iff.mp hvalid _ (List.mem_map_of_mem hd)
  by_contra hmatch
  unfold domainError at hnone
  rw [if_pos (by simpa using hmatch)] at hnone
  cases hnone

/-- The row that is added, and what is checked of it. -/
theorem vetted_createTunnel {db db' : Db} {user : User} {fresh agentId : Nat}
    {body : TunnelBody} (h : createTunnel pl st db user fresh agentId body = Except.ok db') :
    exists new, db'.tunnels = db.tunnels ++ [new] ∧ new.type = body.type ∧
      new.subdomain = body.subdomain ∧ new.customDomains = body.customDomains ∧
        Vetted pl st new := by
  simp only [createTunnel, bind_ok, require_ok, pure_ok, found_ok] at h
  rcases h with ⟨name, -, a, -, -, -, -, -, -, -, u, hlabels, -, -, -, -, -, -, -, -, v,
    hcustom, port, hport, rfl⟩
  refine ⟨_, rfl, rfl, rfl, rfl, ?_, ?_, checkCustomDomains_fqdn hcustom⟩
  · intro hdomain
    unfold assigned at hport
    rw [if_neg (by simpa using hdomain)] at hport
    simp only [bind_ok, pure_ok] at hport
    rcases hport with ⟨p, hallowed, rfl⟩
    exact ⟨p, rfl, allocatePort_allowed hallowed⟩
  · intro s hs
    exact checkSubdomainLabels_ok (whenGiven_ok hlabels hs)

theorem Vetted.same {t new : Tunnel} (h : Vetted pl st new) (hsame : SameClaims t new) :
    Vetted pl st t := by
  constructor
  · rw [hsame.type, hsame.remotePort]
    exact h.port
  · rw [hsame.subdomain]
    exact h.subdomain
  · rw [hsame.customDomains]
    exact h.custom

theorem vetted_of_accepted {t : Tunnel} (h : Accepted pl st t) : Vetted pl st t := by
  rcases h with ⟨db, user, fresh, agentId, body, db', new, hcreate, hnew, hsame⟩
  rcases vetted_createTunnel hcreate with ⟨new', hnew', -, -, -, hvetted⟩
  rw [hnew] at hnew'
  cases List.append_cancel_left hnew'
  exact hvetted.same hsame

end Accepted

/-!
# The agreement
-/

/-- A host that keeps the fields of a grant apart and that the panel and the engine lower-case
alike; what {lit}`str.lower` makes of {lit}`Σ` depends on the characters around it. -/
structure Publishes (pl : Platform) (rt : Engine.Runtime) (host : Text) : Prop where
  bar : '|' ∉ host
  alike : forall c, c ∈ host -> 128 ≤ c.toNat ->
    c ≠ 'Σ' ∧ rt.toLower (pl.lowerChar c) = rt.toLower [c]

/-- A host that a list of domains leaves in one piece. -/
def Unbroken (host : Text) : Prop :=
  ',' ∉ host ∧ forall c, host.getLast? = some c -> isSpace c = false

/-- The payload a tunnel is sent as. -/
def sentAs (host : Text) (label : Option Text) (t : Tunnel) : Payload :=
  domainize host label (tunnelPayload t)

/-- The grant the engine has verified, against the tunnels of the configuration. -/
structure Agrees (rt : Engine.Runtime) (localAddr : Payload -> Text) (host : Text)
    (label : Option Text) (tunnels : List Tunnel) (cfg : Config) (v : Engine.Grant) :
    Prop where
  owned : forall proxy, proxy ∈ renderRctc localAddr cfg.tunnels ->
    Engine.ownershipError rt v proxy = none
  ports : forall port, v.allowPort port = true -> exists t, t ∈ tunnels ∧
    sentAs host label t ∈ cfg.tunnels ∧ t.type.domain = false ∧ t.remotePort = some port
  hosts : forall name, v.allowHost rt name = true -> exists t, t ∈ tunnels ∧
    sentAs host label t ∈ cfg.tunnels ∧ t.type.domain = true ∧
      exists d, d ∈ (sentAs host label t).hosts ∧ rt.toLower name = rt.toLower d ∧
        (Unbroken host -> d ∈ (tunnelPayload t).fqdns host label)

theorem port_of_accepted {pl : Platform} {st : Settings} (hports : st.PortNumbers)
    {t : Tunnel} (h : Accepted pl st t) (hdomain : t.type.domain = false) :
    exists p, t.remotePort = some p ∧ 0 < p ∧ p ≤ 65535 := by
  rcases (vetted_of_accepted h).port hdomain with ⟨p, hp, hallowed⟩
  refine ⟨p, hp, ?_⟩
  have hallow := hports.allowed
  have hpool := hports.pool
  rcases hallowed with hrange | hrange
  · omega
  · omega

theorem readable_of_accepted {pl : Platform} {st : Settings} (hports : st.PortNumbers)
    {t : Tunnel} (h : Accepted pl st t) (hdomain : t.type.domain = false) {p : Int}
    (hport : t.remotePort = some p) : Readable p := by
  rcases port_of_accepted hports h hdomain with ⟨q, hq, hpos, hle⟩
  rw [hport] at hq
  cases hq
  unfold Readable
  omega

/-!
The ownership check of a rendered tunnel.
-/

theorem owned_domain {rt : Engine.Runtime} {v : Engine.Grant}
    {localAddr : Payload -> Text} {host : Text} {label : Option Text} {t : Tunnel}
    (hdomain : t.type.domain = true)
    (hhosts : forall d, d ∈ (sentAs host label t).hosts -> v.allowHost rt d = true) :
    Engine.ownershipError rt v (renderProxy localAddr (sentAs host label t)) = none := by
  have htype : (sentAs host label t).type.domain = true := by
    unfold sentAs
    rw [domainize_type]
    exact hdomain
  have hproxy : (renderProxy localAddr (sentAs host label t)).hosts =
      (sentAs host label t).hosts := renderProxy_hosts hdomain
  unfold Engine.ownershipError
  rw [(renderProxy_kind localAddr _).left htype, hproxy]
  simp only
  rw [List.find?_eq_none.mpr fun d hd => by simp [hhosts d hd]]
  rfl

theorem owned_port {rt : Engine.Runtime} {v : Engine.Grant}
    {localAddr : Payload -> Text} {host : Text} {label : Option Text} {t : Tunnel} {p : Int}
    (hdomain : t.type.domain = false) (hport : t.remotePort = some p)
    (hallowed : v.allowPort p = true) :
    Engine.ownershipError rt v (renderProxy localAddr (sentAs host label t)) = none := by
  have htype : (sentAs host label t).type.domain = false := by
    unfold sentAs
    rw [domainize_type]
    exact hdomain
  have hproxy : (renderProxy localAddr (sentAs host label t)).remotePort = p :=
    renderProxy_port hdomain hport
  unfold Engine.ownershipError
  rcases (renderProxy_kind localAddr _).right htype with hkind | hkind
  · rw [hkind, hproxy]
    simp only
    rw [if_pos hallowed]
  · rw [hkind, hproxy]
    simp only
    rw [if_pos hallowed]

section Sent

variable {pl : Platform} {host : Text} {label : Option Text}

/-- A host that is sent is one piece, of the characters of the names. -/
theorem pieces_of_sentAs {t : Tunnel} {d : Text} (hd : d ∈ (sentAs host label t).hosts) :
    t.type.domain = true ∧ Piece d ∧
      forall c, c ∈ d -> exists f, f ∈ (tunnelPayload t).fqdns host label ∧ c ∈ f := by
  unfold sentAs Payload.hosts at hd
  rw [domainize_type] at hd
  split at hd
  · rename_i hdomain
    rw [givenPieces_eq] at hd
    have hpiece := piece_of_mem hd
    refine ⟨hdomain, hpiece, ?_⟩
    intro c hc
    rcases List.mem_filter.mp hd with ⟨hmem, -⟩
    rcases List.mem_map.mp hmem with ⟨raw, hraw, rfl⟩
    have hjoined := mem_of_mem_splitOn hraw (mem_of_mem_stripOf hc)
    unfold domainize at hjoined
    rw [if_pos hdomain] at hjoined
    simp only at hjoined
    split at hjoined
    · cases hjoined
    · rcases mem_joined hjoined with rfl | hname
      · exact absurd hc hpiece.left
      · exact hname
  · cases hd

/-- The hosts that are signed: those of the tunnels that are sent, lower-cased. -/
theorem mem_signed_sent {tunnels : List Tunnel} {cn : Text} {now : Int} {ports : List Int}
    {h : Text} :
    h ∈ (sign pl now cn ports
        (((tunnels.filter Tunnel.enabled).map (sentAs host label)).flatMap Payload.hosts)).hosts <->
      exists t, t ∈ tunnels ∧ t.enabled = true ∧
        exists d, d ∈ (sentAs host label t).hosts ∧ h = pl.lower d := by
  rw [mem_sign_hosts, List.flatMap_map]
  simp only [List.mem_flatMap, List.mem_filter]
  constructor
  · rintro ⟨d, ⟨t, ⟨ht, henabled⟩, hd⟩, -, rfl⟩
    rcases pieces_of_sentAs hd with ⟨-, hpiece, -⟩
    exact ⟨t, ht, henabled, d, hd, by rw [hpiece.right.left]⟩
  · rintro ⟨t, ht, henabled, d, hd, rfl⟩
    rcases pieces_of_sentAs hd with ⟨-, hpiece, -⟩
    refine ⟨d, ⟨t, ⟨ht, henabled⟩, hd⟩, ?_, ?_⟩
    · rw [hpiece.right.left]
      exact hpiece.right.right
    · rw [hpiece.right.left]

end Sent

/-!
The names of tunnels that are spelled as names are.
-/

/-- The subdomain is a chain of labels, and every custom domain a domain name. -/
structure Spelled (pl : Platform) (t : Tunnel) : Prop where
  subdomain : forall s, given t.subdomain = some s -> Subdomain pl s
  custom : forall d, d ∈ pieces (t.customDomains.getD []) -> matchFqdn (pl.lower d) = true

section Spelled

variable {pl : Platform} {st : Settings} {rt : Engine.Runtime} {host : Text}
  {label : Option Text} {tunnels : List Tunnel} (hpl : pl.Standard)
  (hsuffix : forall c, c ∈ suffix host label -> isDomainChar c = true)
  (hspelled : forall t, t ∈ tunnels -> Spelled pl t)
include hpl hsuffix hspelled

end Spelled

section Agreement

variable {pl : Platform} {st : Settings} {rt : Engine.Runtime} {host : Text}
  {label : Option Text} {tunnels : List Tunnel}
  (hpl : pl.Standard) (hcase : SameCase pl rt) (hseparators : pl.KeepsSeparators)
  (hhost : Publishes pl rt host)
  (hlabel : label = none ∨ exists name, label = slug pl name)
  (htunnels : forall t, t ∈ tunnels -> Accepted pl st t)

theorem mem_configPayload {agent : Agent} {now : Int} {t : Tunnel} (ht : t ∈ tunnels)
    (henabled : t.enabled = true) :
    sentAs host label t ∈ (configPayload pl st host agent tunnels label now).tunnels :=
  List.mem_map_of_mem (List.mem_filter.mpr ⟨ht, henabled⟩)

theorem configPayload_grant {agent : Agent} {now : Int} {g : Grant}
    (hg : (configPayload pl st host agent tunnels label now).grant = some g) :
    g = sign pl now ("agent.".toList ++ Nat.toDigits 10 agent.id)
      ((((tunnels.filter Tunnel.enabled).map (sentAs host label)).filter
        fun p => !p.type.domain).filterMap fun p => p.remotePort.filter (· ≠ 0))
      (((tunnels.filter Tunnel.enabled).map (sentAs host label)).flatMap
        Payload.hosts) := by
  unfold configPayload at hg
  simp only at hg
  split at hg
  · cases hg
  · cases hg
    rfl

theorem mem_signed_ports {agent : Agent} {now : Int} {g : Grant}
    (hg : (configPayload pl st host agent tunnels label now).grant = some g) {p : Int} :
    p ∈ g.ports <-> exists t, t ∈ tunnels ∧ t.enabled = true ∧ t.type.domain = false ∧
      t.remotePort = some p ∧ p ≠ 0 := by
  rw [configPayload_grant hg, mem_sign_ports]
  simp only [List.mem_filterMap, List.mem_filter, List.mem_map, Option.filter_eq_some_iff]
  constructor
  · rintro ⟨_, ⟨⟨t, ⟨ht, henabled⟩, rfl⟩, hdomain⟩, hport, hne⟩
    unfold sentAs at hdomain hport
    rw [domainize_type] at hdomain
    rw [domainize_remotePort] at hport
    exact ⟨t, ht, henabled, by simpa [tunnelPayload] using hdomain, hport, by simpa using hne⟩
  · rintro ⟨t, ht, henabled, hdomain, hport, hne⟩
    refine ⟨_, ⟨⟨t, ⟨ht, henabled⟩, rfl⟩, ?_⟩, ?_, by simpa using hne⟩
    · unfold sentAs
      rw [domainize_type]
      simpa [tunnelPayload] using hdomain
    · unfold sentAs
      rw [domainize_remotePort]
      exact hport

include hlabel in
theorem mem_suffix {c : Char} (hc : c ∈ suffix host label) : isDomainChar c = true ∨ c ∈ host := by
  unfold suffix at hc
  split at hc
  · rename_i l hl
    rcases List.mem_append.mp hc with hc | hc
    · rcases hlabel with rfl | ⟨name, rfl⟩
      · cases hl
      · exact Or.inl (isDomainChar_of_isLabelChar
          ((slug_chars (given_eq_some.mp hl).left).right c hc))
    · rcases List.mem_cons.mp hc with rfl | hc
      · exact Or.inl rfl
      · exact Or.inr hc
  · exact Or.inr hc

include hpl hlabel htunnels

/-- The characters of a name are plain, or the host's. -/
theorem chars_of_fqdns {t : Tunnel} (ht : t ∈ tunnels) {f : Text}
    (hf : f ∈ (tunnelPayload t).fqdns host label) {c : Char} (hc : c ∈ f) :
    Plain pl [c] ∨ c ∈ host := by
  have hvetted := vetted_of_accepted (htunnels t ht)
  have hplain : isDomainChar c = true -> Plain pl [c] := by
    intro hdomain
    apply plain_of_domainChars hpl
    intro d hd
    rw [List.mem_singleton.mp hd]
    exact hdomain
  rcases mem_fqdns.mp hf with ⟨s, hs, rfl⟩ | hpiece
  · rcases List.mem_append.mp hc with hc | hc
    · exact Or.inl ((plain_of_subdomain hpl (hvetted.subdomain s hs)).single hc)
    · rcases List.mem_cons.mp hc with rfl | hc
      · exact Or.inl (hplain rfl)
      · exact (mem_suffix hlabel hc).imp_left hplain
  · exact Or.inl ((plain_of_matchFqdn (hvetted.custom f hpiece)).single hc)

/-- Under a host that is left in one piece, what is sent are the names themselves. -/
theorem sentAs_hosts (hunbroken : Unbroken host) {t : Tunnel} (ht : t ∈ tunnels)
    (hdomain : t.type.domain = true) :
    (sentAs host label t).hosts = (tunnelPayload t).fqdns host label := by
  have hvetted := vetted_of_accepted (htunnels t ht)
  apply domainize_hosts hdomain
  intro s hs
  apply piece_under hpl (hvetted.subdomain s hs) (given_eq_some.mp hs).right
  · intro hcomma
    rcases mem_suffix hlabel hcomma with hchar | hmem
    · cases hchar
    · exact hunbroken.left hmem
  · intro c hc
    unfold suffix at hc
    split at hc
    · rename_i l hl
      rw [List.getLast?_append_of_ne_nil _ (by simp)] at hc
      cases hlast : host.getLast? with
      | none =>
          rw [List.getLast?_eq_none_iff.mp hlast] at hc
          cases hc
          rfl
      | some d =>
          rw [List.getLast?_cons, hlast] at hc
          cases hc
          exact hunbroken.right _ hlast
    · exact hunbroken.right c hc

include hcase hhost in
theorem alike_of_sentAs {t : Tunnel} (ht : t ∈ tunnels) {d : Text}
    (hd : d ∈ (sentAs host label t).hosts) : rt.toLower (pl.lower d) = rt.toLower d := by
  rcases pieces_of_sentAs hd with ⟨-, -, hchars⟩
  have hone : forall c, c ∈ d -> rt.toLower (pl.lowerChar c) = rt.toLower [c] := by
    intro c hc
    rcases hchars c hc with ⟨f, hf, hmem⟩
    rcases chars_of_fqdns hpl hlabel htunnels ht hf hmem with hplain | hof
    · exact hplain.alike hpl hcase
    · by_cases hascii : c.toNat < 128
      · exact alike_of_ascii hpl hascii
      · exact (hhost.alike c hof (by omega)).right
  unfold Engine.Runtime.toLower at hone ⊢
  unfold Panel.Platform.lower
  rw [List.map_flatMap, List.map_eq_flatMap]
  exact List.flatMap_congr hone

include hseparators hhost in
/-- A host that is sent is a field of its own when it is lower-cased. -/
theorem field_of_sentAs {t : Tunnel} (ht : t ∈ tunnels) {d : Text}
    (hd : d ∈ (sentAs host label t).hosts) : ',' ∉ pl.lower d ∧ '|' ∉ pl.lower d := by
  rcases pieces_of_sentAs hd with ⟨-, hpiece, hchars⟩
  constructor
  · intro hcomma
    rcases List.mem_flatMap.mp hcomma with ⟨c, hc, hlower⟩
    rw [hseparators.comma c hlower] at hc
    exact hpiece.left hc
  · intro hbar
    rcases List.mem_flatMap.mp hbar with ⟨c, hc, hlower⟩
    rw [hseparators.bar c hlower] at hc
    rcases hchars '|' hc with ⟨f, hf, hmem⟩
    rcases chars_of_fqdns hpl hlabel htunnels ht hf hmem with hplain | hof
    · exact hplain.bar hpl rfl
    · exact hhost.bar hof

omit hpl hlabel htunnels in
theorem mem_signed_hosts {agent : Agent} {now : Int} {g : Grant}
    (hg : (configPayload pl st host agent tunnels label now).grant = some g) {h : Text} :
    h ∈ g.hosts <-> exists t, t ∈ tunnels ∧ t.enabled = true ∧
      exists d, d ∈ (sentAs host label t).hosts ∧ h = pl.lower d := by
  rw [configPayload_grant hg]
  exact mem_signed_sent

variable (hhmac : forall secret msg, '|' ∉ rt.hmac secret msg) (hports : st.PortNumbers)
include hcase hseparators hhost hports

include hhmac in
theorem verify_config {agent : Agent} {issued : Int} {g : Grant}
    (hg : (configPayload pl st host agent tunnels label issued).grant = some g)
    (hexp : Readable g.exp) {now : Int} (hnow : now ≤ g.exp) :
    Engine.verify rt st.grantSecret (g.token rt.hmac st.grantSecret)
        ("agent.".toList ++ Nat.toDigits 10 agent.id) now =
      Except.ok ⟨"agent.".toList ++ Nat.toDigits 10 agent.id, g.ports,
        g.hosts.map rt.toLower⟩ := by
  have hcn : g.cn = "agent.".toList ++ Nat.toDigits 10 agent.id := by
    rw [configPayload_grant hg]
    rfl
  have hbar : '|' ∉ g.cn := by
    rw [hcn]
    exact not_mem_identity agent.id
  have hreadable : forall p, p ∈ g.ports -> Readable p := by
    intro p hp
    rcases (mem_signed_ports hg).mp hp with ⟨t, ht, -, hdomain, hport, -⟩
    exact readable_of_accepted hports (htunnels t ht) hdomain hport
  have hparts : forall h, h ∈ g.hosts -> ',' ∉ h ∧ '|' ∉ h ∧ h ≠ [] := by
    intro h hh
    rcases (mem_signed_hosts hg).mp hh with ⟨t, ht, -, d, hd, rfl⟩
    rcases field_of_sentAs hpl hseparators hhost hlabel htunnels ht hd with ⟨hcomma, hbar⟩
    rcases pieces_of_sentAs hd with ⟨-, hpiece, -⟩
    refine ⟨hcomma, hbar, ?_⟩
    intro hnil
    have hlower := alike_of_sentAs hpl hcase hhost hlabel htunnels ht hd
    rw [hnil] at hlower
    exact hpiece.right.right (List.map_eq_nil_iff.mp hlower.symm)
  have hverify : Engine.verify rt st.grantSecret (g.token rt.hmac st.grantSecret) g.cn now =
      Except.ok ⟨g.cn, g.ports, g.hosts.map rt.toLower⟩ :=
    verify_token (hhmac st.grantSecret) hbar hexp hreadable hparts hnow
  rw [hcn] at hverify
  exact hverify

omit hseparators in
/-- The signed ports and hosts, against the tunnels of the configuration. -/
theorem agrees_of_signed {agent : Agent} {issued : Int} {g : Grant} {cn : Text}
    {localAddr : Payload -> Text}
    (hg : (configPayload pl st host agent tunnels label issued).grant = some g) :
    Agrees rt localAddr host label tunnels (configPayload pl st host agent tunnels label issued)
      ⟨cn, g.ports, g.hosts.map rt.toLower⟩ := by
  refine ⟨?_, ?_, ?_⟩
  · intro proxy hproxy
    rcases List.mem_map.mp hproxy with ⟨payload, hpayload, rfl⟩
    rcases List.mem_map.mp hpayload with ⟨t, hmem, rfl⟩
    rcases List.mem_filter.mp hmem with ⟨ht, henabled⟩
    by_cases hdomain : t.type.domain = true
    · refine owned_domain hdomain fun d hd => ?_
      show (g.hosts.map rt.toLower).contains (rt.toLower d) = true
      rw [List.contains_iff_mem, ← alike_of_sentAs hpl hcase hhost hlabel htunnels ht hd]
      exact List.mem_map_of_mem ((mem_signed_hosts hg).mpr ⟨t, ht, henabled, d, hd, rfl⟩)
    · rw [Bool.not_eq_true] at hdomain
      rcases port_of_accepted hports (htunnels t ht) hdomain with ⟨p, hport, hpos, -⟩
      refine owned_port hdomain hport ?_
      show g.ports.contains p = true
      rw [List.contains_iff_mem]
      exact (mem_signed_ports hg).mpr ⟨t, ht, henabled, hdomain, hport, by omega⟩
  · intro port hallowed
    have hmem : port ∈ g.ports := List.contains_iff_mem.mp hallowed
    rcases (mem_signed_ports hg).mp hmem with ⟨t, ht, henabled, hdomain, hport, -⟩
    exact ⟨t, ht, mem_configPayload ht henabled, hdomain, hport⟩
  · intro name hallowed
    have hmem : rt.toLower name ∈ g.hosts.map rt.toLower := List.contains_iff_mem.mp hallowed
    rcases List.mem_map.mp hmem with ⟨h, hh, heq⟩
    rcases (mem_signed_hosts hg).mp hh with ⟨t, ht, henabled, d, hd, rfl⟩
    rcases pieces_of_sentAs hd with ⟨hdomain, -, -⟩
    refine ⟨t, ht, mem_configPayload ht henabled, hdomain, d, hd, ?_, ?_⟩
    · rw [← heq]
      exact alike_of_sentAs hpl hcase hhost hlabel htunnels ht hd
    · intro hunbroken
      rw [← sentAs_hosts hpl hlabel htunnels hunbroken ht hdomain]
      exact hd

include hhmac in
/--
On a node whose host has no {lit}`|` and is lower-cased alike on both sides, for every time up
to the expiry of its grant, the engine verifies the grant of a configuration for the agent,
finds every proxy the agent renders within it, and finds nothing else within it.
-/
theorem agrees_of_accepted {agent : Agent} {issued : Int} {g : Grant}
    {localAddr : Payload -> Text}
    (hg : (configPayload pl st host agent tunnels label issued).grant = some g)
    (hexp : Readable g.exp) {now : Int} (hnow : now ≤ g.exp) :
    exists v, Engine.verify rt st.grantSecret (g.token rt.hmac st.grantSecret)
        ("agent.".toList ++ Nat.toDigits 10 agent.id) now = Except.ok v ∧
      Agrees rt localAddr host label tunnels
        (configPayload pl st host agent tunnels label issued) v :=
  ⟨_, verify_config hpl hcase hseparators hhost hlabel htunnels hhmac hports hg hexp hnow,
    agrees_of_signed hpl hcase hhost hlabel htunnels hports hg⟩

end Agreement

/-!
# One configuration

A team's agent with a site and a shell.
-/

def signedMessage : Text :=
  "v1|agent.7|1900604800|2222|foo.core-team.rc-tunnel.com,news.example.com".toList

def messageSignature : Text := "BbxKCW1RuUHGsYSV4OJL_yZ47hG0m80xObhtcPb36Fc".toList

def nodeRuntime : Engine.Runtime where
  hmac secret msg :=
    if secret = "secret".toList ∧ msg = signedMessage then messageSignature else []
  unicodeLower c := c
  listenError := "bind: address already in use".toList

theorem keepsSeparators_asciiPlatform : asciiPlatform.KeepsSeparators := by
  have hkept : forall (c sep : Char), ¬ (97 ≤ sep.toNat ∧ sep.toNat ≤ 122) ->
      sep ∈ asciiPlatform.lowerChar c -> c = sep := by
    intro c sep hsep hmem
    have heq : sep = c.toLower := List.mem_singleton.mp hmem
    by_cases hupper : 65 ≤ c.toNat ∧ c.toNat ≤ 90
    · have hcode := toNat_toLower hupper
      rw [← heq] at hcode
      omega
    · rw [heq, toLower_eq_self hupper]
  constructor
  · intro c
    exact hkept c ',' (by decide)
  · intro c
    exact hkept c '|' (by decide)

/-- A host of ASCII characters. -/
theorem publishes_of_ascii {pl : Platform} {rt : Engine.Runtime} {host : Text} (hbar : '|' ∉ host)
    (hascii : host.all (fun c => c.toNat < 128) = true) : Publishes pl rt host where
  bar := hbar
  alike := by
    intro c hc hbeyond
    have hbelow : c.toNat < 128 := of_decide_eq_true (List.all_eq_true.mp hascii c hc)
    omega

theorem sameCase_asciiPlatform : SameCase asciiPlatform nodeRuntime where
  same c hc hascii := by
    have hself : c.toLower = c := toLower_eq_self (by omega)
    have hbelow := hascii c (List.mem_singleton.mpr hself.symm)
    omega

def edgeAgent : Agent := ⟨7, "edge-7".toList, some 1, 0⟩

def coreAdmin : User := ⟨1, "core@rc-tunnel.com".toList, Role.teamAdmin, some 1⟩

def edgeDb : Db where
  teams := [⟨1, "Core Team".toList, slug asciiPlatform "Core Team".toList, none, false⟩]
  users := [coreAdmin]
  agents := [edgeAgent]
  tunnels := []

def siteBody : TunnelBody where
  name := "site".toList
  type := TunnelType.https
  remotePort := none
  subdomain := some "Foo".toList
  customDomains := some " News.Example.com, ".toList
  healthCheckType := none

def shellBody : TunnelBody where
  name := "shell".toList
  type := TunnelType.tcp
  remotePort := some 2222
  subdomain := none
  customDomains := none
  healthCheckType := none

def created (id : Nat) (body : TunnelBody) : Tunnel where
  id := id
  agentId := 7
  name := body.name
  type := body.type
  remotePort := body.remotePort
  subdomain := body.subdomain
  customDomains := body.customDomains
  enabled := true
  healthCheckType := body.healthCheckType
  bytesIn := 0
  bytesOut := 0
  lastTodayIn := 0
  lastTodayOut := 0

theorem accepted_created {pl : Platform} {st : Settings} {id : Nat} {body : TunnelBody}
    (h : (createTunnel pl st edgeDb coreAdmin id 7 body).toOption.map
      Db.tunnels = some [created id body]) :
    Accepted pl st (created id body) := by
  rcases Option.map_eq_some_iff.mp h with ⟨db', hdb', htunnels⟩
  refine ⟨edgeDb, coreAdmin, id, 7, body, db', created id body, ?_, htunnels,
    ⟨rfl, rfl, rfl, rfl, rfl, rfl⟩⟩
  cases hcreate : createTunnel pl st edgeDb coreAdmin id 7 body with
  | error e =>
      rw [hcreate] at hdb'
      cases hdb'
  | ok db'' =>
      rw [hcreate] at hdb'
      cases hdb'
      rfl

def edgeConfig : Config :=
  configPayload asciiPlatform deployed deployed.publicDomain edgeAgent
    [created 1 siteBody, created 2 shellBody] (slug asciiPlatform "Core Team".toList) 1900000000

theorem agrees_edgeConfig : exists g v, edgeConfig.grant = some g ∧
    Engine.verify nodeRuntime "secret".toList
      (signedMessage ++ '|' :: messageSignature) "agent.7".toList 1900604800 =
        Except.ok v ∧
    Agrees nodeRuntime (fun _ => "127.0.0.1:80".toList) "rc-tunnel.com".toList
      (slug asciiPlatform "Core Team".toList) [created 1 siteBody, created 2 shellBody]
      edgeConfig v := by
  have hgrant : edgeConfig.grant.map (fun g => (g.exp, g.token nodeRuntime.hmac "secret".toList)) =
      some (1900604800, signedMessage ++ '|' :: messageSignature) := by
    decide +kernel
  rcases Option.map_eq_some_iff.mp hgrant with ⟨g, hg, hread⟩
  rw [Prod.mk.injEq] at hread
  rcases hread with ⟨hexp, htoken⟩
  have haccepted : forall t, t ∈ [created 1 siteBody, created 2 shellBody] ->
      Accepted asciiPlatform deployed t := by
    intro t ht
    rcases List.mem_cons.mp ht with rfl | ht
    · exact accepted_created (by decide +kernel)
    · rw [List.mem_singleton.mp ht]
      exact accepted_created (by decide +kernel)
  have hbar : forall secret msg, '|' ∉ nodeRuntime.hmac secret msg := by
    intro secret msg
    unfold nodeRuntime
    simp only
    split
    · decide
    · exact List.not_mem_nil
  have hagrees : exists v, Engine.verify nodeRuntime deployed.grantSecret
      (g.token nodeRuntime.hmac deployed.grantSecret)
      ("agent.".toList ++ Nat.toDigits 10 edgeAgent.id) 1900604800 = Except.ok v ∧
    Agrees nodeRuntime (fun _ => "127.0.0.1:80".toList) deployed.publicDomain
      (slug asciiPlatform "Core Team".toList) [created 1 siteBody, created 2 shellBody]
      edgeConfig v :=
    agrees_of_accepted standard_asciiPlatform sameCase_asciiPlatform
      keepsSeparators_asciiPlatform (publishes_of_ascii (by decide) (by decide))
      (Or.inr ⟨"Core Team".toList, rfl⟩) haccepted hbar ⟨by decide, by decide⟩ hg
      (by unfold Readable; omega) (le_of_eq hexp.symm)
  rcases hagrees with ⟨v, hverify, hv⟩
  refine ⟨g, v, hg, ?_, hv⟩
  rw [← htoken]
  exact hverify

/-- A node that an admin has added with a bar in its host. -/
def barredConfig : Config :=
  configPayload asciiPlatform deployed "edge|rc-tunnel.com".toList edgeAgent
    [created 1 siteBody] none 1900000000

/-- The allowed range begins at zero. -/
def fromZero : Settings := { deployed with portAllowMin := 0 }

def zeroBody : TunnelBody := { shellBody with remotePort := some 0 }

def zeroConfig : Config :=
  configPayload asciiPlatform fromZero fromZero.publicDomain edgeAgent [created 2 zeroBody] none
    1900000000

/-- A capital with a dot above, which Python lower-cases to two characters and Go to one. -/
def dottedPlatform : Platform :=
  { asciiPlatform with
    lowerChar := fun c => if c = 'İ' then ['i', Char.ofNat 0x307] else asciiPlatform.lowerChar c }

def dottedRuntime : Engine.Runtime :=
  { nodeRuntime with unicodeLower := fun c => if c = 'İ' then 'i' else c }

def dottedConfig : Config :=
  configPayload dottedPlatform deployed "İ.rc-tunnel.com".toList edgeAgent
    [created 1 siteBody] none 1900000000

/-- The grant of the barred node is not verified; port zero is accepted and not signed; the
name under the dotted host is signed as another one. -/
theorem disagrees_of_configuration :
    (Accepted asciiPlatform deployed (created 1 siteBody) ∧
      exists g, barredConfig.grant = some g ∧ 1900000000 ≤ g.exp ∧
        Engine.verify nodeRuntime deployed.grantSecret
          (g.token nodeRuntime.hmac deployed.grantSecret) "agent.7".toList 1900000000 =
            Except.error "bad grant format".toList) ∧
    (Accepted asciiPlatform fromZero (created 2 zeroBody) ∧
      exists g v, zeroConfig.grant = some g ∧ 1900000000 ≤ g.exp ∧
        Engine.verify nodeRuntime fromZero.grantSecret
          (g.token nodeRuntime.hmac fromZero.grantSecret) "agent.7".toList 1900000000 =
            Except.ok v ∧
        exists proxy, proxy ∈ renderRctc (fun _ => "127.0.0.1:22".toList) zeroConfig.tunnels ∧
          Engine.ownershipError nodeRuntime v proxy =
            some "port 0 not authorized".toList) ∧
    Accepted dottedPlatform deployed (created 1 siteBody) ∧
    exists g v, dottedConfig.grant = some g ∧ 1900000000 ≤ g.exp ∧
      Engine.verify dottedRuntime deployed.grantSecret
        (g.token dottedRuntime.hmac deployed.grantSecret) "agent.7".toList 1900000000 =
          Except.ok v ∧
      exists proxy, proxy ∈ renderRctc (fun _ => "127.0.0.1:80".toList) dottedConfig.tunnels ∧
        Engine.ownershipError dottedRuntime v proxy =
          some "host not authorized: Foo.İ.rc-tunnel.com".toList := by
  refine ⟨?_, ?_, ?_⟩
  · let g : Grant := ⟨"agent.7".toList, 1900604800, [],
      ["foo.edge|rc-tunnel.com".toList, "news.example.com".toList]⟩
    have hgrant : barredConfig.grant = some g := by decide +kernel
    refine ⟨accepted_created (by decide +kernel), g, hgrant, by decide, ?_⟩
    decide +kernel
  · let g : Grant := ⟨"agent.7".toList, 1900604800, [], []⟩
    let v : Engine.Grant := ⟨"agent.7".toList, [], []⟩
    have hgrant : zeroConfig.grant = some g := by decide +kernel
    refine ⟨accepted_created (by decide +kernel), g, v, hgrant, by decide, by decide +kernel, ?_⟩
    exact ⟨_, List.mem_cons_self, by decide +kernel⟩
  · let g : Grant := ⟨"agent.7".toList, 1900604800, [],
      ["foo.i".toList ++ Char.ofNat 0x307 :: ".rc-tunnel.com".toList,
        "news.example.com".toList]⟩
    let v : Engine.Grant := ⟨"agent.7".toList, [], g.hosts⟩
    have hgrant : dottedConfig.grant = some g := by decide +kernel
    refine ⟨accepted_created (by decide +kernel), g, v, hgrant, by decide, by decide +kernel, ?_⟩
    exact ⟨_, List.mem_cons_self, by decide +kernel⟩

end Api

end Panel
end RcTunnel
