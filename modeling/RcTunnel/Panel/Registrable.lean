import RcTunnel.Panel.Agreement

/-!
# Tunnels that can be registered

A tunnel on a port needs a port and a tunnel on names needs a name; the engine
rejects the others whatever they are granted.  Creating a tunnel checks for it,
and the requests after that decide whether it stays.
-/

namespace RcTunnel
namespace Panel

open Foundation

namespace Api

/-- The subdomain or the custom domains stand for a name. -/
def HasName (subdomain customDomains : Option Text) : Prop :=
  given subdomain ≠ none ∨ pieces (customDomains.getD []) ≠ []

instance (subdomain customDomains : Option Text) : Decidable (HasName subdomain customDomains) :=
  inferInstanceAs (Decidable (_ ∨ _))

/-- The tunnel has what its type needs. -/
structure Registrable (st : Settings) (t : Tunnel) : Prop where
  port : t.type.domain = false -> exists p, t.remotePort = some p ∧ st.PortAllowed p
  name : t.type.domain = true -> HasName t.subdomain t.customDomains

/-- The answers of {lit}`register` to a proxy without what its type needs. -/
def requirementErrors : List Text :=
  ["remote port required".toList, "port 0 not authorized".toList, "no domains".toList]

/-- Every tunnel is registrable, and no pushed proxy is rejected for what it lacks. -/
structure WellFormed (pl : Platform) (st : Settings) (db : Db) : Prop where
  tunnels : forall t, t ∈ db.tunnels -> Registrable st t
  pushed : forall agentId now cfg localAddr, buildConfig pl st db agentId now = some cfg ->
    forall proxy, proxy ∈ renderRctc localAddr cfg.tunnels ->
      forall rt grant error, Engine.specError rt grant proxy = some error ->
        error ∉ requirementErrors

/-!
# Names survive being joined and split
-/

theorem strip_ne_nil {t : Text} {c : Char} (hc : c ∈ t) (hspace : isSpace c = false) :
    strip t ≠ [] := by
  intro hnil
  unfold strip stripOf at hnil
  rw [List.rdropWhile_eq_nil_iff] at hnil
  have hfront : t.dropWhile isSpace = [] := by
    have hhead := List.head?_dropWhile_not isSpace t
    cases hdrop : t.dropWhile isSpace with
    | nil => rfl
    | cons d rest =>
        rw [hdrop] at hhead hnil
        have hnot : isSpace d = false := by simpa using hhead
        rw [hnil d List.mem_cons_self] at hnot
        cases hnot
  rw [List.dropWhile_eq_nil_iff] at hfront
  rw [hfront c hc] at hspace
  cases hspace

theorem pieces_ne_nil {t : Text} {c : Char} (hc : c ∈ t) (hcomma : c ≠ ',')
    (hspace : isSpace c = false) : pieces t ≠ [] := by
  have hsplit : c = ',' ∨ exists piece, piece ∈ t.splitOn ',' ∧ c ∈ piece :=
    mem_splitOn_of_mem hc
  rcases hsplit with heq | ⟨piece, hpiece, hmem⟩
  · exact absurd heq hcomma
  · refine List.ne_nil_of_mem (List.mem_filter.mpr ⟨List.mem_map_of_mem hpiece, ?_⟩)
    simpa using strip_ne_nil hmem hspace

/-- A name has a character that neither separates nor is stripped. -/
theorem solid_of_fqdns {host : Text} {label : Option Text} {p : Payload} {d : Text}
    (hd : d ∈ p.fqdns host label) : exists c, c ∈ d ∧ c ≠ ',' ∧ isSpace c = false := by
  rcases mem_fqdns.mp hd with ⟨s, hs, rfl⟩ | hpiece
  · exact ⟨'.', by simp, by decide, by decide⟩
  · rcases piece_of_mem hpiece with ⟨hcomma, hstrip, hne⟩
    have hstripped := stripped_strip d
    rw [hstrip] at hstripped
    rcases List.exists_cons_of_ne_nil hne with ⟨c, rest, rfl⟩
    refine ⟨c, List.mem_cons_self, ?_, hstripped.left c rfl⟩
    rintro rfl
    exact hcomma List.mem_cons_self

/-- A domain tunnel with a name is rendered with a host. -/
theorem sentAs_hosts_ne_nil {host : Text} {label : Option Text} {t : Tunnel}
    (hdomain : t.type.domain = true) (hname : HasName t.subdomain t.customDomains) :
    (sentAs host label t).hosts ≠ [] := by
  have hfqdns : exists d, d ∈ (tunnelPayload t).fqdns host label := by
    rcases hname with hsubdomain | hcustom
    · rcases Option.ne_none_iff_exists'.mp hsubdomain with ⟨s, hs⟩
      exact ⟨_, mem_fqdns.mpr (Or.inl ⟨s, hs, rfl⟩)⟩
    · rcases List.exists_mem_of_ne_nil _ hcustom with ⟨d, hd⟩
      exact ⟨d, mem_fqdns.mpr (Or.inr hd)⟩
  rcases hfqdns with ⟨d, hd⟩
  have htype : (tunnelPayload t).type.domain = true := hdomain
  rcases solid_of_fqdns hd with ⟨c, hc, hcomma, hspace⟩
  unfold sentAs Payload.hosts domainize
  rw [if_pos htype]
  simp only [htype, if_true, givenPieces_eq, if_neg (List.ne_nil_of_mem hd)]
  exact pieces_ne_nil (mem_joined_of_mem hd hc) hcomma hspace

/-!
# What the engine answers
-/

theorem ownershipError_texts {rt : Engine.Runtime} {v : Engine.Grant} {p : Engine.ProxySpec}
    {error : Text} (h : Engine.ownershipError rt v p = some error) :
    error = "port ".toList ++ Engine.itoa p.remotePort ++ " not authorized".toList ∧
        (p.kind? = some Engine.Kind.tcp ∨ p.kind? = some Engine.Kind.udp) ∨
      exists host, error = "host not authorized: ".toList ++ host := by
  unfold Engine.ownershipError at h
  split at h
  · rename_i hkind
    split at h
    · cases h
    · cases h
      exact Or.inl ⟨rfl, Or.inl hkind⟩
  · rename_i hkind
    split at h
    · cases h
    · cases h
      exact Or.inl ⟨rfl, Or.inr hkind⟩
  · rcases Option.map_eq_some_iff.mp h with ⟨host, -, rfl⟩
    exact Or.inr ⟨host, rfl⟩
  · cases h

theorem ownershipError_not_required {rt : Engine.Runtime} {v : Engine.Grant}
    {p : Engine.ProxySpec} {error : Text}
    (hport : p.kind? = some Engine.Kind.tcp ∨ p.kind? = some Engine.Kind.udp ->
      0 < p.remotePort ∧ p.remotePort ≤ 65535)
    (h : Engine.ownershipError rt v p = some error) : error ∉ requirementErrors := by
  rcases ownershipError_texts h with ⟨rfl, hkind⟩ | ⟨host, rfl⟩
  · intro hmem
    have hrange := hport hkind
    have hzero : Engine.itoa p.remotePort = Engine.itoa 0 := by
      simp only [requirementErrors, List.mem_cons, List.not_mem_nil, or_false] at hmem
      rcases hmem with heq | heq | heq
      · exact absurd (congrArg List.head? heq) (by simp)
      · have hsplit : "port 0 not authorized".toList =
            "port ".toList ++ Engine.itoa 0 ++ " not authorized".toList := by
          decide
        rw [hsplit] at heq
        exact List.append_cancel_left (List.append_cancel_right heq)
      · exact absurd (congrArg List.head? heq) (by simp)
    have heq := Engine.itoa_inj hzero
    omega
  · intro hmem
    simp [requirementErrors] at hmem

/-- A proxy with a port or a host is not rejected for lacking one. -/
theorem specError_not_required {rt : Engine.Runtime} {grant : Option Engine.Grant}
    {p : Engine.ProxySpec} {error : Text}
    (hport : p.kind? = some Engine.Kind.tcp ∨ p.kind? = some Engine.Kind.udp ->
      0 < p.remotePort ∧ p.remotePort ≤ 65535)
    (hhosts : p.kind? = some Engine.Kind.vhost -> p.hosts ≠ [])
    (hknown : p.kind? ≠ none)
    (h : Engine.specError rt grant p = some error) : error ∉ requirementErrors := by
  unfold Engine.specError at h
  split at h
  · cases h
    decide
  · split at h
    · rename_i hgrant
      cases h
      rcases Option.bind_eq_some_iff.mp hgrant with ⟨v, -, hownership⟩
      exact ownershipError_not_required hport hownership
    · split at h
      · rename_i hkind
        rw [if_neg (Int.not_le.mpr (hport (Or.inl hkind)).left)] at h
        cases h
      · rename_i hkind
        rw [if_neg (Int.not_le.mpr (hport (Or.inr hkind)).left)] at h
        cases h
      · rename_i hkind
        rw [if_neg (hhosts hkind)] at h
        cases h
      · rename_i hkind
        exact absurd hkind hknown

section WellFormed

variable {pl : Platform} {st : Settings}

theorem buildConfig_tunnels {db : Db} {agentId : Nat} {now : Int} {cfg : Config}
    (h : buildConfig pl st db agentId now = some cfg) {p : Payload} (hp : p ∈ cfg.tunnels) :
    exists a t, db.agent? agentId = some a ∧ t ∈ db.tunnels ∧ t.agentId = agentId ∧
      p = sentAs st.publicDomain ((db.teamOf a).bind Team.subdomainLabel) t := by
  unfold buildConfig at h
  split at h
  · cases h
  · rename_i agent hagent
    cases h
    rcases List.mem_map.mp hp with ⟨t, ht, rfl⟩
    have hmem := List.mem_of_mem_filter ht
    split at hmem
    · cases hmem
    · rcases List.mem_filter.mp hmem with ⟨htunnel, howner⟩
      exact ⟨agent, t, hagent, htunnel, of_decide_eq_true howner, rfl⟩

variable (hports : st.PortNumbers)
include hports

/-- The proxy of a registrable tunnel is not rejected for what it lacks. -/
theorem Registrable.pushed {t : Tunnel} (h : Registrable st t) {host : Text}
    {label : Option Text} {localAddr : Payload -> Text} {rt : Engine.Runtime}
    {grant : Option Engine.Grant} {error : Text}
    (herror : Engine.specError rt grant (renderProxy localAddr (sentAs host label t)) =
      some error) : error ∉ requirementErrors := by
  have htype : (sentAs host label t).type = t.type := domainize_type host label _
  by_cases hdomain : t.type.domain = true
  · have hkind := (renderProxy_kind localAddr _).left (htype ▸ hdomain)
    refine specError_not_required ?_ (fun _ => ?_) (by rw [hkind]; simp) herror
    · rw [hkind]
      simp
    · have hrendered : (renderProxy localAddr (sentAs host label t)).hosts =
          (sentAs host label t).hosts := renderProxy_hosts hdomain
      rw [hrendered]
      exact sentAs_hosts_ne_nil hdomain (h.name hdomain)
  · rw [Bool.not_eq_true] at hdomain
    have hkind := (renderProxy_kind localAddr _).right (htype ▸ hdomain)
    rcases h.port hdomain with ⟨p, hp, hallowed⟩
    have hrendered : (renderProxy localAddr (sentAs host label t)).remotePort = p :=
      renderProxy_port hdomain hp
    refine specError_not_required (fun _ => ?_) ?_ ?_ herror
    · rw [hrendered]
      have hallow := hports.allowed
      have hpool := hports.pool
      rcases hallowed with hrange | hrange
      · omega
      · omega
    · rcases hkind with hkind | hkind
      · simp [hkind]
      · simp [hkind]
    · rcases hkind with hkind | hkind
      · simp [hkind]
      · simp [hkind]

theorem wellFormed_iff {db : Db} :
    WellFormed pl st db <-> forall t, t ∈ db.tunnels -> Registrable st t := by
  constructor
  · exact WellFormed.tunnels
  · intro htunnels
    constructor
    · exact htunnels
    · intro agentId now cfg localAddr hcfg proxy hproxy rt grant error herror
      rcases List.mem_map.mp hproxy with ⟨p, hp, rfl⟩
      rcases buildConfig_tunnels hcfg hp with ⟨a, t, -, ht, -, rfl⟩
      exact (htunnels t ht).pushed hports herror

end WellFormed

/-!
# What the requests leave
-/

/-- The request leaves the tunnel it writes with what its type needs. -/
def Call.Complete (db : Db) : Call -> Prop
  | Call.createTunnel _ _ body =>
      body.type.domain = true -> HasName body.subdomain body.customDomains
  | Call.updateTunnel tunnelId fields =>
      forall t, t ∈ db.tunnels -> t.id = tunnelId ->
        (t.type.domain = false -> fields.remotePort ≠ some none) ∧
          (t.type.domain = true ->
            HasName (fields.subdomain.getD t.subdomain) t.customDomains)
  | _ => True

instance (db : Db) (call : Call) : Decidable (call.Complete db) := by
  unfold Call.Complete
  split <;> infer_instance

/-- A request that is accepted is complete. -/
def Complete (pl : Platform) (st : Settings) (db : Db) : Action -> Prop
  | Action.request request =>
      (handle pl st db request).isOk = true -> request.call.Complete db
  | _ => True

instance (pl : Platform) (st : Settings) (db : Db) (a : Action) :
    Decidable (Complete pl st db a) := by
  unfold Complete
  split <;> infer_instance

/-- Every tunnel is registrable. -/
def AllRegistrable (st : Settings) (db : Db) : Prop :=
  forall t, t ∈ db.tunnels -> Registrable st t

section Requests

variable {pl : Platform} {st : Settings}

theorem Registrable.same {t u : Tunnel} (h : Registrable st u) (hsame : SameClaims t u) :
    Registrable st t := by
  constructor
  · rw [hsame.type, hsame.remotePort]
    exact h.port
  · rw [hsame.type, hsame.subdomain, hsame.customDomains]
    exact h.name

theorem AllRegistrable.of_rows {db db' : Db} (h : AllRegistrable st db)
    (hrows : forall t, t ∈ db'.tunnels -> exists u, u ∈ db.tunnels ∧ SameClaims t u) :
    AllRegistrable st db' := by
  intro t ht
  rcases hrows t ht with ⟨u, hu, hsame⟩
  exact (h u hu).same hsame

theorem sameClaims_refl (t : Tunnel) : SameClaims t t := ⟨rfl, rfl, rfl, rfl, rfl, rfl⟩

/-- A call that writes no tunnel; it may delete some. -/
def Call.Spares : Call -> Prop
  | Call.createTunnel _ _ _ | Call.updateTunnel _ _ => False
  | _ => True

theorem serve_tunnels {db db' : Db} {user : User} {call : Call} (hspares : call.Spares)
    (h : serve pl st db user call = Except.ok db') : db'.tunnels ⊆ db.tunnels := by
  cases call with
  | createTeam fresh name label quota =>
      simp only [serve, createTeam, bind_ok, pure_ok] at h
      rcases h with ⟨-, -, -, -, -, -, -, -, -, -, rfl⟩
      exact List.Subset.refl _
  | updateTeam teamId fields =>
      simp only [serve, updateTeam, bind_ok, pure_ok] at h
      rcases h with ⟨-, -, -, -, -, -, -, -, -, -, -, -, rfl⟩
      exact List.Subset.refl _
  | deleteTeam teamId =>
      simp only [serve, deleteTeam, bind_ok, pure_ok] at h
      rcases h with ⟨-, -, -, -, -, -, -, -, rfl⟩
      exact List.Subset.refl _
  | addMember teamId userId =>
      simp only [serve, addMember, bind_ok, pure_ok] at h
      rcases h with ⟨-, -, -, -, -, -, rfl⟩
      exact List.Subset.refl _
  | createUser fresh email role teamId =>
      simp only [serve, createUser, bind_ok, pure_ok] at h
      rcases h with ⟨-, -, -, -, -, -, rfl⟩
      exact List.Subset.refl _
  | updateUserRole userId role =>
      simp only [serve, updateUserRole, bind_ok, pure_ok] at h
      rcases h with ⟨-, -, -, -, -, -, rfl⟩
      exact List.Subset.refl _
  | deleteUser userId =>
      simp only [serve, deleteUser, bind_ok, pure_ok] at h
      rcases h with ⟨-, -, -, -, -, -, rfl⟩
      exact List.Subset.refl _
  | updateMe email =>
      simp only [serve, updateMe, bind_ok, pure_ok] at h
      rcases h with ⟨-, -, rfl⟩
      exact List.Subset.refl _
  | createAgent fresh name nodeId =>
      simp only [serve, createAgent, bind_ok, pure_ok] at h
      rcases h with ⟨name, -, -, -, -, -, -, -, rfl⟩
      exact List.Subset.refl _
  | updateAgent agentId name =>
      simp only [serve, updateAgent, bind_ok, pure_ok] at h
      rcases h with ⟨name, -, a, -, -, -, -, -, rfl⟩
      exact List.Subset.refl _
  | deleteAgent agentId =>
      simp only [serve, deleteAgent, bind_ok, pure_ok] at h
      rcases h with ⟨a, -, -, -, rfl⟩
      exact List.filter_subset_self _
  | createTunnel fresh agentId body => exact hspares.elim
  | updateTunnel tunnelId fields => exact hspares.elim
  | deleteTunnel tunnelId =>
      simp only [serve, deleteTunnel, bind_ok, pure_ok] at h
      rcases h with ⟨t, -, a, -, -, -, rfl⟩
      exact List.filter_subset_self _

theorem registrable_createTunnel {db db' : Db} {user : User} {fresh agentId : Nat}
    {body : TunnelBody} (h : AllRegistrable st db)
    (hcreate : createTunnel pl st db user fresh agentId body = Except.ok db') :
    AllRegistrable st db' <-> (Call.createTunnel fresh agentId body).Complete db := by
  rcases vetted_createTunnel hcreate with
    ⟨new, htunnels, htype, hsubdomain, hcustom, hvetted⟩
  constructor
  · intro hall hdomain
    have hnew := hall new (by rw [htunnels]; exact List.mem_append_right _ List.mem_cons_self)
    rw [← hsubdomain, ← hcustom]
    exact hnew.name (htype ▸ hdomain)
  · intro hcomplete t ht
    rw [htunnels] at ht
    rcases List.mem_append.mp ht with hold | hnew
    · exact h t hold
    · rw [List.mem_singleton.mp hnew]
      refine ⟨hvetted.port, fun hdomain => ?_⟩
      rw [hsubdomain, hcustom]
      exact hcomplete (htype ▸ hdomain)

theorem reassigned_cases {db : Db} {t : Tunnel} {field port : Option (Option Int)}
    (h : reassigned st db t field = Except.ok port) :
    port = field ∧ (forall p, field = some (some p) -> st.PortAllowed p) := by
  unfold reassigned at h
  split at h
  · simp only [bind_ok, pure_ok] at h
    rcases h with ⟨q, hq, rfl⟩
    have hallowed := allocatePort_allowed hq
    unfold allocatePort at hq
    simp only [bind_ok, pure_ok] at hq
    rcases hq with ⟨-, -, -, -, rfl⟩
    refine ⟨rfl, fun p hp => ?_⟩
    cases hp
    exact hallowed
  · rename_i hnot
    rw [pure_ok] at h
    exact ⟨h.symm, fun p hp => absurd hp (hnot p)⟩

theorem registrable_updateTunnel {db db' : Db} {user : User} {tunnelId : Nat}
    {fields : TunnelFields} (h : AllRegistrable st db)
    (hupdate : updateTunnel pl st db user tunnelId fields = Except.ok db') :
    AllRegistrable st db' <-> (Call.updateTunnel tunnelId fields).Complete db := by
  simp only [updateTunnel, bind_ok, pure_ok] at hupdate
  rcases hupdate with ⟨t, -, a, -, -, -, -, -, -, -, -, -, -, -, port, hport, -, -, rfl⟩
  rcases reassigned_cases hport with ⟨rfl, hallowed⟩
  constructor
  · intro hall u hu hid
    have hnew := hall _ (rewritten_mem hu hid)
    refine ⟨fun hdomain hnull => ?_, fun hdomain => hnew.name hdomain⟩
    rcases hnew.port hdomain with ⟨p, hp, -⟩
    have hset : fields.remotePort.getD u.remotePort = some p := hp
    rw [hnull] at hset
    cases hset
  · intro hcomplete u hu
    rcases mem_rewriteRow hu with ⟨old, hold, ⟨hid, rfl⟩ | ⟨-, rfl⟩⟩
    · rcases hcomplete old hold hid with ⟨hport, hname⟩
      refine ⟨fun hdomain => ?_, hname⟩
      show exists p, fields.remotePort.getD old.remotePort = some p ∧ st.PortAllowed p
      cases hfield : fields.remotePort with
      | none => exact (h old hold).port hdomain
      | some port =>
          cases port with
          | none => exact absurd hfield (hport hdomain)
          | some p => exact ⟨p, rfl, hallowed p hfield⟩
    · exact h u hold

theorem complete_of_spares {db : Db} {call : Call} (h : call.Spares) : call.Complete db := by
  cases call with
  | createTunnel fresh agentId body => exact h.elim
  | updateTunnel tunnelId fields => exact h.elim
  | _ => trivial

theorem registrable_serve {db db' : Db} {user : User} {call : Call}
    (h : AllRegistrable st db) (hserve : serve pl st db user call = Except.ok db') :
    AllRegistrable st db' <-> call.Complete db := by
  have hspared : call.Spares -> (AllRegistrable st db' <-> call.Complete db) := by
    intro hspares
    refine iff_of_true (h.of_rows fun t ht => ?_) (complete_of_spares hspares)
    exact ⟨t, serve_tunnels hspares hserve ht, sameClaims_refl t⟩
  cases call with
  | createTunnel fresh agentId body => exact registrable_createTunnel h hserve
  | updateTunnel tunnelId fields => exact registrable_updateTunnel h hserve
  | _ => exact hspared trivial

theorem registrable_pollOnce {db : Db} (h : AllRegistrable st db) (traffic : Traffic) :
    AllRegistrable st (pollOnce traffic db) := by
  refine h.of_rows fun t ht => ?_
  rcases List.mem_map.mp ht with ⟨u, hu, rfl⟩
  refine ⟨u, hu, ?_⟩
  unfold Tunnel.counted
  split <;> exact ⟨rfl, rfl, rfl, rfl, rfl, rfl⟩

theorem seedDefaultTeam_tunnels {db db' : Db} {fresh : Nat}
    (h : seedDefaultTeam db fresh = some db') : db'.tunnels = db.tunnels := by
  unfold seedDefaultTeam at h
  simp only at h
  split at h
  · cases h
    rfl
  · split at h
    · cases h
    · cases h
      rfl

/-- A step keeps the tunnels registrable exactly if an accepted request is complete. -/
theorem registrable_step {db db' : Db} {a : Action} (h : AllRegistrable st db)
    (hstep : step pl st db a = some db') :
    AllRegistrable st db' <-> Complete pl st db a := by
  cases a with
  | request request =>
      simp only [step] at hstep
      split at hstep
      · cases hhandle : handle pl st db request with
        | error e =>
            rw [hhandle] at hstep
            cases hstep
            refine iff_of_true h fun hok => ?_
            rw [hhandle] at hok
            cases hok
        | ok served =>
            rw [hhandle] at hstep
            cases hstep
            have hhandled := hhandle
            simp only [handle, bind_ok] at hhandled
            rcases hhandled with ⟨-, -, user, -, hserve⟩
            rw [registrable_serve h hserve]
            have hok : (handle pl st db request).isOk = true := by
              rw [hhandle]
              rfl
            exact ⟨fun hcomplete _ => hcomplete, fun hcomplete => hcomplete hok⟩
      · cases hstep
  | poll traffic =>
      cases hstep
      exact iff_of_true (registrable_pollOnce h traffic) trivial
  | restart fresh =>
      simp only [step] at hstep
      split at hstep
      · refine iff_of_true (h.of_rows fun t ht => ?_) trivial
        rw [seedDefaultTeam_tunnels hstep] at ht
        exact ⟨t, ht, sameClaims_refl t⟩
      · cases hstep
  | bootstrap fresh email =>
      simp only [step] at hstep
      split at hstep
      · cases hstep
        refine iff_of_true (h.of_rows fun t ht => ⟨t, ?_, sameClaims_refl t⟩) trivial
        unfold bootstrapAdmin at ht
        split at ht <;> exact ht
      · cases hstep

theorem allRegistrable_emptyDb : AllRegistrable st emptyDb := by
  intro t ht
  cases ht

/-- The rows of the demo, where their port is one the panel gives out. -/
theorem allRegistrable_demoDb (hport : st.PortAllowed 12022) : AllRegistrable st demoDb := by
  intro t ht
  rcases List.mem_cons.mp ht with rfl | ht
  · exact ⟨nofun, fun _ => Or.inl (by decide)⟩
  · rw [List.mem_singleton.mp ht]
    exact ⟨fun _ => ⟨12022, rfl, hport⟩, nofun⟩

/--
Along a run of the panel from a database whose tunnels are registrable, the tunnels stay
well-formed exactly when every accepted request leaves the tunnel it writes complete.
-/
theorem wellFormed_iff_complete (hports : st.PortNumbers) {db t : Db} {actions : List Action}
    (h : forall u, u ∈ db.tunnels -> Registrable st u)
    (hexec : (machine pl st).exec db actions = some t) :
    (machine pl st).Always (WellFormed pl st) db actions <->
      (machine pl st).Obeys (Complete pl st) db actions :=
  Machine.always_iff_obeys (I := AllRegistrable st)
    (fun _ hall => (wellFormed_iff hports).mpr hall)
    (fun _ _ _ hall hcomplete hstep => (registrable_step hall hstep).mpr hcomplete)
    (fun _ _ _ hall hincomplete hstep hformed =>
      hincomplete ((registrable_step hall hstep).mp ((wellFormed_iff hports).mp hformed)))
    h hexec

end Requests

/-!
# Two updates

A team admin publishes a site and changes its subdomain, or clears it.
-/

def edited (fields : TunnelFields) : List Action :=
  setUp "c".toList ++ publish 2 1 (web "foo".toList) ++
    [Action.request ⟨2, Role.teamAdmin, Call.updateTunnel 1 fields⟩]

def renamedSite : List Action := edited ⟨none, none, some (some "bar".toList), none⟩

theorem wellFormed_renamedSite :
    ((machine asciiPlatform deployed).exec emptyDb renamedSite).isSome = true ∧
      (machine asciiPlatform deployed).Always (WellFormed asciiPlatform deployed) emptyDb
        renamedSite := by
  have hruns : ((machine asciiPlatform deployed).exec emptyDb renamedSite).isSome = true := by
    decide +kernel
  have hobeys : (machine asciiPlatform deployed).Obeys (Complete asciiPlatform deployed)
      emptyDb renamedSite := by
    decide +kernel
  rcases Option.isSome_iff_exists.mp hruns with ⟨t, hexec⟩
  exact ⟨hruns, (wellFormed_iff_complete ⟨by decide, by decide⟩ allRegistrable_emptyDb
    hexec).mpr hobeys⟩

def clearedSite : List Action := edited ⟨none, none, some none, none⟩

/-- The site is pushed without a domain, and the engine rejects it. -/
theorem rejected_clearedSite :
    exists db cfg, (machine asciiPlatform deployed).exec emptyDb clearedSite = some db ∧
      buildConfig asciiPlatform deployed db 1 0 = some cfg ∧
      (renderRctc (fun _ => "127.0.0.1:80".toList) cfg.tunnels).map
        (Engine.specError nodeRuntime none) = [some "no domains".toList] ∧
      ¬ WellFormed asciiPlatform deployed db := by
  have hfinal : ((machine asciiPlatform deployed).exec emptyDb clearedSite).bind (fun db =>
      (buildConfig asciiPlatform deployed db 1 0).map fun cfg =>
        (renderRctc (fun _ => "127.0.0.1:80".toList) cfg.tunnels).map
          (Engine.specError nodeRuntime none)) = some [some "no domains".toList] := by
    decide +kernel
  rcases Option.bind_eq_some_iff.mp hfinal with ⟨db, hexec, hpushed⟩
  rcases Option.map_eq_some_iff.mp hpushed with ⟨cfg, hcfg, hanswers⟩
  refine ⟨db, cfg, hexec, hcfg, hanswers, fun hformed => ?_⟩
  have hmem : some "no domains".toList ∈
      (renderRctc (fun _ => "127.0.0.1:80".toList) cfg.tunnels).map
        (Engine.specError nodeRuntime none) := by
    rw [hanswers]
    exact List.mem_cons_self
  rcases List.mem_map.mp hmem with ⟨proxy, hproxy, herror⟩
  exact hformed.pushed 1 0 cfg _ hcfg proxy hproxy nodeRuntime none _ herror (by decide)

end Api

end Panel
end RcTunnel
