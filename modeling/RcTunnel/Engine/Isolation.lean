import RcTunnel.Engine.Steps

/-!
# Isolation between identities

With grants enforced and every connection authenticated, whatever is registered
lies within a grant of the identity that registered it, no identity takes a host
from another, and a work connection only serves the identity it authenticates.

The invariant follows the state component by component: clients change only by
keeping their identity and checking each grant, the shared state changes only by
closers and registrations.
-/

namespace RcTunnel
namespace Engine

open Foundation

namespace Server

/-!
# Isolation
-/

section Isolation

variable (cfg : Config) (rt : Runtime) (foreign : Kind -> Int -> Bool)

/-- A client of this identity, as its certificate says. -/
def State.Owns (s : State) (c : Nat) (cn : Text) : Prop :=
  exists cl, s.clients c = some cl ∧ cl.id = cn ∧ cl.cert = cn

structure Isolated (s : State) : Prop where
  /-- every host was registered under a grant of its client that lists it -/
  hosts : forall host ref, s.shared.vhosts host = some ref ->
    exists cn, s.Owns ref.client cn ∧
      HostGranted rt cfg.grantSecret cn ref.under.grant ref.under.now host
  /-- every public socket was opened under a grant of its client that lists it -/
  sockets : forall k, k ∈ s.shared.sockets ->
    exists cn, s.Owns k.client cn ∧
      PortGranted rt cfg.grantSecret cn k.under.grant k.under.now k.port
  /-- no step replaces a host entry by one of another identity -/
  kept : forall a t host ref ref', step cfg rt foreign s a = some t ->
    s.shared.vhosts host = some ref -> t.shared.vhosts host = some ref' ->
    exists cn, s.Owns ref.client cn ∧ t.Owns ref'.client cn
  /-- a rejected proxy changes no host entry -/
  rejected : forall c cl p, s.clients c = some cl ->
    (register rt foreign s.identity (cl.registrar c) p s.shared).2.2.ok = false ->
    (register rt foreign s.identity (cl.registrar c) p s.shared).1.vhosts =
      s.shared.vhosts
  /-- a work connection handed over authenticates the pairing's client -/
  handed : forall work connId, (work, connId) ∈ s.handed ->
    exists pr, s.pairings connId = some pr ∧ s.Owns pr.client work.cert

/-- Control and work connections present a verified certificate. -/
def Authenticated (_ : State) : Action -> Prop
  | Action.hello _ cert _ _ _ _ _ _ _ => cert ≠ []
  | Action.traffic (TrafficAction.work _ cert _ _ _) => cert ≠ []
  | _ => True

instance (s : State) : forall a, Decidable (Authenticated s a)
  | Action.hello _ cert _ _ _ _ _ _ _ => inferInstanceAs (Decidable (cert ≠ []))
  | Action.traffic (TrafficAction.work _ cert _ _ _) =>
      inferInstanceAs (Decidable (cert ≠ []))
  | Action.traffic (TrafficAction.accept _ _)
  | Action.traffic (TrafficAction.vhost _ _)
  | Action.traffic (TrafficAction.forget _)
  | Action.traffic (TrafficAction.handoff _)
  | Action.traffic (TrafficAction.receive _)
  | Action.handler _ _ => inferInstanceAs (Decidable True)

structure ClientInv (cl : Client) : Prop where
  id : cl.id = cl.cert
  named : cl.cert ≠ []
  checked : cl.Checked cfg rt

/-- The pairing exists, and the certificate is the one of its client. -/
def State.Claimed (s : State) (connId cert : Text) : Prop :=
  exists pr, s.pairings connId = some pr ∧ s.identity pr.client = some cert

structure Inv (s : State) : Prop where
  clients : forall c cl, s.clients c = some cl -> ClientInv cfg rt cl
  hosts : forall host ref, s.shared.vhosts host = some ref ->
    exists cn, s.identity ref.client = some cn ∧
      HostGranted rt cfg.grantSecret cn ref.under.grant ref.under.now host
  sockets : forall k, k ∈ s.shared.sockets ->
    exists cn, s.identity k.client = some cn ∧
      PortGranted rt cfg.grantSecret cn k.under.grant k.under.now k.port
  pairings : forall connId pr, s.pairings connId = some pr ->
    s.identity pr.client = some pr.owner
  works : forall w work, s.works w = some work -> s.Claimed work.connId work.cert
  handed : forall work connId, (work, connId) ∈ s.handed ->
    s.Claimed connId work.cert

end Isolation

section Proof

variable {cfg : Config} {rt : Runtime} {foreign : Kind -> Int -> Bool}

theorem inv_initial : Inv cfg rt initial :=
  { clients := by simp [initial]
    hosts := by simp [initial]
    sockets := by simp [initial]
    pairings := by simp [initial]
    works := by simp [initial]
    handed := by simp [initial] }

theorem Inv.owns {s : State} (h : Inv cfg rt s) {c : Nat} {cn : Text}
    (hid : s.identity c = some cn) : s.Owns c cn := by
  unfold State.identity at hid
  cases hcl : s.clients c with
  | none => simp [hcl] at hid
  | some cl =>
      have hcn : cl.id = cn := by simpa [hcl] using hid
      exact ⟨cl, hcl, hcn, (h.clients c cl hcl).id.symm.trans hcn⟩

/-- An enforced grant check leaves a verified grant. -/
theorem checked_grant (hsecret : cfg.grantSecret ≠ []) {cl : Client}
    (h : cl.Checked cfg rt) :
    exists g, cl.grant = some g ∧
      verify rt cfg.grantSecret cl.under.grant cl.id cl.under.now = Except.ok g := by
  unfold Client.Checked checkGrant at h
  rw [if_neg hsecret] at h
  split at h
  · cases h
  · rename_i g hverify
    exact ⟨g, (Except.ok.inj h).symm, hverify⟩

/-!
Each component of the invariant is kept on its own.
-/

theorem clients_step {s t : State} {a : Action} (h : Inv cfg rt s)
    (hG : Authenticated s a) (hstep : step cfg rt foreign s a = some t) :
    forall c cl, t.clients c = some cl -> ClientInv cfg rt cl := by
  intro c cl hcl
  rcases step_clients hstep c with hrel |
    ⟨cert, _, _, _, _, _, _, _, new, rfl, _, hnew, hadmit⟩
  · rw [hcl] at hrel
    generalize hold : s.clients c = old at hrel
    cases hrel with
    | some hfollows =>
        have hinv := h.clients c _ hold
        exact
          { id := by rw [hfollows.id, hfollows.cert, hinv.id]
            named := by rw [hfollows.cert]; exact hinv.named
            checked := hfollows.checked hinv.checked }
  · rw [hnew] at hcl
    cases hcl
    have hcert : cert ≠ [] := hG
    rcases admitHello_ok hadmit with ⟨g, hcheck, rfl⟩
    exact
      { id := by simp [identify, hcert]
        named := hcert
        checked := hcheck }

theorem hosts_step (hsecret : cfg.grantSecret ≠ []) {s t : State} {a : Action}
    (h : Inv cfg rt s) (hstep : step cfg rt foreign s a = some t) :
    forall host ref, t.shared.vhosts host = some ref ->
      exists cn, t.identity ref.client = some cn ∧
        HostGranted rt cfg.grantSecret cn ref.under.grant ref.under.now host := by
  intro host ref href
  have hold : s.shared.vhosts host = some ref -> exists cn,
      t.identity ref.client = some cn ∧
        HostGranted rt cfg.grantSecret cn ref.under.grant ref.under.now host := by
    intro hs
    rcases h.hosts host ref hs with ⟨cn, hcn, hgranted⟩
    exact ⟨cn, identity_of_step hstep hcn, hgranted⟩
  rcases step_shared hstep with heq | ⟨c, cl, hcl, ⟨closer, heq⟩ | ⟨p, heq⟩⟩
  · exact hold (heq ▸ href)
  · rw [heq] at href
    exact hold (Closer.run_vhosts href)
  · rw [heq] at href
    rcases register_vhosts href with hs | ⟨rfl, _, ⟨listed, _, rfl, hallow⟩, _⟩
    · exact hold hs
    · have hinv := h.clients c cl hcl
      rcases checked_grant hsecret hinv.checked with ⟨g, hg, hverify⟩
      have hid : s.identity c = some cl.id := by simp [State.identity, hcl]
      refine ⟨cl.id, identity_of_step hstep hid, ?_⟩
      exact hostGranted_of_allowHost hverify (hallow g hg)

theorem sockets_step (hsecret : cfg.grantSecret ≠ []) {s t : State} {a : Action}
    (h : Inv cfg rt s) (hstep : step cfg rt foreign s a = some t) :
    forall k, k ∈ t.shared.sockets ->
      exists cn, t.identity k.client = some cn ∧
        PortGranted rt cfg.grantSecret cn k.under.grant k.under.now k.port := by
  intro k hk
  have hold : k ∈ s.shared.sockets -> exists cn,
      t.identity k.client = some cn ∧
        PortGranted rt cfg.grantSecret cn k.under.grant k.under.now k.port := by
    intro hs
    rcases h.sockets k hs with ⟨cn, hcn, hgranted⟩
    exact ⟨cn, identity_of_step hstep hcn, hgranted⟩
  rcases step_shared hstep with heq | ⟨c, cl, hcl, ⟨closer, heq⟩ | ⟨p, heq⟩⟩
  · exact hold (heq ▸ hk)
  · rw [heq] at hk
    exact hold (Closer.run_sockets hk)
  · rw [heq] at hk
    rcases register_sockets hk with hs | ⟨hclient, hunder, _, _, hallow⟩
    · exact hold hs
    · have hinv := h.clients c cl hcl
      rcases checked_grant hsecret hinv.checked with ⟨g, hg, hverify⟩
      have hid : s.identity c = some cl.id := by simp [State.identity, hcl]
      rw [hclient, hunder]
      refine ⟨cl.id, identity_of_step hstep hid, ?_⟩
      exact portGranted_of_allowPort hverify (hallow g hg)

/-- A pairing keeps its client and its owner. -/
structure SamePairing (old new : Pairing) : Prop where
  client : new.client = old.client
  owner : new.owner = old.owner

/-- The name holds the same pairing as before, or a new one of a client. -/
def PairingStep (s t : State) (connId : Text) : Prop :=
  Option.Rel SamePairing (s.pairings connId) (t.pairings connId) ∨
    exists pr, s.pairings connId = none ∧ t.pairings connId = some pr ∧
      s.identity pr.client = some pr.owner

theorem pairingStep_of_eq {s t : State} {connId : Text}
    (h : t.pairings = s.pairings) : PairingStep s t connId := by
  unfold PairingStep
  rw [h]
  apply Or.inl
  cases s.pairings connId with
  | none => exact Option.Rel.none
  | some pr => exact Option.Rel.some ⟨rfl, rfl⟩

theorem pairingStep_of_update {s t : State} {name connId : Text} {old new : Pairing}
    (hold : s.pairings name = some old)
    (h : t.pairings = Function.update s.pairings name (some new))
    (hsame : SamePairing old new) : PairingStep s t connId := by
  by_cases hname : connId = name
  · subst hname
    apply Or.inl
    rw [h, Function.update_self, hold]
    exact Option.Rel.some hsame
  · unfold PairingStep
    rw [h, Function.update_of_ne hname]
    exact pairingStep_of_eq (s := s) (t := s) rfl

theorem pairingStep_of_paired {s t : State} {c : Nat} {cl : Client} {name connId : Text}
    {new : Pairing} (hcl : s.clients c = some cl) (hfree : s.pairings name = none)
    (h : t.pairings = Function.update s.pairings name (some new))
    (hclient : new.client = c) (howner : new.owner = cl.id) :
    PairingStep s t connId := by
  by_cases hname : connId = name
  · subst hname
    refine Or.inr ⟨new, hfree, ?_, ?_⟩
    · rw [h, Function.update_self]
    · rw [hclient, howner]
      simp [State.identity, hcl]
  · unfold PairingStep
    rw [h, Function.update_of_ne hname]
    exact pairingStep_of_eq (s := s) (t := s) rfl

theorem step_pairings {s t : State} {a : Action}
    (h : step cfg rt foreign s a = some t) (connId : Text) :
    PairingStep s t connId := by
  cases a with
  | hello c cert token grant clientId fresh revoked proxies now =>
      rcases step_hello h with rfl | ⟨cl, _, rfl, _⟩
      · exact pairingStep_of_eq rfl
      · exact pairingStep_of_eq rfl
  | handler c action =>
      rcases step_handler h with ⟨cl, _, hstep⟩
      exact pairingStep_of_eq (handlerStep_frame hstep).left
  | traffic action =>
      cases trafficStep_cases h with
      | accept _ hcl hfree => exact pairingStep_of_paired hcl hfree rfl rfl rfl
      | vhost _ hcl hfree => exact pairingStep_of_paired hcl hfree rfl rfl rfl
      | forget hold => exact pairingStep_of_update hold rfl ⟨rfl, rfl⟩
      | handoff _ hold _ => exact pairingStep_of_update hold rfl ⟨rfl, rfl⟩
      | receive hold => exact pairingStep_of_update hold rfl ⟨rfl, rfl⟩
      | unrouted | refused | unknown | foreign | work | late => exact pairingStep_of_eq rfl

theorem pairings_step {s t : State} {a : Action} (h : Inv cfg rt s)
    (hstep : step cfg rt foreign s a = some t) :
    forall connId pr, t.pairings connId = some pr ->
      t.identity pr.client = some pr.owner := by
  intro connId pr hpr
  rcases step_pairings hstep connId with hrel | ⟨new, _, hnew, hid⟩
  · rw [hpr] at hrel
    generalize hold : s.pairings connId = old at hrel
    cases hrel with
    | some hsame =>
        rw [hsame.client, hsame.owner]
        exact identity_of_step hstep (h.pairings connId _ hold)
  · rw [hnew] at hpr
    cases hpr
    exact identity_of_step hstep hid

theorem claimed_step {s t : State} {a : Action}
    (hstep : step cfg rt foreign s a = some t) {connId cert : Text}
    (h : s.Claimed connId cert) : t.Claimed connId cert := by
  rcases h with ⟨pr, hpr, hid⟩
  rcases step_pairings hstep connId with hrel | ⟨new, hnone, _⟩
  · rw [hpr] at hrel
    generalize hnew : t.pairings connId = new at hrel
    cases hrel with
    | some hsame =>
        refine ⟨_, hnew, ?_⟩
        rw [hsame.client]
        exact identity_of_step hstep hid
  · rw [hpr] at hnone
    cases hnone

/-- New work connections belong to the client of their pairing; new hand-overs were
work connections. -/
structure WorksStep (s t : State) : Prop where
  works : forall w work, t.works w = some work ->
    s.works w = some work ∨ s.Claimed work.connId work.cert
  handed : forall work connId, (work, connId) ∈ t.handed ->
    (work, connId) ∈ s.handed ∨
      exists w, s.works w = some work ∧ connId = work.connId

theorem worksStep_of_eq {s t : State} (hworks : t.works = s.works)
    (hhanded : t.handed = s.handed) : WorksStep s t where
  works := by
    intro w work hwork
    exact Or.inl (hworks ▸ hwork)
  handed := by
    intro work connId hmem
    exact Or.inl (hhanded ▸ hmem)

/-- The owner check, between a client and a certificate that are both named. -/
theorem Inv.claimed {s : State} (h : Inv cfg rt s) {connId cert : Text} {pr : Pairing}
    (hpr : s.pairings connId = some pr) (hcert : cert ≠ [])
    (hcheck : pr.owner ≠ [] -> cert ≠ [] -> cert = pr.owner) : s.Claimed connId cert := by
  have hid := h.pairings connId pr hpr
  have howner : pr.owner ≠ [] := by
    rcases h.owns hid with ⟨cl, hcl, _, hcn⟩
    rw [← hcn]
    exact (h.clients pr.client cl hcl).named
  refine ⟨pr, hpr, ?_⟩
  rw [hid, hcheck howner hcert]

theorem worksStep_traffic {s t : State} {a : TrafficAction} (h : Inv cfg rt s)
    (hG : Authenticated s (Action.traffic a)) (hstep : TrafficStep cfg rt s a t) :
    WorksStep s t := by
  cases hstep with
  | work _ hpr _ hcheck =>
      refine ⟨?_, fun _ _ hmem => Or.inl hmem⟩
      intro i work hwork
      rcases lookup_started hwork with ⟨_, rfl⟩ | ⟨_, hold⟩
      · exact Or.inr (h.claimed hpr hG hcheck)
      · exact Or.inl hold
  | late => exact ⟨fun _ _ hw => Or.inl (lookup_ended hw).right, fun _ _ hmem => Or.inl hmem⟩
  | handoff hwork _ _ =>
      refine ⟨fun _ _ hw => Or.inl (lookup_ended hw).right, ?_⟩
      intro other connId hmem
      rcases List.mem_cons.mp hmem with heq | hmem
      · cases heq
        exact Or.inr ⟨_, hwork, rfl⟩
      · exact Or.inl hmem
  | accept | unrouted | vhost | forget | refused | unknown | foreign | receive =>
      exact worksStep_of_eq rfl rfl

theorem step_works {s t : State} {a : Action} (h : Inv cfg rt s)
    (hG : Authenticated s a) (hstep : step cfg rt foreign s a = some t) :
    WorksStep s t := by
  cases a with
  | hello c cert token grant clientId fresh revoked proxies now =>
      rcases step_hello hstep with rfl | ⟨cl, _, rfl, _⟩
      · exact worksStep_of_eq rfl rfl
      · exact worksStep_of_eq rfl rfl
  | handler c action =>
      rcases step_handler hstep with ⟨cl, _, hcase⟩
      exact worksStep_of_eq (handlerStep_frame hcase).right.left
        (handlerStep_frame hcase).right.right
  | traffic action => exact worksStep_traffic h hG (trafficStep_cases hstep)

theorem inv_step (hsecret : cfg.grantSecret ≠ []) {s t : State} {a : Action}
    (h : Inv cfg rt s) (hG : Authenticated s a)
    (hstep : step cfg rt foreign s a = some t) : Inv cfg rt t := by
  have hworks := step_works h hG hstep
  refine
    { clients := clients_step h hG hstep
      hosts := hosts_step hsecret h hstep
      sockets := sockets_step hsecret h hstep
      pairings := pairings_step h hstep
      works := ?_
      handed := ?_ }
  · intro w work hwork
    rcases hworks.works w work hwork with hold | hclaimed
    · exact claimed_step hstep (h.works w work hold)
    · exact claimed_step hstep hclaimed
  · intro work connId hmem
    rcases hworks.handed work connId hmem with hold | ⟨w, hold, rfl⟩
    · exact claimed_step hstep (h.handed work connId hold)
    · exact claimed_step hstep (h.works w work hold)

theorem owns_of_step {s t : State} {a : Action}
    (hstep : step cfg rt foreign s a = some t) {c : Nat} {cn : Text}
    (h : s.Owns c cn) : t.Owns c cn := by
  rcases h with ⟨cl, hcl, hid, hcert⟩
  rcases step_clients hstep c with hrel | ⟨_, _, _, _, _, _, _, _, _, _, hnone, _⟩
  · rw [hcl] at hrel
    generalize hnew : t.clients c = new at hrel
    cases hrel with
    | some hfollows =>
        exact ⟨_, hnew, hfollows.id.trans hid, hfollows.cert.trans hcert⟩
  · rw [hcl] at hnone
    cases hnone

/-- An entry that is replaced belonged to the same identity. -/
theorem kept_of_step {s t : State} {a : Action}
    (hstep : step cfg rt foreign s a = some t) {host : Text} {ref ref' : ProxyRef}
    (hs : s.shared.vhosts host = some ref) (ht : t.shared.vhosts host = some ref') :
    ref' = ref ∨ exists c id, ref'.client = c ∧ s.identity c = some id ∧
      s.identity ref.client = some id := by
  have hsame (hold : s.shared.vhosts host = some ref') : ref' = ref :=
    Option.some.inj (hold.symm.trans hs)
  rcases step_shared hstep with heq | ⟨c, cl, hcl, ⟨closer, heq⟩ | ⟨p, heq⟩⟩
  · exact Or.inl (hsame (heq ▸ ht))
  · rw [heq] at ht
    exact Or.inl (hsame (Closer.run_vhosts ht))
  · rw [heq] at ht
    rcases register_vhosts ht with hold | ⟨rfl, _, _, hfree⟩
    · exact Or.inl (hsame hold)
    · exact Or.inr ⟨c, cl.id, rfl, by simp [State.identity, hcl], hfree ref hs⟩

theorem Inv.isolated {s : State} (h : Inv cfg rt s) :
    Isolated cfg rt foreign s := by
  refine
    { hosts := ?_
      sockets := ?_
      kept := ?_
      rejected := ?_
      handed := ?_ }
  · intro host ref href
    rcases h.hosts host ref href with ⟨cn, hid, hgranted⟩
    exact ⟨cn, h.owns hid, hgranted⟩
  · intro k hk
    rcases h.sockets k hk with ⟨cn, hid, hgranted⟩
    exact ⟨cn, h.owns hid, hgranted⟩
  · intro a t host ref ref' hstep hs ht
    rcases kept_of_step hstep hs ht with rfl | ⟨c, id, rfl, hid', hid⟩
    · rcases h.hosts host ref' hs with ⟨cn, hid, _⟩
      exact ⟨cn, h.owns hid, owns_of_step hstep (h.owns hid)⟩
    · exact ⟨id, h.owns hid, owns_of_step hstep (h.owns hid')⟩
  · intro c cl p _ hrejected
    rw [(register_rejected hrejected).left]
  · intro work connId hmem
    rcases h.handed work connId hmem with ⟨pr, hpr, hid⟩
    exact ⟨pr, hpr, h.owns hid⟩

/--
With grants enforced, every state of every run of authenticated connections is
isolated.
-/
theorem isolated_of_authenticated (hsecret : cfg.grantSecret ≠ []) {s : State}
    {actions : List Action} (hinit : (machine cfg rt foreign).init s)
    (hobeys : (machine cfg rt foreign).Obeys Authenticated s actions) :
    (machine cfg rt foreign).Always (Isolated cfg rt foreign) s actions := by
  rcases hinit with rfl
  have hinv := Machine.always_of_obeys (M := machine cfg rt foreign) (I := Inv cfg rt)
    (fun _ _ _ h hG hstep => inv_step hsecret h hG hstep) inv_initial hobeys
  exact hinv.imp fun _ h => h.isolated

end Proof

/-- The signed part of a grant, and its signature under {lit}`s3cret`. -/
def grantPayload : Text := "v1|agent.7|2000000000|2222|news.example.com".toList

def grantSignature : Text := "O0XuEi3QDVaEWn12LbrsGiTIS-C3mQOykNFNBULDJao".toList

def signingRuntime : Runtime where
  hmac secret msg :=
    if secret = "s3cret".toList ∧ msg = grantPayload then grantSignature else []
  unicodeLower c := c
  listenError := "bind: address already in use".toList

def newsProxy : ProxySpec where
  name := "t1".toList
  type := "http".toList
  localAddr := "127.0.0.1:80".toList
  remotePort := 0
  subdomain := []
  customDomains := ["News.Example.com".toList]

/-- A client registers its host, is asked for a work connection, and dials it. -/
def servedRequest : List Action :=
  [Action.hello 0 "agent.7".toList [] (grantPayload ++ '|' :: grantSignature) [] []
      false [newsProxy] 1900000000,
    Action.handler 0 HandlerAction.evict, Action.handler 0 HandlerAction.sweepDone,
    Action.handler 0 HandlerAction.register, Action.handler 0 HandlerAction.applied,
    Action.handler 0 (HandlerAction.reply true),
    Action.traffic (TrafficAction.vhost "news.example.com:443".toList "c1".toList),
    Action.traffic (TrafficAction.work 0 "agent.7".toList [] "c1".toList false),
    Action.traffic (TrafficAction.handoff 0)]

theorem isolated_servedRequest :
    (machine ⟨[], "s3cret".toList⟩ signingRuntime fun _ _ => false).Always
      (Isolated ⟨[], "s3cret".toList⟩ signingRuntime fun _ _ => false) initial
      servedRequest :=
  isolated_of_authenticated (by decide) rfl (by decide +kernel)

/-- The run hands the work connection over. -/
example :
    ((machine ⟨[], "s3cret".toList⟩ signingRuntime fun _ _ => false).exec initial
      servedRequest).map State.handed =
        some [(⟨"agent.7".toList, "c1".toList⟩, "c1".toList)] := by
  decide +kernel

end Server

end Engine
end RcTunnel
