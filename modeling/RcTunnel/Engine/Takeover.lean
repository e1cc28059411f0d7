import Mathlib.Data.List.Forall2
import RcTunnel.Engine.Sockets

/-!
# Taking an identity over

A new connection of an identity evicts the one before it and registers its own
proxies while that one cleans up.  Hosts pass from one to the other in any order,
but a socket opens only once the old one on its port is closed.
-/

namespace RcTunnel
namespace Engine

open Foundation

namespace Server

/-- The actions of {lit}`applyUpdate`. -/
def HandlerAction.Applies : HandlerAction -> Prop
  | HandlerAction.sweep _ | HandlerAction.sweepDone | HandlerAction.close
  | HandlerAction.register | HandlerAction.applied => True
  | HandlerAction.evict | HandlerAction.reply _ | HandlerAction.update _ _ _
  | HandlerAction.disconnect | HandlerAction.leave | HandlerAction.cleanup _
  | HandlerAction.cleanupDone => False

/-- The actions of a connection that ends: it may still answer its last message. -/
def HandlerAction.Ends : HandlerAction -> Prop
  | HandlerAction.reply _ | HandlerAction.disconnect | HandlerAction.leave
  | HandlerAction.cleanup _ | HandlerAction.close | HandlerAction.cleanupDone => True
  | HandlerAction.evict | HandlerAction.sweep _ | HandlerAction.sweepDone
  | HandlerAction.register | HandlerAction.applied | HandlerAction.update _ _ _ => False

/-- One connection ends while another applies its hello. -/
def Contending (c₁ c₂ : Nat) : Action -> Prop
  | Action.handler c action => (c = c₁ ∧ action.Ends) ∨ (c = c₂ ∧ action.Applies)
  | Action.traffic _ => True
  | Action.hello _ _ _ _ _ _ _ _ _ => False

/-- The hello of one connection evicts another of its identity. -/
structure Evicts (cfg : Config) (rt : Runtime) (foreign : Kind -> Int -> Bool)
    (c₁ c₂ : Nat) (cl : Client) (proxies : List ProxySpec) (s s₀ : State) : Prop where
  reachable : (machine cfg rt foreign).Reachable s
  old : s.current cl.id = some c₁
  new : s.clients c₂ = some cl
  task : cl.task = Task.evict proxies
  step : (machine cfg rt foreign).step s (Action.handler c₂ HandlerAction.evict) = some s₀

section Takeover

variable (rt : Runtime) (foreign : Kind -> Int -> Bool)

/-- The proxy passes the grant check, and no other identity holds its port or one of
its hosts. -/
structure Eligible (s : State) (cl : Client) (p : ProxySpec) : Prop where
  granted : Granted rt cl.grant p
  port : forall kind, p.kind? = some kind -> kind ≠ Kind.vhost ->
    forall k, k ∈ s.shared.sockets -> k.kind = kind -> k.port = p.remotePort ->
      s.identity k.client = some cl.id
  hosts : s.shared.HostsFree rt s.identity cl.id p

instance (s : State) (cl : Client) (p : ProxySpec) : Decidable (Eligible rt s cl p) :=
  decidable_of_iff (Granted rt cl.grant p ∧
      (forall kind, kind ∈ p.kind? -> kind ≠ Kind.vhost ->
        forall k, k ∈ s.shared.sockets -> k.kind = kind -> k.port = p.remotePort ->
          s.identity k.client = some cl.id) ∧
      s.shared.HostsFree rt s.identity cl.id p)
    ⟨fun ⟨hgranted, hport, hhosts⟩ => ⟨hgranted, hport, hhosts⟩,
      fun h => ⟨h.granted, h.port, h.hosts⟩⟩

/-- The sockets and hosts of a registered proxy.  Nothing reads the table of tcp
proxies. -/
structure Backed (s : State) (c : Nat) (p : ProxySpec) : Prop where
  socket : forall kind, p.kind? = some kind -> kind ≠ Kind.vhost ->
    exists k, k ∈ s.shared.sockets ∧ k.kind = kind ∧ k.port = p.remotePort ∧
      k.client = c ∧ k.name = p.name
  hosts : p.kind? = some Kind.vhost -> forall host, host ∈ p.hosts ->
    s.shared.HeldBy (rt.toLower host) c

structure Registered (s : State) (c : Nat) (p : ProxySpec) : Prop where
  entry : exists cl e, s.clients c = some cl ∧ cl.regs.get? p.name = some e ∧ e.spec = p
  backed : Backed rt s c p

/-- Each eligible proxy is reported as accepted and is registered. -/
def TakenOver (s₀ : State) (cl : Client) (t : State) (c : Nat)
    (proxies : List ProxySpec) (statuses : List ProxyStatus) : Prop :=
  List.Forall₂ (fun p status => Eligible rt s₀ cl p ->
    status = accepted p ∧ Registered rt t c p) proxies statuses

/-- No two eligible proxies share a name. -/
def NamesApart (s₀ : State) (cl : Client) (proxies : List ProxySpec) : Prop :=
  forall p, p ∈ proxies -> forall q, q ∈ proxies -> Eligible rt s₀ cl p ->
    Eligible rt s₀ cl q -> p.name = q.name -> p = q

instance (s₀ : State) (cl : Client) (proxies : List ProxySpec) :
    Decidable (NamesApart rt s₀ cl proxies) :=
  inferInstanceAs (Decidable (forall p, p ∈ proxies -> forall q, q ∈ proxies ->
    Eligible rt s₀ cl p -> Eligible rt s₀ cl q -> p.name = q.name -> p = q))

/--
An eligible proxy that the connection registers is well-formed, and no socket of its
kind is open on its port.
-/
def Lands (s₀ : State) (cl₀ : Client) (c : Nat) (s : State) (a : Action) : Prop :=
  a = Action.handler c HandlerAction.register -> forall cl, cl ∈ s.clients c ->
    forall p, p ∈ cl.task.registering -> Eligible rt s₀ cl₀ p ->
      ¬ Unchanged cl.regs p -> p.WellFormed ∧ s.shared.PortFree foreign p

instance (s₀ : State) (cl₀ : Client) (c : Nat) (s : State) (a : Action) :
    Decidable (Lands rt foreign s₀ cl₀ c s a) :=
  inferInstanceAs (Decidable (a = Action.handler c HandlerAction.register ->
    forall cl, cl ∈ s.clients c -> forall p, p ∈ cl.task.registering ->
      Eligible rt s₀ cl₀ p -> ¬ Unchanged cl.regs p ->
        p.WellFormed ∧ s.shared.PortFree foreign p))

/-!
# How far the new connection is
-/

/-- The statuses of the proxies that were visited. -/
def Task.statuses : Task -> List ProxyStatus
  | Task.apply _ statuses | Task.reply statuses => statuses
  | Task.evict _ | Task.sweep _ | Task.closing _ _ _ | Task.serve | Task.leave
  | Task.cleanup _ | Task.cleaning _ _ | Task.gone => []

def Client.Progress (proxies : List ProxySpec) (cl : Client) : Prop :=
  match cl.task with
  | Task.sweep desired => desired = proxies ∧ cl.regs = []
  | Task.apply rest statuses =>
      exists visited, visited.length = statuses.length ∧ proxies = visited ++ rest
  | Task.reply statuses => statuses.length = proxies.length
  | _ => False

/-- The eligible proxies among those visited were accepted. -/
def Answered (s₀ : State) (cl₀ : Client) (proxies : List ProxySpec) (c : Nat)
    (s : State) : Prop :=
  forall cl, s.clients c = some cl -> forall p status,
    (p, status) ∈ proxies.zip cl.task.statuses -> Eligible rt s₀ cl₀ p ->
      status = accepted p

/-- They have entries. -/
def Landed (s₀ : State) (cl₀ : Client) (proxies : List ProxySpec) (c : Nat)
    (s : State) : Prop :=
  forall cl, s.clients c = some cl -> forall p status,
    (p, status) ∈ proxies.zip cl.task.statuses -> Eligible rt s₀ cl₀ p ->
      exists e, cl.regs.get? p.name = some e ∧ e.spec = p

/-!
# What other identities hold
-/

/-- Both have the same sockets and hosts of other identities. -/
structure Agrees (identity : Nat -> Option Text) (id : Text) (old new : Shared) :
    Prop where
  sockets : forall k, identity k.client ≠ some id ->
    (k ∈ new.sockets <-> k ∈ old.sockets)
  vhosts : forall host ref, identity ref.client ≠ some id ->
    (new.vhosts host = some ref <-> old.vhosts host = some ref)

/-- What holds while the two connections contend. -/
structure Contest (s₀ : State) (c₁ c₂ : Nat) (cl₀ : Client) (proxies : List ProxySpec)
    (s : State) : Prop where
  sockets : SocketInv s
  identity : s.identity = s₀.identity
  agrees : Agrees s₀.identity cl₀.id s₀.shared s.shared
  old : s.identity c₁ = some cl₀.id
  new : exists cl, s.clients c₂ = some cl ∧ cl.id = cl₀.id ∧ cl.grant = cl₀.grant ∧
    cl.Progress proxies
  entries : forall cl, s.clients c₂ = some cl -> forall e, e ∈ cl.regs ->
    e.spec ∈ proxies ∧ Eligible rt s₀ cl₀ e.spec ∧ Backed rt s c₂ e.spec
  landed : NamesApart rt s₀ cl₀ proxies -> Answered rt s₀ cl₀ proxies c₂ s ->
    Landed rt s₀ cl₀ proxies c₂ s

end Takeover

section Proof

variable {cfg : Config} {rt : Runtime} {foreign : Kind -> Int -> Bool}

theorem Agrees.refl (identity : Nat -> Option Text) (id : Text) (s : Shared) :
    Agrees identity id s s :=
  { sockets := fun _ _ => Iff.rfl
    vhosts := fun _ _ _ => Iff.rfl }

theorem Agrees.trans {identity : Nat -> Option Text} {id : Text} {a b c : Shared}
    (hab : Agrees identity id a b) (hbc : Agrees identity id b c) :
    Agrees identity id a c :=
  { sockets := fun k hk => (hbc.sockets k hk).trans (hab.sockets k hk)
    vhosts := fun host ref href => (hbc.vhosts host ref href).trans (hab.vhosts host ref href) }

theorem agrees_closer {identity : Nat -> Option Text} {id : Text} {c : Nat} {s : Shared}
    {closer : Closer} (hid : identity c = some id)
    (howned : forall socket, closer = Closer.closeListener socket ->
      forall k, k ∈ s.sockets -> k.id = socket -> k.client = c) :
    Agrees identity id s (closer.run c s) := by
  cases closer with
  | closeListener socket =>
      refine
        { sockets := fun k hk => ?_
          vhosts := fun _ _ _ => Iff.rfl }
      refine ⟨fun hmem => (List.mem_filter.mp hmem).left, fun hmem => ?_⟩
      refine List.mem_filter.mpr ⟨hmem, ?_⟩
      rw [decide_eq_true_eq]
      intro heq
      exact hk (howned socket rfl k hmem heq ▸ hid)
  | dropHosts lowered =>
      refine
        { sockets := fun _ _ => Iff.rfl
          vhosts := fun host ref href => ?_ }
      simp only [Closer.run, removeHosts]
      split
      · rename_i hdrop
        constructor
        · intro h
          cases h
        · intro h
          rw [h] at hdrop
          exact absurd ((Option.some.inj hdrop.right) ▸ hid) href
      · exact Iff.rfl
  | deleteTcp port =>
      exact
        { sockets := fun _ _ => Iff.rfl
          vhosts := fun _ _ _ => Iff.rfl }
  | closeAll => exact Agrees.refl identity id s
  | closeStop => exact Agrees.refl identity id s

theorem agrees_register {identity : Nat -> Option Text} {r : Registrar} {p : ProxySpec}
    {s : Shared} (hid : identity r.client = some r.id) :
    Agrees identity r.id s (register rt foreign identity r p s).1 := by
  have houtcome := register_outcome rt foreign identity r p s
  generalize register rt foreign identity r p s = result at houtcome ⊢
  cases houtcome with
  | rejected => exact Agrees.refl identity r.id s
  | opened _ _ _ hvhosts hsockets =>
      refine
        { sockets := fun k hk => ?_
          vhosts := fun host ref _ => by rw [hvhosts] }
      rw [hsockets, List.mem_cons]
      refine ⟨?_, Or.inr⟩
      intro hcase
      rcases hcase with rfl | hmem
      · exact absurd hid hk
      · exact hmem
  | claimed hok hkind =>
      refine
        { sockets := fun _ _ => Iff.rfl
          vhosts := fun host ref href => ?_ }
      simp only [claimHosts]
      split
      · rename_i hmem
        rcases List.mem_map.mp hmem with ⟨listed, hlisted, rfl⟩
        constructor
        · intro h
          cases h
          exact absurd hid href
        · intro h
          exact absurd (hok.right.right.right hkind listed hlisted ref h) href
      · exact Iff.rfl

variable (rt foreign) in
/-- What can be registered is eligible, well-formed and on a free port. -/
theorem acceptable_iff {s₀ s : State} {cl₀ cl : Client} (c : Nat) (p : ProxySpec)
    (hidentity : s.identity = s₀.identity) (hid : cl.id = cl₀.id)
    (hgrant : cl.grant = cl₀.grant)
    (hagrees : Agrees s₀.identity cl₀.id s₀.shared s.shared) :
    Acceptable rt foreign s.identity (cl.registrar c) p s.shared <->
      Eligible rt s₀ cl₀ p ∧ p.WellFormed ∧ s.shared.PortFree foreign p := by
  simp only [Acceptable, Client.registrar, hidentity, hid, hgrant]
  constructor
  · intro h
    rcases h with ⟨hwell, hgranted, hport, hhosts⟩
    refine ⟨⟨hgranted, ?_, ?_⟩, hwell, hport⟩
    · intro kind hkind hne k hk hk' heq
      by_contra hother
      have hmem := (hagrees.sockets k hother).mpr hk
      have hfree := hport kind hkind hne
      simp only [Shared.portTaken, Bool.or_eq_false_iff, List.any_eq_false] at hfree
      exact hfree.right k hmem (by simp [hk', heq])
    · intro hkind host hhost ref href
      by_contra hother
      exact hother (hhosts hkind host hhost ref ((hagrees.vhosts _ ref hother).mpr href))
  · intro h
    rcases h with ⟨heligible, hwell, hport⟩
    refine ⟨hwell, heligible.granted, hport, ?_⟩
    intro hkind host hhost ref href
    by_contra hother
    exact hother (heligible.hosts hkind host hhost ref
      ((hagrees.vhosts _ ref hother).mp href))

/-!
# Steps of the two connections
-/

theorem identity_eq_of_step {s t : State} {a : Action}
    (hstep : step cfg rt foreign s a = some t) (hno : a.opens? = none) :
    t.identity = s.identity := by
  funext c
  unfold State.identity
  rcases step_clients hstep c with hrel | ⟨_, _, _, _, _, _, _, _, _, rfl, _⟩
  · generalize s.clients c = old at hrel ⊢
    generalize t.clients c = new at hrel ⊢
    cases hrel with
    | none => rfl
    | some hfollows => simp [hfollows.id]
  · simp [Action.opens?] at hno

/-- A handler that does not evict changes its own client only. -/
theorem handlerStep_other {s t : State} {c c' : Nat} {cl : Client} {a : HandlerAction}
    (hstep : HandlerStep cfg rt foreign s c cl a t) (ha : a ≠ HandlerAction.evict)
    (hc : c' ≠ c) : t.clients c' = s.clients c' := by
  cases hstep with
  | evict => exact absurd rfl ha
  | refused => rfl
  | _ => simp [State.setClient, Function.update_of_ne hc]

/-- A handler leaves the sockets and hosts of other identities alone. -/
theorem agrees_handlerStep {s t : State} {c : Nat} {cl : Client} {a : HandlerAction}
    (hsockets : SocketInv s) (hcl : s.clients c = some cl)
    (hstep : HandlerStep cfg rt foreign s c cl a t) :
    Agrees s.identity cl.id s.shared t.shared := by
  have hid : s.identity c = some cl.id := by simp [State.identity, hcl]
  have hcloser (closer : Closer) (hmem : closer ∈ cl.task.closers) :
      Agrees s.identity cl.id s.shared (closer.run c s.shared) := by
    apply agrees_closer hid
    intro socket heq
    subst heq
    exact (hsockets.owned c cl socket hcl (Or.inl hmem)).right
  cases hstep with
  | evict =>
      simp only [State.setClient, evictOld_shared]
      exact Agrees.refl s.identity cl.id s.shared
  | closing htask => exact hcloser _ (by simp [htask, Task.closers])
  | cleaning htask => exact hcloser _ (by simp [htask, Task.closers])
  | register => exact agrees_register (r := cl.registrar c) hid
  | _ => exact Agrees.refl s.identity cl.id s.shared

theorem Backed.mono {s t : State} {c : Nat} {p : ProxySpec} (h : Backed rt s c p)
    (hsockets : forall k, k ∈ s.shared.sockets -> k.client = c -> k ∈ t.shared.sockets)
    (hhosts : forall host, s.shared.HeldBy host c -> t.shared.HeldBy host c) :
    Backed rt t c p := by
  refine
    { socket := fun kind hkind hne => ?_
      hosts := fun hkind host hhost => hhosts _ (h.hosts hkind host hhost) }
  rcases h.socket kind hkind hne with ⟨k, hk, hk', hport, hclient, hname⟩
  exact ⟨k, hsockets k hk hclient, hk', hport, hclient, hname⟩

/-- Closers of another client leave what backs a proxy. -/
theorem Backed.closer {s t : State} {c c' : Nat} {p : ProxySpec} {closer : Closer}
    (h : Backed rt s c p) (hc : c ≠ c') (hshared : t.shared = closer.run c' s.shared)
    (howned : forall socket, closer = Closer.closeListener socket ->
      forall k, k ∈ s.shared.sockets -> k.id = socket -> k.client = c') :
    Backed rt t c p := by
  apply h.mono
  · intro k hk hclient
    rw [hshared]
    cases closer with
    | closeListener socket =>
        refine List.mem_filter.mpr ⟨hk, ?_⟩
        rw [decide_eq_true_eq]
        intro heq
        exact hc (hclient.symm.trans (howned socket rfl k hk heq))
    | dropHosts lowered => exact hk
    | deleteTcp port => exact hk
    | closeAll => exact hk
    | closeStop => exact hk
  · intro host hheld
    rw [hshared]
    exact Closer.run_heldBy hheld fun heq => absurd heq hc

/-- Registering backs what is backed, and the proxy it accepts. -/
theorem Backed.register {s t : State} {c : Nat} {cl : Client} {p q : ProxySpec}
    (h : Backed rt s c p)
    (hshared : t.shared = (register rt foreign s.identity (cl.registrar c) q s.shared).1) :
    Backed rt t c p := by
  apply h.mono
  · intro k hk _
    rw [hshared]
    exact (register_numbers rt foreign _ _ _ _).right.left k hk
  · intro host hheld
    rw [hshared]
    rcases register_heldBy rt foreign s.identity (cl.registrar c) q s.shared hheld with hheld | ⟨hheld, _⟩
    · exact hheld
    · exact hheld

theorem backed_of_acceptable {s t : State} {c : Nat} {cl : Client} {p : ProxySpec}
    (hok : Acceptable rt foreign s.identity (cl.registrar c) p s.shared)
    (hshared : t.shared = (register rt foreign s.identity (cl.registrar c) p s.shared).1) :
    Backed rt t c p := by
  rcases register_opens hok with ⟨⟨e, hentry, rfl⟩, hsocket⟩
  refine
    { socket := fun kind hkind hne => ?_
      hosts := fun hkind host hhost => ?_ }
  · rw [hshared]
    exact ⟨_, hsocket kind hkind hne, rfl, rfl, rfl, rfl⟩
  · rw [hshared]
    exact (register_entry hentry).right.right hkind host hhost

/-!
# The contest
-/

/-- What every step of the two keeps. -/
structure Steady (id : Text) (s t : State) : Prop where
  sockets : SocketInv t
  identity : t.identity = s.identity
  agrees : Agrees s.identity id s.shared t.shared

/-- The client of the new connection is as it was. -/
theorem Contest.frame {s₀ s t : State} {c₁ c₂ : Nat} {cl₀ : Client}
    {proxies : List ProxySpec} (h : Contest rt s₀ c₁ c₂ cl₀ proxies s)
    (hsteady : Steady cl₀.id s t) (hclient : t.clients c₂ = s.clients c₂)
    (hbacked : forall p, Backed rt s c₂ p -> Backed rt t c₂ p) :
    Contest rt s₀ c₁ c₂ cl₀ proxies t := by
  refine
    { sockets := hsteady.sockets
      identity := hsteady.identity.trans h.identity
      agrees := h.agrees.trans (h.identity ▸ hsteady.agrees)
      old := hsteady.identity ▸ h.old
      new := hclient ▸ h.new
      entries := ?_
      landed := ?_ }
  · intro cl hcl e he
    rcases h.entries cl (hclient ▸ hcl) e he with ⟨hmem, heligible, hback⟩
    exact ⟨hmem, heligible, hbacked _ hback⟩
  · unfold Answered Landed
    rw [hclient]
    exact h.landed

/-- The new connection has moved on. -/
theorem Contest.next {s₀ s t : State} {c₁ c₂ : Nat} {cl₀ cl new : Client}
    {proxies : List ProxySpec} (h : Contest rt s₀ c₁ c₂ cl₀ proxies s)
    (hsteady : Steady cl₀.id s t) (hcl : s.clients c₂ = some cl)
    (hnew : t.clients c₂ = some new) (hid : new.id = cl.id)
    (hgrant : new.grant = cl.grant) (hprogress : new.Progress proxies)
    (hentries : forall e, e ∈ new.regs -> e.spec ∈ proxies ∧
      Eligible rt s₀ cl₀ e.spec ∧ Backed rt t c₂ e.spec)
    (hlanded : NamesApart rt s₀ cl₀ proxies -> Answered rt s₀ cl₀ proxies c₂ t ->
      Landed rt s₀ cl₀ proxies c₂ t) :
    Contest rt s₀ c₁ c₂ cl₀ proxies t := by
  rcases h.new with ⟨cl', hcl', hid', hgrant', _⟩
  rw [hcl] at hcl'
  cases hcl'
  refine
    { sockets := hsteady.sockets
      identity := hsteady.identity.trans h.identity
      agrees := h.agrees.trans (h.identity ▸ hsteady.agrees)
      old := hsteady.identity ▸ h.old
      new := ⟨new, hnew, hid.trans hid', hgrant.trans hgrant', hprogress⟩
      entries := ?_
      landed := hlanded }
  intro cl' hcl' e he
  rw [hnew] at hcl'
  cases hcl'
  exact hentries e he

/-- The pairs of a proxy and its status grow by one. -/
theorem mem_zip_visited {visited : List ProxySpec} {statuses : List ProxyStatus}
    (rest : List ProxySpec) (p : ProxySpec) (status : ProxyStatus)
    (hlength : visited.length = statuses.length) (pair : ProxySpec × ProxyStatus) :
    pair ∈ (visited ++ p :: rest).zip (statuses ++ [status]) <->
      pair ∈ (visited ++ p :: rest).zip statuses ∨ pair = (p, status) := by
  have hold : (visited ++ p :: rest).zip statuses = visited.zip statuses := by
    have happend : (visited ++ p :: rest).zip (statuses ++ []) =
        visited.zip statuses ++ (p :: rest).zip [] := List.zip_append hlength
    simpa using happend
  rw [hold, List.zip_append hlength]
  simp

theorem lands_register_iff {s₀ s : State} {cl₀ cl : Client} {c : Nat} {p : ProxySpec}
    {rest : List ProxySpec} {statuses : List ProxyStatus}
    (hcl : s.clients c = some cl) (htask : cl.task = Task.apply (p :: rest) statuses) :
    Lands rt foreign s₀ cl₀ c s (Action.handler c HandlerAction.register) <->
      (Eligible rt s₀ cl₀ p -> ¬ Unchanged cl.regs p ->
        p.WellFormed ∧ s.shared.PortFree foreign p) := by
  constructor
  · intro h
    exact h rfl cl hcl p (by simp [htask, Task.registering])
  · intro h _ cl' hcl' q hq
    rw [hcl] at hcl'
    cases hcl'
    simp only [htask, Task.registering, Option.mem_def, Option.some.injEq] at hq
    subst hq
    exact h

section Visit

variable {s₀ s t : State} {c₁ c₂ : Nat} {cl₀ cl new : Client}
  {visited rest : List ProxySpec} {p : ProxySpec} {statuses : List ProxyStatus}
  {status : ProxyStatus}

/-- A visited proxy is answered by its status. -/
theorem answered_visit (hcl : s.clients c₂ = some cl)
    (htask : cl.task = Task.apply (p :: rest) statuses)
    (hlength : visited.length = statuses.length)
    (hnew : t.clients c₂ = some new)
    (htask' : new.task = Task.apply rest (statuses ++ [status])) :
    Answered rt s₀ cl₀ (visited ++ p :: rest) c₂ t <->
      Answered rt s₀ cl₀ (visited ++ p :: rest) c₂ s ∧
        (Eligible rt s₀ cl₀ p -> status = accepted p) := by
  have hzip := mem_zip_visited rest p status hlength
  constructor
  · intro h
    constructor
    · intro cl' hcl' q st hmem
      rw [hcl] at hcl'
      cases hcl'
      rw [htask] at hmem
      apply h new hnew q st
      rw [htask']
      exact (hzip (q, st)).mpr (Or.inl hmem)
    · apply h new hnew p status
      rw [htask']
      exact (hzip (p, status)).mpr (Or.inr rfl)
  · intro hcase cl' hcl' q st hmem
    rcases hcase with ⟨hold, hp⟩
    rw [hnew] at hcl'
    cases hcl'
    rw [htask'] at hmem
    rcases (hzip (q, st)).mp hmem with hmem | heq
    · apply hold cl hcl q st
      rw [htask]
      exact hmem
    · cases heq
      exact hp

/-- A visited proxy lands when its entry is recorded and the others are kept. -/
theorem landed_visit (h : Contest rt s₀ c₁ c₂ cl₀ (visited ++ p :: rest) s)
    (hcl : s.clients c₂ = some cl) (htask : cl.task = Task.apply (p :: rest) statuses)
    (hlength : visited.length = statuses.length)
    (hnew : t.clients c₂ = some new)
    (htask' : new.task = Task.apply rest (statuses ++ [status]))
    (hrecorded : NamesApart rt s₀ cl₀ (visited ++ p :: rest) ->
      Eligible rt s₀ cl₀ p -> status = accepted p ->
        exists e, new.regs.get? p.name = some e ∧ e.spec = p)
    (hkept : forall q, q.name ≠ p.name ∨ ¬ Eligible rt s₀ cl₀ p ->
      (exists e, cl.regs.get? q.name = some e ∧ e.spec = q) ->
        exists e, new.regs.get? q.name = some e ∧ e.spec = q) :
    NamesApart rt s₀ cl₀ (visited ++ p :: rest) ->
      Answered rt s₀ cl₀ (visited ++ p :: rest) c₂ t ->
        Landed rt s₀ cl₀ (visited ++ p :: rest) c₂ t := by
  intro hnames hanswered cl' hcl' q st hmem heligible
  rw [hnew] at hcl'
  cases hcl'
  rw [htask'] at hmem
  rcases (answered_visit hcl htask hlength hnew htask').mp hanswered with ⟨hold, hp⟩
  have hq : q ∈ visited ++ p :: rest := (List.of_mem_zip hmem).left
  by_cases hsame : Eligible rt s₀ cl₀ p ∧ q.name = p.name
  · rcases hsame with ⟨hep, hname⟩
    have heq : q = p := hnames q hq p (by simp) heligible hep hname
    rw [heq]
    exact hrecorded hnames hep (hp hep)
  · apply hkept q
    · by_cases hep : Eligible rt s₀ cl₀ p
      · exact Or.inl fun hname => hsame ⟨hep, hname⟩
      · exact Or.inr hep
    · rcases (mem_zip_visited rest p status hlength (q, st)).mp hmem with hmem | heq
      · refine h.landed hnames hold cl hcl q st ?_ heligible
        rw [htask]
        exact hmem
      · cases heq
        exact absurd ⟨heligible, rfl⟩ hsame

theorem contest_unchanged (h : Contest rt s₀ c₁ c₂ cl₀ (visited ++ p :: rest) s)
    (hsteady : Steady cl₀.id s t) (hcl : s.clients c₂ = some cl)
    (htask : cl.task = Task.apply (p :: rest) statuses)
    (hlength : visited.length = statuses.length) (hsame : Unchanged cl.regs p)
    (ht : t = s.setClient c₂ { cl with
      task := Task.apply rest (statuses ++ [accepted p]) }) :
    Contest rt s₀ c₁ c₂ cl₀ (visited ++ p :: rest) t := by
  have hnew : t.clients c₂ = some { cl with
      task := Task.apply rest (statuses ++ [accepted p]) } := by
    simp [ht, State.setClient]
  refine h.next hsteady hcl hnew rfl rfl ⟨visited ++ [p], by simp [hlength], by simp⟩ ?_
    (landed_visit h hcl htask hlength hnew rfl ?_ fun _ _ hex => hex)
  · intro e he
    rcases h.entries cl hcl e he with ⟨hmem, heligible, hback⟩
    refine ⟨hmem, heligible, hback.mono ?_ ?_⟩
    · rw [ht]
      exact fun _ hk _ => hk
    · rw [ht]
      exact fun _ hheld => hheld
  · intro hnames hep _
    rcases hsame with ⟨e, hget, _⟩
    rcases Regs.name_of_get? hget with ⟨hmem, hname⟩
    rcases h.entries cl hcl e hmem with ⟨hspec, heligible, _⟩
    exact ⟨e, hget, hnames e.spec hspec p (by simp) heligible hep hname⟩

theorem contest_register (h : Contest rt s₀ c₁ c₂ cl₀ (visited ++ p :: rest) s)
    (hsteady : Steady cl₀.id s t) (hcl : s.clients c₂ = some cl)
    (htask : cl.task = Task.apply (p :: rest) statuses)
    (hlength : visited.length = statuses.length)
    (ht : t = { s.setClient c₂ { cl with
        regs := cl.regs.record
          (register rt foreign s.identity (cl.registrar c₂) p s.shared).2.1
        task := Task.apply rest (statuses ++
          [(register rt foreign s.identity (cl.registrar c₂) p s.shared).2.2]) } with
      shared := (register rt foreign s.identity (cl.registrar c₂) p s.shared).1 })
    (hacceptable : Acceptable rt foreign s.identity (cl.registrar c₂) p s.shared ->
      Eligible rt s₀ cl₀ p) :
    Contest rt s₀ c₁ c₂ cl₀ (visited ++ p :: rest) t := by
  have hshared : t.shared =
      (register rt foreign s.identity (cl.registrar c₂) p s.shared).1 := by
    rw [ht]
  have hnew : t.clients c₂ = some { cl with
      regs := cl.regs.record
        (register rt foreign s.identity (cl.registrar c₂) p s.shared).2.1
      task := Task.apply rest (statuses ++
        [(register rt foreign s.identity (cl.registrar c₂) p s.shared).2.2]) } := by
    simp [ht, State.setClient]
  refine h.next hsteady hcl hnew rfl rfl ⟨visited ++ [p], by simp [hlength], by simp⟩ ?_
    (landed_visit h hcl htask hlength hnew rfl ?_ ?_)
  · intro e he
    have hold : e ∈ cl.regs -> e.spec ∈ visited ++ p :: rest ∧
        Eligible rt s₀ cl₀ e.spec ∧ Backed rt t c₂ e.spec := by
      intro hmem
      rcases h.entries cl hcl e hmem with ⟨hspec, heligible, hback⟩
      exact ⟨hspec, heligible, hback.register hshared⟩
    cases hentry : (register rt foreign s.identity (cl.registrar c₂) p s.shared).2.1 with
    | none =>
        simp only [hentry, Regs.record] at he
        exact hold he
    | some e' =>
        simp only [hentry, Regs.record, Regs.set] at he
        rcases List.mem_cons.mp he with rfl | he
        · rcases register_entry hentry with ⟨rfl, hok, _⟩
          exact ⟨by simp, hacceptable hok, backed_of_acceptable hok hshared⟩
        · exact hold (List.mem_filter.mp he).left
  · intro _ _ haccepted
    rcases register_opens (register_accepted.mp haccepted) with ⟨⟨e, hentry, hspec⟩, _⟩
    refine ⟨e, ?_, hspec⟩
    simp [hentry, Regs.record, Regs.get?_set, hspec]
  · intro q hq hcase
    rcases hcase with ⟨e, hget, hspec⟩
    refine ⟨e, ?_, hspec⟩
    cases hentry : (register rt foreign s.identity (cl.registrar c₂) p s.shared).2.1 with
    | none => exact hget
    | some e' =>
        rcases register_entry hentry with ⟨hspec', hok, _⟩
        have hname : q.name ≠ p.name := by
          rcases hq with hname | hnot
          · exact hname
          · exact absurd (hacceptable hok) hnot
        simp only [Regs.record, Regs.get?_set, hspec', if_neg hname]
        exact hget

/-- A step that answers nothing. -/
theorem answered_same {proxies : List ProxySpec} (hcl : s.clients c₂ = some cl)
    (hnew : t.clients c₂ = some new) (hstatuses : new.task.statuses = cl.task.statuses) :
    Answered rt s₀ cl₀ proxies c₂ t <-> Answered rt s₀ cl₀ proxies c₂ s := by
  constructor
  · intro h cl' hcl' p status hmem
    rw [hcl] at hcl'
    cases hcl'
    exact h new hnew p status (hstatuses ▸ hmem)
  · intro h cl' hcl' p status hmem
    rw [hnew] at hcl'
    cases hcl'
    exact h cl hcl p status (hstatuses ▸ hmem)

theorem contest_applies {proxies : List ProxySpec} {a : HandlerAction}
    (h : Contest rt s₀ c₁ c₂ cl₀ proxies s) (hsteady : Steady cl₀.id s t)
    (hcl : s.clients c₂ = some cl) (ha : a.Applies)
    (hstep : HandlerStep cfg rt foreign s c₂ cl a t) :
    Contest rt s₀ c₁ c₂ cl₀ proxies t ∧
      (Answered rt s₀ cl₀ proxies c₂ t <-> Answered rt s₀ cl₀ proxies c₂ s ∧
        Lands rt foreign s₀ cl₀ c₂ s (Action.handler c₂ a)) := by
  rcases h.new with ⟨cl', hcl', hid, hgrant, hprogress⟩
  rw [hcl] at hcl'
  cases hcl'
  unfold Client.Progress at hprogress
  cases hstep with
  | sweep htask hget _ =>
      rw [htask] at hprogress
      rw [hprogress.right] at hget
      cases hget
  | @sweepDone desired htask _ =>
      rw [htask] at hprogress
      rcases hprogress with ⟨rfl, hregs⟩
      have hnew := setClient_self s c₂ { cl with task := Task.apply desired [] }
      refine ⟨h.next hsteady hcl hnew rfl rfl ⟨[], rfl, rfl⟩ ?_ ?_, ?_⟩
      · intro e he
        rw [hregs] at he
        cases he
      · intro _ _ cl' hcl' p status hmem
        rcases lookup_started hcl' with ⟨_, rfl⟩ | ⟨hne, _⟩
        · simp [Task.statuses] at hmem
        · exact absurd rfl hne
      · rw [answered_same hcl hnew (by simp [htask, Task.statuses])]
        simp [Lands]
  | unchanged htask hsame =>
      rw [htask] at hprogress
      rcases hprogress with ⟨visited, hlength, rfl⟩
      refine ⟨contest_unchanged h hsteady hcl htask hlength hsame rfl, ?_⟩
      rw [answered_visit hcl htask hlength (setClient_self s c₂ _) rfl,
        lands_register_iff hcl htask]
      simp [hsame]
  | @register p rest statuses htask hchanged =>
      rw [htask] at hprogress
      rcases hprogress with ⟨visited, hlength, rfl⟩
      have hacceptable := acceptable_iff rt foreign c₂ p
        h.identity hid hgrant h.agrees
      refine ⟨contest_register h hsteady hcl htask hlength rfl
        fun hok => (hacceptable.mp hok).left, ?_⟩
      apply Iff.trans (answered_visit hcl htask hlength (setClient_self s c₂ _) rfl)
      rw [lands_register_iff hcl htask]
      refine and_congr_right fun _ => ?_
      rw [register_accepted, hacceptable]
      constructor
      · intro haccepted heligible _
        exact (haccepted heligible).right
      · intro hlands heligible
        exact ⟨heligible, hlands heligible hchanged⟩
  | @applied statuses htask =>
      rw [htask] at hprogress
      rcases hprogress with ⟨visited, hlength, heq⟩
      have hnew := setClient_self s c₂ { cl with task := Task.reply statuses }
      have hsame : (Task.reply statuses).statuses = cl.task.statuses := by
        rw [htask]
        rfl
      refine ⟨h.next hsteady hcl hnew rfl rfl ?_ ?_ ?_, ?_⟩
      · simp [Client.Progress, heq, hlength]
      · intro e he
        rcases h.entries cl hcl e he with ⟨hmem, heligible, hback⟩
        exact ⟨hmem, heligible, hback.mono (fun _ hk _ => hk) fun _ hheld => hheld⟩
      · intro hnames hanswered cl' hcl' p status hmem
        rw [hnew] at hcl'
        cases hcl'
        rw [hsame] at hmem
        exact h.landed hnames ((answered_same hcl hnew hsame).mp hanswered) cl hcl p status
          hmem
      · rw [answered_same hcl hnew hsame]
        simp [Lands]
  | closing htask => simp [htask] at hprogress
  | closed htask => simp [htask] at hprogress
  | cleaning htask => simp [htask] at hprogress
  | cleaned htask => simp [htask] at hprogress
  | _ => exact ha.elim

end Visit

/-- The old connection takes nothing from what the new one has. -/
theorem backed_ends {s t : State} {c c' : Nat} {cl : Client} {a : HandlerAction}
    {p : ProxySpec} (h : Backed rt s c' p) (hsockets : SocketInv s)
    (hcl : s.clients c = some cl) (hc : c' ≠ c) (ha : a.Ends)
    (hstep : HandlerStep cfg rt foreign s c cl a t) : Backed rt t c' p := by
  have hcloser (closer : Closer) (hmem : closer ∈ cl.task.closers)
      (hshared : t.shared = closer.run c s.shared) : Backed rt t c' p := by
    apply h.closer hc hshared
    intro socket heq
    subst heq
    exact (hsockets.owned c cl socket hcl (Or.inl hmem)).right
  have hframe (hshared : t.shared = s.shared) : Backed rt t c' p := by
    apply h.mono
    · rw [hshared]
      exact fun _ hk _ => hk
    · rw [hshared]
      exact fun _ hheld => hheld
  cases hstep with
  | evict => exact ha.elim
  | register => exact ha.elim
  | closing htask => exact hcloser _ (by simp [htask, Task.closers]) rfl
  | cleaning htask => exact hcloser _ (by simp [htask, Task.closers]) rfl
  | _ => exact hframe rfl

theorem contest_step {s₀ s t : State} {c₁ c₂ : Nat} {cl₀ : Client}
    {proxies : List ProxySpec} {a : Action} (hne : c₁ ≠ c₂) (ha : Contending c₁ c₂ a)
    (h : Contest rt s₀ c₁ c₂ cl₀ proxies s)
    (hstep : step cfg rt foreign s a = some t) :
    Contest rt s₀ c₁ c₂ cl₀ proxies t ∧
      (Answered rt s₀ cl₀ proxies c₂ t <-> Answered rt s₀ cl₀ proxies c₂ s ∧
        Lands rt foreign s₀ cl₀ c₂ s a) := by
  have hsockets := socketInv_step h.sockets hstep
  cases a with
  | hello => exact ha.elim
  | traffic action =>
      have hidentity := identity_eq_of_step hstep rfl
      rcases step_traffic hstep with ⟨hshared, hclients, _⟩
      have hsteady : Steady cl₀.id s t :=
        { sockets := hsockets
          identity := hidentity
          agrees := hshared ▸ Agrees.refl s.identity cl₀.id s.shared }
      refine ⟨h.frame hsteady (congrFun hclients c₂) fun p hback => ?_, ?_⟩
      · apply hback.mono
        · rw [hshared]
          exact fun _ hk _ => hk
        · rw [hshared]
          exact fun _ hheld => hheld
      · simp [Answered, hclients, Lands]
  | handler c action =>
      have hidentity := identity_eq_of_step hstep rfl
      rcases step_handler hstep with ⟨cl, hcl, hcase⟩
      have hagrees := agrees_handlerStep h.sockets hcl hcase
      rcases ha with ⟨rfl, hends⟩ | ⟨rfl, happlies⟩
      · have hid : cl.id = cl₀.id := by
          have hold := h.old
          simp only [State.identity, hcl, Option.map_some, Option.some.injEq] at hold
          exact hold
        have hother : t.clients c₂ = s.clients c₂ :=
          handlerStep_other hcase (fun heq => by simp [heq, HandlerAction.Ends] at hends)
            hne.symm
        refine ⟨h.frame ⟨hsockets, hidentity, hid ▸ hagrees⟩ hother fun p hback =>
          backed_ends hback h.sockets hcl hne.symm hends hcase, ?_⟩
        have hlands : Lands rt foreign s₀ cl₀ c₂ s (Action.handler c action) := by
          intro heq
          cases heq
          exact hends.elim
        simp [Answered, hother, hlands]
      · have hid : cl.id = cl₀.id := by
          rcases h.new with ⟨cl', hcl', hid, _⟩
          rw [hcl] at hcl'
          cases hcl'
          exact hid
        exact contest_applies h ⟨hsockets, hidentity, hid ▸ hagrees⟩ hcl happlies hcase


theorem holderInv_of_reachable {s : State}
    (h : (machine cfg rt foreign).Reachable s) : HolderInv s := by
  apply h.invariant
  · intro db heq
    subst heq
    exact holderInv_initial
  · intro s a t hs hstep
    have hstep : step cfg rt foreign s a = some t := hstep
    exact holderInv_step hs hstep

theorem contest_of_evicts {c₁ c₂ : Nat} {cl : Client} {proxies : List ProxySpec}
    {s s₀ : State} (h : Evicts cfg rt foreign c₁ c₂ cl proxies s s₀) :
    c₁ ≠ c₂ ∧ Contest rt s₀ c₁ c₂ cl proxies s₀ ∧
      Answered rt s₀ cl proxies c₂ s₀ := by
  have hholders := holderInv_of_reachable h.reachable
  rcases hholders.holder cl.id c₁ h.old with ⟨cl₁, hcl₁, hid₁, hholds⟩
  have hregs : cl.regs = [] := hholders.arriving c₂ cl proxies h.new h.task
  have hnew : s₀.clients c₂ = some { cl with task := Task.sweep proxies } := by
    rcases step_handler h.step with ⟨cl', hcl', hcase⟩
    rw [h.new] at hcl'
    cases hcl'
    cases hcase with
    | @evict desired htask =>
        rw [h.task] at htask
        cases htask
        exact setClient_self _ c₂ _
  refine ⟨?_, ?_, ?_⟩
  · intro heq
    subst heq
    rw [h.new] at hcl₁
    cases hcl₁
    rw [h.task] at hholds
    exact hholds
  · refine
      { sockets := socketInv_of_reachable (h.reachable.step h.step)
        identity := rfl
        agrees := Agrees.refl s₀.identity cl.id s₀.shared
        old := ?_
        new := ⟨_, hnew, rfl, rfl, rfl, hregs⟩
        entries := ?_
        landed := ?_ }
    · have hstep : step cfg rt foreign s (Action.handler c₂ HandlerAction.evict) =
          some s₀ := h.step
      exact identity_of_step hstep (by simp [State.identity, hcl₁, hid₁])
    · intro cl' hcl' e he
      rw [hnew] at hcl'
      cases hcl'
      rw [hregs] at he
      cases he
    · intro _ _ cl' hcl' p status hmem
      rw [hnew] at hcl'
      cases hcl'
      simp [Task.statuses] at hmem
  · intro cl' hcl' p status hmem
    rw [hnew] at hcl'
    cases hcl'
    simp [Task.statuses] at hmem

/--
A new connection takes its identity over exactly when no two of its eligible proxies
share a name and each of them is well-formed and finds its port free.
-/
theorem takenOver_iff_lands {c₁ c₂ : Nat} {cl cl' : Client} {proxies : List ProxySpec}
    {s s₀ t : State} {actions : List Action} {statuses : List ProxyStatus}
    (hevicts : Evicts cfg rt foreign c₁ c₂ cl proxies s s₀)
    (hcontend : forall a, a ∈ actions -> Contending c₁ c₂ a)
    (hexec : (machine cfg rt foreign).exec s₀ actions = some t)
    (hdone : t.clients c₂ = some cl') (htask : cl'.task = Task.reply statuses) :
    TakenOver rt s₀ cl t c₂ proxies statuses <->
      NamesApart rt s₀ cl proxies ∧
        (machine cfg rt foreign).Obeys (Lands rt foreign s₀ cl c₂) s₀ actions := by
  rcases contest_of_evicts hevicts with ⟨hne, hcontest, hanswered⟩
  have hfinal : Contest rt s₀ c₁ c₂ cl proxies t :=
    Machine.exec_preserves (M := machine cfg rt foreign)
      (fun _ _ _ ha h hstep => (contest_step hne ha h hstep).left) hcontend hcontest hexec
  have hrun := Machine.last_iff_obeys (M := machine cfg rt foreign)
    (fun _ _ _ ha h hstep => (contest_step hne ha h hstep).left)
    (fun _ _ _ ha h hstep => (contest_step hne ha h hstep).right) hcontend hcontest hexec
  have hobeys : Answered rt s₀ cl proxies c₂ t <->
      (machine cfg rt foreign).Obeys (Lands rt foreign s₀ cl c₂) s₀ actions := by
    simpa [hanswered] using hrun
  have hlength : proxies.length = statuses.length := by
    rcases hfinal.new with ⟨cl'', hcl'', _, _, hprogress⟩
    rw [hdone] at hcl''
    cases hcl''
    simp only [Client.Progress, htask] at hprogress
    exact hprogress.symm
  have hstatuses : cl'.task.statuses = statuses := by
    rw [htask]
    rfl
  rw [← hobeys]
  unfold TakenOver
  rw [List.forall₂_iff_zip]
  constructor
  · intro hcase
    rcases hcase with ⟨_, htaken⟩
    constructor
    · have hregistered (p : ProxySpec) (hp : p ∈ proxies) (hep : Eligible rt s₀ cl p) :
          Registered rt t c₂ p := by
        rcases List.mem_iff_getElem.mp hp with ⟨i, hi, rfl⟩
        have hzip : i < (proxies.zip statuses).length := by
          rw [List.length_zip]
          exact Nat.lt_min.mpr ⟨hi, hlength ▸ hi⟩
        have hpair := List.getElem_mem hzip
        rw [List.getElem_zip] at hpair
        exact (htaken hpair hep).right
      intro p hp q hq hep heq hname
      rcases (hregistered p hp hep).entry with ⟨clp, e, hclp, hget, rfl⟩
      rcases (hregistered q hq heq).entry with ⟨clq, e', hclq, hget', rfl⟩
      rw [hclp] at hclq
      cases hclq
      rw [hname, hget'] at hget
      cases hget
      rfl
    · intro cl'' hcl'' p status hmem hep
      rw [hdone] at hcl''
      cases hcl''
      rw [hstatuses] at hmem
      exact (htaken hmem hep).left
  · intro hcase
    rcases hcase with ⟨hnames, hall⟩
    refine ⟨hlength, fun {p status} hmem hep => ?_⟩
    rw [← hstatuses] at hmem
    refine ⟨hall cl' hdone p status hmem hep, ?_⟩
    rcases hfinal.landed hnames hall cl' hdone p status hmem hep with ⟨e, hget, hspec⟩
    refine
      { entry := ⟨cl', e, hdone, hget, hspec⟩
        backed := ?_ }
    have hback := (hfinal.entries cl' hdone e (Regs.name_of_get? hget).left).right.right
    exact hspec ▸ hback

end Proof

def database : ProxySpec where
  name := "db".toList
  type := "tcp".toList
  localAddr := "127.0.0.1:5432".toList
  remotePort := 20000
  subdomain := []
  customDomains := []

def served : List ProxySpec := [database, site "web" ["a.example"]]

/-- An identity has registered its proxies and says hello again. -/
def reconnected : List Action :=
  registerAll 0 "agent.1" served ++
    [Action.hello 1 "agent.1".toList [] [] [] [] false served 0]

def arriving : Client where
  id := "agent.1".toList
  cert := "agent.1".toList
  grant := none
  under := ⟨[], 0⟩
  ctrlOpen := true
  regs := []
  task := Task.evict served

def plainServer : Machine State Action :=
  machine ⟨[], []⟩ plainRuntime fun _ _ => false

def beforeEviction : State :=
  (plainServer.exec initial reconnected).get (by decide +kernel)

def afterEviction : State :=
  (plainServer.step beforeEviction (Action.handler 1 HandlerAction.evict)).get
    (by decide +kernel)

theorem evicts_served : Evicts ⟨[], []⟩ plainRuntime (fun _ _ => false) 0 1 arriving served
    beforeEviction afterEviction :=
  { reachable := ⟨initial, reconnected, rfl, (Option.some_get _).symm⟩
    old := by decide +kernel
    new := by decide +kernel
    task := rfl
    step := (Option.some_get _).symm }

/-- The old connection ends and cleans up. -/
def endOld : List Action :=
  [Action.handler 0 HandlerAction.disconnect, Action.handler 0 HandlerAction.leave,
    Action.handler 0 (HandlerAction.cleanup "db".toList),
    Action.handler 0 HandlerAction.close, Action.handler 0 HandlerAction.close,
    Action.handler 0 HandlerAction.close, Action.handler 0 HandlerAction.close,
    Action.handler 0 (HandlerAction.cleanup "web".toList),
    Action.handler 0 HandlerAction.close, Action.handler 0 HandlerAction.close,
    Action.handler 0 HandlerAction.cleanupDone]

def applyNew : List Action :=
  [Action.handler 1 HandlerAction.sweepDone, Action.handler 1 HandlerAction.register,
    Action.handler 1 HandlerAction.register, Action.handler 1 HandlerAction.applied]

theorem contending_endOld : forall a, a ∈ endOld -> Contending 0 1 a := by
  simp only [endOld, List.forall_mem_cons, Contending, HandlerAction.Ends]
  simp

theorem contending_applyNew : forall a, a ∈ applyNew -> Contending 0 1 a := by
  simp only [applyNew, List.forall_mem_cons, Contending, HandlerAction.Applies]
  simp

/-- The new connection registers once the old one has cleaned up. -/
theorem takenOver_after_cleanup :
    exists t, plainServer.exec afterEviction (endOld ++ applyNew) = some t ∧
      (t.clients 0).map Client.task = some Task.gone ∧
      TakenOver plainRuntime afterEviction arriving t 1 served
        [accepted database, accepted (site "web" ["a.example"])] := by
  have hfinal : ((plainServer.exec afterEviction (endOld ++ applyNew)).map fun t =>
      ((t.clients 0).map Client.task, (t.clients 1).map Client.task)) =
      some (some Task.gone, some (Task.reply
        [accepted database, accepted (site "web" ["a.example"])])) := by
    decide +kernel
  rcases Option.map_eq_some_iff.mp hfinal with ⟨t, hexec, htasks⟩
  simp only [Prod.mk.injEq] at htasks
  rcases htasks with ⟨hgone, hreply⟩
  rcases Option.map_eq_some_iff.mp hreply with ⟨cl, hcl, htask⟩
  refine ⟨t, hexec, hgone, ?_⟩
  refine (takenOver_iff_lands evicts_served ?_ hexec hcl htask).mpr
    ⟨by decide +kernel, by decide +kernel⟩
  intro a ha
  rcases List.mem_append.mp ha with hmem | hmem
  · exact contending_endOld a hmem
  · exact contending_applyNew a hmem

/-- It finds its port taken when it registers before the old one has closed. -/
theorem rejected_before_cleanup :
    Evicts ⟨[], []⟩ plainRuntime (fun _ _ => false) 0 1 arriving served
        beforeEviction afterEviction ∧
      (forall a, a ∈ applyNew ++ endOld -> Contending 0 1 a) ∧
      exists t statuses, plainServer.exec afterEviction (applyNew ++ endOld) = some t ∧
        (t.clients 0).map Client.task = some Task.gone ∧
        (t.clients 1).map Client.task = some (Task.reply statuses) ∧
        Eligible plainRuntime afterEviction arriving database ∧
        (rejected database "port 20000: ".toList ∈ statuses) ∧
        ¬ TakenOver plainRuntime afterEviction arriving t 1 served statuses := by
  have hfinal : ((plainServer.exec afterEviction (applyNew ++ endOld)).map fun t =>
      ((t.clients 0).map Client.task, (t.clients 1).map Client.task)) =
      some (some Task.gone, some (Task.reply
        [rejected database "port 20000: ".toList,
          accepted (site "web" ["a.example"])])) := by
    decide +kernel
  rcases Option.map_eq_some_iff.mp hfinal with ⟨t, hexec, htasks⟩
  simp only [Prod.mk.injEq] at htasks
  rcases htasks with ⟨hgone, hreply⟩
  have heligible : Eligible plainRuntime afterEviction arriving database := by
    decide +kernel
  refine ⟨evicts_served, ?_, t, _, hexec, hgone, hreply, heligible,
    List.mem_cons_self, ?_⟩
  · intro a ha
    rcases List.mem_append.mp ha with hmem | hmem
    · exact contending_applyNew a hmem
    · exact contending_endOld a hmem
  · intro htaken
    have haccepted := ((List.forall₂_cons.mp htaken).left heligible).left
    exact absurd (congrArg ProxyStatus.ok haccepted) (by decide)

end Server

end Engine
end RcTunnel
