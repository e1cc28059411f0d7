import RcTunnel.Engine.Steps

/-!
# Routing of registered hosts

A client's http proxies share one table of hosts.  Removing a proxy drops its
hosts without asking whether another proxy of the client still has them, and a
connection that was evicted may still claim the hosts of the one that replaced
it.  In runs that avoid both, every registered proxy is routed whenever no
handler is registering or cleaning up.
-/

namespace RcTunnel
namespace Engine

open Foundation

namespace Server

/-- The handler is inside {lit}`applyUpdate` or {lit}`cleanup`. -/
def Task.Busy : Task -> Prop
  | Task.sweep _ | Task.closing _ _ _ | Task.apply _ _ | Task.cleanup _
  | Task.cleaning _ _ => True
  | Task.evict _ | Task.reply _ | Task.serve | Task.leave | Task.gone => False

def Quiet (s : State) : Prop :=
  forall c cl, s.clients c = some cl -> ¬ cl.task.Busy

section Routing

variable (rt : Runtime)

/-- Every host of every http proxy of a client that holds its identity is a key
whose reference belongs to the client. -/
def Routed (s : State) : Prop :=
  forall c cl, s.clients c = some cl -> s.current cl.id = some c ->
    forall e, e ∈ cl.regs -> e.spec.kind? = some Kind.vhost ->
      forall host, host ∈ e.spec.hosts -> s.shared.HeldBy (rt.toLower host) c

/-- The entry is not about to be removed by the update under way. -/
def Client.Keeps (cl : Client) (e : RegEntry) : Prop :=
  match cl.task with
  | Task.sweep proxies => ¬ Stale proxies e
  | Task.closing proxies _ _ => ¬ Stale proxies e
  | _ => True

instance (cl : Client) (e : RegEntry) : Decidable (cl.Keeps e) :=
  match h : cl.task with
  | Task.sweep proxies | Task.closing proxies _ _ =>
      decidable_of_iff (¬ Stale proxies e) (by simp [Client.Keeps, h])
  | Task.evict _ | Task.apply _ _ | Task.reply _ | Task.serve | Task.leave
  | Task.cleanup _ | Task.cleaning _ _ | Task.gone =>
      isTrue (by simp [Client.Keeps, h])

/-- None of the hosts belongs to a proxy the client keeps. -/
def Client.KeepsOff (cl : Client) (lowered : List Text) : Prop :=
  forall e, e ∈ cl.regs -> cl.Keeps e -> e.spec.kind? = some Kind.vhost ->
    forall host, host ∈ e.spec.hosts -> rt.toLower host ∉ lowered

instance (cl : Client) (lowered : List Text) : Decidable (cl.KeepsOff rt lowered) :=
  inferInstanceAs (Decidable (forall e, e ∈ cl.regs -> cl.Keeps e ->
    e.spec.kind? = some Kind.vhost ->
      forall host, host ∈ e.spec.hosts -> rt.toLower host ∉ lowered))

/-- The hosts an update is about to drop. -/
def Task.dropping : Task -> Option (List Text)
  | Task.closing _ _ (Closer.dropHosts lowered :: _) => some lowered
  | _ => none

/-- The proxy an update is about to register. -/
def Task.registering : Task -> Option ProxySpec
  | Task.apply (p :: _) _ => some p
  | _ => none

/--
An update of the connection that holds its identity drops no host of a proxy it
keeps, and a connection that was evicted registers no host of a proxy that the
one holding its identity keeps.
-/
def SparesHosts (s : State) : Action -> Prop
  | Action.handler c HandlerAction.close =>
      forall cl, cl ∈ s.clients c -> forall lowered, lowered ∈ cl.task.dropping ->
        s.current cl.id = some c -> cl.KeepsOff rt lowered
  | Action.handler c HandlerAction.register =>
      forall cl, cl ∈ s.clients c -> forall p, p ∈ cl.task.registering ->
        p.kind? = some Kind.vhost ∧ ¬ Unchanged cl.regs p ->
        forall c', c' ∈ s.current cl.id -> c' ≠ c ->
          forall cl', cl' ∈ s.clients c' -> cl'.KeepsOff rt (p.hosts.map rt.toLower)
  | _ => True

instance (s : State) : forall a, Decidable (SparesHosts rt s a)
  | Action.handler c HandlerAction.close =>
      inferInstanceAs (Decidable (forall cl, cl ∈ s.clients c ->
        forall lowered, lowered ∈ cl.task.dropping ->
          s.current cl.id = some c -> cl.KeepsOff rt lowered))
  | Action.handler c HandlerAction.register =>
      inferInstanceAs (Decidable (forall cl, cl ∈ s.clients c ->
        forall p, p ∈ cl.task.registering ->
          p.kind? = some Kind.vhost ∧ ¬ Unchanged cl.regs p ->
          forall c', c' ∈ s.current cl.id -> c' ≠ c ->
            forall cl', cl' ∈ s.clients c' ->
              cl'.KeepsOff rt (p.hosts.map rt.toLower)))
  | Action.hello _ _ _ _ _ _ _ _ _ => inferInstanceAs (Decidable True)
  | Action.traffic _ => inferInstanceAs (Decidable True)
  | Action.handler _ HandlerAction.evict => inferInstanceAs (Decidable True)
  | Action.handler _ (HandlerAction.sweep _) => inferInstanceAs (Decidable True)
  | Action.handler _ HandlerAction.sweepDone => inferInstanceAs (Decidable True)
  | Action.handler _ HandlerAction.applied => inferInstanceAs (Decidable True)
  | Action.handler _ (HandlerAction.reply _) => inferInstanceAs (Decidable True)
  | Action.handler _ (HandlerAction.update _ _ _) => inferInstanceAs (Decidable True)
  | Action.handler _ HandlerAction.disconnect => inferInstanceAs (Decidable True)
  | Action.handler _ HandlerAction.leave => inferInstanceAs (Decidable True)
  | Action.handler _ (HandlerAction.cleanup _) => inferInstanceAs (Decidable True)
  | Action.handler _ HandlerAction.cleanupDone => inferInstanceAs (Decidable True)

/-!
# Who holds an identity

A connection takes its identity over before it registers anything and gives it
up before it cleans up.
-/

/-- The task of a connection that may hold its identity. -/
def Task.Holding : Task -> Prop
  | Task.evict _ | Task.cleanup _ | Task.cleaning _ _ | Task.gone => False
  | Task.sweep _ | Task.closing _ _ _ | Task.apply _ _ | Task.reply _ | Task.serve
  | Task.leave => True

structure HolderInv (s : State) : Prop where
  holder : forall id c, s.current id = some c ->
    exists cl, s.clients c = some cl ∧ cl.id = id ∧ cl.task.Holding
  arriving : forall c cl proxies, s.clients c = some cl ->
    cl.task = Task.evict proxies -> cl.regs = []

/-- The hosts of the proxies that are kept stay with the holders of identities. -/
def KeptRouted (s : State) : Prop :=
  forall c cl, s.clients c = some cl -> s.current cl.id = some c ->
    forall e, e ∈ cl.regs -> cl.Keeps e -> e.spec.kind? = some Kind.vhost ->
      forall host, host ∈ e.spec.hosts -> s.shared.HeldBy (rt.toLower host) c

end Routing

section Proof

variable {cfg : Config} {rt : Runtime} {foreign : Kind -> Int -> Bool}

theorem holderInv_initial : HolderInv initial :=
  { holder := by simp [initial]
    arriving := by simp [initial] }

/-- What holds an identity is the client it was. -/
theorem HolderInv.task {s : State} (h : HolderInv s) {c : Nat} {cl : Client}
    (hcl : s.clients c = some cl) {id : Text} (hcurrent : s.current id = some c) :
    cl.id = id ∧ cl.task.Holding := by
  rcases h.holder id c hcurrent with ⟨cl', hcl', hid, hholds⟩
  rw [hcl] at hcl'
  cases hcl'
  exact ⟨hid, hholds⟩

theorem HolderInv.step {s : State} (h : HolderInv s) {c : Nat} {cl new : Client}
    (hcl : s.clients c = some cl) (hid : new.id = cl.id)
    (hholding : cl.task.Holding -> new.task.Holding)
    (harriving : forall proxies, new.task ≠ Task.evict proxies) :
    HolderInv (s.setClient c new) := by
  refine
    { holder := ?_
      arriving := ?_ }
  · intro id c' hcurrent
    rcases h.holder id c' hcurrent with ⟨cl', hcl', hid', hholds⟩
    by_cases hc : c' = c
    · subst hc
      rw [hcl] at hcl'
      cases hcl'
      exact ⟨new, by simp [State.setClient], hid.trans hid', hholding hholds⟩
    · exact ⟨cl', by simp [State.setClient, Function.update_of_ne hc, hcl'], hid', hholds⟩
  · intro c' cl' proxies hcl' htask
    rcases lookup_started hcl' with ⟨_, rfl⟩ | ⟨_, hold⟩
    · exact absurd htask (harriving proxies)
    · exact h.arriving c' cl' proxies hold htask

/-- Another connection after an eviction is as it was, but for its socket. -/
theorem evictOld_other {s : State} {c c' : Nat} {id : Text} {cl' : Client}
    (hcl' : (s.evictOld c id).clients c' = some cl') :
    exists old, s.clients c' = some old ∧ cl'.id = old.id ∧ cl'.regs = old.regs ∧
      cl'.task = old.task := by
  rcases evictOld_clients s c id c' with heq | ⟨_, old, hold, heq⟩
  · exact ⟨cl', heq.symm.trans hcl', rfl, rfl, rfl⟩
  · rw [heq] at hcl'
    cases hcl'
    exact ⟨old, hold, rfl, rfl, rfl⟩

theorem HolderInv.withShared {s : State} (h : HolderInv s) (shared : Shared) :
    HolderInv { s with shared := shared } :=
  { holder := h.holder
    arriving := h.arriving }

theorem HolderInv.evict {s : State} (h : HolderInv s) {c : Nat} {cl : Client}
    {proxies : List ProxySpec} (hcl : s.clients c = some cl) :
    HolderInv { (s.evictOld c cl.id).setClient c
        { cl with task := Task.sweep proxies } with
      current := Function.update s.current cl.id (some c) } := by
  refine
    { holder := ?_
      arriving := ?_ }
  · intro id c' hcurrent
    by_cases hid : id = cl.id
    · subst hid
      simp only [Function.update_self, Option.some.injEq] at hcurrent
      subst hcurrent
      exact ⟨{ cl with task := Task.sweep proxies }, by simp [State.setClient], rfl,
        trivial⟩
    · simp only [Function.update_of_ne hid] at hcurrent
      rcases h.holder id c' hcurrent with ⟨cl', hcl', hid', hholds⟩
      have hc : c' ≠ c := by
        intro hsame
        subst hsame
        exact hid ((h.task hcl hcurrent).left.symm)
      rcases evictOld_clients s c cl.id c' with heq | ⟨_, old, hold, heq⟩
      · exact ⟨cl', by simp [State.setClient, Function.update_of_ne hc, heq, hcl'],
          hid', hholds⟩
      · rw [hcl'] at hold
        cases hold
        exact ⟨{ cl' with ctrlOpen := false },
          by simp [State.setClient, Function.update_of_ne hc, heq], hid', hholds⟩
  · intro c' cl' ps hcl' htask
    rcases lookup_started hcl' with ⟨_, rfl⟩ | ⟨_, hold'⟩
    · cases htask
    · rcases evictOld_other hold' with ⟨old, hold, _, hregs, htasks⟩
      rw [hregs]
      exact h.arriving c' old ps hold (htasks.symm.trans htask)

/-- Whoever holds an identity after a connection has left held it before. -/
theorem HolderInv.before_leave {s : State} (h : HolderInv s) {c : Nat} {cl : Client}
    (hcl : s.clients c = some cl) {id : Text} {c' : Nat}
    (hcurrent : (if s.current cl.id = some c then Function.update s.current cl.id none
      else s.current) id = some c') :
    s.current id = some c' ∧ c' ≠ c := by
  split at hcurrent
  · rcases lookup_ended hcurrent with ⟨hne, hold⟩
    refine ⟨hold, ?_⟩
    intro heq
    subst heq
    exact hne (h.task hcl hold).left.symm
  · rename_i hnot
    refine ⟨hcurrent, ?_⟩
    intro heq
    subst heq
    exact hnot ((h.task hcl hcurrent).left ▸ hcurrent)

theorem HolderInv.leave {s : State} (h : HolderInv s) {c : Nat} {cl : Client}
    (hcl : s.clients c = some cl) (todo : List Text) :
    HolderInv { s.setClient c { cl with task := Task.cleanup todo } with
      current :=
        if s.current cl.id = some c then
          Function.update s.current cl.id none
        else
          s.current } := by
  refine
    { holder := ?_
      arriving := ?_ }
  · intro id c' hcurrent
    rcases h.before_leave hcl hcurrent with ⟨hold, hc⟩
    rcases h.holder id c' hold with ⟨cl', hcl', hid, hholds⟩
    exact ⟨cl', by simp [State.setClient, Function.update_of_ne hc, hcl'], hid, hholds⟩
  · intro c' cl' ps hcl' htask
    rcases lookup_started hcl' with ⟨_, rfl⟩ | ⟨_, hold⟩
    · cases htask
    · exact h.arriving c' cl' ps hold htask

theorem holderInv_handlerStep {s t : State} {c : Nat} {cl : Client}
    {a : HandlerAction} (h : HolderInv s) (hcl : s.clients c = some cl)
    (hstep : HandlerStep cfg rt foreign s c cl a t) : HolderInv t := by
  have hcleaning (htask : ¬ cl.task.Holding) {new : Client} :
      cl.task.Holding -> new.task.Holding := fun hholds => absurd hholds htask
  cases hstep with
  | evict => exact h.evict hcl
  | refused => exact h
  | leave => exact h.leave hcl _
  | reply =>
      refine h.step hcl rfl (fun _ => ?_) (fun _ => ?_)
      · split <;> trivial
      · split <;> simp
  | cleanup htask =>
      refine h.step hcl rfl (hcleaning ?_) (fun _ => by simp)
      simp [htask, Task.Holding]
  | cleaning htask =>
      refine (h.withShared _).step hcl rfl (hcleaning ?_) (fun _ => by simp)
      simp [htask, Task.Holding]
  | cleaned htask =>
      refine h.step hcl rfl (hcleaning ?_) (fun _ => by simp)
      simp [htask, Task.Holding]
  | gone htask =>
      refine h.step hcl rfl (hcleaning ?_) (fun _ => by simp)
      simp [htask, Task.Holding]
  | closing =>
      exact (h.withShared _).step hcl rfl (fun _ => trivial) (fun _ => by simp)
  | register =>
      exact (h.withShared _).step hcl rfl (fun _ => trivial) (fun _ => by simp)
  | _ => exact h.step hcl rfl (fun _ => trivial) (fun _ => by simp)

theorem holderInv_step {s t : State} {a : Action} (h : HolderInv s)
    (hstep : step cfg rt foreign s a = some t) : HolderInv t := by
  cases a with
  | hello c cert token grant clientId fresh revoked proxies now =>
      rcases step_hello hstep with rfl | ⟨cl, hnone, rfl, hadmit⟩
      · exact h
      · rcases admitHello_ok hadmit with ⟨g, _, rfl⟩
        refine
          { holder := ?_
            arriving := ?_ }
        · intro id c' hcurrent
          rcases h.holder id c' hcurrent with ⟨cl', hcl', hid, hholds⟩
          have hc : c' ≠ c := by
            intro heq
            subst heq
            rw [hnone] at hcl'
            cases hcl'
          exact ⟨cl', by simp [State.setClient, Function.update_of_ne hc, hcl'], hid,
            hholds⟩
        · intro c' cl' ps hcl' htask
          rcases lookup_started hcl' with ⟨_, rfl⟩ | ⟨_, hold⟩
          · rfl
          · exact h.arriving c' cl' ps hold htask
  | handler c action =>
      rcases step_handler hstep with ⟨cl, hcl, hcase⟩
      exact holderInv_handlerStep h hcl hcase
  | traffic action =>
      rcases step_traffic hstep with ⟨_, hclients, hcurrents⟩
      refine
        { holder := ?_
          arriving := ?_ }
      · rw [hcurrents, hclients]
        exact h.holder
      · rw [hclients]
        exact h.arriving

/-!
# What is kept stays routed
-/

/-- A step of one handler, given what it keeps of its own hosts and of the
others'. -/
theorem KeptRouted.step {s : State} (h : KeptRouted rt s) {c : Nat} (cl new : Client)
    (shared : Shared) (hid : new.id = cl.id)
    (hown : s.current cl.id = some c -> forall e, e ∈ new.regs -> new.Keeps e ->
      e.spec.kind? = some Kind.vhost -> forall host, host ∈ e.spec.hosts ->
        shared.HeldBy (rt.toLower host) c)
    (hothers : forall c' cl' host, c' ≠ c -> s.clients c' = some cl' ->
      s.current cl'.id = some c' -> ¬ cl'.KeepsOff rt [host] ->
      s.shared.HeldBy host c' -> shared.HeldBy host c') :
    KeptRouted rt { s.setClient c new with shared := shared } := by
  intro c' cl' hcl' hcurrent e he hkeeps hkind host hhost
  rcases lookup_started hcl' with ⟨rfl, rfl⟩ | ⟨hc, hold⟩
  · exact hown (hid ▸ hcurrent) e he hkeeps hkind host hhost
  · refine hothers c' cl' _ hc hold hcurrent ?_
      (h c' cl' hold hcurrent e he hkeeps hkind host hhost)
    intro hoff
    exact hoff e he hkeeps hkind host hhost (List.mem_singleton.mpr rfl)

/-- A step of a handler that leaves the hosts alone and keeps no more entries. -/
theorem KeptRouted.quietStep {s : State} (h : KeptRouted rt s) {c : Nat}
    {cl new : Client} (hcl : s.clients c = some cl) (hid : new.id = cl.id)
    (hregs : forall e, e ∈ new.regs -> new.Keeps e -> e ∈ cl.regs ∧ cl.Keeps e) :
    KeptRouted rt (s.setClient c new) := by
  refine h.step cl new s.shared hid ?_ (fun _ _ _ _ _ _ _ hheld => hheld)
  intro hcurrent e he hkeeps hkind host hhost
  rcases hregs e he hkeeps with ⟨hold, hkept⟩
  exact h c cl hcl hcurrent e hold hkept hkind host hhost

/-- A closer of an entry that is being removed. -/
theorem KeptRouted.closerStep {s : State} (h : KeptRouted rt s) {c : Nat}
    {cl new : Client} {closer : Closer} (hcl : s.clients c = some cl)
    (hid : new.id = cl.id)
    (hregs : new.regs = cl.regs) (hkeeps : forall e, new.Keeps e <-> cl.Keeps e)
    (hspares : s.current cl.id = some c ->
      forall lowered, closer = Closer.dropHosts lowered -> cl.KeepsOff rt lowered) :
    KeptRouted rt { s.setClient c new with shared := closer.run c s.shared } := by
  apply h.step cl new _ hid
  · intro hcurrent e he hkept hkind host hhost
    rw [hregs] at he
    rw [hkeeps] at hkept
    apply Closer.run_heldBy (h c cl hcl hcurrent e he hkept hkind host hhost)
    intro _ lowered hcloser
    exact hspares hcurrent lowered hcloser e he hkept hkind host hhost
  · intro c' cl' host hc _ _ _ hheld
    exact Closer.run_heldBy hheld fun heq => absurd heq hc

/-- The registration loop on a proxy that is not registered as it is. -/
theorem KeptRouted.registerStep {s : State} (h : KeptRouted rt s) {c : Nat}
    {cl : Client} {p : ProxySpec} {rest : List ProxySpec}
    {statuses statuses' : List ProxyStatus}
    (hcl : s.clients c = some cl) (htask : cl.task = Task.apply (p :: rest) statuses)
    (hspares : p.kind? = some Kind.vhost -> forall c', s.current cl.id = some c' ->
      c' ≠ c -> forall cl', s.clients c' = some cl' ->
        cl'.KeepsOff rt (p.hosts.map rt.toLower)) :
    KeptRouted rt { s.setClient c { cl with
        regs := cl.regs.record
          (register rt foreign s.identity (cl.registrar c) p s.shared).2.1
        task := Task.apply rest statuses' } with
      shared := (register rt foreign s.identity (cl.registrar c) p s.shared).1 } := by
  refine h.step cl _ _ rfl ?_ ?_
  · intro hcurrent e he _ hkind host hhost
    have hold : e ∈ cl.regs ->
        (register rt foreign s.identity (cl.registrar c) p s.shared).1.HeldBy
          (rt.toLower host) c := by
      intro hmem
      have hkept : cl.Keeps e := by simp [Client.Keeps, htask]
      rcases register_heldBy rt foreign s.identity (cl.registrar c) p s.shared
          (h c cl hcl hcurrent e hmem hkept hkind host hhost) with
        hheld | ⟨hheld, _⟩
      · exact hheld
      · exact hheld
    cases hentry : (register rt foreign s.identity (cl.registrar c) p s.shared).2.1 with
    | none =>
        simp only [hentry, Regs.record] at he
        exact hold he
    | some e' =>
        simp only [hentry, Regs.record, Regs.set] at he
        rcases List.mem_cons.mp he with rfl | he
        · rcases register_entry hentry with ⟨rfl, _, hhosts⟩
          exact hhosts hkind host hhost
        · exact hold (List.mem_filter.mp he).left
  · intro c' cl' host hc hcl' hcurrent hkeeps hheld
    rcases register_heldBy rt foreign s.identity (cl.registrar c) p s.shared hheld with hheld | ⟨_, hkind, hmem, hid⟩
    · exact hheld
    · have hsame : cl'.id = cl.id := by
        simpa [State.identity, hcl', Client.registrar] using hid
      refine absurd ?_ hkeeps
      intro e he hkept hvhost other hother hin
      rw [List.mem_singleton] at hin
      have hoff := hspares hkind c' (hsame ▸ hcurrent) hc cl' hcl' e he hkept hvhost other
        hother
      exact hoff (hin ▸ hmem)

/-- A connection takes over its identity with nothing registered yet. -/
theorem KeptRouted.evict {s : State} (h : KeptRouted rt s) (hholders : HolderInv s)
    {c : Nat} {cl : Client} {proxies : List ProxySpec} (hcl : s.clients c = some cl)
    (htask : cl.task = Task.evict proxies) :
    KeptRouted rt { (s.evictOld c cl.id).setClient c
        { cl with task := Task.sweep proxies } with
      current := Function.update s.current cl.id (some c) } := by
  intro c' cl' hcl' hcurrent e he hkeeps hkind host hhost
  rcases lookup_started hcl' with ⟨_, rfl⟩ | ⟨hc, hold'⟩
  · rw [hholders.arriving c cl proxies hcl htask] at he
    cases he
  · rcases evictOld_other hold' with ⟨old, hold, hid, hregs, htasks⟩
    have hne : cl'.id ≠ cl.id := by
      intro heq
      simp only [heq, Function.update_self, Option.some.injEq] at hcurrent
      exact hc hcurrent.symm
    simp only [Function.update_of_ne hne] at hcurrent
    rw [hid] at hcurrent
    have hkept : old.Keeps e := by simpa [Client.Keeps, htasks] using hkeeps
    have hheld := h c' old hold hcurrent e (hregs ▸ he) hkept hkind host hhost
    simpa [State.setClient] using hheld

/-- A connection gives its identity up before it cleans up. -/
theorem KeptRouted.leave {s : State} (h : KeptRouted rt s) (hholders : HolderInv s)
    {c : Nat} {cl : Client} (hcl : s.clients c = some cl) (todo : List Text) :
    KeptRouted rt { s.setClient c { cl with task := Task.cleanup todo } with
      current :=
        if s.current cl.id = some c then
          Function.update s.current cl.id none
        else
          s.current } := by
  intro c' cl' hcl' hcurrent e he hkeeps hkind host hhost
  rcases hholders.before_leave hcl hcurrent with ⟨hold, hc⟩
  rcases lookup_started hcl' with ⟨heq, _⟩ | ⟨_, hcl''⟩
  · exact absurd heq hc
  · exact h c' cl' hcl'' hold e he hkeeps hkind host hhost

theorem keptRouted_handlerStep {s t : State} {c : Nat} {cl : Client}
    {a : HandlerAction} (h : KeptRouted rt s) (hholders : HolderInv s)
    (hcl : s.clients c = some cl) (hG : SparesHosts rt s (Action.handler c a))
    (hstep : HandlerStep cfg rt foreign s c cl a t) : KeptRouted rt t := by
  cases hstep with
  | evict htask => exact h.evict hholders hcl htask
  | refused _ _ => exact h
  | leave _ => exact h.leave hholders hcl _
  | sweep htask _ _ =>
      refine h.quietStep hcl rfl fun e he hkeeps => ⟨he, ?_⟩
      simpa [Client.Keeps, htask] using hkeeps
  | sweepDone htask hfresh =>
      refine h.quietStep hcl rfl fun e he _ => ⟨he, ?_⟩
      simpa [Client.Keeps, htask] using hfresh e he
  | closing htask =>
      refine h.closerStep hcl rfl rfl ?_ ?_
      · intro e
        simp [Client.Keeps, htask]
      · intro hcurrent lowered heq
        subst heq
        exact hG cl hcl lowered (by simp [htask, Task.dropping]) hcurrent
  | closed htask =>
      refine h.quietStep hcl rfl fun e he hkeeps => ⟨(List.mem_filter.mp he).left, ?_⟩
      simpa [Client.Keeps, htask] using hkeeps
  | register htask hchanged =>
      apply h.registerStep hcl htask
      intro hkind c' hcurrent hc cl' hcl'
      exact hG cl hcl _ (by simp [htask, Task.registering]) ⟨hkind, hchanged⟩ c' hcurrent
        hc cl' hcl'
  | cleaning htask =>
      refine h.closerStep hcl rfl rfl ?_ ?_
      · intro e
        simp [Client.Keeps, htask]
      · intro hcurrent
        have hholds := (hholders.task hcl hcurrent).right
        simp [htask, Task.Holding] at hholds
  | gone _ => exact h.quietStep hcl rfl fun e he _ => by cases he
  | unchanged htask _ =>
      exact h.quietStep hcl rfl fun e he _ => ⟨he, by simp [Client.Keeps, htask]⟩
  | applied htask =>
      exact h.quietStep hcl rfl fun e he _ => ⟨he, by simp [Client.Keeps, htask]⟩
  | reply htask =>
      exact h.quietStep hcl rfl fun e he _ => ⟨he, by simp [Client.Keeps, htask]⟩
  | update htask _ =>
      exact h.quietStep hcl rfl fun e he _ => ⟨he, by simp [Client.Keeps, htask]⟩
  | disconnect htask =>
      exact h.quietStep hcl rfl fun e he _ => ⟨he, by simp [Client.Keeps, htask]⟩
  | cleanup htask _ _ =>
      exact h.quietStep hcl rfl fun e he _ => ⟨he, by simp [Client.Keeps, htask]⟩
  | cleaned htask =>
      exact h.quietStep hcl rfl fun e he _ => ⟨he, by simp [Client.Keeps, htask]⟩

theorem keptRouted_step {s t : State} {a : Action} (h : KeptRouted rt s)
    (hholders : HolderInv s) (hG : SparesHosts rt s a)
    (hstep : step cfg rt foreign s a = some t) : KeptRouted rt t := by
  cases a with
  | hello c cert token grant clientId fresh revoked proxies now =>
      rcases step_hello hstep with rfl | ⟨cl, hnone, rfl, hadmit⟩
      · exact h
      · rcases admitHello_ok hadmit with ⟨g, _, rfl⟩
        intro c' cl' hcl' hcurrent e he hkeeps hkind host hhost
        rcases lookup_started hcl' with ⟨_, rfl⟩ | ⟨_, hold⟩
        · cases he
        · exact h c' cl' hold hcurrent e he hkeeps hkind host hhost
  | handler c action =>
      rcases step_handler hstep with ⟨cl, hcl, hcase⟩
      exact keptRouted_handlerStep h hholders hcl hG hcase
  | traffic action =>
      rcases step_traffic hstep with ⟨hshared, hclients, hcurrents⟩
      unfold KeptRouted
      rw [hcurrents, hclients, hshared]
      exact h

theorem KeptRouted.routed {s : State} (h : KeptRouted rt s) (hquiet : Quiet s) :
    Routed rt s := by
  intro c cl hcl hcurrent e he hkind host hhost
  refine h c cl hcl hcurrent e he ?_ hkind host hhost
  have hidle := hquiet c cl hcl
  unfold Client.Keeps
  split
  · rename_i htask
    simp [htask, Task.Busy] at hidle
  · rename_i htask
    simp [htask, Task.Busy] at hidle
  · trivial

/--
In a run whose updates and evicted connections spare the hosts that are kept,
every registered http proxy is routed whenever no handler is busy.
-/
theorem routed_of_sparesHosts {s : State} {actions : List Action}
    (hinit : (machine cfg rt foreign).init s)
    (hobeys : (machine cfg rt foreign).Obeys (SparesHosts rt) s actions) :
    (machine cfg rt foreign).Always (fun s => Quiet s -> Routed rt s) s actions := by
  rcases hinit with rfl
  have hinv := Machine.always_of_obeys (M := machine cfg rt foreign)
    (I := fun s => HolderInv s ∧ KeptRouted rt s)
    (fun _ _ _ h hG hstep =>
      ⟨holderInv_step h.left hstep, keptRouted_step h.right h.left hG hstep⟩)
    ⟨holderInv_initial, by simp [KeptRouted, initial]⟩ hobeys
  exact hinv.imp fun _ h => h.right.routed

end Proof

def plainRuntime : Runtime where
  hmac _ _ := []
  unicodeLower c := c
  listenError := []

def site (name : String) (domains : List String) : ProxySpec where
  name := name.toList
  type := "http".toList
  localAddr := "127.0.0.1:80".toList
  remotePort := 0
  subdomain := []
  customDomains := domains.map String.toList

/-- A connection of one identity registers its proxies and is answered. -/
def registerAll (c : Nat) (cert : String) (proxies : List ProxySpec) : List Action :=
  [Action.hello c cert.toList [] [] [] [] false proxies 0,
    Action.handler c HandlerAction.evict, Action.handler c HandlerAction.sweepDone] ++
    proxies.map (fun _ => Action.handler c HandlerAction.register) ++
    [Action.handler c HandlerAction.applied, Action.handler c (HandlerAction.reply true)]

/-- An update that removes one proxy and keeps another. -/
def removeOne (c : Nat) (kept : ProxySpec) (removed : String) : List Action :=
  [Action.handler c (HandlerAction.update [] [kept] 0),
    Action.handler c (HandlerAction.sweep removed.toList),
    Action.handler c HandlerAction.close, Action.handler c HandlerAction.close,
    Action.handler c HandlerAction.sweepDone, Action.handler c HandlerAction.register,
    Action.handler c HandlerAction.applied, Action.handler c (HandlerAction.reply true)]

/-- Two identities register, one removes a proxy with hosts of its own. -/
theorem routed_of_separate_hosts :
    (machine ⟨[], []⟩ plainRuntime fun _ _ => false).Always
      (fun s => Quiet s -> Routed plainRuntime s) initial
      (registerAll 0 "agent.1" [site "t1" ["a.example"], site "t2" ["b.example"]] ++
        registerAll 1 "agent.2" [site "t3" ["c.example", "B.example"]] ++
        removeOne 0 (site "t1" ["a.example"]) "t2") :=
  routed_of_sparesHosts rfl (by decide +kernel)

def sharedHostRemoved : List Action :=
  registerAll 0 "agent.1"
      [site "t1" ["a.example"], site "t2" ["a.example", "b.example"]] ++
    removeOne 0 (site "t1" ["a.example"]) "t2"

/-- The client at the end of that run: it still holds the first proxy. -/
def remainingClient : Client where
  id := "agent.1".toList
  cert := "agent.1".toList
  grant := none
  under := ⟨[], 0⟩
  ctrlOpen := true
  regs := [⟨site "t1" ["a.example"], [Closer.dropHosts ["a.example".toList]]⟩]
  task := Task.serve

/-- Removing a proxy unroutes another one of the client that has its host. -/
theorem unrouted_after_removal :
    (machine ⟨[], []⟩ plainRuntime fun _ _ => false).init initial ∧
      exists t, (machine ⟨[], []⟩ plainRuntime fun _ _ => false).exec initial
          sharedHostRemoved = some t ∧
        Quiet t ∧ t.clients 0 = some remainingClient ∧ ¬ Routed plainRuntime t := by
  have hfinal : (((machine ⟨[], []⟩ plainRuntime fun _ _ => false).exec initial
      sharedHostRemoved).map fun t =>
        (t.clients 0, t.current "agent.1".toList, t.shared.vhosts "a.example".toList)) =
      some (some remainingClient, some 0, none) := by
    decide +kernel
  rcases Option.map_eq_some_iff.mp hfinal with ⟨t, hexec, hobserved⟩
  simp only [Prod.mk.injEq] at hobserved
  rcases hobserved with ⟨hclient, hcurrent, hvhost⟩
  refine ⟨rfl, t, hexec, ?_, hclient, ?_⟩
  · intro c cl hcl
    by_cases hc : c = 0
    · subst hc
      rw [hclient] at hcl
      cases hcl
      exact fun hbusy => hbusy
    · have hnone : t.clients c = none := by
        refine clients_of_exec hexec rfl fun a ha hopens => hc ?_
        have hzero : forall a, a ∈ sharedHostRemoved ->
            a.opens? = none ∨ a.opens? = some 0 := by decide +kernel
        rcases hzero a ha with heq | heq
        · simp [heq] at hopens
        · simpa [heq] using hopens.symm
      simp [hnone] at hcl
  · intro h
    rcases h 0 remainingClient hclient hcurrent _ List.mem_cons_self rfl
        "a.example".toList (by decide) with ⟨ref, href, _⟩
    have hlower : plainRuntime.toLower "a.example".toList = "a.example".toList := by
      decide
    rw [hlower, hvhost] at href
    cases href

end Server

end Engine
end RcTunnel
