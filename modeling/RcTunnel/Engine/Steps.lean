import RcTunnel.Engine.Server

/-!
# What the server's steps do

Every step is inverted once: into the row of {lit}`handlerStep` it took, and into
what it changes of the clients and of the shared state.  The invariants of the
later modules are proved from these.
-/

namespace RcTunnel
namespace Engine

open Foundation

namespace Server

/-!
# What a step can do

One constructor for each row of {lit}`handlerStep`, with the tests that lead to
it.
-/

inductive HandlerStep (cfg : Config) (rt : Runtime) (foreign : Kind -> Int -> Bool)
    (s : State) (c : Nat) (cl : Client) : HandlerAction -> State -> Prop where
  | evict {proxies : List ProxySpec} :
      cl.task = Task.evict proxies ->
      HandlerStep cfg rt foreign s c cl HandlerAction.evict
        { (s.evictOld c cl.id).setClient c { cl with task := Task.sweep proxies } with
          current := Function.update s.current cl.id (some c) }
  | sweep {proxies : List ProxySpec} {name : Text} {e : RegEntry} :
      cl.task = Task.sweep proxies -> cl.regs.get? name = some e -> Stale proxies e ->
      HandlerStep cfg rt foreign s c cl (HandlerAction.sweep name)
        (s.setClient c { cl with task := Task.closing proxies name e.closers })
  | sweepDone {proxies : List ProxySpec} :
      cl.task = Task.sweep proxies -> (forall e, e ∈ cl.regs -> ¬ Stale proxies e) ->
      HandlerStep cfg rt foreign s c cl HandlerAction.sweepDone
        (s.setClient c { cl with task := Task.apply proxies [] })
  | closing {proxies : List ProxySpec} {name : Text} {closer : Closer}
      {rest : List Closer} :
      cl.task = Task.closing proxies name (closer :: rest) ->
      HandlerStep cfg rt foreign s c cl HandlerAction.close
        { s.setClient c { cl with task := Task.closing proxies name rest } with
          shared := closer.run c s.shared }
  | closed {proxies : List ProxySpec} {name : Text} :
      cl.task = Task.closing proxies name [] ->
      HandlerStep cfg rt foreign s c cl HandlerAction.close
        (s.setClient c { cl with
          regs := cl.regs.delete name
          task := Task.sweep proxies })
  | unchanged {p : ProxySpec} {rest : List ProxySpec} {statuses : List ProxyStatus} :
      cl.task = Task.apply (p :: rest) statuses -> Unchanged cl.regs p ->
      HandlerStep cfg rt foreign s c cl HandlerAction.register
        (s.setClient c { cl with
          task := Task.apply rest (statuses ++ [accepted p]) })
  | register {p : ProxySpec} {rest : List ProxySpec} {statuses : List ProxyStatus} :
      cl.task = Task.apply (p :: rest) statuses -> ¬ Unchanged cl.regs p ->
      HandlerStep cfg rt foreign s c cl HandlerAction.register
        { s.setClient c { cl with
            regs := cl.regs.record
              (register rt foreign s.identity (cl.registrar c) p s.shared).2.1
            task := Task.apply rest (statuses ++
              [(register rt foreign s.identity (cl.registrar c) p s.shared).2.2]) } with
          shared := (register rt foreign s.identity (cl.registrar c) p s.shared).1 }
  | applied {statuses : List ProxyStatus} :
      cl.task = Task.apply [] statuses ->
      HandlerStep cfg rt foreign s c cl HandlerAction.applied
        (s.setClient c { cl with task := Task.reply statuses })
  | reply {statuses : List ProxyStatus} {ok : Bool} :
      cl.task = Task.reply statuses ->
      HandlerStep cfg rt foreign s c cl (HandlerAction.reply ok)
        (s.setClient c { cl with task := if ok then Task.serve else Task.leave })
  | refused {grant : Text} {proxies : List ProxySpec} {now : Int} {e : Text} :
      cl.task = Task.serve -> checkGrant cfg rt cl.id grant now = Except.error e ->
      HandlerStep cfg rt foreign s c cl (HandlerAction.update grant proxies now) s
  | update {grant : Text} {proxies : List ProxySpec} {now : Int} {g : Option Grant} :
      cl.task = Task.serve -> checkGrant cfg rt cl.id grant now = Except.ok g ->
      HandlerStep cfg rt foreign s c cl (HandlerAction.update grant proxies now)
        (s.setClient c { cl with
          grant := g
          under := ⟨grant, now⟩
          task := Task.sweep proxies })
  | disconnect :
      cl.task = Task.serve ->
      HandlerStep cfg rt foreign s c cl HandlerAction.disconnect
        (s.setClient c { cl with task := Task.leave })
  | leave :
      cl.task = Task.leave ->
      HandlerStep cfg rt foreign s c cl HandlerAction.leave
        { s.setClient c { cl with
            task := Task.cleanup (cl.regs.map fun e => e.spec.name) } with
          current :=
            if s.current cl.id = some c then
              Function.update s.current cl.id none
            else
              s.current }
  | cleanup {todo : List Text} {name : Text} {e : RegEntry} :
      cl.task = Task.cleanup todo -> name ∈ todo -> cl.regs.get? name = some e ->
      HandlerStep cfg rt foreign s c cl (HandlerAction.cleanup name)
        (s.setClient c { cl with
          task := Task.cleaning (todo.erase name) e.closers })
  | cleaning {todo : List Text} {closer : Closer} {rest : List Closer} :
      cl.task = Task.cleaning todo (closer :: rest) ->
      HandlerStep cfg rt foreign s c cl HandlerAction.close
        { s.setClient c { cl with task := Task.cleaning todo rest } with
          shared := closer.run c s.shared }
  | cleaned {todo : List Text} :
      cl.task = Task.cleaning todo [] ->
      HandlerStep cfg rt foreign s c cl HandlerAction.close
        (s.setClient c { cl with task := Task.cleanup todo })
  | gone :
      cl.task = Task.cleanup [] ->
      HandlerStep cfg rt foreign s c cl HandlerAction.cleanupDone
        (s.setClient c { cl with regs := [], task := Task.gone })

section Inversion

variable {cfg : Config} {rt : Runtime} {foreign : Kind -> Int -> Bool}

theorem handlerStep_cases {s t : State} {c : Nat} {cl : Client} {task : Task}
    {a : HandlerAction} (htask : cl.task = task)
    (h : handlerStep cfg rt foreign s c cl task a = some t) :
    HandlerStep cfg rt foreign s c cl a t := by
  unfold handlerStep at h
  split at h
  · cases h
    exact HandlerStep.evict htask
  · split at h
    · cases h
    · rename_i hget
      split at h
      · rename_i hstale
        cases h
        exact HandlerStep.sweep htask hget hstale
      · cases h
  · split at h
    · rename_i hfresh
      cases h
      exact HandlerStep.sweepDone htask hfresh
    · cases h
  · cases h
    exact HandlerStep.closing htask
  · cases h
    exact HandlerStep.closed htask
  · split at h
    · rename_i hsame
      cases h
      exact HandlerStep.unchanged htask hsame
    · rename_i hchanged
      cases h
      exact HandlerStep.register htask hchanged
  · cases h
    exact HandlerStep.applied htask
  · cases h
    exact HandlerStep.reply htask
  · split at h
    · rename_i hcheck
      cases h
      exact HandlerStep.refused htask hcheck
    · rename_i hcheck
      cases h
      exact HandlerStep.update htask hcheck
  · cases h
    exact HandlerStep.disconnect htask
  · cases h
    exact HandlerStep.leave htask
  · split at h
    · rename_i hmem
      split at h
      · cases h
      · rename_i hget
        cases h
        exact HandlerStep.cleanup htask (List.contains_iff_mem.mp hmem) hget
    · cases h
  · cases h
    exact HandlerStep.cleaning htask
  · cases h
    exact HandlerStep.cleaned htask
  · cases h
    exact HandlerStep.gone htask
  · cases h

theorem setClient_self (s : State) (c : Nat) (cl : Client) :
    (s.setClient c cl).clients c = some cl := by
  simp [State.setClient]

/-- Eviction changes clients only. -/
theorem evictOld_frame (s : State) (c : Nat) (id : Text) :
    exists clients, s.evictOld c id = { s with clients := clients } := by
  unfold State.evictOld
  split
  · exact ⟨s.clients, rfl⟩
  · split
    · exact ⟨s.clients, rfl⟩
    · split
      · exact ⟨s.clients, rfl⟩
      · exact ⟨_, rfl⟩

@[simp] theorem evictOld_shared (s : State) (c : Nat) (id : Text) :
    (s.evictOld c id).shared = s.shared := by
  rcases evictOld_frame s c id with ⟨clients, heq⟩
  rw [heq]

/-- Eviction closes at most one control connection, and not the new one. -/
theorem evictOld_clients (s : State) (c : Nat) (id : Text) (c' : Nat) :
    (s.evictOld c id).clients c' = s.clients c' ∨
      (c' ≠ c ∧ exists cl, s.clients c' = some cl ∧
        (s.evictOld c id).clients c' = some { cl with ctrlOpen := false }) := by
  unfold State.evictOld
  split
  · exact Or.inl rfl
  · rename_i old hold
    split
    · exact Or.inl rfl
    · rename_i hne
      split
      · exact Or.inl rfl
      · rename_i cl hcl
        by_cases hc : c' = old
        · subst hc
          exact Or.inr ⟨hne, cl, hcl, by simp [State.setClient]⟩
        · exact Or.inl (by simp [State.setClient, Function.update_of_ne hc])

/-- Handlers leave public and work connections alone. -/
theorem handlerStep_frame {s t : State} {c : Nat} {cl : Client} {a : HandlerAction}
    (h : HandlerStep cfg rt foreign s c cl a t) :
    t.pairings = s.pairings ∧ t.works = s.works ∧ t.handed = s.handed := by
  cases h with
  | evict =>
      rcases evictOld_frame s c cl.id with ⟨clients, heq⟩
      simp [State.setClient, heq]
  | _ => exact ⟨rfl, rfl, rfl⟩

theorem step_handler {s t : State} {c : Nat} {a : HandlerAction}
    (h : step cfg rt foreign s (Action.handler c a) = some t) :
    exists cl, s.clients c = some cl ∧ HandlerStep cfg rt foreign s c cl a t := by
  simp only [step] at h
  split at h
  · cases h
  · rename_i cl hcl
    exact ⟨cl, hcl, handlerStep_cases rfl h⟩

theorem step_hello {s t : State} {c : Nat} {cert token grant clientId fresh : Text}
    {revoked : Bool} {proxies : List ProxySpec} {now : Int}
    (h : step cfg rt foreign s
      (Action.hello c cert token grant clientId fresh revoked proxies now) = some t) :
    t = s ∨ exists cl, s.clients c = none ∧ t = s.setClient c cl ∧
      admitHello cfg rt cert token grant clientId fresh revoked proxies now =
        Except.ok cl := by
  simp only [step] at h
  split at h
  · cases h
  · rename_i hnone
    split at h
    · cases h
      exact Or.inl rfl
    · rename_i cl hadmit
      cases h
      exact Or.inr ⟨cl, not_not.mp hnone, rfl, hadmit⟩

theorem pair_cases {s t : State} {c : Nat} {proxy connId : Text}
    (h : s.pair c proxy connId = some t) :
    exists cl, s.clients c = some cl ∧ s.pairings connId = none ∧
      t = { s with
        pairings := Function.update s.pairings connId
          (some ⟨c, proxy, cl.id, true, none⟩) } := by
  unfold State.pair at h
  split at h
  · cases h
  · rename_i cl hcl
    split at h
    · cases h
    · rename_i hfree
      cases h
      exact ⟨cl, hcl, not_not.mp hfree, rfl⟩

/-- Every step of the traffic, with its guard. -/
inductive TrafficStep (cfg : Config) (rt : Runtime) (s : State) :
    TrafficAction -> State -> Prop where
  | accept {socket : Nat} {connId : Text} {k : Socket} {cl : Client} :
      (s.shared.sockets.find? fun k => k.id = socket) = some k ->
      s.clients k.client = some cl -> s.pairings connId = none ->
      TrafficStep cfg rt s (TrafficAction.accept socket connId)
        { s with
          pairings := Function.update s.pairings connId
            (some ⟨k.client, k.name, cl.id, true, none⟩) }
  | unrouted {host connId : Text} :
      s.shared.vhosts (vhostKey rt host) = none ->
      TrafficStep cfg rt s (TrafficAction.vhost host connId) s
  | vhost {host connId : Text} {ref : ProxyRef} {cl : Client} :
      s.shared.vhosts (vhostKey rt host) = some ref ->
      s.clients ref.client = some cl -> s.pairings connId = none ->
      TrafficStep cfg rt s (TrafficAction.vhost host connId)
        { s with
          pairings := Function.update s.pairings connId
            (some ⟨ref.client, ref.spec.name, cl.id, true, none⟩) }
  | forget {connId : Text} {pr : Pairing} :
      s.pairings connId = some pr ->
      TrafficStep cfg rt s (TrafficAction.forget connId)
        { s with
          pairings := Function.update s.pairings connId
            (some { pr with pending := false }) }
  | refused {w : Nat} {cert token connId : Text} {revoked : Bool} :
      ((cfg.token ≠ [] ∧ token ≠ cfg.token) ∨ revoked = true) ->
      TrafficStep cfg rt s (TrafficAction.work w cert token connId revoked) s
  | unknown {w : Nat} {cert token connId : Text} {revoked : Bool} :
      s.pairings connId = none ->
      TrafficStep cfg rt s (TrafficAction.work w cert token connId revoked) s
  | foreign {w : Nat} {cert token connId : Text} {revoked : Bool} {pr : Pairing} :
      s.pairings connId = some pr ->
      (pr.pending = false ∨ (pr.owner ≠ [] ∧ cert ≠ [] ∧ cert ≠ pr.owner)) ->
      TrafficStep cfg rt s (TrafficAction.work w cert token connId revoked) s
  | work {w : Nat} {cert token connId : Text} {revoked : Bool} {pr : Pairing} :
      s.works w = none -> s.pairings connId = some pr -> pr.pending = true ->
      (pr.owner ≠ [] -> cert ≠ [] -> cert = pr.owner) ->
      TrafficStep cfg rt s (TrafficAction.work w cert token connId revoked)
        { s with works := Function.update s.works w (some ⟨cert, connId⟩) }
  | late {w : Nat} {work : Work} {pr : Pairing} :
      s.works w = some work -> s.pairings work.connId = some pr -> pr.ready ≠ none ->
      TrafficStep cfg rt s (TrafficAction.handoff w)
        { s with works := Function.update s.works w none }
  | handoff {w : Nat} {work : Work} {pr : Pairing} :
      s.works w = some work -> s.pairings work.connId = some pr -> pr.ready = none ->
      TrafficStep cfg rt s (TrafficAction.handoff w)
        { s with
          pairings := Function.update s.pairings work.connId
            (some { pr with ready := some w })
          works := Function.update s.works w none
          handed := (work, work.connId) :: s.handed }
  | receive {connId : Text} {pr : Pairing} :
      s.pairings connId = some pr ->
      TrafficStep cfg rt s (TrafficAction.receive connId)
        { s with
          pairings := Function.update s.pairings connId
            (some { pr with ready := none }) }

theorem trafficStep_cases {s t : State} {a : TrafficAction}
    (h : trafficStep cfg rt s a = some t) : TrafficStep cfg rt s a t := by
  cases a with
  | accept socket connId =>
      simp only [trafficStep] at h
      split at h
      · cases h
      · rename_i k hk
        rcases pair_cases h with ⟨cl, hcl, hfree, rfl⟩
        exact TrafficStep.accept hk hcl hfree
  | vhost host connId =>
      simp only [trafficStep] at h
      split at h
      · rename_i hnone
        cases h
        exact TrafficStep.unrouted hnone
      · rename_i ref href
        rcases pair_cases h with ⟨cl, hcl, hfree, rfl⟩
        exact TrafficStep.vhost href hcl hfree
  | forget connId =>
      simp only [trafficStep] at h
      split at h
      · cases h
      · rename_i pr hpr
        cases h
        exact TrafficStep.forget hpr
  | work w cert token connId revoked =>
      simp only [trafficStep] at h
      split at h
      · cases h
      · rename_i hw
        split at h
        · rename_i hrefused
          cases h
          exact TrafficStep.refused hrefused
        · split at h
          · rename_i hnone
            cases h
            exact TrafficStep.unknown hnone
          · rename_i pr hpr
            split at h
            · rename_i hforeign
              cases h
              exact TrafficStep.foreign hpr hforeign
            · rename_i hcheck
              cases h
              rw [not_or, not_and, not_and, not_not, Bool.not_eq_false] at hcheck
              exact TrafficStep.work (not_not.mp hw) hpr hcheck.left hcheck.right
  | handoff w =>
      simp only [trafficStep] at h
      split at h
      · cases h
      · rename_i work hwork
        split at h
        · cases h
        · rename_i pr hpr
          split at h
          · rename_i hready
            cases h
            exact TrafficStep.late hwork hpr hready
          · rename_i hready
            cases h
            exact TrafficStep.handoff hwork hpr (not_not.mp hready)
  | receive connId =>
      simp only [trafficStep] at h
      split at h
      · cases h
      · rename_i pr hpr
        cases h
        exact TrafficStep.receive hpr

/-- Public and work connections leave clients and registrations alone. -/
theorem step_traffic {s t : State} {a : TrafficAction}
    (h : trafficStep cfg rt s a = some t) :
    t.shared = s.shared ∧ t.clients = s.clients ∧ t.current = s.current := by
  cases trafficStep_cases h <;> exact ⟨rfl, rfl, rfl⟩

theorem admitHello_ok {cert token grant clientId fresh : Text} {revoked : Bool}
    {proxies : List ProxySpec} {now : Int} {cl : Client}
    (h : admitHello cfg rt cert token grant clientId fresh revoked proxies now =
      Except.ok cl) :
    exists g, checkGrant cfg rt (identify cert clientId fresh) grant now = Except.ok g ∧
      cl = { id := identify cert clientId fresh
             cert := cert
             grant := g
             under := ⟨grant, now⟩
             ctrlOpen := true
             regs := []
             task := Task.evict proxies } := by
  unfold admitHello at h
  split at h
  · cases h
  · split at h
    · cases h
    · split at h
      · cases h
      · rename_i g hcheck
        cases h
        exact ⟨g, hcheck, rfl⟩

end Inversion

/-!
# How a step changes the clients
-/

/-- The grant a client registers under is the one of its last message. -/
def Client.Checked (cfg : Config) (rt : Runtime) (cl : Client) : Prop :=
  checkGrant cfg rt cl.id cl.under.grant cl.under.now = Except.ok cl.grant

/-- The same connection later on. -/
structure Follows (cfg : Config) (rt : Runtime) (old new : Client) : Prop where
  id : new.id = old.id
  cert : new.cert = old.cert
  checked : old.Checked cfg rt -> new.Checked cfg rt

section Steps

variable {cfg : Config} {rt : Runtime} {foreign : Kind -> Int -> Bool}

theorem follows_same {old new : Client} (hid : new.id = old.id)
    (hcert : new.cert = old.cert) (hgrant : new.grant = old.grant)
    (hunder : new.under = old.under) : Follows cfg rt old new :=
  { id := hid
    cert := hcert
    checked := fun h => by
      unfold Client.Checked at h ⊢
      rw [hid, hgrant, hunder]
      exact h }

/-- A handler changes its own client, and closes an evicted connection. -/
theorem handlerStep_touches {s t : State} {c : Nat} {cl : Client}
    {a : HandlerAction} (h : HandlerStep cfg rt foreign s c cl a t) :
    t = s ∨ exists base new, (base = s ∨ base = s.evictOld c cl.id) ∧
      t.clients = Function.update base.clients c (some new) ∧
      Follows cfg rt cl new := by
  cases h with
  | evict => exact Or.inr ⟨_, _, Or.inr rfl, rfl, follows_same rfl rfl rfl rfl⟩
  | refused => exact Or.inl rfl
  | update _ hcheck =>
      exact Or.inr ⟨s, _, Or.inl rfl, rfl,
        { id := rfl
          cert := rfl
          checked := fun _ => hcheck }⟩
  | _ => exact Or.inr ⟨s, _, Or.inl rfl, rfl, follows_same rfl rfl rfl rfl⟩

theorem rel_refl (clients : Nat -> Option Client) (c : Nat) :
    Option.Rel (Follows cfg rt) (clients c) (clients c) := by
  cases clients c with
  | none => exact Option.Rel.none
  | some cl => exact Option.Rel.some (follows_same rfl rfl rfl rfl)

theorem handlerStep_clients {s t : State} {c : Nat} {cl : Client}
    {a : HandlerAction} (hcl : s.clients c = some cl)
    (h : HandlerStep cfg rt foreign s c cl a t) (c' : Nat) :
    Option.Rel (Follows cfg rt) (s.clients c') (t.clients c') := by
  rcases handlerStep_touches h with rfl | ⟨base, new, hbase, hclients, hfollows⟩
  · exact rel_refl _ c'
  · rw [hclients]
    by_cases hc : c' = c
    · subst hc
      rw [Function.update_self, hcl]
      exact Option.Rel.some hfollows
    · rw [Function.update_of_ne hc]
      rcases hbase with rfl | rfl
      · exact rel_refl _ c'
      · rcases evictOld_clients s c cl.id c' with heq | ⟨_, other, hother, heq⟩
        · rw [heq]
          exact rel_refl _ c'
        · rw [heq, hother]
          exact Option.Rel.some (follows_same rfl rfl rfl rfl)

/-- Clients keep their identities, and new ones come from admitted hellos. -/
theorem step_clients {s t : State} {a : Action}
    (h : step cfg rt foreign s a = some t) (c' : Nat) :
    Option.Rel (Follows cfg rt) (s.clients c') (t.clients c') ∨
      exists cert token grant clientId fresh revoked proxies now cl,
        a = Action.hello c' cert token grant clientId fresh revoked proxies now ∧
        s.clients c' = none ∧ t.clients c' = some cl ∧
        admitHello cfg rt cert token grant clientId fresh revoked proxies now =
          Except.ok cl := by
  cases a with
  | hello c cert token grant clientId fresh revoked proxies now =>
      rcases step_hello h with rfl | ⟨cl, hnone, rfl, hadmit⟩
      · exact Or.inl (rel_refl _ c')
      · by_cases hc : c' = c
        · subst hc
          exact Or.inr ⟨cert, token, grant, clientId, fresh, revoked, proxies, now, cl,
            rfl, hnone, by simp [State.setClient], hadmit⟩
        · apply Or.inl
          simp only [State.setClient, Function.update_of_ne hc]
          exact rel_refl _ c'
  | handler c action =>
      rcases step_handler h with ⟨cl, hcl, hstep⟩
      exact Or.inl (handlerStep_clients hcl hstep c')
  | traffic action =>
      rw [(step_traffic h).right.left]
      exact Or.inl (rel_refl _ c')

/-!
# How a step changes what is registered
-/

theorem step_shared {s t : State} {a : Action}
    (h : step cfg rt foreign s a = some t) :
    t.shared = s.shared ∨
      exists c cl, s.clients c = some cl ∧
        ((exists closer : Closer, t.shared = closer.run c s.shared) ∨
          exists p, t.shared =
            (register rt foreign s.identity (cl.registrar c) p s.shared).1) := by
  cases a with
  | hello c cert token grant clientId fresh revoked proxies now =>
      rcases step_hello h with rfl | ⟨cl, _, rfl, _⟩
      · exact Or.inl rfl
      · exact Or.inl rfl
  | handler c action =>
      rcases step_handler h with ⟨cl, hcl, hstep⟩
      cases hstep with
      | evict => exact Or.inl (evictOld_shared s c cl.id)
      | closing => exact Or.inr ⟨c, cl, hcl, Or.inl ⟨_, rfl⟩⟩
      | cleaning => exact Or.inr ⟨c, cl, hcl, Or.inl ⟨_, rfl⟩⟩
      | register => exact Or.inr ⟨c, cl, hcl, Or.inr ⟨_, rfl⟩⟩
      | _ => exact Or.inl rfl
  | traffic action => exact Or.inl (step_traffic h).left

theorem identity_of_step {s t : State} {a : Action}
    (h : step cfg rt foreign s a = some t) {c : Nat} {id : Text}
    (hid : s.identity c = some id) : t.identity c = some id := by
  unfold State.identity at hid ⊢
  rcases step_clients h c with hrel | ⟨_, _, _, _, _, _, _, _, _, _, hnone, _⟩
  · cases hs : s.clients c with
    | none => simp [hs] at hid
    | some old =>
        rw [hs] at hrel hid
        generalize t.clients c = new at hrel ⊢
        cases hrel with
        | some hfollows =>
            rw [← hid]
            simp [hfollows.id]
  · simp [hnone] at hid

/-- The connection a hello arrives on. -/
def Action.opens? : Action -> Option Nat
  | Action.hello c _ _ _ _ _ _ _ _ => some c
  | _ => none

/-- A connection that never says hello has no client. -/
theorem clients_of_exec {s t : State} {actions : List Action} {c : Nat}
    (hexec : (machine cfg rt foreign).exec s actions = some t)
    (hnone : s.clients c = none)
    (hquiet : forall a, a ∈ actions -> a.opens? ≠ some c) : t.clients c = none := by
  induction actions generalizing s with
  | nil =>
      cases hexec
      exact hnone
  | cons a rest ih =>
      rcases Machine.exec_cons_some _ hexec with ⟨s', hstep, hrest⟩
      refine ih hrest ?_ fun b hb => hquiet b (List.mem_cons_of_mem _ hb)
      rcases step_clients hstep c with hrel | ⟨_, _, _, _, _, _, _, _, _, rfl, _⟩
      · rw [hnone] at hrel
        generalize s'.clients c = new at hrel ⊢
        cases hrel
        rfl
      · exact absurd rfl (hquiet _ List.mem_cons_self)

end Steps

end Server

end Engine
end RcTunnel
