import RcTunnel.Engine.Steps

/-!
# Where registrations come from

Every proxy that the server holds hosts for came in a message of a client.  What is true
of the proxies of all messages is therefore true of every proxy a host leads to.
-/

namespace RcTunnel
namespace Engine

open Foundation

namespace Server

/-- The proxies that a message carries. -/
def Action.proxies : Action -> List ProxySpec
  | Action.hello _ _ _ _ _ _ _ proxies _ => proxies
  | Action.handler _ (HandlerAction.update _ proxies _) => proxies
  | _ => []

/-- The proxies that a handler has still to register. -/
def Task.proxies : Task -> List ProxySpec
  | Task.evict proxies | Task.sweep proxies | Task.closing proxies _ _ => proxies
  | Task.apply rest _ => rest
  | _ => []

/-- Every proxy at hand has the property, and a host leads to a proxy that lists it. -/
structure Origin (rt : Runtime) (P : ProxySpec -> Prop) (s : State) : Prop where
  tasks : forall c cl, s.clients c = some cl -> forall p, p ∈ cl.task.proxies -> P p
  hosts : forall host ref, s.shared.vhosts host = some ref ->
    P ref.spec ∧ host ∈ ref.spec.hosts.map rt.toLower

section Steps

variable {cfg : Config} {rt : Runtime} {foreign : Kind -> Int -> Bool}
variable {P : ProxySpec -> Prop} {s t : State} {c : Nat} {cl : Client}

theorem origin_initial : Origin rt P initial where
  tasks := by
    intro c cl hcl
    cases hcl
  hosts := by
    intro host ref href
    cases href

/-- A handler goes on with what it had to register, or with what an update carries. -/
theorem handlerStep_task {a : HandlerAction} (h : HandlerStep cfg rt foreign s c cl a t)
    {cl' : Client} (hcl' : t.clients c = some cl') {p : ProxySpec}
    (hp : p ∈ cl'.task.proxies) :
    s.clients c = some cl' ∨ p ∈ cl.task.proxies ∨ p ∈ (Action.handler c a).proxies := by
  cases h with
  | evict htask =>
      cases (setClient_self _ _ _).symm.trans hcl'
      rw [htask]
      exact Or.inr (Or.inl hp)
  | refused => exact Or.inl hcl'
  | unchanged htask =>
      cases (setClient_self _ _ _).symm.trans hcl'
      rw [htask]
      exact Or.inr (Or.inl (List.mem_cons_of_mem _ hp))
  | register htask =>
      cases (setClient_self _ _ _).symm.trans hcl'
      rw [htask]
      exact Or.inr (Or.inl (List.mem_cons_of_mem _ hp))
  | update =>
      cases (setClient_self _ _ _).symm.trans hcl'
      exact Or.inr (Or.inr hp)
  | reply htask =>
      rename_i statuses ok
      cases (setClient_self _ _ _).symm.trans hcl'
      cases ok with
      | true => cases hp
      | false => cases hp
  | sweep htask | sweepDone htask | closing htask | closed htask =>
      cases (setClient_self _ _ _).symm.trans hcl'
      rw [htask]
      exact Or.inr (Or.inl hp)
  | applied | disconnect | leave | cleanup | cleaning | cleaned | gone =>
      cases (setClient_self _ _ _).symm.trans hcl'
      cases hp

/-- The other handlers have the same to register as before. -/
theorem handlerStep_otherTask {a : HandlerAction} (h : HandlerStep cfg rt foreign s c cl a t)
    {c' : Nat} (hc : c' ≠ c) {cl' : Client} (hcl' : t.clients c' = some cl') :
    exists old, s.clients c' = some old ∧ cl'.task = old.task := by
  rcases handlerStep_touches h with rfl | ⟨base, new, hbase, hclients, -⟩
  · exact ⟨cl', hcl', rfl⟩
  · rw [hclients, Function.update_of_ne hc] at hcl'
    rcases hbase with rfl | rfl
    · exact ⟨cl', hcl', rfl⟩
    · rcases evictOld_clients s c cl.id c' with heq | ⟨-, other, hother, heq⟩
      · exact ⟨cl', heq ▸ hcl', rfl⟩
      · rw [heq] at hcl'
        cases hcl'
        exact ⟨other, hother, rfl⟩

/-- What a handler changes in the tables: nothing, by a closer, or for a proxy at hand. -/
theorem handlerStep_shared {a : HandlerAction}
    (h : HandlerStep cfg rt foreign s c cl a t) :
    t.shared = s.shared ∨ (exists closer : Closer, t.shared = closer.run c s.shared) ∨
      exists p, p ∈ cl.task.proxies ∧
        t.shared = (register rt foreign s.identity (cl.registrar c) p s.shared).1 := by
  cases h with
  | evict => exact Or.inl (evictOld_shared s c cl.id)
  | closing => exact Or.inr (Or.inl ⟨_, rfl⟩)
  | cleaning => exact Or.inr (Or.inl ⟨_, rfl⟩)
  | @register p rest statuses htask =>
      have hp : p ∈ cl.task.proxies := by
        rw [htask]
        exact List.mem_cons_self
      exact Or.inr (Or.inr ⟨p, hp, rfl⟩)
  | _ => exact Or.inl rfl

theorem origin_step {a : Action} (hs : Origin rt P s) (ha : forall p, p ∈ a.proxies -> P p)
    (h : step cfg rt foreign s a = some t) : Origin rt P t := by
  cases a with
  | hello c cert token grant clientId fresh revoked proxies now =>
      rcases step_hello h with rfl | ⟨new, -, rfl, hadmit⟩
      · exact hs
      · constructor
        · intro c' cl' hcl' p hp
          by_cases hc : c' = c
          · subst hc
            cases (setClient_self _ _ _).symm.trans hcl'
            rcases admitHello_ok hadmit with ⟨g, -, rfl⟩
            exact ha p hp
          · simp only [State.setClient, Function.update_of_ne hc] at hcl'
            exact hs.tasks c' cl' hcl' p hp
        · exact hs.hosts
  | handler c action =>
      rcases step_handler h with ⟨cl, hcl, hstep⟩
      constructor
      · intro c' cl' hcl' p hp
        by_cases hc : c' = c
        · subst hc
          rcases handlerStep_task hstep hcl' hp with hsame | hold | hsent
          · exact hs.tasks c' cl' hsame p hp
          · exact hs.tasks c' cl hcl p hold
          · exact ha p hsent
        · rcases handlerStep_otherTask hstep hc hcl' with ⟨old, hold, htask⟩
          rw [htask] at hp
          exact hs.tasks c' old hold p hp
      · intro host ref href
        rcases handlerStep_shared hstep with heq | ⟨closer, heq⟩ | ⟨p, hp, heq⟩
        · exact hs.hosts host ref (heq ▸ href)
        · rw [heq] at href
          exact hs.hosts host ref (Closer.run_vhosts href)
        · rw [heq] at href
          rcases register_vhosts href with hold | ⟨rfl, -, ⟨listed, hlisted, rfl, -⟩, -⟩
          · exact hs.hosts host ref hold
          · exact ⟨hs.tasks c cl hcl p hp, List.mem_map_of_mem hlisted⟩
  | traffic action =>
      rcases step_traffic h with ⟨hshared, hclients, -⟩
      constructor
      · rw [hclients]
        exact hs.tasks
      · rw [hshared]
        exact hs.hosts

/-- A host leads to a proxy that lists it and that came in some message. -/
theorem origin_of_messages {actions : List Action}
    (hactions : forall a, a ∈ actions -> forall p, p ∈ a.proxies -> P p)
    (hexec : (machine cfg rt foreign).exec initial actions = some s) : Origin rt P s :=
  Machine.exec_preserves (I := Origin rt P) (fun _ _ _ ha hs hstep => origin_step hs ha hstep)
    hactions origin_initial hexec

end Steps

end Server

end Engine
end RcTunnel
