import Mathlib.Data.List.Forall2
import RcTunnel.Engine.Isolation

/-!
# Grants that change

A client's grant comes with every message, next to the proxies it lists, and
may be narrower than the one before.  This module follows what a client holds, and
what it is answered, from one accepted message to the next.
-/

namespace RcTunnel
namespace Engine

open Foundation

namespace Server

/-- The server, and for each client the proxies of its last accepted message. -/
structure Heard where
  server : State
  proxies : Nat -> List ProxySpec

section Steps

variable (cfg : Config) (rt : Runtime) (foreign : Kind -> Int -> Bool)

/-- The message that an action brings, if it is accepted. -/
def State.hears (s : State) : Action -> Option (Nat × List ProxySpec)
  | Action.hello c cert token grant clientId fresh revoked proxies now =>
      match admitHello cfg rt cert token grant clientId fresh revoked proxies now with
      | Except.error _ => none
      | Except.ok _ => some (c, proxies)
  | Action.handler c (HandlerAction.update grant proxies now) =>
      match s.clients c with
      | none => none
      | some cl =>
          match checkGrant cfg rt cl.id grant now with
          | Except.error _ => none
          | Except.ok _ => some (c, proxies)
  | _ => none

def Heard.step (s : Heard) (a : Action) : Option Heard :=
  match Server.step cfg rt foreign s.server a with
  | none => none
  | some server =>
      match s.server.hears cfg rt a with
      | none => some { s with server := server }
      | some (c, proxies) => some ⟨server, Function.update s.proxies c proxies⟩

def heardMachine : Machine Heard Action where
  init s := s = ⟨initial, fun _ => []⟩
  step := Heard.step cfg rt foreign

end Steps

/-!
# What the last grant allows
-/

/-- The grant lists the port, or all hosts, of the proxy. -/
def Allowed (rt : Runtime) (g : Grant) (p : ProxySpec) : Prop :=
  match p.kind? with
  | some Kind.tcp | some Kind.udp => g.allowPort p.remotePort = true
  | some Kind.vhost => forall host, host ∈ p.hosts -> g.allowHost rt host = true
  | none => True

/-- A client that has applied its last message, and awaits the next. -/
def Task.Applied : Task -> Prop
  | Task.reply _ | Task.serve => True
  | _ => False

/-- Every accepted message bounds what its client holds and is answered. -/
structure Bounded (cfg : Config) (rt : Runtime) (s : Heard) : Prop where
  regs : forall c cl, s.server.clients c = some cl -> cl.task.Applied ->
    exists g, verify rt cfg.grantSecret cl.under.grant cl.id cl.under.now = Except.ok g ∧
      forall e, e ∈ cl.regs -> Allowed rt g e.spec
  /-- there is a status for each proxy, in order -/
  statuses : forall c cl statuses, s.server.clients c = some cl ->
    cl.task = Task.reply statuses ->
    exists g, verify rt cfg.grantSecret cl.under.grant cl.id cl.under.now = Except.ok g ∧
      List.Forall₂ (fun p st => st.ok = true -> Allowed rt g p) (s.proxies c) statuses

/-- A proxy that is kept as unchanged is allowed by the grant it comes with, and so is
what it was registered as. -/
def KeepsAllowed (rt : Runtime) (s : Heard) : Action -> Prop
  | Action.handler c HandlerAction.register =>
      forall cl, cl ∈ s.server.clients c ->
        match cl.task with
        | Task.apply (p :: _) _ =>
            forall e, e ∈ cl.regs.get? p.name -> specKey e.spec = specKey p ->
              Granted rt cl.grant p ∧ Granted rt cl.grant e.spec
        | _ => True
  | _ => True

instance (rt : Runtime) (s : Heard) : forall a, Decidable (KeepsAllowed rt s a)
  | Action.handler c HandlerAction.register =>
      have (cl : Client) : Decidable (match cl.task with
          | Task.apply (p :: _) _ =>
              forall e, e ∈ cl.regs.get? p.name -> specKey e.spec = specKey p ->
                Granted rt cl.grant p ∧ Granted rt cl.grant e.spec
          | _ => True) := by
        split <;> infer_instance
      inferInstanceAs (Decidable (forall cl, cl ∈ s.server.clients c -> _))
  | Action.handler _ HandlerAction.evict | Action.handler _ (HandlerAction.sweep _)
  | Action.handler _ HandlerAction.sweepDone | Action.handler _ HandlerAction.close
  | Action.handler _ HandlerAction.applied | Action.handler _ (HandlerAction.reply _)
  | Action.handler _ (HandlerAction.update _ _ _) | Action.handler _ HandlerAction.disconnect
  | Action.handler _ HandlerAction.leave | Action.handler _ (HandlerAction.cleanup _)
  | Action.handler _ HandlerAction.cleanupDone | Action.hello _ _ _ _ _ _ _ _ _
  | Action.traffic _ => isTrue trivial

/-!
# The invariant
-/

/-- The statuses so far, of the proxies so far. -/
def Answers (rt : Runtime) (grant : Option Grant) (proxies : List ProxySpec)
    (statuses : List ProxyStatus) : Prop :=
  List.Forall₂ (fun p st => st.ok = true -> Granted rt grant p) proxies statuses

def Client.Scoped (rt : Runtime) (proxies : List ProxySpec) (cl : Client) : Prop :=
  match cl.task with
  | Task.evict listed | Task.sweep listed | Task.closing listed _ _ => listed = proxies
  | Task.apply rest statuses =>
      -- what is not allowed now will be met again, unchanged
      (exists visited, proxies = visited ++ rest ∧ Answers rt cl.grant visited statuses) ∧
        forall e, e ∈ cl.regs -> Granted rt cl.grant e.spec ∨ ¬ Stale rest e
  | Task.reply statuses =>
      Answers rt cl.grant proxies statuses ∧
        forall e, e ∈ cl.regs -> Granted rt cl.grant e.spec
  | Task.serve => forall e, e ∈ cl.regs -> Granted rt cl.grant e.spec
  | Task.leave | Task.cleanup _ | Task.cleaning _ _ | Task.gone => True

structure ScopeInv (cfg : Config) (rt : Runtime) (proxies : List ProxySpec) (cl : Client) :
    Prop where
  checked : cl.Checked cfg rt
  keyed : cl.regs.Keyed
  holds : cl.Scoped rt proxies

def HeardInv (cfg : Config) (rt : Runtime) (s : Heard) : Prop :=
  forall c cl, s.server.clients c = some cl -> ScopeInv cfg rt (s.proxies c) cl

section Proof

variable {cfg : Config} {rt : Runtime} {foreign : Kind -> Int -> Bool}

theorem allowed_iff {g : Grant} {p : ProxySpec} :
    ownershipError rt g p = none <-> Allowed rt g p := by
  unfold ownershipError Allowed
  rcases p.kind? with _ | _ | _ | _
  · exact iff_of_true rfl trivial
  · simp only [ite_eq_left_iff, reduceCtorEq, imp_false, not_not]
  · simp only [ite_eq_left_iff, reduceCtorEq, imp_false, not_not]
  · simp only [Option.map_eq_none_iff, List.find?_eq_none, decide_eq_true_eq, not_not]

/-- An entry that is not stale is met by the first proxy, or later on. -/
theorem not_stale_cons {p : ProxySpec} {rest : List ProxySpec} {e : RegEntry}
    (h : ¬ Stale (p :: rest) e) :
    ¬ Stale rest e ∨ (p.name = e.spec.name ∧ specKey p = specKey e.spec) := by
  simp only [Stale, List.reverse_cons, List.find?_append, not_forall] at h ⊢
  rcases h with ⟨q, hfind, hkey⟩
  rw [not_not] at hkey
  cases hrest : rest.reverse.find? fun p => decide (p.name = e.spec.name) with
  | some q' =>
      rw [hrest, Option.some_or] at hfind
      cases hfind
      exact Or.inl ⟨_, rfl, not_not.mpr hkey⟩
  | none =>
      rw [hrest, Option.none_or] at hfind
      have hp := List.mem_of_find?_eq_some hfind
      have hname := List.find?_some hfind
      rw [List.mem_singleton.mp hp] at hname hkey
      exact Or.inr ⟨by simpa using hname, hkey⟩

theorem Answers.concat {grant : Option Grant} {visited : List ProxySpec}
    {statuses : List ProxyStatus} (h : Answers rt grant visited statuses) {p : ProxySpec}
    {st : ProxyStatus} (hp : st.ok = true -> Granted rt grant p) :
    Answers rt grant (visited ++ [p]) (statuses ++ [st]) :=
  List.rel_append h (List.Forall₂.cons hp List.Forall₂.nil)

/-- One turn of the loop that registers. -/
theorem scoped_visit {proxies rest : List ProxySpec} {p : ProxySpec}
    {statuses : List ProxyStatus} {cl : Client} {regs : Regs} {st : ProxyStatus}
    (h : ScopeInv cfg rt proxies cl) (htask : cl.task = Task.apply (p :: rest) statuses)
    (hregs : forall e, e ∈ regs -> Granted rt cl.grant e.spec ∨ e ∈ cl.regs)
    (hmet : forall e, e ∈ cl.regs.get? p.name -> specKey e.spec = specKey p ->
      Granted rt cl.grant e.spec)
    (hst : st.ok = true -> Granted rt cl.grant p) :
    Client.Scoped rt proxies
      { cl with regs := regs, task := Task.apply rest (statuses ++ [st]) } := by
  have hscoped := h.holds
  unfold Client.Scoped at hscoped ⊢
  rw [htask] at hscoped
  rcases hscoped with ⟨⟨visited, hvisited, hanswers⟩, hentries⟩
  constructor
  · refine ⟨visited ++ [p], ?_, hanswers.concat hst⟩
    rw [hvisited, List.append_assoc, List.singleton_append]
  · intro e he
    rcases hregs e he with hgranted | hold
    · exact Or.inl hgranted
    · rcases hentries e hold with hgranted | hfresh
      · exact Or.inl hgranted
      · rcases not_stale_cons hfresh with hlater | ⟨hname, hkey⟩
        · exact Or.inr hlater
        · apply Or.inl
          apply hmet e _ hkey.symm
          rw [hname]
          exact h.keyed.get? hold

/-- A step that replaces one client, and perhaps evicts another. -/
theorem HeardInv.replace {s t : Heard} (h : HeardInv cfg rt s) {c : Nat} {base : State}
    {new : Client} (hbase : base = s.server ∨ exists id, base = s.server.evictOld c id)
    (hclients : t.server.clients = Function.update base.clients c (some new))
    (hproxies : forall c', c' ≠ c -> t.proxies c' = s.proxies c')
    (hnew : ScopeInv cfg rt (t.proxies c) new) : HeardInv cfg rt t := by
  intro c' cl' hcl'
  rw [hclients] at hcl'
  rcases lookup_started hcl' with ⟨rfl, rfl⟩ | ⟨hne, hold⟩
  · exact hnew
  · rw [hproxies c' hne]
    rcases hbase with rfl | ⟨id, rfl⟩
    · exact h c' cl' hold
    · rcases evictOld_clients s.server c id c' with heq | ⟨_, old, hother, heq⟩
      · exact h c' cl' (heq.symm.trans hold)
      · rw [heq] at hold
        cases hold
        have hinv := h c' old hother
        exact ⟨hinv.checked, hinv.keyed, hinv.holds⟩

/-- A step that replaces one client and hears nothing. -/
theorem HeardInv.same {s t : Heard} (h : HeardInv cfg rt s) {c : Nat} {new : Client}
    (hclients : t.server.clients = Function.update s.server.clients c (some new))
    (hproxies : t.proxies = s.proxies) (hnew : ScopeInv cfg rt (s.proxies c) new) :
    HeardInv cfg rt t := by
  refine h.replace (Or.inl rfl) hclients (fun _ _ => by rw [hproxies]) ?_
  rw [hproxies]
  exact hnew

theorem heardInv_handlerStep {s t : Heard} {c : Nat} {cl : Client} {a : HandlerAction}
    (h : HeardInv cfg rt s) (hcl : s.server.clients c = some cl)
    (hkeeps : KeepsAllowed rt s (Action.handler c a))
    (hstep : HandlerStep cfg rt foreign s.server c cl a t.server)
    (hproxies : t.proxies = match s.server.hears cfg rt (Action.handler c a) with
      | none => s.proxies
      | some (c', proxies) => Function.update s.proxies c' proxies) :
    HeardInv cfg rt t := by
  have hinv := h c cl hcl
  have hholds := hinv.holds
  unfold Client.Scoped at hholds
  rcases t with ⟨server, proxies⟩
  -- the steps that neither register nor change what is registered
  have hquiet : forall task, Client.Scoped rt (s.proxies c) { cl with task := task } ->
      ScopeInv cfg rt (s.proxies c) { cl with task := task } :=
    fun _ hscoped => ⟨hinv.checked, hinv.keyed, hscoped⟩
  cases hstep with
  | evict htask =>
      rw [htask] at hholds
      have hsame : proxies = s.proxies := hproxies
      subst hsame
      exact h.replace (Or.inr ⟨cl.id, rfl⟩) rfl (fun _ _ => rfl) (hquiet _ hholds)
  | sweep htask _ _ =>
      rw [htask] at hholds
      exact h.same rfl hproxies (hquiet _ hholds)
  | sweepDone htask hfresh =>
      rw [htask] at hholds
      subst hholds
      refine h.same rfl hproxies (hquiet _ ?_)
      constructor
      · exact ⟨[], rfl, List.Forall₂.nil⟩
      · exact fun e he => Or.inr (hfresh e he)
  | closing htask =>
      rw [htask] at hholds
      exact h.same rfl hproxies (hquiet _ hholds)
  | closed htask =>
      rw [htask] at hholds
      refine h.same rfl hproxies ?_
      exact ⟨hinv.checked, hinv.keyed.delete _, hholds⟩
  | unchanged htask hunchanged =>
      have hmet := hkeeps cl hcl
      rw [htask] at hmet
      refine h.same rfl hproxies ?_
      refine ⟨hinv.checked, hinv.keyed, scoped_visit hinv htask (fun _ he => Or.inr he)
        (fun e he hkey => (hmet e he hkey).right) fun _ => ?_⟩
      rcases hunchanged with ⟨e, he, hkey⟩
      exact (hmet e he hkey).left
  | register htask hchanged =>
      refine h.same rfl hproxies ?_
      refine ⟨hinv.checked, hinv.keyed.record _, scoped_visit hinv htask (fun e he => ?_)
        (fun e he hkey => absurd ⟨e, he, hkey⟩ hchanged) fun hok => ?_⟩
      · rcases Regs.mem_record he with hnew | hold
        · rcases register_entry hnew with ⟨rfl, haccept, _⟩
          exact Or.inl haccept.right.left
        · exact Or.inr hold
      · exact (register_ok.mp hok).right.left
  | applied htask =>
      rw [htask] at hholds
      rcases hholds with ⟨⟨visited, hvisited, hanswers⟩, hentries⟩
      rw [List.append_nil] at hvisited
      refine h.same rfl hproxies (hquiet _ ?_)
      constructor
      · rw [hvisited]
        exact hanswers
      · intro e he
        rcases hentries e he with hgranted | hfresh
        · exact hgranted
        · exact absurd (fun p hp => by cases hp) hfresh
  | reply htask =>
      rename_i ok
      rw [htask] at hholds
      refine h.same rfl hproxies (hquiet _ ?_)
      cases ok with
      | false => trivial
      | true => exact hholds.right
  | refused htask hcheck =>
      simp only [State.hears, hcl, hcheck] at hproxies
      subst hproxies
      exact h
  | update htask hcheck =>
      rename_i grant listed now g
      simp only [State.hears, hcl, hcheck] at hproxies
      subst hproxies
      refine h.replace (Or.inl rfl) rfl (fun _ hne => Function.update_of_ne hne _ _) ?_
      refine ⟨hcheck, hinv.keyed, ?_⟩
      show listed = Function.update s.proxies c listed c
      rw [Function.update_self]
  | disconnect _ | leave _ | cleanup _ _ _ | cleaning _ | cleaned _ =>
      exact h.same rfl hproxies (hquiet _ trivial)
  | gone htask =>
      refine h.same rfl hproxies ?_
      exact ⟨hinv.checked, List.Pairwise.nil, trivial⟩

theorem heardInv_step {s t : Heard} {a : Action} (h : HeardInv cfg rt s)
    (hkeeps : KeepsAllowed rt s a) (hstep : Heard.step cfg rt foreign s a = some t) :
    HeardInv cfg rt t := by
  unfold Heard.step at hstep
  split at hstep
  · cases hstep
  · rename_i server hserver
    cases a with
    | hello c cert token grant clientId fresh revoked listed now =>
        cases hadmit : admitHello cfg rt cert token grant clientId fresh revoked listed now with
        | error e =>
            simp only [State.hears, hadmit] at hstep
            cases hstep
            simp only [Server.step, hadmit] at hserver
            split at hserver
            · cases hserver
            · cases hserver
              exact h
        | ok cl =>
            simp only [State.hears, hadmit] at hstep
            cases hstep
            simp only [Server.step, hadmit] at hserver
            split at hserver
            · cases hserver
            · cases hserver
              rcases admitHello_ok hadmit with ⟨g, hcheck, rfl⟩
              refine h.replace (Or.inl rfl) rfl (fun _ hne => Function.update_of_ne hne _ _) ?_
              refine ⟨hcheck, List.Pairwise.nil, ?_⟩
              show listed = Function.update s.proxies c listed c
              rw [Function.update_self]
    | handler c action =>
        rcases step_handler hserver with ⟨cl, hcl, hcase⟩
        split at hstep
        · rename_i hhears
          cases hstep
          exact heardInv_handlerStep h hcl hkeeps hcase (by rw [hhears])
        · rename_i hhears
          cases hstep
          exact heardInv_handlerStep h hcl hkeeps hcase (by rw [hhears])
    | traffic action =>
        cases hstep
        intro c cl hcl
        rw [(step_traffic hserver).right.left] at hcl
        exact h c cl hcl

theorem HeardInv.bounded (hsecret : cfg.grantSecret ≠ []) {s : Heard}
    (h : HeardInv cfg rt s) : Bounded cfg rt s := by
  constructor
  · intro c cl hcl happlied
    have hinv := h c cl hcl
    rcases checked_grant hsecret hinv.checked with ⟨g, hg, hverify⟩
    refine ⟨g, hverify, fun e he => allowed_iff.mp ?_⟩
    have hholds := hinv.holds
    unfold Client.Scoped at hholds
    unfold Task.Applied at happlied
    split at happlied
    · rename_i htask
      rw [htask] at hholds
      exact hholds.right e he g hg
    · rename_i htask
      rw [htask] at hholds
      exact hholds e he g hg
    · exact happlied.elim
  · intro c cl statuses hcl htask
    have hinv := h c cl hcl
    rcases checked_grant hsecret hinv.checked with ⟨g, hg, hverify⟩
    have hholds := hinv.holds
    unfold Client.Scoped at hholds
    rw [htask] at hholds
    exact ⟨g, hverify, hholds.left.imp fun p st hst hok => allowed_iff.mp (hst hok g hg)⟩

/--
In a run in which applying a message keeps a proxy as it is only if the new grant
allows it, every accepted message bounds what its client holds and is answered.
-/
theorem bounded_of_keepsAllowed (hsecret : cfg.grantSecret ≠ []) {s : Heard}
    {actions : List Action} (hinit : (heardMachine cfg rt foreign).init s)
    (hobeys : (heardMachine cfg rt foreign).Obeys (KeepsAllowed rt) s actions) :
    (heardMachine cfg rt foreign).Always (Bounded cfg rt) s actions := by
  rcases hinit with rfl
  have hinv := Machine.always_of_obeys (M := heardMachine cfg rt foreign)
    (I := HeardInv cfg rt) (fun _ _ _ h hkeeps hstep => heardInv_step h hkeeps hstep)
    (fun c cl hcl => by cases hcl) hobeys
  exact hinv.imp fun _ h => h.bounded hsecret

end Proof

/-!
# A narrower grant

The first message of a client comes with two ports, the second with one of them.
-/

def widePayload : Text := "v1|agent.7|2000000000|2222,3333|".toList

def wideSignature : Text := "Vs4f7flvv5hW0Vqd9cwOUgay7Rx7A2JmozwxeKCvd_0".toList

def narrowingRuntime : Runtime where
  hmac secret msg :=
    if secret = "s3cret".toList ∧ msg = widePayload then
      wideSignature
    else
      signingRuntime.hmac secret msg
  unicodeLower c := c
  listenError := "bind: address already in use".toList

def listening (name : String) (port : Int) : ProxySpec where
  name := name.toList
  type := "tcp".toList
  localAddr := "127.0.0.1:22".toList
  remotePort := port
  subdomain := []
  customDomains := []

def narrowing : Machine Heard Action :=
  heardMachine ⟨[], "s3cret".toList⟩ narrowingRuntime fun _ _ => false

def Bounds : Heard -> Prop := Bounded ⟨[], "s3cret".toList⟩ narrowingRuntime

/-- The client registers both ports and sends an update under the narrower grant. -/
def narrowed (proxies : List ProxySpec) : List Action :=
  [Action.hello 0 "agent.7".toList [] (widePayload ++ '|' :: wideSignature) [] [] false
      [listening "t1" 2222, listening "t2" 3333] 1900000000,
    Action.handler 0 HandlerAction.evict, Action.handler 0 HandlerAction.sweepDone,
    Action.handler 0 HandlerAction.register, Action.handler 0 HandlerAction.register,
    Action.handler 0 HandlerAction.applied, Action.handler 0 (HandlerAction.reply true),
    Action.handler 0
      (HandlerAction.update (grantPayload ++ '|' :: grantSignature) proxies 1900000000)]

def applyBoth : List Action :=
  [Action.handler 0 HandlerAction.sweepDone, Action.handler 0 HandlerAction.register,
    Action.handler 0 HandlerAction.register, Action.handler 0 HandlerAction.applied]

/-- The second proxy moves to a port it may not have, and is rejected. -/
def movedPort : List Action :=
  narrowed [listening "t1" 2222, listening "t2" 4444] ++
    [Action.handler 0 (HandlerAction.sweep "t2".toList), Action.handler 0 HandlerAction.close,
      Action.handler 0 HandlerAction.close, Action.handler 0 HandlerAction.close,
      Action.handler 0 HandlerAction.close] ++ applyBoth

theorem bounded_movedPort :
    (narrowing.exec ⟨initial, fun _ => []⟩ movedPort).isSome = true ∧
      narrowing.Always Bounds ⟨initial, fun _ => []⟩ movedPort := by
  constructor
  · decide +kernel
  · exact bounded_of_keepsAllowed (by decide) rfl (by decide +kernel)

/-- Both proxies are listed again. -/
def samePorts : List Action :=
  narrowed [listening "t1" 2222, listening "t2" 3333] ++ applyBoth

/-- A proxy that is kept as unchanged outlives the grant it was registered under. -/
theorem unbounded_samePorts :
    exists t, narrowing.exec ⟨initial, fun _ => []⟩ samePorts = some t ∧ ¬ Bounds t := by
  have hfinal : ((narrowing.exec ⟨initial, fun _ => []⟩ samePorts).bind fun t =>
      (t.server.clients 0).map fun cl =>
        (cl.task, cl.regs.map fun e => e.spec, cl.id, cl.under)) =
      some (Task.reply [accepted (listening "t1" 2222), accepted (listening "t2" 3333)],
        [listening "t2" 3333, listening "t1" 2222], "agent.7".toList,
        ⟨grantPayload ++ '|' :: grantSignature, 1900000000⟩) := by
    decide +kernel
  have hverify : verify narrowingRuntime "s3cret".toList
      (grantPayload ++ '|' :: grantSignature) "agent.7".toList 1900000000 =
      Except.ok ⟨"agent.7".toList, [2222], ["news.example.com".toList]⟩ := by
    decide +kernel
  rcases Option.bind_eq_some_iff.mp hfinal with ⟨t, hexec, hclient⟩
  rcases Option.map_eq_some_iff.mp hclient with ⟨cl, hcl, hobserved⟩
  simp only [Prod.mk.injEq] at hobserved
  rcases hobserved with ⟨htask, hregs, hid, hunder⟩
  refine ⟨t, hexec, fun hbounded => ?_⟩
  have happlied : cl.task.Applied := by
    rw [htask]
    trivial
  rcases hbounded.regs 0 cl hcl happlied with ⟨g, hg, hentries⟩
  rw [hid, hunder] at hg
  cases hverify.symm.trans hg
  have hmem : listening "t2" 3333 ∈ cl.regs.map fun e => e.spec := by
    rw [hregs]
    exact List.mem_cons_self
  rcases List.mem_map.mp hmem with ⟨e, he, hspec⟩
  have hallowed := allowed_iff.mpr (hentries e he)
  rw [hspec] at hallowed
  revert hallowed
  decide

end Server

end Engine
end RcTunnel
