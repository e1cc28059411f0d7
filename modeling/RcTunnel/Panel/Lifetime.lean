import RcTunnel.Engine.Client
import RcTunnel.Panel.Legible

/-!
# The grant an agent reconnects with

The panel sends an agent its configuration when its control session begins and when
something changes, each with a grant signed at that moment.  The agent renders it into the
file of its engine client, which takes the grant over when it starts and when it is told to
reload, and shows it to the engine whenever it reconnects.  Nothing on the way looks at the
expiry before the engine does.
-/

namespace RcTunnel
namespace Panel

open Foundation

namespace Api

namespace Lifetime

open Engine.Client (Desired Reload)

/-- A time that {lit}`time.time()` tells to the second. -/
structure Instant where
  seconds : Int
  counted : 0 ≤ seconds ∧ seconds ≤ 2 ^ 53
deriving DecidableEq, Repr

def Instant.after (i : Instant) (d : Nat) : Option Instant :=
  if h : 0 ≤ i.seconds + d ∧ i.seconds + d ≤ 2 ^ 53 then some ⟨i.seconds + d, h⟩ else none

/-- History: with when the panel built it. -/
structure Stamped (α : Type) where
  value : α
  built : Instant
deriving DecidableEq, Repr

/-- A running {lit}`rctc`. -/
structure Process where
  pid : Nat
  client : Engine.Client.State
  /-- a hang-up signal waits in the channel -/
  hup : Bool
  /-- history: when the grant of the client was built -/
  held : Instant
  /-- history: the same of the reload under way -/
  reloading : Instant
  /-- history: the same of the session -/
  carried : Instant

/-- {lit}`proc` of the agent. -/
inductive Child where
  | absent
  /-- started, and has not read its file yet -/
  | starting
  | running (p : Process)
  | exited

/-- A hello that the engine has not read yet. -/
structure Hello where
  pid : Nat
  conn : Nat
  grant : Text
  /-- history: when the grant was built -/
  built : Instant
deriving DecidableEq, Repr

structure State where
  db : Db
  now : Instant
  /-- the control session is up -/
  connected : Bool
  /-- the configurations on their way to the agent, oldest first -/
  sent : List (Stamped Config)
  /-- {lit}`rctc.json` -/
  file : Option (Stamped Desired)
  child : Child
  /-- the times a client has started -/
  boots : Nat
  hellos : List Hello

inductive Action where
  | tick (seconds : Nat)
  /-- a request, a poll or a restart of the panel -/
  | panel (action : Api.Action)
  | connect
  /-- {lit}`push` -/
  | push
  /-- the session ends; the agent has these configurations in its buffer -/
  | disconnect (received : Nat)
  /-- {lit}`_apply_config`; the local addresses are resolved anew -/
  | apply (localAddr : Payload -> Text)
  /-- the agent ends, and its client with it -/
  | quit
  /-- the client reads its file -/
  | boot (ok : Bool)
  | exit
  | watchdog
  /-- the reload loop of the client -/
  | hangup (ok : Bool)
  | client (action : Engine.Client.Action)
  /-- the engine reads a hello -/
  | verify (pid conn : Nat)

section Steps

variable (pl : Platform) (st : Settings) (rt : Engine.Runtime)
  (marshal : Engine.Msg -> Engine.Bytes) (nodeToken : Text) (agentId : Nat)

/-- The grant as it is sent. -/
def Config.token (cfg : Config) : Text :=
  match cfg.grant with
  | none => []
  | some g => g.token rt.hmac st.grantSecret

/-- {lit}`push` on a session. -/
def State.push (s : State) : State :=
  match buildConfig pl st s.db agentId s.now.seconds with
  | none => s
  | some cfg => { s with sent := s.sent ++ [⟨cfg, s.now⟩] }

/-- The client is started if there is none, and told to reload if the file has changed.
The signal ends a client that does not listen for it yet. -/
def Child.apply (changed : Bool) : Child -> Child
  | Child.absent | Child.exited => Child.starting
  | Child.starting => if changed then Child.exited else Child.starting
  | Child.running p => Child.running { p with hup := p.hup || changed }

def State.apply (s : State) (localAddr : Payload -> Text) (m : Stamped Config)
    (rest : List (Stamped Config)) : State :=
  let desired : Desired := ⟨renderRctc localAddr m.value.tunnels, Config.token st rt m.value⟩
  { s with
    sent := rest
    file := some ⟨desired, m.built⟩
    child := s.child.apply (s.file.map Stamped.value ≠ some desired) }

/-- {lit}`main` of the client. -/
def boot (pid : Nat) (file : Stamped Desired) : Process where
  pid := pid
  client := Engine.Client.new ⟨nodeToken, file.value.grant, [], file.value.proxies⟩
  hup := false
  held := file.built
  reloading := file.built
  carried := file.built

/-- The client after a step of its own. -/
def Process.after (p : Process) (client : Engine.Client.State) : Engine.Client.Action -> Process
  | Engine.Client.Action.swapGrant => { p with client := client, held := p.reloading }
  | Engine.Client.Action.readGrant => { p with client := client, carried := p.held }
  | _ => { p with client := client }

/-- The hello that a step has written. -/
def Process.greeting (p : Process) (client : Engine.Client.State) :
    Engine.Client.Action -> List Hello
  | Engine.Client.Action.writeHello _ =>
      match client.session with
      | some ⟨conn, Engine.Client.Phase.greeted grant, _, _⟩ => [⟨p.pid, conn, grant, p.carried⟩]
      | _ => []
  | _ => []

/-- Reloads come from the reload loop, and the answer after the hello was read. -/
def State.Allows (s : State) (p : Process) : Engine.Client.Action -> Prop
  | Engine.Client.Action.reload _ => False
  | Engine.Client.Action.publish =>
      forall h, h ∈ s.hellos -> h.pid = p.pid -> forall se, se ∈ p.client.session ->
        h.conn ≠ se.conn
  | _ => True

instance (s : State) (p : Process) (a : Engine.Client.Action) : Decidable (s.Allows p a) := by
  unfold State.Allows
  split <;> infer_instance

def State.hello? (s : State) (pid conn : Nat) : Option Hello :=
  s.hellos.find? fun h => h.pid = pid ∧ h.conn = conn

def step (s : State) : Action -> Option State
  | Action.tick seconds =>
      match s.now.after seconds with
      | none => none
      | some now => some { s with now := now }
  | Action.panel action =>
      match Api.step pl st s.db action with
      | none => none
      | some db => some { s with db := db }
  | Action.connect =>
      if s.connected = true ∨ s.db.agent? agentId = none then
        none
      else
        some (State.push pl st agentId { s with connected := true, sent := [] })
  | Action.push => if s.connected then some (s.push pl st agentId) else none
  | Action.disconnect received =>
      if s.connected then
        some { s with connected := false, sent := s.sent.take received }
      else
        none
  | Action.apply localAddr =>
      match s.sent with
      | [] => none
      | m :: rest => some (s.apply st rt localAddr m rest)
  | Action.quit => some { s with connected := false, sent := [], child := Child.absent }
  | Action.boot ok =>
      match s.child with
      | Child.starting =>
          match s.file.filter fun _ => ok with
          | none => some { s with child := Child.exited }
          | some file =>
              some { s with
                child := Child.running (boot nodeToken s.boots file)
                boots := s.boots + 1 }
      | _ => none
  | Action.exit =>
      match s.child with
      | Child.starting | Child.running _ => some { s with child := Child.exited }
      | _ => none
  | Action.watchdog =>
      match s.child with
      | Child.exited =>
          if s.file.isSome then some { s with child := Child.starting } else none
      | _ => none
  | Action.hangup ok =>
      match s.child with
      | Child.running p =>
          if p.hup = true ∧ p.client.reload = Reload.idle then
            match s.file.filter fun _ => ok with
            | none => some { s with child := Child.running { p with hup := false } }
            | some file =>
                match Engine.Client.step marshal p.client
                    (Engine.Client.Action.reload file.value) with
                | none => none
                | some client =>
                    some { s with
                      child := Child.running
                        { p with client := client, hup := false, reloading := file.built } }
          else
            none
      | _ => none
  | Action.client action =>
      match s.child with
      | Child.running p =>
          if s.Allows p action then
            match Engine.Client.step marshal p.client action with
            | none => none
            | some client =>
                some { s with
                  child := Child.running (p.after client action)
                  hellos := s.hellos ++ p.greeting client action }
          else
            none
      | _ => none
  | Action.verify pid conn =>
      match s.hello? pid conn with
      | none => none
      | some _ =>
          some { s with hellos := s.hellos.filter fun h => ¬ (h.pid = pid ∧ h.conn = conn) }

/-- The agent has never connected. -/
structure Fresh (s : State) : Prop where
  db : (Api.machine pl st).init s.db
  connected : s.connected = false
  sent : s.sent = []
  file : s.file = none
  child : s.child = Child.absent
  hellos : s.hellos = []

def machine : Machine State Action where
  init := Fresh pl st
  step := step pl st rt marshal nodeToken agentId

/-!
# What is asked of a hello
-/

/-- {lit}`Verify` accepts the grant of a hello that the engine reads. -/
def Accepts (s : State) : Action -> Prop
  | Action.verify pid conn =>
      forall h, h ∈ s.hello? pid conn -> st.grantSecret ≠ [] ->
        (Engine.verify rt st.grantSecret h.grant ("agent.".toList ++ Nat.toDigits 10 agentId)
          s.now.seconds).isOk = true
  | _ => True

/-- The configuration whose grant the hello carries was built within the lifetime of a
grant. -/
def Timely (s : State) : Action -> Prop
  | Action.verify pid conn =>
      forall h, h ∈ s.hello? pid conn -> st.grantSecret ≠ [] ->
        s.now.seconds ≤ h.built.seconds + grantTtl
  | _ => True

instance (s : State) (a : Action) : Decidable (Accepts st rt agentId s a) := by
  unfold Accepts
  split <;> infer_instance

instance (s : State) (a : Action) : Decidable (Timely st s a) := by
  unfold Timely
  split <;> infer_instance

/-!
# Where the grants come from
-/

/-- The panel has sent the agent this grant in a configuration built at this time. -/
def Issued (built : Instant) (grant : Text) : Prop :=
  exists db cfg, (Api.machine pl st).Reachable db ∧
    buildConfig pl st db agentId built.seconds = some cfg ∧ grant = Config.token st rt cfg

/-- Every grant that a client holds was issued when its history says. -/
structure ProcessInv (p : Process) : Prop where
  held : Issued pl st rt agentId p.held p.client.grant
  reloading : forall d, p.client.reload.desired? = some d ->
    Issued pl st rt agentId p.reloading d.grant
  carried : forall se g, p.client.session = some se -> se.phase.grant? = some g ->
    Issued pl st rt agentId p.carried g

structure Inv (s : State) : Prop where
  db : (Api.machine pl st).Reachable s.db
  sent : forall m, m ∈ s.sent -> Issued pl st rt agentId m.built (Config.token st rt m.value)
  file : forall f, s.file = some f -> Issued pl st rt agentId f.built f.value.grant
  child : forall p, s.child = Child.running p -> ProcessInv pl st rt agentId p
  hellos : forall h, h ∈ s.hellos -> Issued pl st rt agentId h.built h.grant

end Steps

/-!
# The grants of a client

Only two steps of the client take a grant over: the session takes the client's, and the
client takes the one of the reload.
-/

section Client

open Engine.Client (Phase)

variable {marshal : Engine.Msg -> Engine.Bytes} {c d : Engine.Client.State}
  {a : Engine.Client.Action}

/-- No grant is in another place than before. -/
structure KeepsGrants (c d : Engine.Client.State) : Prop where
  grant : d.grant = c.grant
  reload : forall desired, d.reload.desired? = some desired ->
    c.reload.desired? = some desired
  session : forall se g, d.session = some se -> se.phase.grant? = some g ->
    exists before, c.session = some before ∧ before.phase.grant? = some g

theorem KeepsGrants.closed (hgrant : d.grant = c.grant) (hreload : d.reload = c.reload)
    (hsession : d.session = none) : KeepsGrants c d where
  grant := hgrant
  reload desired hd := hreload ▸ hd
  session se g hse _ := by
    rw [hsession] at hse
    cases hse

theorem KeepsGrants.advanced (hgrant : d.grant = c.grant) (hreload : d.reload = c.reload)
    {before after : Engine.Client.Session} (hbefore : c.session = some before)
    (hafter : d.session = some after)
    (hphase : forall g, after.phase.grant? = some g -> before.phase.grant? = some g) :
    KeepsGrants c d where
  grant := hgrant
  reload desired hd := hreload ▸ hd
  session se g hse hg := by
    rw [hafter] at hse
    cases hse
    exact ⟨before, hbefore, hphase g hg⟩

theorem KeepsGrants.idled (hgrant : d.grant = c.grant) (hreload : d.reload = Reload.idle)
    (hsession : forall se g, d.session = some se -> se.phase.grant? = some g ->
      exists before, c.session = some before ∧ before.phase.grant? = some g) :
    KeepsGrants c d where
  grant := hgrant
  reload desired hd := by
    rw [hreload] at hd
    cases hd
  session := hsession

theorem swapGrant_step
    (h : Engine.Client.step marshal c Engine.Client.Action.swapGrant = some d) :
    d.session = c.session ∧ exists desired, c.reload.desired? = some desired ∧
      d.reload.desired? = some desired ∧ d.grant = desired.grant := by
  cases Engine.Client.step_moves h with
  | @swapGrant desired hreload => exact ⟨rfl, desired, by rw [hreload]; rfl, rfl, rfl⟩

theorem readGrant_step
    (h : Engine.Client.step marshal c Engine.Client.Action.readGrant = some d) :
    d.grant = c.grant ∧ d.reload = c.reload ∧
      forall se g, d.session = some se -> se.phase.grant? = some g -> g = c.grant := by
  cases Engine.Client.step_moves h with
  | readGrant _ =>
      refine ⟨rfl, rfl, fun se g hse hg => ?_⟩
      cases hse
      cases hg
      rfl

theorem keepsGrants_step (h : Engine.Client.step marshal c a = some d)
    (hswap : a ≠ Engine.Client.Action.swapGrant) (hread : a ≠ Engine.Client.Action.readGrant)
    (hreload : forall desired, a ≠ Engine.Client.Action.reload desired) : KeepsGrants c d := by
  cases Engine.Client.step_moves h with
  | swapGrant _ => exact absurd rfl hswap
  | readGrant _ => exact absurd rfl hread
  | @reload desired _ => exact absurd rfl (hreload desired)
  | dial _ =>
      refine ⟨rfl, fun _ hd => hd, fun se g hse hg => ?_⟩
      cases hse
      cases hg
  | failHello _ => exact KeepsGrants.closed rfl rfl rfl
  | writeHello hse => exact KeepsGrants.advanced rfl rfl hse rfl fun _ hg => hg
  | publish hse => exact KeepsGrants.advanced rfl rfl hse rfl fun _ hg => hg
  | drop hse => exact KeepsGrants.advanced rfl rfl hse rfl fun _ hg => hg
  | endLive => exact KeepsGrants.closed rfl rfl rfl
  | endSession _ _ => exact KeepsGrants.closed rfl rfl rfl
  | missCtrl _ _ => exact KeepsGrants.idled rfl rfl fun se g hse hg => ⟨se, hse, hg⟩
  | findCtrl hpending _ =>
      refine ⟨rfl, fun other hd => ?_, fun se g hse hg => ⟨se, hse, hg⟩⟩
      rw [hpending]
      exact hd
  | largeUpdate _ _ => exact KeepsGrants.idled rfl rfl fun se g hse hg => ⟨se, hse, hg⟩
  | updateElsewhere _ _ => exact KeepsGrants.idled rfl rfl fun se g hse hg => ⟨se, hse, hg⟩
  | @writeUpdate _ before _ _ hsession =>
      refine KeepsGrants.idled rfl rfl fun se g hse hg => ⟨before, hsession, ?_⟩
      cases hse
      unfold Engine.Client.Session.written at hg
      split at hg <;> exact hg

theorem reload_begins {desired : Desired}
    (h : Engine.Client.step marshal c (Engine.Client.Action.reload desired) = some d) :
    d.grant = c.grant ∧ d.session = c.session ∧ d.reload = Reload.swapping desired := by
  cases Engine.Client.step_moves h with
  | reload _ => exact ⟨rfl, rfl, rfl⟩

end Client

/-!
# Every step
-/

section Runs

variable {pl : Platform} {st : Settings} {rt : Engine.Runtime}
  {marshal : Engine.Msg -> Engine.Bytes} {nodeToken : Text} {agentId : Nat}

theorem processInv_boot (pid : Nat) {file : Stamped Desired}
    (h : Issued pl st rt agentId file.built file.value.grant) :
    ProcessInv pl st rt agentId (boot nodeToken pid file) where
  held := h
  reloading := nofun
  carried := nofun

theorem ProcessInv.after {p : Process} (h : ProcessInv pl st rt agentId p)
    {client : Engine.Client.State} {a : Engine.Client.Action}
    (hreload : forall desired, a ≠ Engine.Client.Action.reload desired)
    (hstep : Engine.Client.step marshal p.client a = some client) :
    ProcessInv pl st rt agentId (p.after client a) := by
  have hkept : KeepsGrants p.client client ->
      ProcessInv pl st rt agentId { p with client := client } := by
    intro hkeeps
    refine ⟨?_, fun desired hd => h.reloading desired (hkeeps.reload desired hd), ?_⟩
    · show Issued pl st rt agentId p.held client.grant
      rw [hkeeps.grant]
      exact h.held
    · intro se g hse hg
      rcases hkeeps.session se g hse hg with ⟨before, hbefore, hphase⟩
      exact h.carried before g hbefore hphase
  cases a with
  | swapGrant =>
      rcases swapGrant_step hstep with ⟨hsession, desired, hpending, hstays, hgrant⟩
      have hissued := h.reloading desired hpending
      refine ⟨?_, fun other hd => ?_, fun se g hse hg => ?_⟩
      · show Issued pl st rt agentId p.reloading client.grant
        rw [hgrant]
        exact hissued
      · have hsame : some desired = some other := hstays.symm.trans hd
        cases hsame
        exact hissued
      · exact h.carried se g (hsession ▸ hse) hg
  | readGrant =>
      rcases readGrant_step hstep with ⟨hgrant, hpending, hsession⟩
      refine ⟨?_, fun desired hd => h.reloading desired (hpending ▸ hd), fun se g hse hg => ?_⟩
      · show Issued pl st rt agentId p.held client.grant
        rw [hgrant]
        exact h.held
      · rw [hsession se g hse hg]
        exact h.held
  | reload desired => exact absurd rfl (hreload desired)
  | _ => exact hkept (keepsGrants_step hstep nofun nofun nofun)

theorem ProcessInv.reload {p : Process} (h : ProcessInv pl st rt agentId p)
    {file : Stamped Desired} (hfile : Issued pl st rt agentId file.built file.value.grant)
    {client : Engine.Client.State}
    (hstep : Engine.Client.step marshal p.client (Engine.Client.Action.reload file.value) =
      some client) :
    ProcessInv pl st rt agentId
      { p with client := client, hup := false, reloading := file.built } := by
  rcases reload_begins hstep with ⟨hgrant, hsession, hreload⟩
  refine ⟨?_, fun desired hd => ?_, fun se g hse hg => ?_⟩
  · show Issued pl st rt agentId p.held client.grant
    rw [hgrant]
    exact h.held
  · have heq : client.reload.desired? = some desired := hd
    rw [hreload] at heq
    cases heq
    exact hfile
  · exact h.carried se g (hsession ▸ hse) hg

/-- The hello of a session carries the grant of the session. -/
theorem issued_greeting {p : Process} (h : ProcessInv pl st rt agentId p)
    {client : Engine.Client.State} {a : Engine.Client.Action}
    (hstep : Engine.Client.step marshal p.client a = some client) {hello : Hello}
    (hmem : hello ∈ p.greeting client a) :
    Issued pl st rt agentId hello.built hello.grant := by
  unfold Process.greeting at hmem
  split at hmem
  · split at hmem
    · rename_i hsession
      rw [List.mem_singleton.mp hmem]
      have hkeeps := keepsGrants_step hstep nofun nofun nofun
      rcases hkeeps.session _ _ hsession rfl with ⟨before, hbefore, hphase⟩
      exact h.carried before _ hbefore hphase
    · cases hmem
  · cases hmem

theorem inv_fresh {s : State} (h : Fresh pl st s) : Inv pl st rt agentId s where
  db := Machine.Reachable.start h.db
  sent := by simp [h.sent]
  file := by simp [h.file]
  child := by simp [h.child]
  hellos := by simp [h.hellos]

section Inv

variable {s : State} (h : Inv pl st rt agentId s)
include h

theorem Inv.withChild {child : Child}
    (hchild : forall p, child = Child.running p -> ProcessInv pl st rt agentId p)
    (boots : Nat) : Inv pl st rt agentId { s with child := child, boots := boots } :=
  ⟨h.db, h.sent, h.file, hchild, h.hellos⟩

theorem Inv.notRunning {child : Child} (hchild : forall p, child ≠ Child.running p) :
    Inv pl st rt agentId { s with child := child } :=
  h.withChild (fun p hp => absurd hp (hchild p)) s.boots

theorem Inv.withSent (connected : Bool) {sent : List (Stamped Config)} (hsent : sent ⊆ s.sent) :
    Inv pl st rt agentId { s with connected := connected, sent := sent } :=
  ⟨h.db, fun m hm => h.sent m (hsent hm), h.file, h.child, h.hellos⟩

theorem Inv.push : Inv pl st rt agentId (s.push pl st agentId) := by
  unfold State.push
  split
  · exact h
  · rename_i cfg hcfg
    refine ⟨h.db, fun m hm => ?_, h.file, h.child, h.hellos⟩
    rcases List.mem_append.mp hm with hm | hm
    · exact h.sent m hm
    · rw [List.mem_singleton.mp hm]
      exact ⟨s.db, cfg, h.db, hcfg, rfl⟩

theorem Inv.apply (localAddr : Payload -> Text) {m : Stamped Config}
    {rest : List (Stamped Config)} (hsent : s.sent = m :: rest) :
    Inv pl st rt agentId (s.apply st rt localAddr m rest) := by
  have hissued := h.sent m (by rw [hsent]; exact List.mem_cons_self)
  refine ⟨h.db, fun n hn => h.sent n ?_, fun f hf => ?_, fun p hp => ?_, h.hellos⟩
  · rw [hsent]
    exact List.mem_cons_of_mem m hn
  · cases hf
    exact hissued
  · unfold State.apply Child.apply at hp
    simp only at hp
    split at hp
    · cases hp
    · cases hp
    · split at hp <;> cases hp
    · rename_i before hbefore
      cases hp
      have hold := h.child before hbefore
      exact ⟨hold.held, hold.reloading, hold.carried⟩

end Inv

theorem inv_boot {s t : State} {ok : Bool} (h : Inv pl st rt agentId s)
    (hstep : step pl st rt marshal nodeToken agentId s (Action.boot ok) = some t) :
    Inv pl st rt agentId t := by
  simp only [step] at hstep
  split at hstep
  · split at hstep
    · cases hstep
      exact h.notRunning (by simp)
    · rename_i file hfile
      cases hstep
      have hissued := h.file file (Option.filter_eq_some_iff.mp hfile).left
      refine h.withChild (fun p hp => ?_) (s.boots + 1)
      cases hp
      exact processInv_boot s.boots hissued
  · cases hstep

theorem inv_hangup {s t : State} {ok : Bool} (h : Inv pl st rt agentId s)
    (hstep : step pl st rt marshal nodeToken agentId s (Action.hangup ok) = some t) :
    Inv pl st rt agentId t := by
  simp only [step] at hstep
  split at hstep
  · rename_i p hp
    have hold := h.child p hp
    split at hstep
    · split at hstep
      · cases hstep
        refine h.withChild (fun q hq => ?_) s.boots
        cases hq
        exact ⟨hold.held, hold.reloading, hold.carried⟩
      · rename_i file hfile
        have hissued := h.file file (Option.filter_eq_some_iff.mp hfile).left
        split at hstep
        · cases hstep
        · rename_i client hclient
          cases hstep
          refine h.withChild (fun q hq => ?_) s.boots
          cases hq
          exact hold.reload hissued hclient
    · cases hstep
  · cases hstep

theorem inv_client {s t : State} {action : Engine.Client.Action} (h : Inv pl st rt agentId s)
    (hstep : step pl st rt marshal nodeToken agentId s (Action.client action) = some t) :
    Inv pl st rt agentId t := by
  simp only [step] at hstep
  split at hstep
  · rename_i p hp
    have hold := h.child p hp
    split at hstep
    · rename_i hallows
      split at hstep
      · cases hstep
      · rename_i client hclient
        cases hstep
        have hreload : forall desired, action ≠ Engine.Client.Action.reload desired := by
          intro desired heq
          rw [heq] at hallows
          exact hallows
        refine ⟨h.db, h.sent, h.file, fun q hq => ?_, fun hello hmem => ?_⟩
        · cases hq
          exact hold.after hreload hclient
        · rcases List.mem_append.mp hmem with hmem | hmem
          · exact h.hellos hello hmem
          · exact issued_greeting hold hclient hmem
    · cases hstep
  · cases hstep

theorem inv_step {s t : State} {a : Action} (h : Inv pl st rt agentId s)
    (hstep : step pl st rt marshal nodeToken agentId s a = some t) :
    Inv pl st rt agentId t := by
  cases a with
  | tick seconds =>
      simp only [step] at hstep
      split at hstep
      · cases hstep
      · cases hstep
        exact ⟨h.db, h.sent, h.file, h.child, h.hellos⟩
  | panel action =>
      simp only [step] at hstep
      split at hstep
      · cases hstep
      · rename_i db hdb
        cases hstep
        exact ⟨h.db.step hdb, h.sent, h.file, h.child, h.hellos⟩
  | connect =>
      simp only [step] at hstep
      split at hstep
      · cases hstep
      · cases hstep
        exact (h.withSent true (List.nil_subset _)).push
  | push =>
      simp only [step] at hstep
      split at hstep
      · cases hstep
        exact h.push
      · cases hstep
  | disconnect received =>
      simp only [step] at hstep
      split at hstep
      · cases hstep
        exact h.withSent false (List.take_subset _ _)
      · cases hstep
  | apply localAddr =>
      simp only [step] at hstep
      split at hstep
      · cases hstep
      · rename_i m rest hsent
        cases hstep
        exact h.apply localAddr hsent
  | quit =>
      cases hstep
      exact (h.withSent false (List.nil_subset _)).notRunning (by simp)
  | boot ok => exact inv_boot h hstep
  | exit =>
      simp only [step] at hstep
      split at hstep
      · cases hstep
        exact h.notRunning (by simp)
      · cases hstep
        exact h.notRunning (by simp)
      · cases hstep
  | watchdog =>
      simp only [step] at hstep
      split at hstep
      · split at hstep
        · cases hstep
          exact h.notRunning (by simp)
        · cases hstep
      · cases hstep
  | hangup ok => exact inv_hangup h hstep
  | client action => exact inv_client h hstep
  | verify pid conn =>
      simp only [step] at hstep
      split at hstep
      · cases hstep
      · cases hstep
        exact ⟨h.db, h.sent, h.file, h.child, fun hello hmem =>
          h.hellos hello (List.mem_of_mem_filter hmem)⟩

/-!
# What the engine answers
-/

variable (hpl : pl.Standard) (hhmac : forall secret msg, '|' ∉ rt.hmac secret msg)
include hpl hhmac

/-- The engine accepts a grant that was issued exactly within its lifetime. -/
theorem verify_issued (hsecret : st.grantSecret ≠ []) {built : Instant} {grant : Text}
    (h : Issued pl st rt agentId built grant) (now : Int) :
    (Engine.verify rt st.grantSecret grant ("agent.".toList ++ Nat.toDigits 10 agentId)
      now).isOk = true <-> now ≤ built.seconds + grantTtl := by
  rcases h with ⟨db, cfg, hdb, hcfg, rfl⟩
  have hexp : Readable (built.seconds + grantTtl) := by
    have hcounted := built.counted
    unfold Readable grantTtl
    omega
  have hsigned : exists g, cfg.grant = some g := by
    unfold buildConfig at hcfg
    split at hcfg
    · cases hcfg
    · cases hcfg
      exact ⟨_, if_neg hsecret⟩
  rcases hsigned with ⟨g, hg⟩
  have htoken : Config.token st rt cfg = g.token rt.hmac st.grantSecret := by
    unfold Config.token
    rw [hg]
  rw [htoken]
  exact verify_iff_unexpired hpl hhmac hdb ⟨cfg, hcfg, hg⟩ hexp

theorem accepts_iff_timely {s : State} (h : Inv pl st rt agentId s) (a : Action) :
    Accepts st rt agentId s a <-> Timely st s a := by
  cases a with
  | verify pid conn =>
      refine forall_congr' fun hello => forall_congr' fun hmem => forall_congr' fun hsecret => ?_
      exact verify_issued hpl hhmac hsecret (h.hellos hello (List.mem_of_find?_eq_some hmem)) _
  | _ => exact Iff.rfl

/--
In every run of an agent, however configurations are pushed and connections drop, the
engine accepts the grant of every hello exactly when none of them is read later than the
lifetime of a grant after the configuration was built that the client had taken over.
-/
theorem reregisters_iff_timely {s t : State} {actions : List Action}
    (hs : (machine pl st rt marshal nodeToken agentId).Reachable s)
    (hexec : (machine pl st rt marshal nodeToken agentId).exec s actions = some t) :
    (machine pl st rt marshal nodeToken agentId).Obeys (Accepts st rt agentId) s actions <->
      (machine pl st rt marshal nodeToken agentId).Obeys (Timely st) s actions := by
  have hinv : Inv pl st rt agentId s :=
    hs.invariant (I := Inv pl st rt agentId) (fun _ h => inv_fresh h)
      fun _ _ _ h hstep => inv_step h hstep
  exact Machine.obeys_iff_obeys (I := Inv pl st rt agentId)
    (fun _ _ _ h _ hstep => inv_step h hstep)
    (fun _ a _ h _ => accepts_iff_timely hpl hhmac h a) hinv hexec

end Runs

/-!
# Two engine restarts

A client is registered and the engine restarts days later: once nine days after the start,
with a request that has changed the configuration in between, and once when nothing has
changed for a week.
-/

def firstMessage : Text := "v1|agent.1|1900604800||foo.b.rc-tunnel.com".toList

def firstSignature : Text := "De4CC8IDdH-CcgOqc1sOzbEbMshWdJzIHxtOpcX48VU".toList

def secondMessage : Text := "v1|agent.1|1901036800||foo.b.rc-tunnel.com".toList

def secondSignature : Text := "G-uNu4hREgCEVyemtn8wO1NVj0YeB-9c0WUAR94Ad2c".toList

def siteRuntime : Engine.Runtime where
  hmac secret msg :=
    if secret = "secret".toList ∧ msg = firstMessage then firstSignature
    else if secret = "secret".toList ∧ msg = secondMessage then secondSignature
    else []
  unicodeLower c := c
  listenError := "bind: address already in use".toList

theorem not_mem_siteRuntime (secret msg : Text) : '|' ∉ siteRuntime.hmac secret msg := by
  unfold siteRuntime
  simp only
  split
  · decide
  · split
    · decide
    · exact List.not_mem_nil

def site : Machine State Action :=
  machine asciiPlatform deployed siteRuntime (fun m => Engine.ascii m.json) "node".toList 1

def begin : State where
  db := emptyDb
  now := ⟨1900000000, by decide⟩
  connected := false
  sent := []
  file := none
  child := Child.absent
  boots := 0
  hellos := []

/-- The agent connects, renders its first configuration and starts its client. -/
def enrolled : List Action :=
  (setUp "c".toList ++ publish 2 1 (web "foo".toList)).map Action.panel ++
    [Action.connect, Action.apply fun _ => "127.0.0.1:80".toList, Action.boot true]

/-- The client dials, and writes its hello. -/
def greets : List Action :=
  [Action.client Engine.Client.Action.dial, Action.client Engine.Client.Action.readGrant,
    Action.client (Engine.Client.Action.writeHello true)]

/-- The engine restarts. -/
def restarts : List Action :=
  [Action.client Engine.Client.Action.drop, Action.client Engine.Client.Action.endSession]

/-- A tunnel is changed, and the configuration is pushed and loaded. -/
def changes : List Action :=
  [Action.panel (Api.Action.request ⟨2, Role.teamAdmin,
      Call.updateTunnel 1 ⟨none, none, none, some (some "tcp".toList)⟩⟩),
    Action.push, Action.apply fun _ => "127.0.0.1:80".toList, Action.hangup true,
    Action.client Engine.Client.Action.swapGrant, Action.client Engine.Client.Action.readCtrl,
    Action.client (Engine.Client.Action.writeUpdate true)]

def registers (conn : Nat) : List Action :=
  greets ++ [Action.verify 0 conn, Action.client Engine.Client.Action.publish]

def changed : List Action :=
  registers 0 ++ [Action.tick 432000] ++ changes ++ [Action.tick 345600] ++ restarts ++
    registers 1

def quiet : List Action := registers 0 ++ [Action.tick 604801] ++ restarts ++ greets

theorem reachable_enrolled {s : State} (hexec : site.exec begin enrolled = some s) :
    site.Reachable s :=
  ⟨begin, enrolled, ⟨Or.inl rfl, rfl, rfl, rfl, rfl, rfl⟩, hexec⟩

/-- The second hello carries the grant that was pushed with the change. -/
theorem reregisters_of_change :
    exists s t, site.Reachable s ∧ site.Always (fun u => u.connected = true) s changed ∧
      site.exec s changed = some t ∧ site.Obeys (Accepts deployed siteRuntime 1) s changed := by
  have hrun : (site.exec begin enrolled).any (fun s => decide (
      site.Always (fun u => u.connected = true) s changed ∧ (site.exec s changed).isSome ∧
      site.Obeys (Timely deployed) s changed)) = true := by decide +kernel
  rcases (Option.any_eq_true _ _).mp hrun with ⟨s, hexec, htimely⟩
  rcases of_decide_eq_true htimely with ⟨hup, hsome, htimely⟩
  rcases Option.isSome_iff_exists.mp hsome with ⟨t, ht⟩
  have hs := reachable_enrolled hexec
  exact ⟨s, t, hs, hup, ht, (reregisters_iff_timely standard_asciiPlatform not_mem_siteRuntime hs
    ht).mpr htimely⟩

/-- The second hello carries the grant of the first, a second after its expiry. -/
theorem rejected_of_quiet :
    exists s t hello, site.Reachable s ∧
      site.Always (fun u => u.connected = true) s (quiet ++ [Action.verify 0 1]) ∧
      site.exec s quiet = some t ∧ t.hello? 0 1 = some hello ∧
      Engine.verify siteRuntime deployed.grantSecret hello.grant "agent.1".toList
        t.now.seconds = Except.error "grant expired".toList ∧
      ¬ site.Obeys (Accepts deployed siteRuntime 1) s (quiet ++ [Action.verify 0 1]) := by
  have hrun : (site.exec begin enrolled).any (fun s => decide (
      site.Always (fun u => u.connected = true) s (quiet ++ [Action.verify 0 1]) ∧
      (site.exec s quiet).any (fun t => (t.hello? 0 1).any fun hello =>
        decide (Engine.verify siteRuntime deployed.grantSecret hello.grant "agent.1".toList
          t.now.seconds = Except.error "grant expired".toList)) = true ∧
      ¬ site.Obeys (Accepts deployed siteRuntime 1) s (quiet ++ [Action.verify 0 1]))) =
        true := by decide +kernel
  rcases (Option.any_eq_true _ _).mp hrun with ⟨s, hexec, hchecked⟩
  rcases of_decide_eq_true hchecked with ⟨hup, hlast, hrejected⟩
  rcases (Option.any_eq_true _ _).mp hlast with ⟨t, ht, hhello⟩
  rcases (Option.any_eq_true _ _).mp hhello with ⟨hello, hfound, hanswer⟩
  exact ⟨s, t, hello, reachable_enrolled hexec, hup, ht, hfound, of_decide_eq_true hanswer,
    hrejected⟩

end Lifetime

end Api

end Panel
end RcTunnel
