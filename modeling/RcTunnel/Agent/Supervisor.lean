import RcTunnel.Engine.Client
import RcTunnel.Panel.Agreement

/-!
# The agent and its engine client

The agent renders what the panel sends it into {lit}`rctc.json`, and starts the engine
client or signals it to read the file again.  A watchdog starts a client that has exited.

The client is a process of its own.  It may exit at any time, it does not listen for the
signal at first, and it may read the file while the agent is writing it.
-/

namespace RcTunnel
namespace Agent

open Foundation

namespace Supervisor

open Panel.Api (Payload)
open Engine (Text)
open Engine.Client (Desired Reload)

/-!
# The file
-/

structure Node where
  serverAddr : Text
  serverPort : Int
  workconnPort : Option Int
  token : Option Text
deriving DecidableEq, Repr

/-- The files of the agent that {lit}`rctc.json` names. -/
structure Paths where
  ca : Text
  crt : Text
  key : Text
deriving DecidableEq, Repr

/-- {lit}`fileConfig`, as {lit}`json.dumps` writes it and {lit}`json.Unmarshal` reads it. -/
structure FileConfig where
  controlAddr : Text
  workConnAddr : Text
  token : Option Text
  grant : Text
  ca : Text
  cert : Text
  key : Text
  serverName : Text
  proxies : List Engine.ProxySpec
deriving DecidableEq, Repr

def hostPort (host : Text) (port : Int) : Text := host ++ ':' :: Engine.itoa port

/-- {lit}`_render_rctc`, with the local addresses that {lit}`resolve` finds. -/
def renderRctc (paths : Paths) (node : Node) (localAddr : Payload -> Text)
    (tunnels : List Payload) (grant : Text) : FileConfig where
  controlAddr := hostPort node.serverAddr node.serverPort
  workConnAddr := hostPort node.serverAddr (node.workconnPort.getD 7001)
  token := node.token
  grant := grant
  ca := paths.ca
  cert := paths.crt
  key := paths.key
  serverName := node.serverAddr
  proxies := Panel.Api.renderRctc localAddr tunnels

/-- What the client takes over when it reloads. -/
def FileConfig.desired (cfg : FileConfig) : Desired := ⟨cfg.proxies, cfg.grant⟩

/-- {lit}`client.New` of the file; {lit}`null` and a missing key are the empty string. -/
def FileConfig.client (cfg : FileConfig) : Engine.Client.State :=
  Engine.Client.new ⟨cfg.token.getD [], cfg.grant, [], cfg.proxies⟩

inductive File where
  | absent
  /-- truncated, and not all written -/
  | torn
  | whole (cfg : FileConfig)
deriving DecidableEq, Repr

def File.whole? : File -> Option FileConfig
  | File.whole cfg => some cfg
  | _ => none

/-- {lit}`os.ReadFile` and {lit}`json.Unmarshal`; without {lit}`ok` they fail by themselves. -/
def File.read (f : File) (ok : Bool) : Option FileConfig := if ok then f.whole? else none

/-!
# The processes
-/

/-- An {lit}`rctc` that listens for the signal. -/
structure Process where
  client : Engine.Client.State
  /-- a signal waits in the channel -/
  hup : Bool
  /-- the reload loop has taken a signal, and not yet read the file -/
  loading : Bool
deriving DecidableEq, Repr

/-- {lit}`proc` of the agent. -/
inductive Child where
  | absent
  /-- it has not read its file yet -/
  | starting
  /-- it has, and does not listen yet -/
  | loaded (cfg : FileConfig)
  | running (p : Process)
  | exited
deriving DecidableEq, Repr

/-- Where {lit}`_apply_config` is. -/
inductive Apply where
  | idle
  /-- it has opened the file for writing -/
  | writing (cfg : FileConfig) (changed : Bool)
  | written (changed : Bool)
deriving DecidableEq, Repr

/-- The client is going to be told about what is in the file. -/
def Apply.changing : Apply -> Bool
  | Apply.idle => false
  | Apply.writing _ changed => changed
  | Apply.written changed => changed

structure State where
  node : Option Node
  file : File
  apply : Apply
  child : Child
  /-- the task of {lit}`_watchdog` has not failed -/
  watchdog : Bool
deriving DecidableEq, Repr

/-- A {lit}`config` message. -/
structure Message where
  node : Option Node
  tunnels : List Payload
  grant : Text

inductive Action where
  | welcome (node : Node)
  /-- {lit}`_apply_config` renders the message and opens the file -/
  | begin (m : Message) (localAddr : Payload -> Text)
  | write
  /-- writing fails, and ends the session -/
  | abort
  /-- the client is started or signalled; {lit}`Popen` may fail -/
  | finish (ok : Bool)
  | watch (ok : Bool)
  /-- the agent ends, and its client with it; the next one finds a node on disk, or none -/
  | quit (node : Option Node)
  /-- the client reads its file and its certificates -/
  | boot (ok : Bool)
  /-- {lit}`signal.Notify` -/
  | listen
  | exit
  /-- the reload loop takes a signal -/
  | wake
  | load (ok : Bool)
  | client (action : Engine.Client.Action)

/-- A signal ends a client that does not listen for it. -/
def Child.hangUp : Child -> Child
  | Child.absent => Child.absent
  | Child.running p => Child.running { p with hup := true }
  | _ => Child.exited

/-- {lit}`_restart_engine` if there is no live client, else {lit}`_reload_engine` if the file
has changed. -/
def Child.refresh (changed ok : Bool) (child : Child) : Child :=
  match child with
  | Child.absent | Child.exited => if ok then Child.starting else child
  | _ => if changed then child.hangUp else child

section Steps

variable (paths : Paths) (marshal : Engine.Msg -> Engine.Bytes)

def step (s : State) : Action -> Option State
  | Action.welcome node => some { s with node := some node }
  | Action.begin m localAddr =>
      match s.apply, m.node.or s.node with
      | Apply.idle, some node =>
          let cfg := renderRctc paths node localAddr m.tunnels m.grant
          some { s with file := File.torn, apply := Apply.writing cfg (s.file ≠ File.whole cfg) }
      | _, _ => none
  | Action.write =>
      match s.apply with
      | Apply.writing cfg changed =>
          some { s with file := File.whole cfg, apply := Apply.written changed }
      | _ => none
  | Action.abort =>
      match s.apply with
      | Apply.writing _ _ => some { s with apply := Apply.idle }
      | _ => none
  | Action.finish ok =>
      match s.apply with
      | Apply.written changed =>
          some { s with apply := Apply.idle, child := s.child.refresh changed ok }
      | _ => none
  | Action.watch ok =>
      if s.apply = Apply.idle ∧ s.watchdog = true ∧ s.child = Child.exited ∧
          s.file ≠ File.absent then
        if ok then some { s with child := Child.starting } else some { s with watchdog := false }
      else
        none
  | Action.quit node =>
      some { s with node := node, apply := Apply.idle, child := Child.absent, watchdog := true }
  | Action.boot ok =>
      match s.child with
      | Child.starting =>
          match s.file.read ok with
          | none => some { s with child := Child.exited }
          | some cfg => some { s with child := Child.loaded cfg }
      | _ => none
  | Action.listen =>
      match s.child with
      | Child.loaded cfg => some { s with child := Child.running ⟨cfg.client, false, false⟩ }
      | _ => none
  | Action.exit =>
      match s.child with
      | Child.absent => none
      | _ => some { s with child := Child.exited }
  | Action.wake =>
      match s.child with
      | Child.running p =>
          if p.hup = true ∧ p.loading = false ∧ p.client.reload = Reload.idle then
            some { s with child := Child.running { p with hup := false, loading := true } }
          else
            none
      | _ => none
  | Action.load ok =>
      match s.child with
      | Child.running p =>
          if p.loading then
            match s.file.read ok with
            | none => some { s with child := Child.running { p with loading := false } }
            | some cfg =>
                match Engine.Client.step marshal p.client
                    (Engine.Client.Action.reload cfg.desired) with
                | none => none
                | some client =>
                    some { s with
                      child := Child.running { p with client := client, loading := false } }
          else
            none
      | _ => none
  | Action.client action =>
      match s.child, action with
      | _, Engine.Client.Action.reload _ => none
      | Child.running p, action =>
          match Engine.Client.step marshal p.client action with
          | none => none
          | some client => some { s with child := Child.running { p with client := client } }
      | _, _ => none

/-- The agent has not had a configuration yet. -/
structure Fresh (s : State) : Prop where
  apply : s.apply = Apply.idle
  child : s.child = Child.absent

def machine : Machine State Action where
  init := Fresh
  step := step paths marshal

end Steps

/-!
# What a step can do
-/

section Moves

variable (paths : Paths) (marshal : Engine.Msg -> Engine.Bytes)

inductive Moves (s : State) : Action -> State -> Prop where
  | welcome {node : Node} : Moves s (Action.welcome node) { s with node := some node }
  | begin {m : Message} {localAddr : Payload -> Text} {node : Node} {cfg : FileConfig}
      (happly : s.apply = Apply.idle)
      (hcfg : renderRctc paths node localAddr m.tunnels m.grant = cfg) :
      Moves s (Action.begin m localAddr) { s with
        file := File.torn
        apply := Apply.writing cfg (s.file ≠ File.whole cfg) }
  | write {cfg : FileConfig} {changed : Bool} (happly : s.apply = Apply.writing cfg changed) :
      Moves s Action.write { s with file := File.whole cfg, apply := Apply.written changed }
  | abort {cfg : FileConfig} {changed : Bool} (happly : s.apply = Apply.writing cfg changed) :
      Moves s Action.abort { s with apply := Apply.idle }
  | finish {changed ok : Bool} (happly : s.apply = Apply.written changed) :
      Moves s (Action.finish ok) { s with
        apply := Apply.idle
        child := s.child.refresh changed ok }
  | watch (happly : s.apply = Apply.idle) :
      Moves s (Action.watch true) { s with child := Child.starting }
  | watchFail : Moves s (Action.watch false) { s with watchdog := false }
  | quit {node : Option Node} : Moves s (Action.quit node) { s with
      node := node, apply := Apply.idle, child := Child.absent, watchdog := true }
  | bootFail {ok : Bool} (hread : s.file.read ok = none) :
      Moves s (Action.boot ok) { s with child := Child.exited }
  | boot {ok : Bool} {cfg : FileConfig} (hread : s.file.read ok = some cfg) :
      Moves s (Action.boot ok) { s with child := Child.loaded cfg }
  | listen {cfg : FileConfig} (hchild : s.child = Child.loaded cfg) :
      Moves s Action.listen { s with child := Child.running ⟨cfg.client, false, false⟩ }
  | exit : Moves s Action.exit { s with child := Child.exited }
  | wake {p : Process} (hchild : s.child = Child.running p)
      (hidle : p.client.reload = Reload.idle) :
      Moves s Action.wake { s with child := Child.running { p with hup := false, loading := true } }
  | loadFail {ok : Bool} {p : Process} (hchild : s.child = Child.running p)
      (hloading : p.loading = true) (hread : s.file.read ok = none) :
      Moves s (Action.load ok) { s with child := Child.running { p with loading := false } }
  | load {ok : Bool} {p : Process} {cfg : FileConfig} {client : Engine.Client.State}
      (hread : s.file.read ok = some cfg)
      (hclient : Engine.Client.step marshal p.client (Engine.Client.Action.reload cfg.desired) =
        some client) :
      Moves s (Action.load ok)
        { s with child := Child.running { p with client := client, loading := false } }
  | client {action : Engine.Client.Action} {p : Process} {client : Engine.Client.State}
      (hchild : s.child = Child.running p)
      (hnot : forall d, action ≠ Engine.Client.Action.reload d)
      (hclient : Engine.Client.step marshal p.client action = some client) :
      Moves s (Action.client action) { s with child := Child.running { p with client := client } }

variable {paths marshal}

theorem step_moves {s t : State} {a : Action} (h : step paths marshal s a = some t) :
    Moves paths marshal s a t := by
  cases a with
  | welcome node =>
      cases h
      exact Moves.welcome
  | begin m localAddr =>
      simp only [step] at h
      split at h
      · rename_i node happly hnode
        cases h
        exact Moves.begin happly rfl
      · cases h
  | write =>
      simp only [step] at h
      split at h
      · rename_i cfg changed happly
        cases h
        exact Moves.write happly
      · cases h
  | abort =>
      simp only [step] at h
      split at h
      · rename_i cfg changed happly
        cases h
        exact Moves.abort happly
      · cases h
  | finish ok =>
      simp only [step] at h
      split at h
      · rename_i changed happly
        cases h
        exact Moves.finish happly
      · cases h
  | watch ok =>
      simp only [step] at h
      split at h
      · rename_i hguard
        cases ok with
        | true =>
            cases h
            exact Moves.watch hguard.left
        | false =>
            cases h
            exact Moves.watchFail
      · cases h
  | quit node =>
      cases h
      exact Moves.quit
  | boot ok =>
      simp only [step] at h
      split at h
      · split at h
        · rename_i hread
          cases h
          exact Moves.bootFail hread
        · rename_i cfg hread
          cases h
          exact Moves.boot hread
      · cases h
  | listen =>
      simp only [step] at h
      split at h
      · rename_i cfg hchild
        cases h
        exact Moves.listen hchild
      · cases h
  | exit =>
      simp only [step] at h
      split at h
      · cases h
      · cases h
        exact Moves.exit
  | wake =>
      simp only [step] at h
      split at h
      · rename_i p hchild
        split at h
        · rename_i hguard
          cases h
          exact Moves.wake hchild hguard.right.right
        · cases h
      · cases h
  | load ok =>
      simp only [step] at h
      split at h
      · rename_i p hchild
        split at h
        · rename_i hloading
          split at h
          · rename_i hread
            cases h
            exact Moves.loadFail hchild hloading hread
          · rename_i cfg hread
            split at h
            · cases h
            · rename_i client hclient
              cases h
              exact Moves.load hread hclient
        · cases h
      · cases h
  | client action =>
      simp only [step] at h
      split at h
      · cases h
      · rename_i p hchild hnot
        split at h
        · cases h
        · rename_i client hclient
          cases h
          exact Moves.client hchild hnot hclient
      · cases h

end Moves

/-!
# The client and the file
-/

/-- The configuration that is in the file, or being written to it. -/
def State.latest (s : State) : Option FileConfig :=
  match s.apply with
  | Apply.writing cfg _ => some cfg
  | _ => s.file.whole?

/--
The client looks these proxies up when it has to dial a local service, and shows this grant
in its next hello.  What {lit}`rctd` has registered for it may be something else: its hello
has the proxies that it was started with.
-/
structure Adopts (c : Engine.Client.State) (d : Desired) : Prop where
  proxies : c.setProxies d.proxies = c
  grant : c.grant = d.grant

instance (c : Engine.Client.State) (d : Desired) : Decidable (Adopts c d) :=
  decidable_of_iff (c.setProxies d.proxies = c ∧ c.grant = d.grant)
    ⟨fun h => ⟨h.left, h.right⟩, fun h => ⟨h.proxies, h.grant⟩⟩

/-- Nothing is on its way to the client. -/
def Process.Quiet (p : Process) : Prop :=
  p.hup = false ∧ p.loading = false ∧ p.client.reload = Reload.idle

/-- A client that has nothing to do has adopted what is in its file. -/
def InSync (s : State) : Prop :=
  forall p, s.child = Child.running p -> p.Quiet -> s.apply.changing = false ->
    forall cfg, s.latest = some cfg -> Adopts p.client cfg.desired

/--
The one way to miss a configuration: the reload loop fails to read the file, for an error
or because the agent is writing the same again, and no other signal follows.
-/
def NotMissed (s : State) : Action -> Prop
  | Action.load ok =>
      forall p, s.child = Child.running p -> s.file.read ok = none -> p.hup = false ->
        s.apply.changing = false ->
        forall cfg, s.latest = some cfg -> Adopts p.client cfg.desired
  | _ => True

/-- What is asked of a running client can be checked. -/
instance runningDecidable {P : Process -> Prop} [DecidablePred P] (child : Child) :
    Decidable (forall p, child = Child.running p -> P p) :=
  match child with
  | Child.running p =>
      decidable_of_iff (P p) ⟨fun h q hq => by cases hq; exact h, fun h => h p rfl⟩
  | Child.absent | Child.starting | Child.loaded _ | Child.exited => isTrue nofun

instance latestDecidable {P : FileConfig -> Prop} [DecidablePred P] (latest : Option FileConfig) :
    Decidable (forall cfg, latest = some cfg -> P cfg) :=
  match latest with
  | some cfg => decidable_of_iff (P cfg) ⟨fun h c hc => by cases hc; exact h, fun h => h cfg rfl⟩
  | none => isTrue nofun

instance (s : State) : forall a, Decidable (NotMissed s a)
  | Action.load _ => inferInstanceAs (Decidable (forall _, _ -> _))
  | Action.welcome _ | Action.begin _ _ | Action.write | Action.abort | Action.finish _
  | Action.watch _ | Action.quit _ | Action.boot _ | Action.listen | Action.exit
  | Action.wake | Action.client _ => inferInstanceAs (Decidable True)

/-!
# The client between reloads
-/

/-- A client that has taken the pair over, but for a grant it is about to swap. -/
structure Holds (c : Engine.Client.State) (d : Desired) : Prop where
  proxies : c.setProxies d.proxies = c
  grant : (forall e, c.reload ≠ Reload.swapping e) -> c.grant = d.grant
  desired : forall e, c.reload.desired? = some e -> e = d

namespace Holds

variable {marshal : Engine.Msg -> Engine.Bytes} {c c' : Engine.Client.State} {d : Desired}
variable {a : Engine.Client.Action}

theorem adopts (h : Holds c d) (hidle : c.reload = Reload.idle) : Adopts c d where
  proxies := h.proxies
  grant := by
    apply h.grant
    intro e
    rw [hidle]
    simp

theorem of_adopts (h : Adopts c d) (hidle : c.reload = Reload.idle) : Holds c d where
  proxies := h.proxies
  grant _ := h.grant
  desired e he := by
    rw [hidle] at he
    cases he

theorem new (cfg : FileConfig) : Holds cfg.client cfg.desired where
  proxies := rfl
  grant _ := rfl
  desired e he := by cases he

theorem reload (h : Engine.Client.step marshal c (Engine.Client.Action.reload d) = some c') :
    Holds c' d := by
  cases Engine.Client.step_moves h with
  | reload _ =>
      constructor
      · rfl
      · intro hnot
        exact absurd rfl (hnot d)
      · intro e he
        exact (Option.some.inj he).symm

theorem setProxies_frame {proxies : List Engine.ProxySpec} (h : c.setProxies proxies = c)
    (hlocals : c'.locals = c.locals) (hptype : c'.ptype = c.ptype) :
    c'.setProxies proxies = c' := by
  cases c
  cases c'
  simp only [Engine.Client.State.setProxies, Engine.Client.State.mk.injEq] at *
  simp [hlocals, hptype, h]

/-- What the client looks at has not changed, and no reload has begun. -/
theorem frame (h : Holds c d) (hlocals : c'.locals = c.locals) (hptype : c'.ptype = c.ptype)
    (hgrant : c'.grant = c.grant) (hreload : c'.reload = c.reload) : Holds c' d where
  proxies := setProxies_frame h.proxies hlocals hptype
  grant hnot := by
    rw [hgrant]
    apply h.grant
    rw [← hreload]
    exact hnot
  desired e he := by
    apply h.desired e
    rw [← hreload]
    exact he

/-- The reload goes on, and the grant is swapped by now. -/
theorem advance (h : Holds c d) (hlocals : c'.locals = c.locals) (hptype : c'.ptype = c.ptype)
    (hgrant : c'.grant = d.grant)
    (hreload : forall e, c'.reload.desired? = some e -> c.reload.desired? = some e) :
    Holds c' d where
  proxies := setProxies_frame h.proxies hlocals hptype
  grant _ := hgrant
  desired e he := h.desired e (hreload e he)

theorem endReload (h : Holds c d) (hreload : forall e, c.reload ≠ Reload.swapping e)
    (hlocals : c'.locals = c.locals) (hptype : c'.ptype = c.ptype) (hgrant : c'.grant = c.grant)
    (hidle : c'.reload = Reload.idle) : Holds c' d := by
  apply h.advance hlocals hptype (hgrant.trans (h.grant hreload))
  intro e he
  rw [hidle] at he
  cases he

theorem step (h : Holds c d) (hstep : Engine.Client.step marshal c a = some c')
    (ha : forall e, a ≠ Engine.Client.Action.reload e) : Holds c' d := by
  cases Engine.Client.step_moves hstep with
  | @reload e _ => exact absurd rfl (ha e)
  | dial _ => exact h.frame rfl rfl rfl rfl
  | readGrant _ => exact h.frame rfl rfl rfl rfl
  | failHello _ => exact h.frame rfl rfl rfl rfl
  | writeHello _ => exact h.frame rfl rfl rfl rfl
  | publish _ => exact h.frame rfl rfl rfl rfl
  | drop _ => exact h.frame rfl rfl rfl rfl
  | endLive => exact h.frame rfl rfl rfl rfl
  | endSession _ _ => exact h.frame rfl rfl rfl rfl
  | @swapGrant e hreload =>
      have hsame : e = d := h.desired e (by rw [hreload]; rfl)
      apply h.advance
      · rfl
      · rfl
      · exact congrArg Desired.grant hsame
      · intro f hf
        rw [hreload]
        exact hf
  | missCtrl hreload _ => exact h.endReload (by simp [hreload]) rfl rfl rfl rfl
  | findCtrl hreload _ =>
      apply h.advance
      · rfl
      · rfl
      · exact h.grant (by simp [hreload])
      · intro f hf
        rw [hreload]
        exact hf
  | largeUpdate hreload _ => exact h.endReload (by simp [hreload]) rfl rfl rfl rfl
  | updateElsewhere hreload _ => exact h.endReload (by simp [hreload]) rfl rfl rfl rfl
  | writeUpdate hreload _ => exact h.endReload (by simp [hreload]) rfl rfl rfl rfl

end Holds

/-!
# The invariant of runs that miss no configuration
-/

structure Inv (s : State) : Prop where
  torn : forall cfg changed, s.apply = Apply.writing cfg changed -> s.file = File.torn
  loaded : forall c, s.child = Child.loaded c -> s.apply.changing = false ->
    forall cfg, s.latest = some cfg -> c = cfg
  loading : forall p, s.child = Child.running p -> p.loading = true ->
    p.client.reload = Reload.idle
  synced : forall p, s.child = Child.running p -> p.hup = false -> p.loading = false ->
    s.apply.changing = false -> forall cfg, s.latest = some cfg -> Holds p.client cfg.desired

/-- Only the reload loop begins a reload. -/
theorem idle_step {marshal : Engine.Msg -> Engine.Bytes} {c c' : Engine.Client.State}
    {a : Engine.Client.Action} (hstep : Engine.Client.step marshal c a = some c')
    (ha : forall e, a ≠ Engine.Client.Action.reload e) (hidle : c.reload = Reload.idle) :
    c'.reload = Reload.idle := by
  cases Engine.Client.step_moves hstep with
  | @reload e _ => exact absurd rfl (ha e)
  | swapGrant hreload | findCtrl hreload _ =>
      rw [hidle] at hreload
      cases hreload
  | missCtrl _ _ | largeUpdate _ _ | updateElsewhere _ _ | writeUpdate _ _ => rfl
  | dial _ | readGrant _ | failHello _ | writeHello _ | publish _ | drop _ | endLive
  | endSession _ _ => exact hidle

/-- The client is left alone, or signalled, or it has its file to read. -/
theorem Child.refresh_cases (changed ok : Bool) (child : Child) :
    (changed = false ∧ child.refresh changed ok = child) ∨
      (exists p, child = Child.running p ∧
        child.refresh changed ok = Child.running { p with hup := true }) ∨
      ((forall c, child.refresh changed ok ≠ Child.loaded c) ∧
        forall p, child.refresh changed ok ≠ Child.running p) := by
  cases child with
  | absent => cases ok <;> simp [Child.refresh]
  | exited => cases ok <;> simp [Child.refresh]
  | starting => cases changed <;> simp [Child.refresh, Child.hangUp]
  | loaded c => cases changed <;> simp [Child.refresh, Child.hangUp]
  | running p => cases changed <;> simp [Child.refresh, Child.hangUp]

namespace Inv

variable {paths : Paths} {marshal : Engine.Msg -> Engine.Bytes} {s t : State} {a : Action}

theorem start (h : Fresh s) : Inv s := by
  constructor
  · intro cfg changed happly
    rw [h.apply] at happly
    cases happly
  · intro c hchild
    rw [h.child] at hchild
    cases hchild
  · intro p hchild
    rw [h.child] at hchild
    cases hchild
  · intro p hchild
    rw [h.child] at hchild
    cases hchild

theorem inSync (h : Inv s) : InSync s := by
  intro p hchild hquiet hchanging cfg hlatest
  exact (h.synced p hchild hquiet.left hquiet.right.left hchanging cfg hlatest).adopts
    hquiet.right.right

/-- A file that can be read is whole, and has the latest configuration. -/
theorem latest_of_read (h : Inv s) {ok : Bool} {cfg : FileConfig}
    (hread : s.file.read ok = some cfg) : s.latest = some cfg := by
  have hwhole : s.file.whole? = some cfg := by
    cases ok with
    | false => cases hread
    | true => exact hread
  cases happly : s.apply with
  | idle =>
      rw [State.latest, happly]
      exact hwhole
  | written changed =>
      rw [State.latest, happly]
      exact hwhole
  | writing other changed =>
      rw [h.torn other changed happly] at hwhole
      cases hwhole

/-- A step of the agent on the file. -/
theorem refile (h : Inv s) (hchild : t.child = s.child)
    (htorn : forall cfg changed, t.apply = Apply.writing cfg changed -> t.file = File.torn)
    (hlatest : forall cfg, t.apply.changing = false -> t.latest = some cfg ->
      s.apply.changing = false ∧ s.latest = some cfg) : Inv t where
  torn := htorn
  loaded c hc hchanging cfg hcfg := by
    rcases hlatest cfg hchanging hcfg with ⟨hbefore, hsame⟩
    exact h.loaded c (hchild ▸ hc) hbefore cfg hsame
  loading p hp := h.loading p (hchild ▸ hp)
  synced p hp hhup hloading hchanging cfg hcfg := by
    rcases hlatest cfg hchanging hcfg with ⟨hbefore, hsame⟩
    exact h.synced p (hchild ▸ hp) hhup hloading hbefore cfg hsame

/-- A client that does not run, and has not read its file, is not behind. -/
theorem unread (h : Inv s) (happly : t.apply = s.apply ∨ t.apply = Apply.idle)
    (hfile : t.file = s.file) (hloaded : forall c, t.child ≠ Child.loaded c)
    (hrunning : forall p, t.child ≠ Child.running p) : Inv t where
  torn cfg changed hwriting := by
    rcases happly with happly | happly
    · rw [hfile]
      exact h.torn cfg changed (happly ▸ hwriting)
    · rw [happly] at hwriting
      cases hwriting
  loaded c hc := absurd hc (hloaded c)
  loading p hp := absurd hp (hrunning p)
  synced p hp := absurd hp (hrunning p)

/-- A step of a client that runs. -/
theorem ran (h : Inv s) (happly : t.apply = s.apply) (hfile : t.file = s.file) {q : Process}
    (hchild : t.child = Child.running q)
    (hloading : q.loading = true -> q.client.reload = Reload.idle)
    (hsynced : q.hup = false -> q.loading = false -> s.apply.changing = false ->
      forall cfg, s.latest = some cfg -> Holds q.client cfg.desired) : Inv t where
  torn cfg changed hwriting := by
    rw [hfile]
    exact h.torn cfg changed (happly ▸ hwriting)
  loaded c hc := by
    rw [hchild] at hc
    cases hc
  loading p hp := by
    rw [hchild] at hp
    cases hp
    exact hloading
  synced p hp hhup hquiet hchanging cfg hlatest := by
    rw [hchild] at hp
    cases hp
    rw [happly] at hchanging
    rw [State.latest, happly, hfile] at hlatest
    exact hsynced hhup hquiet hchanging cfg hlatest

theorem finish (h : Inv s) {changed : Bool} (happly : s.apply = Apply.written changed)
    (ok : Bool) :
    Inv { s with apply := Apply.idle, child := s.child.refresh changed ok } := by
  rcases Child.refresh_cases changed ok s.child with
    ⟨hunchanged, hchild⟩ | ⟨p, hrunning, hchild⟩ | ⟨hloaded, hrunning⟩
  · apply h.refile
    · exact hchild
    · intro cfg other hwriting
      cases hwriting
    · intro cfg _ hlatest
      rw [State.latest, happly, hunchanged]
      exact ⟨rfl, hlatest⟩
  · constructor
    · intro cfg other hwriting
      cases hwriting
    · intro c hc
      rw [hchild] at hc
      cases hc
    · intro q hq
      rw [hchild] at hq
      cases hq
      exact h.loading p hrunning
    · intro q hq hhup
      rw [hchild] at hq
      cases hq
      cases hhup
  · exact h.unread (Or.inr rfl) rfl hloaded hrunning

/-- The message is rendered; if it is what the file has, the client knows it. -/
theorem begin (h : Inv s) {cfg : FileConfig} (happly : s.apply = Apply.idle) :
    Inv { s with file := File.torn, apply := Apply.writing cfg (s.file ≠ File.whole cfg) } := by
  apply h.refile
  · rfl
  · exact fun _ _ _ => rfl
  · intro other hchanging hlatest
    cases hlatest
    have hsame : s.file = File.whole cfg := by simpa [Apply.changing] using hchanging
    rw [State.latest, happly, hsame]
    exact ⟨rfl, rfl⟩

theorem write (h : Inv s) {cfg : FileConfig} {changed : Bool}
    (happly : s.apply = Apply.writing cfg changed) :
    Inv { s with file := File.whole cfg, apply := Apply.written changed } := by
  apply h.refile
  · rfl
  · intro other _ hwriting
    cases hwriting
  · intro other hchanging hlatest
    rw [State.latest, happly]
    exact ⟨hchanging, hlatest⟩

/-- The file stays torn, and has no configuration. -/
theorem abort (h : Inv s) {cfg : FileConfig} {changed : Bool}
    (happly : s.apply = Apply.writing cfg changed) : Inv { s with apply := Apply.idle } := by
  apply h.refile
  · rfl
  · intro other _ hwriting
    cases hwriting
  · intro other _ hlatest
    simp only [State.latest, h.torn cfg changed happly] at hlatest
    cases hlatest

theorem boot (h : Inv s) {ok : Bool} {cfg : FileConfig} (hread : s.file.read ok = some cfg) :
    Inv { s with child := Child.loaded cfg } := by
  have hlatest := h.latest_of_read hread
  constructor
  · exact h.torn
  · intro c hc _ other hother
    cases hc
    change s.latest = some other at hother
    rw [hlatest] at hother
    exact Option.some.inj hother
  · intro p hp
    cases hp
  · intro p hp
    cases hp

theorem listen (h : Inv s) {c : FileConfig} (hchild : s.child = Child.loaded c) :
    Inv { s with child := Child.running ⟨c.client, false, false⟩ } := by
  apply h.ran
  · rfl
  · rfl
  · rfl
  · exact fun _ => rfl
  · intro _ _ hchanging cfg hlatest
    rw [← h.loaded c hchild hchanging cfg hlatest]
    exact Holds.new c

theorem wake (h : Inv s) {p : Process} (hidle : p.client.reload = Reload.idle) :
    Inv { s with child := Child.running { p with hup := false, loading := true } } := by
  apply h.ran
  · rfl
  · rfl
  · rfl
  · exact fun _ => hidle
  · intro _ hloading
    cases hloading

/-- A read that fails is not missed if the client has adopted the file already. -/
theorem loadFail (h : Inv s) {p : Process} (hchild : s.child = Child.running p)
    (hloading : p.loading = true)
    (hadopts : p.hup = false -> s.apply.changing = false ->
      forall cfg, s.latest = some cfg -> Adopts p.client cfg.desired) :
    Inv { s with child := Child.running { p with loading := false } } := by
  have hidle := h.loading p hchild hloading
  apply h.ran
  · rfl
  · rfl
  · rfl
  · exact fun _ => hidle
  · intro hhup _ hchanging cfg hlatest
    exact Holds.of_adopts (hadopts hhup hchanging cfg hlatest) hidle

theorem load (h : Inv s) {ok : Bool} {p : Process} {cfg : FileConfig}
    {client : Engine.Client.State} (hread : s.file.read ok = some cfg)
    (hclient : Engine.Client.step marshal p.client
      (Engine.Client.Action.reload cfg.desired) = some client) :
    Inv { s with child := Child.running { p with client := client, loading := false } } := by
  apply h.ran
  · rfl
  · rfl
  · rfl
  · exact fun hloading => by cases hloading
  · intro _ _ _ other hlatest
    rw [h.latest_of_read hread] at hlatest
    cases hlatest
    exact Holds.reload hclient

theorem client (h : Inv s) {action : Engine.Client.Action} {p : Process}
    {c : Engine.Client.State} (hchild : s.child = Child.running p)
    (hnot : forall d, action ≠ Engine.Client.Action.reload d)
    (hclient : Engine.Client.step marshal p.client action = some c) :
    Inv { s with child := Child.running { p with client := c } } := by
  apply h.ran
  · rfl
  · rfl
  · rfl
  · exact fun hloading => idle_step hclient hnot (h.loading p hchild hloading)
  · intro hhup hloading hchanging cfg hlatest
    exact (h.synced p hchild hhup hloading hchanging cfg hlatest).step hclient hnot

theorem step (h : Inv s) (hG : NotMissed s a) (hstep : step paths marshal s a = some t) :
    Inv t := by
  cases step_moves hstep with
  | welcome => exact h.refile rfl h.torn fun cfg hchanging hlatest => ⟨hchanging, hlatest⟩
  | begin happly hcfg => exact h.begin happly
  | write happly => exact h.write happly
  | abort happly => exact h.abort happly
  | finish happly => exact h.finish happly _
  | watch happly =>
      exact h.unread (Or.inl rfl) rfl (fun _ => Child.noConfusion) (fun _ => Child.noConfusion)
  | watchFail => exact h.refile rfl h.torn fun cfg hchanging hlatest => ⟨hchanging, hlatest⟩
  | quit =>
      exact h.unread (Or.inr rfl) rfl (fun _ => Child.noConfusion) (fun _ => Child.noConfusion)
  | bootFail hread =>
      exact h.unread (Or.inl rfl) rfl (fun _ => Child.noConfusion) (fun _ => Child.noConfusion)
  | boot hread => exact h.boot hread
  | listen hchild => exact h.listen hchild
  | exit => exact h.unread (Or.inl rfl) rfl (fun _ => Child.noConfusion) (fun _ => Child.noConfusion)
  | wake hchild hidle => exact h.wake hidle
  | loadFail hchild hloading hread => exact h.loadFail hchild hloading (hG _ hchild hread)
  | load hread hclient => exact h.load hread hclient
  | client hchild hnot hclient => exact h.client hchild hnot hclient

/-- A missed configuration leaves the client behind at once. -/
theorem behind (h : Inv s) (hmissed : ¬ NotMissed s a)
    (hstep : Supervisor.step paths marshal s a = some t) : ¬ InSync t := by
  cases a with
  | load ok =>
      simp only [NotMissed, not_forall] at hmissed
      rcases hmissed with ⟨p, hchild, hread, hhup, hchanging, cfg, hlatest, hbehind⟩
      simp only [Supervisor.step, hchild] at hstep
      split at hstep
      · rename_i hloading
        rw [hread] at hstep
        cases hstep
        intro hsync
        apply hbehind
        apply hsync { p with loading := false } rfl ⟨hhup, rfl, h.loading p hchild hloading⟩
          hchanging cfg hlatest
      · cases hstep
  | _ => exact absurd trivial hmissed

end Inv

/-!
# Configurations that are missed
-/

section Runs

variable {paths : Paths} {marshal : Engine.Msg -> Engine.Bytes} {s t : State}

/-- The client is in step with its file throughout a run if and only if no configuration is
missed in it. -/
theorem in_sync_iff_not_missed {actions : List Action} (hinit : Fresh s)
    (hexec : (machine paths marshal).exec s actions = some t) :
    (machine paths marshal).Always InSync s actions <->
      (machine paths marshal).Obeys NotMissed s actions := by
  apply Machine.always_iff_obeys (I := Inv)
  · intro s hs
    exact hs.inSync
  · intro s a t hs hG hstep
    exact hs.step hG hstep
  · intro s a t hs hmissed hstep
    exact hs.behind hmissed hstep
  · exact Inv.start hinit
  · exact hexec

/-!
The agent of one node, which has applied a grant, is sent another.  In the second run the
same message comes twice, and the client reads the file while it is written again.
-/

def host : Node := ⟨['n'], 7000, none, some ['k']⟩

def files : Paths := ⟨['a'], ['c'], ['p']⟩

def fresh : State := ⟨none, File.absent, Apply.idle, Child.absent, true⟩

def rendered (grant : Text) : FileConfig := renderRctc files host (fun _ => []) [] grant

def beginGrant (grant : Text) : Action := Action.begin ⟨some host, [], grant⟩ fun _ => []

def applyGrant (grant : Text) : List Action :=
  [beginGrant grant, Action.write, Action.finish true]

def booted : List Action := applyGrant ['g'] ++ [Action.boot true, Action.listen]

def reloaded : List Action :=
  booted ++ applyGrant ['h'] ++
    [Action.wake, Action.load true, Action.client Engine.Client.Action.swapGrant,
      Action.client Engine.Client.Action.readCtrl]

def overtaken : List Action :=
  booted ++ applyGrant ['h'] ++ [Action.wake, beginGrant ['h'], Action.load true]

theorem in_sync_iff_not_missed_reloaded :
    (machine files fun _ => []).Always InSync fresh reloaded ∧
      ¬ (machine files fun _ => []).Always InSync fresh overtaken := by
  have hfresh : Fresh fresh := ⟨rfl, rfl⟩
  have hreloaded : ((machine files fun _ => []).exec fresh reloaded).isSome = true := by
    decide +kernel
  have hovertaken : ((machine files fun _ => []).exec fresh overtaken).isSome = true := by
    decide +kernel
  rcases Option.isSome_iff_exists.mp hreloaded with ⟨s, hs⟩
  rcases Option.isSome_iff_exists.mp hovertaken with ⟨t, ht⟩
  constructor
  · exact (in_sync_iff_not_missed hfresh hs).mpr (by decide +kernel)
  · intro halways
    have hobeys := (in_sync_iff_not_missed hfresh ht).mp halways
    have hmissed : ¬ (machine files fun _ => []).Obeys NotMissed fresh overtaken := by
      decide +kernel
    exact hmissed hobeys

/-!
# Catching up
-/

/-- What the agent, its watchdog and the client do by themselves, if nothing fails. -/
def Own : Action -> Prop
  | Action.write => True
  | Action.finish ok => ok = true
  | Action.watch ok => ok = true
  | Action.boot ok => ok = true
  | Action.listen => True
  | Action.wake => True
  | Action.load ok => ok = true
  | Action.client a => a = Engine.Client.Action.swapGrant ∨ a = Engine.Client.Action.readCtrl ∨
      a = Engine.Client.Action.writeUpdate true
  | _ => False

def reloadLeft : Reload -> Nat
  | Reload.idle => 0
  | Reload.swapping _ => 3
  | Reload.swapped _ => 2
  | Reload.writing _ _ => 1

def Process.left (p : Process) : Nat :=
  (if p.hup then 5 else 0) + if p.loading then 4 else reloadLeft p.client.reload

def Child.left : Child -> Nat
  | Child.absent => 0
  | Child.exited => 3
  | Child.starting => 2
  | Child.loaded _ => 1
  | Child.running p => p.left

/-- What the agent has begun it finishes first. -/
def State.left (s : State) : Nat :=
  match s.apply with
  | Apply.idle => s.child.left
  | Apply.writing _ _ => 11
  | Apply.written _ => 10

theorem Child.left_le (child : Child) : child.left ≤ 9 := by
  have hreload : forall r : Reload, reloadLeft r ≤ 3 := by
    intro r
    cases r <;> simp [reloadLeft]
  cases child with
  | running p =>
      have hp := hreload p.client.reload
      rw [Child.left, Process.left]
      split <;> split <;> omega
  | _ => simp [Child.left]

theorem Child.refresh_ne_absent (changed : Bool) (child : Child) :
    child.refresh changed true ≠ Child.absent := by
  cases child <;> cases changed <;> simp [Child.refresh, Child.hangUp]

theorem reload_own (marshal : Engine.Msg -> Engine.Bytes) {c : Engine.Client.State}
    (hbusy : c.reload ≠ Reload.idle) :
    exists a c', Own (Action.client a) ∧ (forall e, a ≠ Engine.Client.Action.reload e) ∧
      Engine.Client.step marshal c a = some c' ∧
      reloadLeft c'.reload < reloadLeft c.reload := by
  cases hreload : c.reload with
  | idle => exact absurd hreload hbusy
  | swapping d =>
      refine ⟨Engine.Client.Action.swapGrant,
        { c with grant := d.grant, reload := Reload.swapped d }, Or.inl rfl, by simp, ?_, ?_⟩
      · simp only [Engine.Client.step, hreload]
      · exact Nat.lt_succ_self 2
  | swapped d =>
      cases hctrl : c.ctrl with
      | none =>
          refine ⟨Engine.Client.Action.readCtrl, { c with reload := Reload.idle },
            Or.inr (Or.inl rfl), by simp, ?_, ?_⟩
          · simp only [Engine.Client.step, hreload, hctrl]
          · exact Nat.two_pos
      | some conn =>
          refine ⟨Engine.Client.Action.readCtrl, { c with reload := Reload.writing d conn },
            Or.inr (Or.inl rfl), by simp, ?_, ?_⟩
          · simp only [Engine.Client.step, hreload, hctrl]
          · exact Nat.lt_succ_self 1
  | writing d conn =>
      have hwrite : exists c', Engine.Client.step marshal c
          (Engine.Client.Action.writeUpdate true) = some c' ∧ c'.reload = Reload.idle := by
        simp only [Engine.Client.step, hreload]
        repeat' split
        all_goals exact ⟨_, rfl, rfl⟩
      rcases hwrite with ⟨c', hstep, hidle⟩
      refine ⟨Engine.Client.Action.writeUpdate true, c', Or.inr (Or.inr rfl), by simp, hstep, ?_⟩
      rw [hidle]
      exact Nat.one_pos

/-- The configuration is in the file, or it will be, and there is a client for it. -/
structure Settled (cfg : FileConfig) (s : State) : Prop where
  inv : Inv s
  latest : s.latest = some cfg
  child : s.apply = Apply.idle -> s.child ≠ Child.absent
  watchdog : s.watchdog = true ∨ (s.apply = Apply.idle ∧ s.child ≠ Child.exited)

namespace Settled

variable {cfg : FileConfig}

theorem file (h : Settled cfg s) (happly : s.apply = Apply.idle) : s.file = File.whole cfg := by
  have hwhole := h.latest
  rw [State.latest, happly] at hwhole
  cases hfile : s.file with
  | whole other =>
      rw [hfile] at hwhole
      exact congrArg File.whole (Option.some.inj hwhole)
  | absent | torn =>
      rw [hfile] at hwhole
      cases hwhole

theorem read (h : Settled cfg s) (happly : s.apply = Apply.idle) :
    s.file.read true = some cfg := by
  rw [h.file happly]
  rfl

/-- A step of the client that keeps it alive. -/
theorem advance (h : Settled cfg s) {a : Action} (hstep : step paths marshal s a = some t)
    (hG : NotMissed s a) (hidle : s.apply = Apply.idle) (happly : t.apply = s.apply)
    (hfile : t.file = s.file) (hchild : t.child ≠ Child.absent ∧ t.child ≠ Child.exited) :
    Settled cfg t where
  inv := h.inv.step hG hstep
  latest := by
    have hlatest := h.latest
    rw [State.latest, hidle] at hlatest
    rw [State.latest, happly, hidle, hfile]
    exact hlatest
  child _ := hchild.left
  watchdog := Or.inr ⟨happly.trans hidle, hchild.right⟩

theorem write_step (h : Settled cfg s) {c : FileConfig} {changed : Bool}
    (happly : s.apply = Apply.writing c changed) :
    exists a t, Own a ∧ (machine paths marshal).step s a = some t ∧ Settled cfg t ∧
      t.left < s.left := by
  have hsame : c = cfg := by
    have hlatest := h.latest
    rw [State.latest, happly] at hlatest
    exact Option.some.inj hlatest
  have hbusy : s.apply ≠ Apply.idle := by
    rw [happly]
    exact Apply.noConfusion
  have hstep : step paths marshal s Action.write =
      some { s with file := File.whole c, apply := Apply.written changed } := by
    simp only [step, happly]
  refine ⟨Action.write, _, trivial, hstep, ⟨h.inv.write happly, ?_, ?_, ?_⟩, ?_⟩
  · rw [hsame]
    rfl
  · intro hidle
    cases hidle
  · exact Or.inl (h.watchdog.resolve_right fun hrest => hbusy hrest.left)
  · rw [State.left, State.left, happly]
    exact Nat.lt_succ_self 10

theorem finish_step (h : Settled cfg s) {changed : Bool}
    (happly : s.apply = Apply.written changed) :
    exists a t, Own a ∧ (machine paths marshal).step s a = some t ∧ Settled cfg t ∧
      t.left < s.left := by
  have hbusy : s.apply ≠ Apply.idle := by
    rw [happly]
    exact Apply.noConfusion
  have hstep : step paths marshal s (Action.finish true) =
      some { s with apply := Apply.idle, child := s.child.refresh changed true } := by
    simp only [step, happly]
  refine ⟨Action.finish true, _, rfl, hstep, ⟨h.inv.finish happly true, ?_, ?_, ?_⟩, ?_⟩
  · have hlatest := h.latest
    rw [State.latest, happly] at hlatest
    exact hlatest
  · exact fun _ => Child.refresh_ne_absent changed s.child
  · exact Or.inl (h.watchdog.resolve_right fun hrest => hbusy hrest.left)
  · rw [State.left, State.left, happly]
    exact Nat.lt_succ_of_le (Child.left_le _)

theorem client_step (h : Settled cfg s) (hidle : s.apply = Apply.idle)
    (hleft : 0 < s.child.left) :
    exists a t, Own a ∧ (machine paths marshal).step s a = some t ∧ Settled cfg t ∧
      t.apply = s.apply ∧ t.child.left < s.child.left := by
  have hread := h.read hidle
  cases hchild : s.child with
  | absent => exact absurd hchild (h.child hidle)
  | exited =>
      have hstep : step paths marshal s (Action.watch true) =
          some { s with child := Child.starting } := by
        apply if_pos
        have hwatchdog := h.watchdog.resolve_right fun hrest => hrest.right hchild
        refine ⟨hidle, hwatchdog, hchild, ?_⟩
        rw [h.file hidle]
        exact File.noConfusion
      refine ⟨Action.watch true, _, rfl, hstep, ?_, rfl, Nat.lt_succ_self 2⟩
      exact h.advance hstep trivial hidle rfl rfl (by simp)
  | starting =>
      have hstep : step paths marshal s (Action.boot true) =
          some { s with child := Child.loaded cfg } := by
        simp only [step, hchild, hread]
      refine ⟨Action.boot true, _, rfl, hstep, ?_, rfl, Nat.lt_succ_self 1⟩
      exact h.advance hstep trivial hidle rfl rfl (by simp)
  | loaded c =>
      have hstep : step paths marshal s Action.listen =
          some { s with child := Child.running ⟨c.client, false, false⟩ } := by
        simp only [step, hchild]
      refine ⟨Action.listen, _, trivial, hstep, ?_, rfl, Nat.one_pos⟩
      exact h.advance hstep trivial hidle rfl rfl (by simp)
  | running p =>
      cases hloading : p.loading with
      | true =>
          have hresting := h.inv.loading p hchild hloading
          have hreload : exists client, Engine.Client.step marshal p.client
              (Engine.Client.Action.reload cfg.desired) = some client ∧
              client.reload = Reload.swapping cfg.desired := by
            simp only [Engine.Client.step, hresting]
            exact ⟨_, rfl, rfl⟩
          rcases hreload with ⟨client, hclient, hswapping⟩
          have hstep : step paths marshal s (Action.load true) = some { s with
              child := Child.running { p with client := client, loading := false } } := by
            simp only [step, hchild, hloading, hread, hclient, if_true]
          have hnotMissed : NotMissed s (Action.load true) := by
            intro q hq hfails
            rw [hread] at hfails
            cases hfails
          refine ⟨Action.load true, _, rfl, hstep, ?_, rfl, ?_⟩
          · exact h.advance hstep hnotMissed hidle rfl rfl (by simp)
          · simp [Child.left, Process.left, hloading, hswapping, reloadLeft]
      | false =>
          by_cases hresting : p.client.reload = Reload.idle
          · have hhup : p.hup = true := by
              cases hhup : p.hup with
              | true => rfl
              | false =>
                  rw [hchild, Child.left, Process.left, hhup, hloading, hresting] at hleft
                  cases hleft
            have hstep : step paths marshal s Action.wake =
                some { s with child := Child.running { p with hup := false, loading := true } } := by
              simp only [step, hchild]
              exact if_pos ⟨hhup, hloading, hresting⟩
            refine ⟨Action.wake, _, trivial, hstep, ?_, rfl, ?_⟩
            · exact h.advance hstep trivial hidle rfl rfl (by simp)
            · simp [Child.left, Process.left, hloading, hhup, hresting, reloadLeft]
          · rcases reload_own marshal hresting with ⟨a, c', hown, hnot, hclient, hless⟩
            have hstep : step paths marshal s (Action.client a) =
                some { s with child := Child.running { p with client := c' } } := by
              cases a with
              | reload e => exact absurd rfl (hnot e)
              | _ => simp only [step, hchild, hclient]
            refine ⟨Action.client a, _, hown, hstep, ?_, rfl, ?_⟩
            · exact h.advance hstep trivial hidle rfl rfl (by simp)
            · simpa [Child.left, Process.left, hloading] using hless

theorem own_step (h : Settled cfg s) (hleft : 0 < s.left) :
    exists a t, Own a ∧ (machine paths marshal).step s a = some t ∧ Settled cfg t ∧
      t.left < s.left := by
  cases happly : s.apply with
  | writing c changed => exact h.write_step happly
  | written changed => exact h.finish_step happly
  | idle =>
      rw [State.left, happly] at hleft
      rcases h.client_step happly hleft with ⟨a, t, hown, hstep, ht, hidle, hless⟩
      refine ⟨a, t, hown, hstep, ht, ?_⟩
      rw [State.left, State.left, hidle, happly]
      exact hless

theorem left_le (s : State) : s.left ≤ 11 := by
  unfold State.left
  split
  · exact Nat.le_trans (Child.left_le _) (by decide)
  · exact Nat.le_refl 11
  · decide

theorem idle_of_left (hleft : s.left = 0) : s.apply = Apply.idle ∧ s.child.left = 0 := by
  unfold State.left at hleft
  split at hleft
  · rename_i happly
    exact ⟨happly, hleft⟩
  · cases hleft
  · cases hleft

/-- A client with nothing left to do has adopted the file. -/
theorem adopted (h : Settled cfg s) (hleft : s.left = 0) :
    s.file = File.whole cfg ∧
      exists p, s.child = Child.running p ∧ p.Quiet ∧ Adopts p.client cfg.desired := by
  rcases idle_of_left hleft with ⟨hidle, hdone⟩
  refine ⟨h.file hidle, ?_⟩
  cases hchild : s.child with
  | running p =>
      have hquiet : p.Quiet := by
        rw [hchild, Child.left, Process.left] at hdone
        cases hhup : p.hup <;> cases hloading : p.loading <;>
          cases hreload : p.client.reload <;>
            simp_all [Process.Quiet, reloadLeft]
      refine ⟨p, rfl, hquiet, h.inv.inSync p hchild hquiet ?_ cfg h.latest⟩
      rw [hidle]
      rfl
  | absent => exact absurd hchild (h.child hidle)
  | exited | starting | loaded c =>
      rw [hchild] at hdone
      cases hdone

end Settled

/--
After a run that missed no configuration, the agent finishes what it has begun, and its
watchdog and the client come to adopt what is in the file, within eleven steps.
-/
theorem catches_up {actions : List Action} (hinit : Fresh s)
    (hexec : (machine paths marshal).exec s actions = some t)
    (hobeys : (machine paths marshal).Obeys NotMissed s actions) {cfg : FileConfig}
    (hlatest : t.latest = some cfg)
    (hstarted : t.apply = Apply.idle -> t.child ≠ Child.absent)
    (hwatchdog : t.watchdog = true ∨ (t.apply = Apply.idle ∧ t.child ≠ Child.exited)) :
    exists own u, (machine paths marshal).Obeys (fun _ a => Own a) t own ∧ own.length ≤ 11 ∧
      (machine paths marshal).exec t own = some u ∧ u.file = File.whole cfg ∧
      exists p, u.child = Child.running p ∧ p.Quiet ∧ Adopts p.client cfg.desired := by
  have hinv : Inv t := by
    have halways := Machine.always_of_obeys (I := Inv) (fun s a t hs hG hstep => hs.step hG hstep)
      (Inv.start hinit) hobeys
    exact halways.last hexec
  have hsettled : Settled cfg t := ⟨hinv, hlatest, hstarted, hwatchdog⟩
  have hstep : forall s : State, Settled cfg s -> 0 < s.left -> exists a t, Own a ∧
      (machine paths marshal).step s a = some t ∧ Settled cfg t ∧ t.left < s.left :=
    fun s hs hleft => hs.own_step hleft
  rcases Machine.exists_exec_of_measure hstep hsettled with
    ⟨own, u, hown, hlength, hrun, hu, hleft⟩
  exact ⟨own, u, hown, Nat.le_trans hlength (Settled.left_le t), hrun, hu.adopted hleft⟩

/-- The client exits, and a new grant is being written. -/
def exited : List Action := booted ++ [Action.exit, beginGrant ['h']]

theorem catches_up_exited :
    exists t own u, (machine files fun _ => []).exec fresh exited = some t ∧
      (machine files fun _ => []).Obeys (fun _ a => Own a) t own ∧ own.length ≤ 11 ∧
      (machine files fun _ => []).exec t own = some u ∧ u.file = File.whole (rendered ['h']) ∧
      exists p, u.child = Child.running p ∧ p.Quiet ∧
        Adopts p.client (rendered ['h']).desired := by
  have hexec : ((machine files fun _ => []).exec fresh exited).map
      (fun t => (t.latest, t.apply.changing, t.watchdog)) =
      some (some (rendered ['h']), true, true) := by
    decide +kernel
  rcases Option.map_eq_some_iff.mp hexec with ⟨t, ht, hvalue⟩
  rw [Prod.mk.injEq, Prod.mk.injEq] at hvalue
  rcases hvalue with ⟨hlatest, hchanging, hwatchdog⟩
  have hobeys : (machine files fun _ => []).Obeys NotMissed fresh exited := by
    decide +kernel
  have hstarted : t.apply = Apply.idle -> t.child ≠ Child.absent := by
    intro hidle
    rw [hidle] at hchanging
    cases hchanging
  rcases catches_up ⟨rfl, rfl⟩ ht hobeys hlatest hstarted (Or.inl hwatchdog) with
    ⟨own, u, hown, hlength, hrun, hadopts⟩
  exact ⟨t, own, u, ht, hown, hlength, hrun, hadopts⟩

end Runs

end Supervisor

end Agent
end RcTunnel
