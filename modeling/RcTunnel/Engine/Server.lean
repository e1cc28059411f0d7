import RcTunnel.Foundation.Machine
import RcTunnel.Foundation.Table
import RcTunnel.Engine.Registration

/-!
# The server

Each control connection has a handler that runs one task after another: accept
the hello, evict the previous connection of the identity, apply the proxies,
answer, serve updates, and clean up.  The handlers interleave at their lock
sections and at the sockets they open and close.  Requests on public sockets and
hosts store pairings, which work connections claim.

Case by case the actions follow {lit}`handleControl`, {lit}`applyUpdate`,
{lit}`register`, {lit}`cleanup`, {lit}`bridge`, {lit}`udpServe`,
{lit}`handleVhost` and {lit}`handleWork`; {lit}`acquire` and the counters, which
only drop connections and count bytes, are not part of the state.
-/

namespace RcTunnel
namespace Engine

open Foundation

namespace Server

structure Config where
  token : Text
  grantSecret : Text
deriving DecidableEq, Repr

/-- What a handler does next. -/
inductive Task where
  /-- the hello is admitted, {lit}`s.clients` not yet changed -/
  | evict (proxies : List ProxySpec)
  /-- the removal loop of {lit}`applyUpdate` -/
  | sweep (proxies : List ProxySpec)
  /-- the closers of one entry in that loop -/
  | closing (proxies : List ProxySpec) (name : Text) (closers : List Closer)
  /-- the registration loop of {lit}`applyUpdate` -/
  | apply (rest : List ProxySpec) (statuses : List ProxyStatus)
  | reply (statuses : List ProxyStatus)
  /-- the loop that reads messages -/
  | serve
  /-- {lit}`handleControl` returns -/
  | leave
  /-- the loop of {lit}`cleanup`, with the names still to visit -/
  | cleanup (todo : List Text)
  | cleaning (todo : List Text) (closers : List Closer)
  | gone
deriving DecidableEq, Repr

structure Client where
  id : Text
  /-- the name in the verified certificate, empty without one -/
  cert : Text
  grant : Option Grant
  /-- history: the last message that was admitted -/
  under : Admission
  ctrlOpen : Bool
  regs : Regs
  task : Task
deriving DecidableEq, Repr

/-- A public connection that waits for a work connection. -/
structure Pairing where
  /-- history: the client it asked -/
  client : Nat
  proxy : Text
  owner : Text
  /-- {lit}`s.pend` still holds it -/
  pending : Bool
  /-- the work connection in its channel -/
  ready : Option Nat
deriving DecidableEq, Repr

/-- A work connection past the checks of {lit}`handleWork`. -/
structure Work where
  cert : Text
  connId : Text
deriving DecidableEq, Repr

structure State where
  shared : Shared
  clients : Nat -> Option Client
  /-- {lit}`s.clients`: the connection that holds an identity -/
  current : Text -> Option Nat
  pairings : Text -> Option Pairing
  works : Nat -> Option Work
  /-- history: the work connections handed over, with the pairing's name -/
  handed : List (Work × Text)

/-- The lock sections and socket calls of a handler. -/
inductive HandlerAction where
  | evict
  | sweep (name : Text)
  | sweepDone
  | close
  | register
  | applied
  | reply (ok : Bool)
  | update (grant : Text) (proxies : List ProxySpec) (now : Int)
  | disconnect
  | leave
  | cleanup (name : Text)
  | cleanupDone
deriving DecidableEq, Repr

/-- What public and work connections do. -/
inductive TrafficAction where
  /-- a public connection, or a round of {lit}`udpServe` -/
  | accept (socket : Nat) (connId : Text)
  | vhost (host connId : Text)
  | forget (connId : Text)
  | work (w : Nat) (cert token connId : Text) (revoked : Bool)
  | handoff (w : Nat)
  | receive (connId : Text)
deriving DecidableEq, Repr

inductive Action where
  | hello (c : Nat) (cert token grant clientId fresh : Text) (revoked : Bool)
      (proxies : List ProxySpec) (now : Int)
  | handler (c : Nat) (action : HandlerAction)
  | traffic (action : TrafficAction)
deriving DecidableEq, Repr

/-!
# Admission
-/

/-- The stable identity of a connection. -/
def identify (cert clientId fresh : Text) : Text :=
  if cert ≠ [] then cert else if clientId ≠ [] then clientId else fresh

/-- The grant check of {lit}`handleControl`, for hellos and updates. -/
def checkGrant (cfg : Config) (rt : Runtime) (id grant : Text) (now : Int) :
    Except Text (Option Grant) :=
  if cfg.grantSecret = [] then
    Except.ok none
  else
    match verify rt cfg.grantSecret grant id now with
    | Except.error e => Except.error ("grant: ".toList ++ e)
    | Except.ok g => Except.ok (some g)

/-- {lit}`handleControl` up to the client it creates, or the error it answers. -/
def admitHello (cfg : Config) (rt : Runtime) (cert token grant clientId fresh : Text)
    (revoked : Bool) (proxies : List ProxySpec) (now : Int) : Except Text Client :=
  if cfg.token ≠ [] ∧ token ≠ cfg.token then
    Except.error "bad token".toList
  else if revoked then
    Except.error "revoked certificate".toList
  else
    match checkGrant cfg rt (identify cert clientId fresh) grant now with
    | Except.error e => Except.error e
    | Except.ok g =>
        Except.ok
          { id := identify cert clientId fresh
            cert := cert
            grant := g
            under := ⟨grant, now⟩
            ctrlOpen := true
            regs := []
            task := Task.evict proxies }

/-!
# Steps
-/

/-- The entry is not among the desired proxies as it is. -/
def Stale (proxies : List ProxySpec) (e : RegEntry) : Prop :=
  forall p, (proxies.reverse.find? fun p => p.name = e.spec.name) = some p ->
    specKey p ≠ specKey e.spec

instance (proxies : List ProxySpec) (e : RegEntry) : Decidable (Stale proxies e) :=
  match h : proxies.reverse.find? fun p => p.name = e.spec.name with
  | none => isTrue (by simp [Stale, h])
  | some p => decidable_of_iff (specKey p ≠ specKey e.spec) (by simp [Stale, h])

def State.identity (s : State) (c : Nat) : Option Text :=
  (s.clients c).map Client.id

def State.setClient (s : State) (c : Nat) (cl : Client) : State :=
  { s with clients := Function.update s.clients c (some cl) }

def Client.registrar (c : Nat) (cl : Client) : Registrar where
  client := c
  id := cl.id
  grant := cl.grant
  under := cl.under

/-- Close the control connection of the client that held the identity. -/
def State.evictOld (s : State) (c : Nat) (id : Text) : State :=
  match s.current id with
  | none => s
  | some old =>
      if old = c then
        s
      else
        match s.clients old with
        | none => s
        | some cl => s.setClient old { cl with ctrlOpen := false }

/-- The client holds the proxy as it is desired. -/
def Unchanged (regs : Regs) (p : ProxySpec) : Prop :=
  exists e, e ∈ regs.get? p.name ∧ specKey e.spec = specKey p

instance (regs : Regs) (p : ProxySpec) : Decidable (Unchanged regs p) :=
  match h : regs.get? p.name with
  | none => isFalse (by simp [Unchanged, h])
  | some e => decidable_of_iff (specKey e.spec = specKey p) (by simp [Unchanged, h])

/-- The host {lit}`handleVhost` looks up. -/
def vhostKey (rt : Runtime) (host : Text) : Text :=
  (rt.toLower host).takeWhile (· ≠ ':')

section Steps

variable (cfg : Config) (rt : Runtime) (foreign : Kind -> Int -> Bool)

def handlerStep (s : State) (c : Nat) (cl : Client) :
    Task -> HandlerAction -> Option State
  | Task.evict proxies, HandlerAction.evict =>
      some { (s.evictOld c cl.id).setClient c { cl with task := Task.sweep proxies } with
        current := Function.update s.current cl.id (some c) }
  | Task.sweep proxies, HandlerAction.sweep name =>
      match cl.regs.get? name with
      | none => none
      | some e =>
          if Stale proxies e then
            some (s.setClient c { cl with task := Task.closing proxies name e.closers })
          else
            none
  | Task.sweep proxies, HandlerAction.sweepDone =>
      if forall e, e ∈ cl.regs -> ¬ Stale proxies e then
        some (s.setClient c { cl with task := Task.apply proxies [] })
      else
        none
  | Task.closing proxies name (closer :: rest), HandlerAction.close =>
      some { s.setClient c { cl with task := Task.closing proxies name rest } with
        shared := closer.run c s.shared }
  | Task.closing proxies name [], HandlerAction.close =>
      some (s.setClient c { cl with
        regs := cl.regs.delete name
        task := Task.sweep proxies })
  | Task.apply (p :: rest) statuses, HandlerAction.register =>
      if Unchanged cl.regs p then
        some (s.setClient c { cl with
          task := Task.apply rest (statuses ++ [accepted p]) })
      else
        match register rt foreign s.identity (cl.registrar c) p s.shared with
        | (shared, entry, status) =>
            some { s.setClient c { cl with
                regs := cl.regs.record entry
                task := Task.apply rest (statuses ++ [status]) } with
              shared := shared }
  | Task.apply [] statuses, HandlerAction.applied =>
      some (s.setClient c { cl with task := Task.reply statuses })
  | Task.reply _, HandlerAction.reply ok =>
      some (s.setClient c { cl with task := if ok then Task.serve else Task.leave })
  | Task.serve, HandlerAction.update grant proxies now =>
      match checkGrant cfg rt cl.id grant now with
      | Except.error _ => some s
      | Except.ok g =>
          some (s.setClient c { cl with
            grant := g
            under := ⟨grant, now⟩
            task := Task.sweep proxies })
  | Task.serve, HandlerAction.disconnect =>
      some (s.setClient c { cl with task := Task.leave })
  | Task.leave, HandlerAction.leave =>
      some { s.setClient c { cl with
          task := Task.cleanup (cl.regs.map fun e => e.spec.name) } with
        current :=
          if s.current cl.id = some c then
            Function.update s.current cl.id none
          else
            s.current }
  | Task.cleanup todo, HandlerAction.cleanup name =>
      if todo.contains name then
        match cl.regs.get? name with
        | none => none
        | some e =>
            some (s.setClient c { cl with
              task := Task.cleaning (todo.erase name) e.closers })
      else
        none
  | Task.cleaning todo (closer :: rest), HandlerAction.close =>
      some { s.setClient c { cl with task := Task.cleaning todo rest } with
        shared := closer.run c s.shared }
  | Task.cleaning todo [], HandlerAction.close =>
      some (s.setClient c { cl with task := Task.cleanup todo })
  | Task.cleanup [], HandlerAction.cleanupDone =>
      some (s.setClient c { cl with regs := [], task := Task.gone })
  | _, _ => none

/-- Store a pairing that asks the client for a work connection. -/
def State.pair (s : State) (c : Nat) (proxy connId : Text) : Option State :=
  match s.clients c with
  | none => none
  | some cl =>
      if s.pairings connId ≠ none then
        none
      else
        some { s with
          pairings := Function.update s.pairings connId
            (some ⟨c, proxy, cl.id, true, none⟩) }

def trafficStep (s : State) : TrafficAction -> Option State
  | TrafficAction.accept socket connId =>
      match s.shared.sockets.find? fun k => k.id = socket with
      | none => none
      | some k => s.pair k.client k.name connId
  | TrafficAction.vhost host connId =>
      match s.shared.vhosts (vhostKey rt host) with
      | none => some s
      | some ref => s.pair ref.client ref.spec.name connId
  | TrafficAction.forget connId =>
      match s.pairings connId with
      | none => none
      | some pr =>
          some { s with
            pairings := Function.update s.pairings connId
              (some { pr with pending := false }) }
  | TrafficAction.work w cert token connId revoked =>
      if s.works w ≠ none then
        none
      else if (cfg.token ≠ [] ∧ token ≠ cfg.token) ∨ revoked then
        some s
      else
        match s.pairings connId with
        | none => some s
        | some pr =>
            if pr.pending = false ∨
                (pr.owner ≠ [] ∧ cert ≠ [] ∧ cert ≠ pr.owner) then
              some s
            else
              some { s with works := Function.update s.works w (some ⟨cert, connId⟩) }
  | TrafficAction.handoff w =>
      match s.works w with
      | none => none
      | some work =>
          match s.pairings work.connId with
          | none => none
          | some pr =>
              if pr.ready ≠ none then
                some { s with works := Function.update s.works w none }
              else
                some { s with
                  pairings := Function.update s.pairings work.connId
                    (some { pr with ready := some w })
                  works := Function.update s.works w none
                  handed := (work, work.connId) :: s.handed }
  | TrafficAction.receive connId =>
      match s.pairings connId with
      | none => none
      | some pr =>
          some { s with
            pairings := Function.update s.pairings connId
              (some { pr with ready := none }) }

def step (s : State) : Action -> Option State
  | Action.hello c cert token grant clientId fresh revoked proxies now =>
      if s.clients c ≠ none then
        none
      else
        match admitHello cfg rt cert token grant clientId fresh revoked proxies now with
        | Except.error _ => some s
        | Except.ok cl => some (s.setClient c cl)
  | Action.handler c action =>
      match s.clients c with
      | none => none
      | some cl => handlerStep cfg rt foreign s c cl cl.task action
  | Action.traffic action => trafficStep cfg rt s action

end Steps

def initial : State where
  shared :=
    { vhosts := fun _ => none
      tcp := fun _ => none
      sockets := []
      nextSocket := 0 }
  clients := fun _ => none
  current := fun _ => none
  pairings := fun _ => none
  works := fun _ => none
  handed := []

def machine (cfg : Config) (rt : Runtime) (foreign : Kind -> Int -> Bool) :
    Machine State Action where
  init s := s = initial
  step := step cfg rt foreign

end Server

end Engine
end RcTunnel
