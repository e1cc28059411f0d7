import RcTunnel.Engine.Counting
import RcTunnel.Foundation.Succession
import RcTunnel.Panel.Operations

/-!
# Polling the engine

The poller of the panel asks the engine for its counters while relays count, handlers
register and clean up, and requests change the tunnels.  The engine visits the names one
after another and loads the two counters of each, and the poll stores what it was told
later, in two commits.  The engine may restart at any time, which ends the answer that it
gives, and a poll may fail.
-/

namespace RcTunnel

open Foundation

namespace Joint

open Engine
open Panel.Api
open Panel (Platform)

namespace Billing

/-!
# The joint state
-/

/-- An entry of the answer that is being made. -/
structure Reading where
  object : Nat
  bytesIn : Option Nat
deriving DecidableEq, Repr

inductive Poller where
  | idle
  /-- the engine answers; {lit}`since` numbers what it had counters of when it was asked -/
  | ranging (since : Nat) (seen : List Text) (entries : List StatsEntry)
      (current : Option Reading)
  /-- the engine is gone -/
  | lost
  /-- {lit}`poll_once` has its answer, and works as the request -/
  | storing (r : Nat) (answered : Bool)
deriving DecidableEq, Repr

structure State where
  engine : Counting.State
  ops : Operations.State
  poller : Poller
  /-- history: the counters of the engines before -/
  earlier : List Counting.Counters
  /-- history: what was counted under each key -/
  relayed : Text -> Counting.Direction -> Nat
  /-- history: what had been counted when the engine was last asked -/
  asked : Text -> Counting.Direction -> Nat

def State.db (s : State) : Db := s.ops.db

inductive Action where
  | engine (action : Counting.Action)
  /-- the engine crashes, and starts anew -/
  | restart
  | operate (action : Operations.Action)
  /-- {lit}`_fetch_proxy_traffic` -/
  | ask
  /-- the next name of {lit}`s.stats.Range` -/
  | visit (key : Text)
  /-- the next {lit}`atomic.LoadInt64` of the name -/
  | load
  | answer (r : Nat)
  /-- no answer arrives -/
  | lose (r : Nat)
  /-- the poll fails, or the panel restarts -/
  | abandon
deriving DecidableEq, Repr

/-- The new history, when a relay adds. -/
def counted (s : State) : Counting.Action -> Text -> Counting.Direction -> Nat
  | Counting.Action.add r direction bytes =>
      match s.engine.relays r with
      | none => s.relayed
      | some rel => fun key d =>
          if key = rel.key ∧ d = direction then s.relayed key d + bytes else s.relayed key d
  | _ => s.relayed

/-- The counters of an engine, in the order in which they were made. -/
def made (engine : Counting.State) : List Counting.Counters :=
  (List.range engine.next).map engine.objects

/-- The key that counters are stored under. -/
def labelKey (n : Counting.Counters) : Text := Counting.keyOf n.cn n.name

/-- Every name that had counters when the engine was asked, and still has them, was
visited: {lit}`Range` visits all names but those that are stored or deleted meanwhile. -/
def Complete (engine : Counting.State) (since : Nat) (seen : List Text) : Prop :=
  forall object, object < since ->
    engine.stats (labelKey (engine.objects object)) = some object ->
      labelKey (engine.objects object) ∈ seen

instance (engine : Counting.State) (since : Nat) (seen : List Text) :
    Decidable (Complete engine since seen) :=
  inferInstanceAs (Decidable (forall object, object < since -> _ -> _))

def polls : Operations.Action -> Bool
  | Operations.Action.poll _ _ => true
  | _ => false

/-- The poll before has come to its end. -/
def State.Ready (s : State) : Prop :=
  match s.poller with
  | Poller.idle => True
  | Poller.storing r _ => s.ops.jobs r = some Operations.Phase.finished
  | _ => False

instance (s : State) : Decidable s.Ready := by
  unfold State.Ready
  split <;> infer_instance

section Steps

variable (cfg : Server.Config) (rt : Runtime)
  (foreign : Kind -> Int -> Bool) (pl : Platform) (st : Settings) (node : Nat -> Nat)

/-- {lit}`poll_once` goes on with the answer, or without one. -/
def State.store (s : State) (r : Nat) (answer : Option (List StatsEntry)) : Option State :=
  match Operations.step pl st node s.ops (Operations.Action.poll r answer) with
  | none => none
  | some ops => some { s with ops := ops, poller := Poller.storing r answer.isSome }

/-- The next load of the entry that is being made. -/
def Poller.load (engine : Counting.State) (since : Nat) (seen : List Text)
    (entries : List StatsEntry) (reading : Reading) : Poller :=
  let counters := engine.objects reading.object
  match reading.bytesIn with
  | none => Poller.ranging since seen entries (some ⟨reading.object, some counters.inBytes⟩)
  | some bytesIn =>
      let entry := ⟨some counters.cn, some counters.name, some (bytesIn : Int),
        some (counters.outBytes : Int)⟩
      Poller.ranging since seen (entries ++ [entry]) none

def step (s : State) : Action -> Option State
  | Action.engine a =>
      match Counting.step cfg rt foreign s.engine a with
      | none => none
      | some engine => some { s with engine := engine, relayed := counted s a }
  | Action.restart =>
      some { s with
        engine := Counting.initial
        earlier := s.earlier ++ made s.engine
        poller :=
          match s.poller with
          | Poller.ranging _ _ _ _ => Poller.lost
          | poller => poller }
  | Action.operate a =>
      if polls a then
        none
      else
        match Operations.step pl st node s.ops a with
        | none => none
        | some ops => some { s with ops := ops }
  | Action.ask =>
      if s.Ready then
        some { s with poller := Poller.ranging s.engine.next [] [] none, asked := s.relayed }
      else
        none
  | Action.visit key =>
      match s.poller, s.engine.stats key with
      | Poller.ranging since seen entries none, some object =>
          if seen.contains key then
            none
          else
            some { s with
              poller := Poller.ranging since (key :: seen) entries (some ⟨object, none⟩) }
      | _, _ => none
  | Action.load =>
      match s.poller with
      | Poller.ranging since seen entries (some reading) =>
          some { s with poller := Poller.load s.engine since seen entries reading }
      | _ => none
  | Action.answer r =>
      match s.poller with
      | Poller.ranging since seen entries none =>
          if Complete s.engine since seen then s.store pl st node r (some entries) else none
      | _ => none
  | Action.lose r =>
      match s.poller with
      | Poller.ranging _ _ _ _ | Poller.lost => s.store pl st node r none
      | _ => none
  | Action.abandon =>
      match s.poller with
      | Poller.storing r _ =>
          some { s with
            poller := Poller.idle
            ops := s.ops.setJob r Operations.Phase.finished }
      | _ => none

/-- The engine has just started, and no tunnel has been billed. -/
structure Unbilled (s : State) : Prop where
  engine : s.engine = Counting.initial
  ops : Operations.Idle s.ops
  poller : s.poller = Poller.idle
  earlier : s.earlier = []
  relayed : forall key direction, s.relayed key direction = 0
  asked : forall key direction, s.asked key direction = 0
  rows : forall t, t ∈ s.db.tunnels ->
    t.bytesIn = 0 ∧ t.bytesOut = 0 ∧ t.lastTodayIn = 0 ∧ t.lastTodayOut = 0
  numbered : forall t u, t ∈ s.db.tunnels -> u ∈ s.db.tunnels -> t.id = u.id -> t = u

def machine : Machine State Action where
  init := Unbilled
  step := step cfg rt foreign pl st node

end Steps

end Billing

end Joint
end RcTunnel
