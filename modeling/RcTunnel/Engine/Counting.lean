import RcTunnel.Engine.Routing
import RcTunnel.Foundation.Separated

/-!
# Counting traffic

The server counts the bytes of every proxy in an object that {lit}`s.stats` holds
under the identity and the proxy's name.  A pipe and a udp loop look their object
up once, or create it, and add to it as long as they run; {lit}`cleanup` deletes
the names of a client that has left.
-/

namespace RcTunnel
namespace Engine

open Foundation

namespace Counting

/-- The key of {lit}`s.stats`. -/
def keyOf (cn name : Text) : Text := cn ++ Char.ofNat 0 :: name

structure Counters where
  cn : Text
  name : Text
  inBytes : Nat
  outBytes : Nat
deriving DecidableEq, Repr

inductive Direction where
  | inward
  | outward
deriving DecidableEq, Repr

inductive Phase where
  /-- before {lit}`counters` -/
  | opening
  | counting (object : Nat)
  | finished
deriving DecidableEq, Repr

/-- A call of {lit}`pipe` or {lit}`pipeBuffered`, or of {lit}`udpServe`. -/
structure Relay where
  cn : Text
  name : Text
  /-- a pipe adds once for each direction -/
  once : Bool
  left : List Direction
  phase : Phase
  /-- history: its name was deleted since it looked its counters up -/
  discarded : Bool
deriving DecidableEq, Repr

def Relay.key (rel : Relay) : Text := keyOf rel.cn rel.name

/-- A count that was added, and what was stored under its key then. -/
structure Add where
  key : Text
  object : Nat
  stored : Option Nat
deriving DecidableEq, Repr

structure State where
  server : Server.State
  /-- the entry a client's {lit}`cleanup` is at -/
  visiting : Nat -> Text
  stats : Text -> Option Nat
  objects : Nat -> Counters
  /-- the number of objects -/
  next : Nat
  relays : Nat -> Option Relay
  /-- history: the counts that were added -/
  adds : List Add

inductive Action where
  /-- a step of the server; the number is for a udp loop it may start -/
  | server (action : Server.Action) (r : Nat)
  /-- a requester receives its work connection and goes on to pipe it -/
  | pair (r : Nat) (connId : Text)
  /-- {lit}`counters` -/
  | look (r : Nat)
  | add (r : Nat) (direction : Direction) (bytes : Nat)
  | finish (r : Nat)
deriving DecidableEq, Repr

def State.setRelay (s : State) (r : Nat) (rel : Relay) : State :=
  { s with relays := Function.update s.relays r (some rel) }

/-- {lit}`s.stats.Delete`. -/
def State.delete (s : State) (key : Text) : State :=
  { s with
    stats := Function.update s.stats key none
    relays := fun r => (s.relays r).map fun rel =>
      { rel with discarded := rel.discarded || rel.key = key } }

/-- {lit}`LoadOrStore` with fresh counters. -/
def State.look (s : State) (r : Nat) (rel : Relay) : State :=
  match s.stats rel.key with
  | some object =>
      s.setRelay r { rel with phase := Phase.counting object, discarded := false }
  | none =>
      { s.setRelay r { rel with phase := Phase.counting s.next, discarded := false } with
        stats := Function.update s.stats rel.key (some s.next)
        objects := Function.update s.objects s.next ⟨rel.cn, rel.name, 0, 0⟩
        next := s.next + 1 }

def Counters.add (n : Counters) (bytes : Nat) : Direction -> Counters
  | Direction.inward => { n with inBytes := n.inBytes + bytes }
  | Direction.outward => { n with outBytes := n.outBytes + bytes }

def State.add (s : State) (r : Nat) (rel : Relay) (object : Nat) (direction : Direction)
    (bytes : Nat) : State :=
  { s.setRelay r
      { rel with left := if rel.once then rel.left.erase direction else rel.left } with
    objects := Function.update s.objects object ((s.objects object).add bytes direction)
    adds := ⟨rel.key, object, s.stats rel.key⟩ :: s.adds }

/-- The key that {lit}`cleanup` deletes at the end of an entry's closers. -/
def State.visited (s : State) (c : Nat) : Option Text :=
  match s.server.clients c with
  | none => none
  | some cl =>
      match cl.task with
      | Server.Task.cleaning _ [] => some (keyOf cl.id (s.visiting c))
      | _ => none

/-- The udp socket that registering has opened. -/
def spawned (before after : Server.State) : Option Socket :=
  after.shared.sockets.find? fun k =>
    k.kind = Kind.udp ∧ before.shared.nextSocket ≤ k.id

def newRelay (cn name : Text) (once : Bool) : Relay where
  cn := cn
  name := name
  once := once
  left := [Direction.inward, Direction.outward]
  phase := Phase.opening
  discarded := false

/-- The state after a step of the server. -/
def State.after (s : State) (r : Nat) (server : Server.State) :
    Server.Action -> Option State
  | Server.Action.handler c (Server.HandlerAction.cleanup name) =>
      some { s with server := server, visiting := Function.update s.visiting c name }
  | Server.Action.handler c Server.HandlerAction.close =>
      match s.visited c with
      | none => some { s with server := server }
      | some key => some { s.delete key with server := server }
  | Server.Action.handler _ Server.HandlerAction.register =>
      match spawned s.server server with
      | none => some { s with server := server }
      | some k =>
          if s.relays r = none then
            some { s.setRelay r
                (newRelay ((server.identity k.client).getD []) k.name false) with
              server := server }
          else
            none
  | _ => some { s with server := server }

section Steps

variable (cfg : Server.Config) (rt : Runtime) (foreign : Kind -> Int -> Bool)

def step (s : State) : Action -> Option State
  | Action.server a r =>
      match Server.step cfg rt foreign s.server a with
      | none => none
      | some server => s.after r server a
  | Action.pair r connId =>
      match s.server.pairings connId with
      | none => none
      | some pr =>
          if pr.ready ≠ none ∧ s.relays r = none then
            match Server.step cfg rt foreign s.server
                (Server.Action.traffic (Server.TrafficAction.receive connId)) with
            | none => none
            | some server =>
                some { s.setRelay r (newRelay pr.owner pr.proxy true) with
                  server := server }
          else
            none
  | Action.look r =>
      match s.relays r with
      | some rel =>
          match rel.phase with
          | Phase.opening => some (s.look r rel)
          | _ => none
      | none => none
  | Action.add r direction bytes =>
      match s.relays r with
      | some rel =>
          match rel.phase with
          | Phase.counting object =>
              if direction ∈ rel.left then
                some (s.add r rel object direction bytes)
              else
                none
          | _ => none
      | none => none
  | Action.finish r =>
      match s.relays r with
      | some rel =>
          match rel.phase with
          | Phase.opening =>
              -- handleVhost gives up when the request cannot be replayed
              if rel.once then some (s.setRelay r { rel with phase := Phase.finished }) else none
          | Phase.counting _ =>
              if rel.once = false ∨ rel.left = [] then
                some (s.setRelay r { rel with phase := Phase.finished })
              else
                none
          | Phase.finished => none
      | none => none

def initial : State where
  server := Server.initial
  visiting := fun _ => []
  stats := fun _ => none
  objects := fun _ => ⟨[], [], 0, 0⟩
  next := 0
  relays := fun _ => none
  adds := []

def machine : Machine State Action where
  init s := s = initial
  step := step cfg rt foreign

end Steps

/-- What {lit}`/api/stats` reports for a key. -/
def State.read (s : State) (key : Text) : Option Counters := (s.stats key).map s.objects

/-!
# What a step can do
-/

/-- Every step; those of the server by what becomes of the counters. -/
inductive Step (cfg : Server.Config) (rt : Runtime) (foreign : Kind -> Int -> Bool)
    (s : State) : Action -> State -> Prop where
  | server {a : Server.Action} {r : Nat} {server : Server.State} {visiting : Nat -> Text} :
      Server.step cfg rt foreign s.server a = some server ->
      Step cfg rt foreign s (Action.server a r)
        { s with server := server, visiting := visiting }
  | deleted {c r : Nat} {server : Server.State} {key : Text} :
      Server.step cfg rt foreign s.server
        (Server.Action.handler c Server.HandlerAction.close) = some server ->
      s.visited c = some key ->
      Step cfg rt foreign s
        (Action.server (Server.Action.handler c Server.HandlerAction.close) r)
        { s.delete key with server := server }
  | spawned {c r : Nat} {server : Server.State} {cn name : Text} :
      Server.step cfg rt foreign s.server
        (Server.Action.handler c Server.HandlerAction.register) = some server ->
      s.relays r = none ->
      Step cfg rt foreign s
        (Action.server (Server.Action.handler c Server.HandlerAction.register) r)
        { s.setRelay r (newRelay cn name false) with server := server }
  | pair {r : Nat} {connId : Text} {pr : Server.Pairing} {server : Server.State} :
      s.server.pairings connId = some pr -> pr.ready ≠ none -> s.relays r = none ->
      Server.step cfg rt foreign s.server
        (Server.Action.traffic (Server.TrafficAction.receive connId)) = some server ->
      Step cfg rt foreign s (Action.pair r connId)
        { s.setRelay r (newRelay pr.owner pr.proxy true) with server := server }
  | look {r : Nat} {rel : Relay} :
      s.relays r = some rel -> rel.phase = Phase.opening ->
      Step cfg rt foreign s (Action.look r) (s.look r rel)
  | add {r : Nat} {direction : Direction} {bytes object : Nat} {rel : Relay} :
      s.relays r = some rel -> rel.phase = Phase.counting object ->
      Step cfg rt foreign s (Action.add r direction bytes)
        (s.add r rel object direction bytes)
  | finish {r : Nat} {rel : Relay} :
      s.relays r = some rel -> rel.phase ≠ Phase.finished ->
      Step cfg rt foreign s (Action.finish r)
        (s.setRelay r { rel with phase := Phase.finished })

section Inversion

variable {cfg : Server.Config} {rt : Runtime} {foreign : Kind -> Int -> Bool}

theorem after_cases {s t : State} {a : Server.Action} {r : Nat} {server : Server.State}
    (hserver : Server.step cfg rt foreign s.server a = some server)
    (h : s.after r server a = some t) : Step cfg rt foreign s (Action.server a r) t := by
  unfold State.after at h
  split at h
  · cases h
    exact Step.server hserver
  · split at h
    · cases h
      exact Step.server hserver
    · rename_i hvisited
      cases h
      exact Step.deleted hserver hvisited
  · split at h
    · cases h
      exact Step.server hserver
    · split at h
      · rename_i hfree
        cases h
        exact Step.spawned hserver hfree
      · cases h
  · cases h
    exact Step.server hserver

theorem step_cases {s t : State} {a : Action} (h : step cfg rt foreign s a = some t) :
    Step cfg rt foreign s a t := by
  cases a with
  | server action r =>
      simp only [step] at h
      split at h
      · cases h
      · rename_i server hserver
        exact after_cases hserver h
  | pair r connId =>
      simp only [step] at h
      split at h
      · cases h
      · rename_i pr hpr
        split at h
        · rename_i hready
          split at h
          · cases h
          · rename_i server hserver
            cases h
            exact Step.pair hpr hready.left hready.right hserver
        · cases h
  | look r =>
      simp only [step] at h
      split at h
      · rename_i rel hrel
        split at h
        · rename_i hphase
          cases h
          exact Step.look hrel hphase
        · cases h
      · cases h
  | add r direction bytes =>
      simp only [step] at h
      split at h
      · rename_i rel hrel
        split at h
        · rename_i object hphase
          split at h
          · cases h
            exact Step.add hrel hphase
          · cases h
        · cases h
      · cases h
  | finish r =>
      simp only [step] at h
      split at h
      · rename_i rel hrel
        split at h
        · rename_i hphase
          split at h
          · cases h
            exact Step.finish hrel (by simp [hphase])
          · cases h
        · rename_i hphase
          split at h
          · cases h
            exact Step.finish hrel (by simp [hphase])
          · cases h
        · cases h
      · cases h

theorem look_relays (s : State) (r : Nat) (rel : Relay) :
    exists object, (s.look r rel).relays = Function.update s.relays r
      (some { rel with phase := Phase.counting object, discarded := false }) := by
  unfold State.look
  split
  · exact ⟨_, rfl⟩
  · exact ⟨_, rfl⟩

/-- What becomes of the server. -/
theorem Step.server_cases {s t : State} {a : Action} (h : Step cfg rt foreign s a t) :
    t.server = s.server ∨ exists action,
      Server.step cfg rt foreign s.server action = some t.server ∧
        ((exists r, a = Action.server action r) ∨
          exists connId, action = Server.Action.traffic
            (Server.TrafficAction.receive connId)) := by
  cases h with
  | server hserver => exact Or.inr ⟨_, hserver, Or.inl ⟨_, rfl⟩⟩
  | deleted hserver _ => exact Or.inr ⟨_, hserver, Or.inl ⟨_, rfl⟩⟩
  | spawned hserver _ => exact Or.inr ⟨_, hserver, Or.inl ⟨_, rfl⟩⟩
  | pair _ _ _ hserver => exact Or.inr ⟨_, hserver, Or.inr ⟨_, rfl⟩⟩
  | look _ _ =>
      unfold State.look
      split
      · exact Or.inl rfl
      · exact Or.inl rfl
  | add _ _ => exact Or.inl rfl
  | finish _ _ => exact Or.inl rfl

/-- What the counting adds leaves the runs of the server as they are. -/
theorem server_of_exec {s t : State} {actions : List Action}
    (hexec : (machine cfg rt foreign).exec s actions = some t) :
    exists steps, (Server.machine cfg rt foreign).exec s.server steps = some t.server ∧
      forall a, a ∈ steps -> (exists r, Action.server a r ∈ actions) ∨
        exists connId, a = Server.Action.traffic (Server.TrafficAction.receive connId) := by
  induction actions generalizing s with
  | nil =>
      cases hexec
      exact ⟨[], rfl, fun a ha => by cases ha⟩
  | cons action rest ih =>
      rcases Machine.exec_cons_some _ hexec with ⟨s', hstep, hrest⟩
      rcases ih hrest with ⟨steps, hsteps, horigins⟩
      have hlater : forall a, a ∈ steps -> (exists r, Action.server a r ∈ action :: rest) ∨
          exists connId, a = Server.Action.traffic (Server.TrafficAction.receive connId) :=
        fun a ha => (horigins a ha).imp_left fun ⟨r, hr⟩ => ⟨r, List.mem_cons_of_mem _ hr⟩
      rcases (step_cases hstep).server_cases with hsame | ⟨a, hserver, horigin⟩
      · rw [hsame] at hsteps
        exact ⟨steps, hsteps, hlater⟩
      · refine ⟨a :: steps, (Machine.exec_cons_of_step _ steps hserver).trans hsteps, ?_⟩
        intro b hb
        rcases List.mem_cons.mp hb with rfl | hmem
        · refine horigin.imp_left fun ⟨r, hr⟩ => ⟨r, ?_⟩
          rw [hr]
          exact List.mem_cons_self
        · exact hlater b hmem

/-- The connection a hello of the server's arrives on. -/
def Action.opens? : Action -> Option Nat
  | Action.server a _ => a.opens?
  | _ => none

/-- The relay an action may start. -/
def Action.starts? : Action -> Option Nat
  | Action.server _ r | Action.pair r _ => some r
  | _ => none

theorem relays_step {s t : State} {a : Action} (h : Step cfg rt foreign s a t) {r : Nat}
    (hnone : s.relays r = none) (hstarts : a.starts? ≠ some r) : t.relays r = none := by
  have hset : forall {r' : Nat} {new : Relay}, r' ≠ r ->
      Function.update s.relays r' (some new) r = none :=
    fun hr => (Function.update_of_ne (Ne.symm hr) _ _).trans hnone
  have hother : forall {r' : Nat} {rel : Relay}, s.relays r' = some rel -> r' ≠ r := by
    rintro r' rel hrel rfl
    rw [hnone] at hrel
    cases hrel
  cases h with
  | server _ => exact hnone
  | deleted _ _ => exact congrArg (Option.map _) hnone
  | spawned _ _ => exact hset fun hr => hstarts (congrArg some hr)
  | pair _ _ _ _ => exact hset fun hr => hstarts (congrArg some hr)
  | @look r' rel hrel _ =>
      rcases look_relays s r' rel with ⟨object, hrelays⟩
      rw [hrelays]
      exact hset (hother hrel)
  | add hrel _ => exact hset (hother hrel)
  | finish hrel _ => exact hset (hother hrel)

theorem relays_of_exec {s t : State} {actions : List Action} {r : Nat}
    (hexec : (machine cfg rt foreign).exec s actions = some t) (hnone : s.relays r = none)
    (hquiet : forall a, a ∈ actions -> a.starts? ≠ some r) : t.relays r = none := by
  induction actions generalizing s with
  | nil =>
      cases hexec
      exact hnone
  | cons a rest ih =>
      rcases Machine.exec_cons_some _ hexec with ⟨s', hstep, hrest⟩
      refine ih hrest ?_ fun b hb => hquiet b (List.mem_cons_of_mem _ hb)
      exact relays_step (step_cases hstep) hnone (hquiet a List.mem_cons_self)

end Inversion

/-!
# Counts that can be read
-/

/-- Every count went to the object that was stored under its key. -/
def State.Counted (s : State) : Prop :=
  forall add, add ∈ s.adds -> add.stored = some add.object

/-- A relay adds only while nothing has deleted its name since it looked it up. -/
def StillStored (s : State) : Action -> Prop
  | Action.add r _ _ => forall rel, rel ∈ s.relays r -> rel.discarded = false
  | _ => True

instance (s : State) : forall a, Decidable (StillStored s a)
  | Action.add r _ _ =>
      inferInstanceAs (Decidable (forall rel, rel ∈ s.relays r -> rel.discarded = false))
  | Action.server _ _ | Action.pair _ _ | Action.look _ | Action.finish _ => isTrue trivial

/-- The object of a relay is the stored one exactly if its name was not deleted. -/
def Tracks (s : State) (rel : Relay) : Prop :=
  forall object, rel.phase = Phase.counting object ->
    object < s.next ∧ (s.stats rel.key = some object <-> rel.discarded = false)

structure StoreInv (s : State) : Prop where
  numbered : forall key object, s.stats key = some object -> object < s.next
  tracks : forall r rel, s.relays r = some rel -> Tracks s rel

section Counted

variable {cfg : Server.Config} {rt : Runtime} {foreign : Kind -> Int -> Bool}

theorem storeInv_initial : StoreInv initial where
  numbered key object h := by cases h
  tracks r rel h := by cases h

/-- A relay that is set, over the same counters. -/
theorem StoreInv.setRelay {s t : State} (h : StoreInv s) {r : Nat} {rel : Relay}
    (hrelays : t.relays = Function.update s.relays r (some rel)) (hstats : t.stats = s.stats)
    (hnext : t.next = s.next) (hrel : Tracks s rel) : StoreInv t := by
  constructor
  · rw [hstats, hnext]
    exact h.numbered
  · intro r' rel' hrel'
    unfold Tracks
    rw [hstats, hnext]
    rw [hrelays] at hrel'
    rcases lookup_started hrel' with ⟨-, rfl⟩ | ⟨-, hold⟩
    · exact hrel
    · exact h.tracks r' rel' hold

theorem tracks_opening {s : State} {rel : Relay} (h : rel.phase = Phase.opening) :
    Tracks s rel := by
  intro object hphase
  rw [h] at hphase
  cases hphase

theorem StoreInv.delete {s : State} (h : StoreInv s) (key : Text) : StoreInv (s.delete key) := by
  constructor
  · intro key' object hstored
    rcases lookup_ended hstored with ⟨-, hold⟩
    exact h.numbered key' object hold
  · intro r rel hrel object hphase
    rcases Option.map_eq_some_iff.mp hrel with ⟨old, hold, rfl⟩
    rcases h.tracks r old hold object hphase with ⟨hlt, hiff⟩
    constructor
    · exact hlt
    · show Function.update s.stats key none old.key = some object <->
        (old.discarded || decide (old.key = key)) = false
      by_cases hkey : old.key = key
      · simp [hkey]
      · rw [Function.update_of_ne hkey, hiff]
        simp [hkey]

theorem StoreInv.look {s : State} (h : StoreInv s) {r : Nat} {rel : Relay} :
    StoreInv (s.look r rel) := by
  unfold State.look
  split
  · rename_i object hstored
    refine h.setRelay rfl rfl rfl ?_
    intro object' hphase
    cases hphase
    exact ⟨h.numbered rel.key object hstored, iff_of_true hstored rfl⟩
  · rename_i hnone
    constructor
    · intro key object hstored
      rcases lookup_started hstored with ⟨-, rfl⟩ | ⟨-, hold⟩
      · exact Nat.lt_succ_self s.next
      · exact Nat.lt_succ_of_lt (h.numbered key object hold)
    · intro r' rel' hrel' object hphase
      rcases lookup_started hrel' with ⟨-, rfl⟩ | ⟨-, hold⟩
      · cases hphase
        exact ⟨Nat.lt_succ_self s.next, iff_of_true (Function.update_self ..) rfl⟩
      · rcases h.tracks r' rel' hold object hphase with ⟨hlt, hiff⟩
        constructor
        · exact Nat.lt_succ_of_lt hlt
        · show Function.update s.stats rel.key (some s.next) rel'.key = some object <-> _
          by_cases hkey : rel'.key = rel.key
          · -- a name without counters was deleted under its relays
            rw [hkey, hnone] at hiff
            rw [hkey, Function.update_self, ← hiff]
            constructor
            · intro heq
              cases heq
              exact absurd hlt (Nat.lt_irrefl _)
            · intro heq
              cases heq
          · rw [Function.update_of_ne hkey]
            exact hiff

theorem storeInv_step {s t : State} {a : Action} (h : StoreInv s)
    (hstep : Step cfg rt foreign s a t) : StoreInv t := by
  cases hstep with
  | server _ => exact ⟨h.numbered, h.tracks⟩
  | @deleted c r server key _ _ =>
      have hdeleted := h.delete key
      exact ⟨hdeleted.numbered, hdeleted.tracks⟩
  | spawned _ _ => exact h.setRelay rfl rfl rfl (tracks_opening rfl)
  | pair _ _ _ _ => exact h.setRelay rfl rfl rfl (tracks_opening rfl)
  | look _ _ => exact h.look
  | add hrel _ =>
      exact h.setRelay rfl rfl rfl fun object hphase => h.tracks _ _ hrel object hphase
  | finish _ _ => exact h.setRelay rfl rfl rfl (fun _ hphase => by cases hphase)

theorem counted_step {s t : State} {a : Action} (h : StoreInv s)
    (hstep : Step cfg rt foreign s a t) : t.Counted <-> s.Counted ∧ StillStored s a := by
  cases hstep with
  | server _ | deleted _ _ | spawned _ _ | pair _ _ _ _ | finish _ _ =>
      exact (and_iff_left trivial).symm
  | look _ _ =>
      unfold State.look
      split
      · exact (and_iff_left trivial).symm
      · exact (and_iff_left trivial).symm
  | add hrel hphase =>
      rename_i r direction bytes object rel
      have hstored := (h.tracks r rel hrel object hphase).right
      constructor
      · intro hcounted
        constructor
        · exact fun add hadd => hcounted add (List.mem_cons_of_mem _ hadd)
        · intro rel' hrel'
          rw [hrel] at hrel'
          cases hrel'
          exact hstored.mp (hcounted _ List.mem_cons_self)
      · intro hcase add hadd
        rcases List.mem_cons.mp hadd with rfl | hold
        · exact hstored.mpr (hcase.right rel hrel)
        · exact hcase.left add hold

/-- What is added to the stored object is read next. -/
theorem read_add {s : State} {r object bytes : Nat} {rel : Relay} {direction : Direction}
    (h : s.stats rel.key = some object) :
    (s.add r rel object direction bytes).read rel.key =
      some ((s.objects object).add bytes direction) := by
  show (s.stats rel.key).map (Function.update s.objects object _) = _
  rw [h]
  simp

/--
Every count a run adds goes to the object that is stored under its key exactly when no
relay adds after its name was deleted.
-/
theorem counted_iff_stillStored {actions : List Action} {t : State}
    (hexec : (machine cfg rt foreign).exec initial actions = some t) :
    t.Counted <-> (machine cfg rt foreign).Obeys StillStored initial actions := by
  have hlast := Machine.last_iff_obeys (M := machine cfg rt foreign)
    (A := fun _ => True) (I := StoreInv) (P := State.Counted) (G := StillStored)
    (fun _ _ _ _ h hstep => storeInv_step h (step_cases hstep))
    (fun _ _ _ _ h hstep => counted_step h (step_cases hstep))
    (fun _ _ => trivial) storeInv_initial hexec
  rw [hlast, and_iff_right]
  intro add hadd
  cases hadd

end Counted

/-!
# Names that are kept

A key of {lit}`s.stats` is kept by the registrations and by the running relays of
its name.
-/

inductive Keeper where
  | entry (c : Nat) (name : Text)
  | relay (r : Nat)
deriving DecidableEq, Repr

def State.Keeps (s : State) (key : Text) : Keeper -> Prop
  | Keeper.entry c name =>
      exists cl, s.server.clients c = some cl ∧ keyOf cl.id name = key ∧
        exists e, e ∈ cl.regs ∧ e.spec.name = name
  | Keeper.relay r =>
      exists rel, s.relays r = some rel ∧ rel.key = key ∧ rel.phase ≠ Phase.finished

/-- Two identities of which one has the other's keys: the same, but for null
characters. -/
def SharesKeys (cn id : Text) : Prop :=
  cn ++ [Char.ofNat 0] <+: id ++ [Char.ofNat 0] ∨ id ++ [Char.ofNat 0] <+: cn ++ [Char.ofNat 0]

/-- The clients of the identity have disconnected, and its relays have ended. -/
structure State.Departed (s : State) (cn : Text) : Prop where
  clients : forall c cl, s.server.clients c = some cl -> SharesKeys cn cl.id ->
    cl.task = Server.Task.gone
  relays : forall r rel, s.relays r = some rel -> SharesKeys cn rel.cn ->
    rel.phase = Phase.finished

/-- Every name with counters is registered, or relayed. -/
structure State.Bounded (s : State) : Prop where
  kept : forall key object, s.stats key = some object -> exists keeper, s.Keeps key keeper
  departed : forall cn, s.Departed cn -> forall name, s.stats (keyOf cn name) = none

/-- The keepers that a step takes away: the entry that {lit}`applyUpdate` has closed,
the entries of a client that has cleaned up, and a relay that ends. -/
def State.Releases (s : State) : Action -> Keeper -> Prop
  | Action.server (Server.Action.handler c Server.HandlerAction.close) _,
      Keeper.entry c' name =>
      c' = c ∧ exists cl, s.server.clients c = some cl ∧
        exists proxies, cl.task = Server.Task.closing proxies name []
  | Action.server (Server.Action.handler c Server.HandlerAction.cleanupDone) _,
      Keeper.entry c' _ => c' = c
  | Action.finish r, Keeper.relay r' => r' = r
  | _, _ => False

/-- A key with counters that loses a keeper has another one. -/
def Spares (s : State) (a : Action) : Prop :=
  forall keeper, s.Releases a keeper -> forall key object, s.stats key = some object ->
    s.Keeps key keeper -> exists other, s.Keeps key other ∧ ¬ s.Releases a other

/-- The client of a connection has the identity, and holds the name. -/
def HasName (s : Server.State) (c : Nat) (id name : Text) : Prop :=
  exists cl, s.clients c = some cl ∧ cl.id = id ∧
    exists e, e ∈ cl.regs ∧ e.spec.name = name

/-- A client whose handler has returned holds nothing. -/
def Emptied (s : State) : Prop :=
  forall c cl, s.server.clients c = some cl -> cl.task = Server.Task.gone -> cl.regs = []

section Bounded

variable {cfg : Server.Config} {rt : Runtime} {foreign : Kind -> Int -> Bool}

/-- Marked by a null character at its end, an identity without one is no prefix. -/
theorem eq_of_marked_start {cn id : Text} (hid : Char.ofNat 0 ∉ id)
    (h : cn ++ [Char.ofNat 0] <+: id ++ [Char.ofNat 0]) : cn = id := by
  rcases h with ⟨more, heq⟩
  rw [List.append_assoc, List.singleton_append] at heq
  rcases first_sep_cases heq.symm hid with ⟨hsame, -⟩ | ⟨z, -, hnil⟩
  · exact hsame.symm
  · exact absurd hnil.symm (List.append_ne_nil_of_right_ne_nil z (List.cons_ne_nil _ _))

theorem sharesKeys_of_eq {cn id name name' : Text} (h : keyOf cn name = keyOf id name') :
    SharesKeys cn id := by
  have hsplit : (cn ++ [Char.ofNat 0]) ++ name = (id ++ [Char.ofNat 0]) ++ name' := by
    simpa [keyOf] using h
  rcases List.append_eq_append_iff.mp hsplit with ⟨more, hid, _⟩ | ⟨more, hcn, _⟩
  · exact Or.inl ⟨more, hid.symm⟩
  · exact Or.inr ⟨more, hcn.symm⟩

/-- Without null characters, only an identity itself has its keys. -/
theorem eq_of_sharesKeys {cn id : Text} (hcn : Char.ofNat 0 ∉ cn) (hid : Char.ofNat 0 ∉ id)
    (h : SharesKeys cn id) : cn = id := by
  rcases h with h | h
  · exact eq_of_marked_start hid h
  · exact (eq_of_marked_start hcn h).symm

/-- What a handler's step leaves of the names of its client. -/
theorem names_handlerStep {s t : Server.State} {c : Nat} {cl : Server.Client}
    {a : Server.HandlerAction} (hcl : s.clients c = some cl)
    (hstep : Server.HandlerStep cfg rt foreign s c cl a t) {name : Text}
    (hname : exists e, e ∈ cl.regs ∧ e.spec.name = name) :
    HasName t c cl.id name ∨
      (a = Server.HandlerAction.close ∧
        exists proxies, cl.task = Server.Task.closing proxies name []) ∨
      a = Server.HandlerAction.cleanupDone := by
  cases hstep with
  | refused _ _ => exact Or.inl ⟨cl, hcl, rfl, hname⟩
  | @closed proxies name' htask =>
      by_cases hclosed : name' = name
      · subst hclosed
        exact Or.inr (Or.inl ⟨rfl, proxies, htask⟩)
      · rcases hname with ⟨e, he, rfl⟩
        refine Or.inl ⟨_, Server.setClient_self _ _ _, rfl, e, ?_, rfl⟩
        exact List.mem_filter.mpr ⟨he, by simpa using Ne.symm hclosed⟩
  | register _ _ =>
      exact Or.inl ⟨_, Server.setClient_self _ _ _, rfl, Regs.names_record hname⟩
  | gone _ => exact Or.inr (Or.inr rfl)
  | _ => exact Or.inl ⟨_, Server.setClient_self _ _ _, rfl, hname⟩

/-- A handler leaves the names of the other clients alone. -/
theorem names_others {s t : Server.State} {c c' : Nat} {cl : Server.Client}
    {a : Server.HandlerAction} (hstep : Server.HandlerStep cfg rt foreign s c cl a t)
    (hc : c' ≠ c) {id name : Text} : HasName t c' id name <-> HasName s c' id name := by
  rcases Server.handlerStep_touches hstep with rfl | ⟨base, new, hbase, hclients, -⟩
  · rfl
  · unfold HasName
    rw [hclients, Function.update_of_ne hc]
    rcases hbase with rfl | rfl
    · rfl
    · rcases Server.evictOld_clients s c cl.id c' with heq | ⟨-, other, hother, heq⟩
      · rw [heq]
      · simp [heq, hother]

/-- A step of the server keeps a name unless it is one of the two that release names. -/
theorem names_step {s t : Server.State} {a : Server.Action}
    (hstep : Server.step cfg rt foreign s a = some t) {c : Nat} {id name : Text}
    (hname : HasName s c id name) :
    HasName t c id name ∨
      (a = Server.Action.handler c Server.HandlerAction.close ∧
        exists cl, s.clients c = some cl ∧
          exists proxies, cl.task = Server.Task.closing proxies name []) ∨
      a = Server.Action.handler c Server.HandlerAction.cleanupDone := by
  cases a with
  | hello c' cert token grant clientId fresh revoked proxies now =>
      rcases Server.step_hello hstep with rfl | ⟨cl, hnone, rfl, -⟩
      · exact Or.inl hname
      · rcases hname with ⟨old, hold, hrest⟩
        have hc : c ≠ c' := fun heq => by simp [heq, hnone] at hold
        exact Or.inl ⟨old, (Function.update_of_ne hc _ _).trans hold, hrest⟩
  | handler c' action =>
      rcases Server.step_handler hstep with ⟨cl, hcl, hhandler⟩
      by_cases hc : c = c'
      · subst hc
        rcases hname with ⟨old, hold, hid, hnames⟩
        rw [hcl] at hold
        cases hold
        subst hid
        rcases names_handlerStep hcl hhandler hnames with
          hkept | ⟨rfl, hclosing⟩ | rfl
        · exact Or.inl hkept
        · exact Or.inr (Or.inl ⟨rfl, cl, hcl, hclosing⟩)
        · exact Or.inr (Or.inr rfl)
      · exact Or.inl ((names_others hhandler hc).mpr hname)
  | traffic action =>
      unfold HasName
      rw [(Server.step_traffic hstep).right.left]
      exact Or.inl hname

/-!
What the server's steps and the relays' leave of the keepers.
-/

theorem keeps_entry {s : State} {key : Text} {c : Nat} {name : Text} :
    s.Keeps key (Keeper.entry c name) <->
      exists id, HasName s.server c id name ∧ keyOf id name = key := by
  constructor
  · rintro ⟨cl, hcl, hkey, hnames⟩
    exact ⟨cl.id, ⟨cl, hcl, rfl, hnames⟩, hkey⟩
  · rintro ⟨id, ⟨cl, hcl, rfl, hnames⟩, hkey⟩
    exact ⟨cl, hcl, hkey, hnames⟩

theorem keeps_entry_step {s t : State} {a : Action} (hstep : Step cfg rt foreign s a t)
    {key : Text} {c : Nat} {name : Text} (hkeeps : s.Keeps key (Keeper.entry c name))
    (hstays : ¬ s.Releases a (Keeper.entry c name)) :
    t.Keeps key (Keeper.entry c name) := by
  rcases keeps_entry.mp hkeeps with ⟨id, hname, hkey⟩
  refine keeps_entry.mpr ⟨id, ?_, hkey⟩
  rcases hstep.server_cases with hsame | ⟨action, hserver, horigin⟩
  · rw [hsame]
    exact hname
  · rcases names_step hserver hname with hkept | ⟨rfl, hclosing⟩ | rfl
    · exact hkept
    · rcases horigin with ⟨r, rfl⟩ | ⟨connId, heq⟩
      · exact absurd ⟨rfl, hclosing⟩ hstays
      · cases heq
    · rcases horigin with ⟨r, rfl⟩ | ⟨connId, heq⟩
      · exact absurd rfl hstays
      · cases heq

/-- A relay that is set: another one, or the same with its key. -/
theorem keeps_set {s t : State} {r r' : Nat} {new : Relay}
    (hrelays : t.relays = Function.update s.relays r' (some new)) {key : Text}
    (hkeeps : s.Keeps key (Keeper.relay r))
    (hnew : r = r' -> new.key = key ∧ new.phase ≠ Phase.finished) :
    t.Keeps key (Keeper.relay r) := by
  by_cases hr : r = r'
  · refine ⟨new, ?_, hnew hr⟩
    rw [hrelays, hr, Function.update_self]
  · rcases hkeeps with ⟨rel, hrel, hrest⟩
    refine ⟨rel, ?_, hrest⟩
    rw [hrelays, Function.update_of_ne hr]
    exact hrel

theorem keeps_relay_step {s t : State} {a : Action} (hstep : Step cfg rt foreign s a t)
    {key : Text} {r : Nat} (hkeeps : s.Keeps key (Keeper.relay r))
    (hstays : ¬ s.Releases a (Keeper.relay r)) : t.Keeps key (Keeper.relay r) := by
  rcases hkeeps with ⟨rel, hrel, hkey, hphase⟩
  have hrunning : s.Keeps key (Keeper.relay r) := ⟨rel, hrel, hkey, hphase⟩
  cases hstep with
  | server _ => exact hrunning
  | deleted _ _ => exact ⟨_, congrArg (Option.map _) hrel, hkey, hphase⟩
  | spawned _ hfree =>
      refine keeps_set rfl hrunning ?_
      rintro rfl
      rw [hrel] at hfree
      cases hfree
  | pair _ _ hfree _ =>
      refine keeps_set rfl hrunning ?_
      rintro rfl
      rw [hrel] at hfree
      cases hfree
  | @look r' old hold _ =>
      rcases look_relays s r' old with ⟨object, hrelays⟩
      refine keeps_set hrelays hrunning ?_
      rintro rfl
      rw [hrel] at hold
      cases hold
      exact ⟨hkey, by simp⟩
  | add hold hcounting =>
      refine keeps_set rfl hrunning ?_
      rintro rfl
      rw [hrel] at hold
      cases hold
      exact ⟨hkey, hphase⟩
  | finish _ _ => exact keeps_set rfl hrunning fun hr => absurd hr hstays

/-- A keeper that a step does not take away stays one. -/
theorem keeps_step {s t : State} {a : Action} (hstep : Step cfg rt foreign s a t)
    {key : Text} {keeper : Keeper} (hkeeps : s.Keeps key keeper)
    (hstays : ¬ s.Releases a keeper) : t.Keeps key keeper := by
  cases keeper with
  | entry c name => exact keeps_entry_step hstep hkeeps hstays
  | relay r => exact keeps_relay_step hstep hkeeps hstays

/-- A key with counters had them before, or is the one of the relay that looked. -/
theorem stored_step {s t : State} {a : Action} (hstep : Step cfg rt foreign s a t)
    {key : Text} {object : Nat} (hstored : t.stats key = some object) :
    s.stats key = some object ∨ exists r, a = Action.look r ∧ t.Keeps key (Keeper.relay r) := by
  cases hstep with
  | deleted _ _ => exact Or.inl (lookup_ended hstored).right
  | @look r rel hrel hopening =>
      rcases look_relays s r rel with ⟨object', hrelays⟩
      by_cases hkey : key = rel.key
      · refine Or.inr ⟨r, rfl, { rel with
          phase := Phase.counting object'
          discarded := false }, ?_, hkey.symm, by simp⟩
        rw [hrelays, Function.update_self]
      · apply Or.inl
        unfold State.look at hstored
        split at hstored
        · exact hstored
        · rcases lookup_started hstored with ⟨heq, -⟩ | ⟨-, hold⟩
          · exact absurd heq hkey
          · exact hold
  | _ => exact Or.inl hstored

/-!
The steps that take keepers away leave the counters as they are.
-/

theorem hasName_setClient {s : Server.State} {c c' : Nat} {cl : Server.Client}
    {id name : Text} :
    HasName (s.setClient c cl) c' id name <->
      (c' = c ∧ cl.id = id ∧ exists e, e ∈ cl.regs ∧ e.spec.name = name) ∨
        (c' ≠ c ∧ HasName s c' id name) := by
  by_cases hc : c' = c
  · subst hc
    simp [HasName, Server.setClient_self]
  · simp [HasName, Server.State.setClient, hc]

/-- {lit}`applyUpdate` has closed an entry. -/
theorem closed_step {s t : Server.State} {c : Nat} {cl : Server.Client}
    (hcl : s.clients c = some cl) {proxies : List ProxySpec} {name : Text}
    (htask : cl.task = Server.Task.closing proxies name [])
    (hstep : Server.step cfg rt foreign s
      (Server.Action.handler c Server.HandlerAction.close) = some t)
    {c' : Nat} {id name' : Text} (hname : HasName t c' id name') :
    HasName s c' id name' ∧ ¬ (c' = c ∧ name' = name) := by
  simp only [Server.step, hcl, htask, Server.handlerStep] at hstep
  cases hstep
  rcases hasName_setClient.mp hname with ⟨rfl, hid, e, he, hnamed⟩ | ⟨hc, hold⟩
  · rcases List.mem_filter.mp he with ⟨hmem, hne⟩
    constructor
    · exact ⟨cl, hcl, hid, e, hmem, hnamed⟩
    · rintro ⟨-, rfl⟩
      simp [hnamed] at hne
  · exact ⟨hold, fun heq => hc heq.left⟩

/-- A client has cleaned up. -/
theorem emptied_step {s t : Server.State} {c : Nat}
    (hstep : Server.step cfg rt foreign s
      (Server.Action.handler c Server.HandlerAction.cleanupDone) = some t)
    {c' : Nat} {id name : Text} (hname : HasName t c' id name) :
    HasName s c' id name ∧ c' ≠ c := by
  rcases Server.step_handler hstep with ⟨cl, -, hhandler⟩
  cases hhandler with
  | gone _ =>
      rcases hasName_setClient.mp hname with ⟨-, -, e, he, -⟩ | ⟨hc, hold⟩
      · cases he
      · exact ⟨hold, hc⟩

theorem step_server {s t : State} {action : Server.Action} {r : Nat}
    (h : Step cfg rt foreign s (Action.server action r) t) :
    Server.step cfg rt foreign s.server action = some t.server := by
  cases h with
  | server hserver => exact hserver
  | deleted hserver _ => exact hserver
  | spawned hserver _ => exact hserver

/-- What is left when a step has taken a keeper away. -/
structure Left (s t : State) (a : Action) : Prop where
  stats : t.stats = s.stats
  keepers : forall key keeper, t.Keeps key keeper ->
    s.Keeps key keeper ∧ ¬ s.Releases a keeper

theorem left_of_entries {s t : State} {a : Action} (hstats : t.stats = s.stats)
    (hrelays : t.relays = s.relays) (hnot : forall r, ¬ s.Releases a (Keeper.relay r))
    (hnames : forall c id name, HasName t.server c id name ->
      HasName s.server c id name ∧ ¬ s.Releases a (Keeper.entry c name)) : Left s t a where
  stats := hstats
  keepers key keeper hkeeps := by
    cases keeper with
    | entry c name =>
        rcases keeps_entry.mp hkeeps with ⟨id, hname, hkey⟩
        rcases hnames c id name hname with ⟨hold, hstays⟩
        exact ⟨keeps_entry.mpr ⟨id, hold, hkey⟩, hstays⟩
    | relay r =>
        rcases hkeeps with ⟨rel, hrel, hrest⟩
        rw [hrelays] at hrel
        exact ⟨⟨rel, hrel, hrest⟩, hnot r⟩

theorem left_of_releases {s t : State} {a : Action} (hstep : Step cfg rt foreign s a t)
    {gone : Keeper} (hgone : s.Releases a gone) : Left s t a := by
  unfold State.Releases at hgone
  split at hgone
  · rename_i c r c' name
    rcases hgone with ⟨rfl, cl, hcl, proxies, htask⟩
    have hkept : forall c id other, HasName t.server c id other ->
        HasName s.server c id other ∧ ¬ (c = c' ∧ other = name) :=
      fun _ _ _ hname => closed_step hcl htask (step_server hstep) hname
    have hvisited : s.visited c' = none := by simp [State.visited, hcl, htask]
    cases hstep with
    | server _ =>
        refine left_of_entries rfl rfl (fun _ h => h) fun c id other hname => ?_
        constructor
        · exact (hkept c id other hname).left
        · rintro ⟨rfl, cl', hcl', proxies', htask'⟩
          rw [hcl] at hcl'
          cases hcl'
          rw [htask] at htask'
          cases htask'
          exact (hkept _ id _ hname).right ⟨rfl, rfl⟩
    | deleted _ hdeleted =>
        rw [hvisited] at hdeleted
        cases hdeleted
  · rename_i c r c' name
    have hkept : forall c' id name, HasName t.server c' id name ->
        HasName s.server c' id name ∧ c' ≠ c :=
      fun _ _ _ hname => emptied_step (step_server hstep) hname
    cases hstep with
    | server _ => exact left_of_entries rfl rfl (fun _ h => h) hkept
  · rename_i r r'
    subst hgone
    cases hstep with
    | finish hrel hrunning =>
        constructor
        · rfl
        · intro key keeper hkeeps
          cases keeper with
          | entry c name => exact ⟨hkeeps, id⟩
          | relay r =>
              rcases hkeeps with ⟨rel, hset, hkey, hphase⟩
              rcases lookup_started hset with ⟨-, rfl⟩ | ⟨hr, hold⟩
              · exact absurd rfl hphase
              · exact ⟨⟨rel, hold, hkey, hphase⟩, hr⟩
  · exact hgone.elim

/-!
What has left holds nothing.
-/

theorem emptied_initial : Emptied initial := by
  intro c cl hcl
  cases hcl

theorem gone_handlerStep {s t : Server.State} {c : Nat} {cl new : Server.Client}
    {a : Server.HandlerAction} (hcl : s.clients c = some cl)
    (hempty : cl.task = Server.Task.gone -> cl.regs = [])
    (hstep : Server.HandlerStep cfg rt foreign s c cl a t) (hnew : t.clients c = some new)
    (hgone : new.task = Server.Task.gone) : new.regs = [] := by
  cases hstep with
  | refused _ _ =>
      rw [hcl] at hnew
      cases hnew
      exact hempty hgone
  | @reply statuses ok _ =>
      cases (Server.setClient_self _ _ _).symm.trans hnew
      cases ok with
      | false => cases hgone
      | true => cases hgone
  | gone _ =>
      cases (Server.setClient_self _ _ _).symm.trans hnew
      rfl
  | _ =>
      cases (Server.setClient_self _ _ _).symm.trans hnew
      cases hgone

theorem emptied_server {s t : Server.State} {a : Server.Action}
    (h : forall c cl, s.clients c = some cl -> cl.task = Server.Task.gone -> cl.regs = [])
    (hstep : Server.step cfg rt foreign s a = some t) {c : Nat} {cl : Server.Client}
    (hcl : t.clients c = some cl) (hgone : cl.task = Server.Task.gone) : cl.regs = [] := by
  cases a with
  | hello c' cert token grant clientId fresh revoked proxies now =>
      rcases Server.step_hello hstep with rfl | ⟨new, -, rfl, hadmit⟩
      · exact h c cl hcl hgone
      · rcases lookup_started hcl with ⟨-, rfl⟩ | ⟨-, hold⟩
        · rcases Server.admitHello_ok hadmit with ⟨g, -, rfl⟩
          cases hgone
        · exact h c cl hold hgone
  | handler c' action =>
      rcases Server.step_handler hstep with ⟨old, hold, hhandler⟩
      by_cases hc : c = c'
      · subst hc
        exact gone_handlerStep hold (h c old hold) hhandler hcl hgone
      · rcases Server.handlerStep_touches hhandler with rfl | ⟨base, new, hbase, hclients, -⟩
        · exact h c cl hcl hgone
        · rw [hclients, Function.update_of_ne hc] at hcl
          rcases hbase with rfl | rfl
          · exact h c cl hcl hgone
          · rcases Server.evictOld_clients s c' old.id c with
              heq | ⟨-, other, hother, heq⟩
            · rw [heq] at hcl
              exact h c cl hcl hgone
            · rw [heq] at hcl
              cases hcl
              exact h c other hother hgone
  | traffic action =>
      rw [(Server.step_traffic hstep).right.left] at hcl
      exact h c cl hcl hgone

theorem emptied_kept {s t : State} {a : Action} (h : Emptied s)
    (hstep : Step cfg rt foreign s a t) : Emptied t := by
  rcases hstep.server_cases with hsame | ⟨action, hserver, -⟩
  · unfold Emptied
    rw [hsame]
    exact h
  · exact fun c cl hcl hgone => emptied_server h hserver hcl hgone

theorem bounded_of_kept {s : State} (hemptied : Emptied s)
    (hkept : forall key object, s.stats key = some object ->
      exists keeper, s.Keeps key keeper) : s.Bounded where
  kept := hkept
  departed cn hdeparted name := by
    cases hstored : s.stats (keyOf cn name) with
    | none => rfl
    | some object =>
        rcases hkept _ object hstored with ⟨keeper, hkeeps⟩
        cases keeper with
        | entry c name' =>
            rcases hkeeps with ⟨cl, hcl, hkey, e, he, -⟩
            have hgone := hdeparted.clients c cl hcl (sharesKeys_of_eq hkey.symm)
            rw [hemptied c cl hcl hgone] at he
            cases he
        | relay r =>
            rcases hkeeps with ⟨rel, hrel, hkey, hphase⟩
            exact absurd (hdeparted.relays r rel hrel (sharesKeys_of_eq hkey.symm)) hphase

structure KeptInv (s : State) : Prop where
  emptied : Emptied s
  kept : forall key object, s.stats key = some object -> exists keeper, s.Keeps key keeper

theorem kept_step {s t : State} {a : Action} (h : KeptInv s) (hspares : Spares s a)
    (hstep : Step cfg rt foreign s a t) : KeptInv t where
  emptied := emptied_kept h.emptied hstep
  kept key object hstored := by
    rcases stored_step hstep hstored with hold | ⟨r, -, hkeeps⟩
    · rcases h.kept key object hold with ⟨keeper, hkeeps⟩
      by_cases hreleased : s.Releases a keeper
      · rcases hspares keeper hreleased key object hold hkeeps with ⟨other, hother, hstays⟩
        exact ⟨other, keeps_step hstep hother hstays⟩
      · exact ⟨keeper, keeps_step hstep hkeeps hreleased⟩
    · exact ⟨Keeper.relay r, hkeeps⟩

theorem leaked_step {s t : State} {a : Action} (hspares : ¬ Spares s a)
    (hstep : Step cfg rt foreign s a t) : ¬ t.Bounded := by
  intro hbounded
  apply hspares
  intro keeper hreleased key object hstored _
  have hleft := left_of_releases hstep hreleased
  rw [← hleft.stats] at hstored
  rcases hbounded.kept key object hstored with ⟨other, hother⟩
  exact ⟨other, hleft.keepers key other hother⟩

/--
Along a run the names with counters stay bounded by what is registered or relayed
exactly when each step that takes a keeper away leaves another one, for a name with
counters.
-/
theorem bounded_iff_spares {actions : List Action} {t : State}
    (hexec : (machine cfg rt foreign).exec initial actions = some t) :
    (machine cfg rt foreign).Always State.Bounded initial actions <->
      (machine cfg rt foreign).Obeys Spares initial actions :=
  Machine.always_iff_obeys
    (fun _ h => bounded_of_kept h.emptied h.kept)
    (fun _ _ _ h hspares hstep => kept_step h hspares (step_cases hstep))
    (fun _ _ _ _ hspares hstep => leaked_step hspares (step_cases hstep))
    ⟨emptied_initial, fun _ _ hstored => by cases hstored⟩ hexec

/-- The name of the entry that {lit}`applyUpdate` has closed. -/
def closedName : Server.Task -> Option Text
  | Server.Task.closing _ name [] => some name
  | _ => none

/-- Names without counters are taken away, and relays while the connection {lit}`c` has
their name. -/
def SparesPlainly (c : Nat) (s : State) : Action -> Prop
  | Action.server (Server.Action.handler c' Server.HandlerAction.close) _ =>
      forall cl, cl ∈ s.server.clients c' -> forall name, name ∈ closedName cl.task ->
        s.stats (keyOf cl.id name) = none
  | Action.server (Server.Action.handler c' Server.HandlerAction.cleanupDone) _ =>
      forall cl, cl ∈ s.server.clients c' -> forall e, e ∈ cl.regs ->
        s.stats (keyOf cl.id e.spec.name) = none
  | Action.finish r =>
      forall rel, rel ∈ s.relays r -> exists cl, cl ∈ s.server.clients c ∧
        exists e, e ∈ cl.regs ∧ keyOf cl.id e.spec.name = rel.key
  | _ => True

instance (c : Nat) (s : State) (a : Action) : Decidable (SparesPlainly c s a) := by
  unfold SparesPlainly
  split <;> infer_instance

theorem spares_of_plainly {c : Nat} {s : State} {a : Action} (h : SparesPlainly c s a) :
    Spares s a := by
  intro keeper hreleased key object hstored hkeeps
  unfold State.Releases at hreleased
  split at hreleased
  · rename_i c' r c'' name
    rcases hreleased with ⟨rfl, cl, hcl, proxies, htask⟩
    rcases hkeeps with ⟨cl', hcl', hkey, -⟩
    rw [hcl] at hcl'
    cases hcl'
    have hnone := h cl hcl name (by rw [htask]; rfl)
    rw [← hkey, hnone] at hstored
    cases hstored
  · rename_i c' r c'' name
    subst hreleased
    rcases hkeeps with ⟨cl, hcl, hkey, e, he, rfl⟩
    rw [← hkey, h cl hcl e he] at hstored
    cases hstored
  · rename_i r r'
    subst hreleased
    rcases hkeeps with ⟨rel, hrel, hkey, -⟩
    rcases h rel hrel with ⟨cl, hcl, e, he, hname⟩
    exact ⟨Keeper.entry c e.spec.name, ⟨cl, hcl, hname.trans hkey, e, he, rfl⟩, id⟩
  · exact hreleased.elim

end Bounded

/-!
# One public connection
-/

def plainly : Machine State Action := machine ⟨[], []⟩ Server.plainRuntime fun _ _ => false

def served (actions : List Server.Action) : List Action :=
  actions.map fun a => Action.server a 1

/-- An identity registers a site, and a visitor's connection is piped. -/
def visited : List Action :=
  served (Server.registerAll 0 "agent.1" [Server.site "web" ["a.example"]]) ++
    served [Server.Action.traffic
        (Server.TrafficAction.vhost "a.example".toList "b1".toList),
      Server.Action.traffic
        (Server.TrafficAction.work 0 "agent.1".toList [] "b1".toList false),
      Server.Action.traffic (Server.TrafficAction.handoff 0)] ++
    [Action.pair 0 "b1".toList, Action.look 0]

def counted : List Action :=
  [Action.add 0 Direction.outward 512, Action.add 0 Direction.inward 4096, Action.finish 0]

/-- The client disconnects and is cleaned up. -/
def departed : List Action :=
  served [Server.Action.handler 0 Server.HandlerAction.disconnect,
    Server.Action.handler 0 Server.HandlerAction.leave,
    Server.Action.handler 0 (Server.HandlerAction.cleanup "web".toList),
    Server.Action.handler 0 Server.HandlerAction.close,
    Server.Action.handler 0 Server.HandlerAction.close,
    Server.Action.handler 0 Server.HandlerAction.cleanupDone]

theorem counted_beforeDeparture :
    exists t, plainly.exec initial (visited ++ counted ++ departed) = some t ∧ t.Counted := by
  have hobeys : plainly.Obeys StillStored initial (visited ++ counted ++ departed) := by
    decide +kernel
  have hruns : (plainly.exec initial (visited ++ counted ++ departed)).isSome = true := by
    decide +kernel
  rcases Option.isSome_iff_exists.mp hruns with ⟨t, hexec⟩
  exact ⟨t, hexec, (counted_iff_stillStored hexec).mpr hobeys⟩

/-- The pipe ends after the cleanup: its counts go to an object nothing reads. -/
theorem uncounted_afterDeparture :
    exists t, plainly.exec initial (visited ++ departed ++ counted) = some t ∧ ¬ t.Counted := by
  have hadds : (plainly.exec initial (visited ++ departed ++ counted)).map State.adds =
      some [⟨keyOf "agent.1".toList "web".toList, 0, none⟩,
        ⟨keyOf "agent.1".toList "web".toList, 0, none⟩] := by
    decide +kernel
  rcases Option.map_eq_some_iff.mp hadds with ⟨t, hexec, hobserved⟩
  refine ⟨t, hexec, fun hcounted => ?_⟩
  have hfirst := hcounted ⟨keyOf "agent.1".toList "web".toList, 0, none⟩
    (by rw [hobserved]; exact List.mem_cons_self)
  cases hfirst

theorem bounded_departed :
    (plainly.exec initial (visited ++ counted ++ departed)).isSome = true ∧
      plainly.Always State.Bounded initial (visited ++ counted ++ departed) := by
  have hruns : (plainly.exec initial (visited ++ counted ++ departed)).isSome = true := by
    decide +kernel
  have hobeys : plainly.Obeys (SparesPlainly 0) initial (visited ++ counted ++ departed) := by
    decide +kernel
  rcases Option.isSome_iff_exists.mp hruns with ⟨t, hexec⟩
  exact ⟨hruns, (bounded_iff_spares hexec).mpr (hobeys.imp fun _ _ => spares_of_plainly)⟩

/-- An update removes the site, and the client disconnects. -/
def removed : List Action :=
  served [Server.Action.handler 0 (Server.HandlerAction.update [] [] 0),
    Server.Action.handler 0 (Server.HandlerAction.sweep "web".toList),
    Server.Action.handler 0 Server.HandlerAction.close,
    Server.Action.handler 0 Server.HandlerAction.close,
    Server.Action.handler 0 Server.HandlerAction.sweepDone,
    Server.Action.handler 0 Server.HandlerAction.applied,
    Server.Action.handler 0 (Server.HandlerAction.reply true),
    Server.Action.handler 0 Server.HandlerAction.disconnect,
    Server.Action.handler 0 Server.HandlerAction.leave,
    Server.Action.handler 0 Server.HandlerAction.cleanupDone]

/-- Its counters stay for good. -/
theorem leaked_afterRemoval :
    exists t, plainly.exec initial (visited ++ counted ++ removed) = some t ∧
      t.Departed "agent.1".toList ∧ ¬ t.Bounded := by
  have hfinal : (plainly.exec initial (visited ++ counted ++ removed)).map (fun t =>
      ((t.server.clients 0).map Server.Client.task, (t.relays 0).map Relay.phase, t.relays 1,
        t.stats (keyOf "agent.1".toList "web".toList))) =
      some (some Server.Task.gone, some Phase.finished, none, some 0) := by
    decide +kernel
  rcases Option.map_eq_some_iff.mp hfinal with ⟨t, hexec, hobserved⟩
  simp only [Prod.mk.injEq] at hobserved
  rcases hobserved with ⟨hclient, hrelay, hother, hstored⟩
  have hopened : forall a, a ∈ visited ++ counted ++ removed ->
      a.opens? = none ∨ a.opens? = some 0 := by
    decide +kernel
  have hstarted : forall a, a ∈ visited ++ counted ++ removed ->
      a.starts? = none ∨ a.starts? = some 0 ∨ a.starts? = some 1 := by
    decide +kernel
  have hdeparted : t.Departed "agent.1".toList := by
    constructor
    · intro c cl hcl _
      by_cases hc : c = 0
      · subst hc
        rw [hcl] at hclient
        exact Option.some.inj hclient
      · rcases server_of_exec hexec with ⟨steps, hsteps, horigins⟩
        have hnone : t.server.clients c = none := by
          refine Server.clients_of_exec hsteps rfl fun a ha hopens => hc ?_
          rcases horigins a ha with ⟨r, hr⟩ | ⟨connId, rfl⟩
          · rcases hopened _ hr with hquiet | hzero
            · exact absurd (hopens.symm.trans hquiet) (by simp)
            · exact Option.some.inj (hopens.symm.trans hzero)
          · cases hopens
        rw [hnone] at hcl
        cases hcl
    · intro r rel hrel _
      by_cases hr : r = 0
      · subst hr
        rw [hrel] at hrelay
        exact Option.some.inj hrelay
      · have hnone : t.relays r = none := by
          by_cases hone : r = 1
          · rw [hone]
            exact hother
          · refine relays_of_exec hexec rfl fun a ha hstarts => ?_
            rcases hstarted a ha with hquiet | hzero | hfirst
            · exact absurd (hstarts.symm.trans hquiet) (by simp)
            · exact hr (Option.some.inj (hstarts.symm.trans hzero))
            · exact hone (Option.some.inj (hstarts.symm.trans hfirst))
        rw [hnone] at hrel
        cases hrel
  refine ⟨t, hexec, hdeparted, fun hbounded => ?_⟩
  rw [hbounded.departed _ hdeparted] at hstored
  cases hstored

end Counting

end Engine
end RcTunnel
