import RcTunnel.Foundation.Meter
import RcTunnel.Panel.Database

/-!
# Traffic accounting

The poller asks the engine for its counters and adds to each tunnel what the
counters of its owner's proxy have grown by.  A counter counts within an epoch and
restarts from zero at any time; a poll may find it missing.  Over any sequence of
polls a tunnel is never billed for more than was counted for its proxy, and for
what the last samples of the epochs add up to when every restart shows.
-/

namespace RcTunnel
namespace Panel

open Foundation

namespace Api

/-- An entry of {lit}`/api/stats`; a member that is missing or null is {lit}`none`. -/
structure StatsEntry where
  cn : Option Text
  name : Option Text
  bytesIn : Option Int
  bytesOut : Option Int
deriving DecidableEq, Repr

def StatsEntry.key (e : StatsEntry) : Text × Text := (e.cn.getD [], e.name.getD [])

def StatsEntry.bytes (e : StatsEntry) : Int × Int := (e.bytesIn.getD 0, e.bytesOut.getD 0)

/-- {lit}`_fetch_proxy_traffic`, in the order in which the entries are stored; there is no
answer when the engine is down. -/
def fetchProxyTraffic (answer : Option (List StatsEntry)) :
    List ((Text × Text) × (Int × Int)) :=
  (answer.getD []).map fun e => (e.key, e.bytes)

/-- The owner and the name of a tunnel's proxy. -/
def proxyKey (agentId id : Nat) : Text × Text :=
  ("agent.".toList ++ Nat.toDigits 10 agentId, 't' :: Nat.toDigits 10 id)

/-- The sample of a tunnel: the last entry that was stored under its key. -/
def sampleOf (answer : Option (List StatsEntry)) : Traffic := fun agentId id =>
  ((fetchProxyTraffic answer).reverse.find? fun e => e.1 = proxyKey agentId id).map Prod.snd

/-- Only the entries of its key say what the sample of a tunnel is. -/
theorem sampleOf_congr {answer answer' : Option (List StatsEntry)} {agentId id : Nat}
    (h : ((answer.getD []).filter fun e => e.key = proxyKey agentId id) =
      (answer'.getD []).filter fun e => e.key = proxyKey agentId id) :
    sampleOf answer agentId id = sampleOf answer' agentId id := by
  have hfind : forall data : List StatsEntry,
      ((data.map fun e => (e.key, e.bytes)).reverse.find? fun e =>
          e.1 = proxyKey agentId id).map Prod.snd =
        ((data.filter fun e => e.key = proxyKey agentId id).getLast?).map StatsEntry.bytes := by
    intro data
    rw [← List.map_reverse, List.find?_map, ← List.head?_filter, ← List.head?_reverse,
      ← List.filter_reverse, Option.map_map]
    rfl
  unfold sampleOf fetchProxyTraffic
  rw [hfind, hfind, h]

namespace Metering

/-- The tables, and the engine's counters of each proxy, in and out. -/
structure State where
  db : Db
  gauges : Nat -> Nat -> Gauge × Gauge

inductive Action where
  | carry (agentId id bytesIn bytesOut : Nat)
  /-- the counters of a proxy restart from zero -/
  | restart (agentId id : Nat)
  | poll (answer : Option (List StatsEntry))
deriving DecidableEq, Repr

def State.setGauges (s : State) (agentId id : Nat) (f : Gauge -> Gauge) (g : Gauge -> Gauge) :
    State :=
  { s with gauges := fun a i =>
      if a = agentId ∧ i = id then (f (s.gauges a i).1, g (s.gauges a i).2) else s.gauges a i }

/-- The counters of the proxies of which there is a sample have been read. -/
def State.sampled (s : State) (answer : Option (List StatsEntry)) : State :=
  { s with gauges := fun a i =>
      match sampleOf answer a i with
      | none => s.gauges a i
      | some _ => ((s.gauges a i).1.sample, (s.gauges a i).2.sample) }

/-- The sample of every tunnel is missing or the current value of its counters. -/
def Truthful (s : State) (answer : Option (List StatsEntry)) : Prop :=
  forall t, t ∈ s.db.tunnels -> forall sample, sample ∈ sampleOf answer t.agentId t.id ->
    sample = (((s.gauges t.agentId t.id).1.value : Int), ((s.gauges t.agentId t.id).2.value : Int))

instance (s : State) (answer : Option (List StatsEntry)) : Decidable (Truthful s answer) :=
  inferInstanceAs (Decidable (forall t, t ∈ s.db.tunnels -> forall sample,
    sample ∈ sampleOf answer t.agentId t.id -> _))

def step (s : State) : Action -> Option State
  | Action.carry agentId id bytesIn bytesOut =>
      some (s.setGauges agentId id (Gauge.grow bytesIn) (Gauge.grow bytesOut))
  | Action.restart agentId id => some (s.setGauges agentId id Gauge.reset Gauge.reset)
  | Action.poll answer =>
      if Truthful s answer then
        some { s.sampled answer with db := pollOnce (sampleOf answer) s.db }
      else
        none

/-- No tunnel has been billed, and no counter of a tunnel was read. -/
structure Unbilled (s : State) : Prop where
  rows : forall t, t ∈ s.db.tunnels ->
    t.bytesIn = 0 ∧ t.bytesOut = 0 ∧ t.lastTodayIn = 0 ∧ t.lastTodayOut = 0
  gauges : forall t, t ∈ s.db.tunnels ->
    (s.gauges t.agentId t.id).1.Unread ∧ (s.gauges t.agentId t.id).2.Unread

def machine : Machine State Action where
  init := Unbilled
  step := step

/-!
# What a row knows of its counters
-/

def readerIn (t : Tunnel) : Reader := ⟨t.bytesIn, t.lastTodayIn⟩

def readerOut (t : Tunnel) : Reader := ⟨t.bytesOut, t.lastTodayOut⟩

structure Metered (g : Gauge × Gauge) (t : Tunnel) : Prop where
  boundedIn : Bounded g.1 (readerIn t)
  boundedOut : Bounded g.2 (readerOut t)
  exactIn : Exact g.1 (readerIn t)
  exactOut : Exact g.2 (readerOut t)

def AllMetered (s : State) : Prop :=
  forall t, t ∈ s.db.tunnels -> Metered (s.gauges t.agentId t.id) t

section Polls

variable {g : Gauge × Gauge} {t : Tunnel}

theorem metered_grow (h : Metered g t) (bytesIn bytesOut : Nat) :
    Metered (g.1.grow bytesIn, g.2.grow bytesOut) t where
  boundedIn := h.boundedIn.grow bytesIn
  boundedOut := h.boundedOut.grow bytesOut
  exactIn := h.exactIn.grow bytesIn
  exactOut := h.exactOut.grow bytesOut

theorem metered_reset (h : Metered g t) : Metered (g.1.reset, g.2.reset) t where
  boundedIn := h.boundedIn.reset
  boundedOut := h.boundedOut.reset
  exactIn := h.exactIn.reset
  exactOut := h.exactOut.reset

theorem metered_counted {traffic : Traffic} (h : Metered g t)
    (htraffic : traffic t.agentId t.id = some ((g.1.value : Int), (g.2.value : Int))) :
    Metered (g.1.sample, g.2.sample) (t.counted traffic) := by
  unfold Tunnel.counted
  rw [htraffic]
  constructor
  · exact h.boundedIn.sample
  · exact h.boundedOut.sample
  · exact Exact.sample h.boundedIn h.exactIn
  · exact Exact.sample h.boundedOut h.exactOut

theorem counted_missing {traffic : Traffic} (htraffic : traffic t.agentId t.id = none) :
    t.counted traffic = t := by
  unfold Tunnel.counted
  rw [htraffic]

theorem counted_congr {traffic traffic' : Traffic}
    (h : traffic t.agentId t.id = traffic' t.agentId t.id) :
    t.counted traffic = t.counted traffic' := by
  unfold Tunnel.counted
  rw [h]

@[simp] theorem counted_id (traffic : Traffic) (t : Tunnel) : (t.counted traffic).id = t.id := by
  unfold Tunnel.counted
  split <;> rfl

@[simp] theorem counted_agentId (traffic : Traffic) (t : Tunnel) :
    (t.counted traffic).agentId = t.agentId := by
  unfold Tunnel.counted
  split <;> rfl

@[simp] theorem pollOnce_tunnels (traffic : Traffic) (db : Db) :
    (pollOnce traffic db).tunnels = db.tunnels.map (Tunnel.counted traffic) := rfl

theorem le_bytesIn {traffic : Traffic}
    (h : forall today out, traffic t.agentId t.id = some (today, out) -> 0 ≤ today) :
    t.bytesIn ≤ (t.counted traffic).bytesIn := by
  unfold Tunnel.counted
  split
  · exact Int.le_refl _
  · rename_i today out hsample
    exact le_advance t.bytesIn t.lastTodayIn (h today out hsample)

theorem le_bytesOut {traffic : Traffic}
    (h : forall today out, traffic t.agentId t.id = some (today, out) -> 0 ≤ out) :
    t.bytesOut ≤ (t.counted traffic).bytesOut := by
  unfold Tunnel.counted
  split
  · exact Int.le_refl _
  · rename_i today out hsample
    exact le_advance t.bytesOut t.lastTodayOut (h today out hsample)

end Polls

/-!
# Every step
-/

section Runs

variable {s t : State}

theorem metered_setGauges {agentId id : Nat} {f k : Gauge -> Gauge} (h : AllMetered s)
    (hkeep : forall g u, Metered g u -> Metered (f g.1, k g.2) u) :
    AllMetered (s.setGauges agentId id f k) := by
  intro u hu
  have hold := h u hu
  simp only [State.setGauges]
  split
  · exact hkeep _ u hold
  · exact hold

theorem metered_poll {answer : Option (List StatsEntry)} (h : AllMetered s)
    (htruthful : Truthful s answer) :
    AllMetered { s.sampled answer with db := pollOnce (sampleOf answer) s.db } := by
  intro u hu
  rcases List.mem_map.mp hu with ⟨v, hv, rfl⟩
  have hold := h v hv
  simp only [State.sampled, counted_id, counted_agentId]
  cases hsample : sampleOf answer v.agentId v.id with
  | none =>
      rw [counted_missing hsample]
      exact hold
  | some sample =>
      have hvalue := htruthful v hv sample hsample
      subst hvalue
      exact metered_counted hold hsample

theorem metered_step {action : Action} (h : AllMetered s) (hstep : step s action = some t) :
    AllMetered t := by
  cases action with
  | carry agentId id bytesIn bytesOut =>
      cases hstep
      exact metered_setGauges h fun g u hold => metered_grow hold bytesIn bytesOut
  | restart agentId id =>
      cases hstep
      exact metered_setGauges h fun g u hold => metered_reset hold
  | poll answer =>
      simp only [step] at hstep
      split at hstep
      · rename_i htruthful
        cases hstep
        exact metered_poll h htruthful
      · cases hstep

theorem metered_of_unbilled (h : Unbilled s) : AllMetered s := by
  intro u hu
  rcases h.rows u hu with ⟨hin, hout, hlastIn, hlastOut⟩
  rcases h.gauges u hu with ⟨hunreadIn, hunreadOut⟩
  have hreaderIn : readerIn u = ⟨0, 0⟩ := by simp [readerIn, hin, hlastIn]
  have hreaderOut : readerOut u = ⟨0, 0⟩ := by simp [readerOut, hout, hlastOut]
  constructor
  · rw [hreaderIn]
    exact Bounded.start hunreadIn
  · rw [hreaderOut]
    exact Bounded.start hunreadOut
  · rw [hreaderIn]
    exact Exact.start hunreadIn
  · rw [hreaderOut]
    exact Exact.start hunreadOut

theorem metered_of_reachable (h : machine.Reachable s) : AllMetered s := by
  apply h.invariant
  · intro s hs
    exact metered_of_unbilled hs
  · intro s action t hs hstep
    exact metered_step hs hstep

/-- What a poll has made of the row of a tunnel. -/
structure Billed (s t : State) (answer : Option (List StatsEntry)) (v u : Tunnel) : Prop where
  same : u.id = v.id ∧ u.agentId = v.agentId
  grows : v.bytesIn ≤ u.bytesIn ∧ v.bytesOut ≤ u.bytesOut
  bounded : u.bytesIn ≤ (t.gauges u.agentId u.id).1.counted ∧
    u.bytesOut ≤ (t.gauges u.agentId u.id).2.counted
  exactIn : FallsShow (t.gauges u.agentId u.id).1.log ->
    u.bytesIn = (lastReadings (t.gauges u.agentId u.id).1.log : Nat)
  exactOut : FallsShow (t.gauges u.agentId u.id).2.log ->
    u.bytesOut = (lastReadings (t.gauges u.agentId u.id).2.log : Nat)
  /-- the entries of other proxies do not matter -/
  own : forall answer' : Option (List StatsEntry),
    ((answer'.getD []).filter fun e => e.key = proxyKey v.agentId v.id) =
      ((answer.getD []).filter fun e => e.key = proxyKey v.agentId v.id) ->
    v.counted (sampleOf answer') = u

/-- After every poll of a run every tunnel's row is a row of before, billed. -/
theorem billed_of_poll {answer : Option (List StatsEntry)} (hs : machine.Reachable s)
    (hpoll : machine.step s (Action.poll answer) = some t) :
    forall u, u ∈ t.db.tunnels ->
      exists v, v ∈ s.db.tunnels ∧ Billed s t answer v u := by
  intro u hu
  have hmetered := metered_of_reachable (hs.step hpoll) u hu
  have htruthful : Truthful s answer := by
    by_contra hnot
    simp [machine, step, hnot] at hpoll
  simp only [machine, step, if_pos htruthful, Option.some.injEq] at hpoll
  subst hpoll
  rcases List.mem_map.mp hu with ⟨v, hv, rfl⟩
  have hsample : forall today out, sampleOf answer v.agentId v.id = some (today, out) ->
      0 ≤ today ∧ 0 ≤ out := by
    intro today out hsample
    have hvalue := htruthful v hv _ hsample
    cases hvalue
    exact ⟨Int.natCast_nonneg _, Int.natCast_nonneg _⟩
  refine ⟨v, hv, ?_⟩
  constructor
  · exact ⟨counted_id _ v, counted_agentId _ v⟩
  · constructor
    · exact le_bytesIn fun today out h => (hsample today out h).left
    · exact le_bytesOut fun today out h => (hsample today out h).right
  · exact ⟨hmetered.boundedIn.total_le, hmetered.boundedOut.total_le⟩
  · exact hmetered.exactIn
  · exact hmetered.exactOut
  · intro answer' hsame
    exact counted_congr (sampleOf_congr hsame)

end Runs

/-- A tunnel of agent 3 that has carried nothing yet. -/
def unbilled : State where
  db :=
    { teams := []
      users := []
      agents := [⟨3, "edge-3".toList, none, 1⟩]
      tunnels :=
        [{ id := 5
           agentId := 3
           name := "ssh".toList
           type := TunnelType.tcp
           remotePort := some 12022
           subdomain := none
           customDomains := none
           enabled := true
           healthCheckType := none
           bytesIn := 0
           bytesOut := 0
           lastTodayIn := 0
           lastTodayOut := 0 }] }
  gauges := fun _ _ => (⟨0, 0, [[]]⟩, ⟨0, 0, [[]]⟩)

theorem unbilled_start : Unbilled unbilled where
  rows := by
    intro t ht
    cases List.mem_singleton.mp ht
    exact ⟨rfl, rfl, rfl, rfl⟩
  gauges := by
    intro t _
    exact ⟨⟨Nat.le_refl 0, rfl⟩, Nat.le_refl 0, rfl⟩

/-- What the engine answers, next to a proxy of that name that is another agent's. -/
def answering (bytesIn bytesOut : Int) : Option (List StatsEntry) :=
  some [⟨some "agent.3".toList, some "t5".toList, some bytesIn, some bytesOut⟩,
    ⟨some "agent.4".toList, some "t5".toList, some 999, some 999⟩]

/-- A restart of the engine between two polls, before the second of them. -/
def restarted : List Action :=
  [Action.carry 3 5 100 40, Action.poll (answering 100 40), Action.restart 3 5,
    Action.carry 3 5 30 10]

theorem billed_of_restarted :
    exists s t, machine.exec unbilled restarted = some s ∧
      machine.step s (Action.poll (answering 30 10)) = some t ∧
      t.db.tunnels.map Tunnel.bytesIn = [130] ∧
      forall u, u ∈ t.db.tunnels ->
        exists v, v ∈ s.db.tunnels ∧ Billed s t (answering 30 10) v u :=
  ⟨_, _, rfl, rfl, rfl, billed_of_poll ⟨unbilled, restarted, unbilled_start, rfl⟩ rfl⟩

end Metering

end Api

end Panel
end RcTunnel
