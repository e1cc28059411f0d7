import RcTunnel.Foundation.Machine
import RcTunnel.Foundation.Window
import RcTunnel.Panel.Text

/-!
# Flapping agents

Many reconnects of one identity in a short window can mean that a stolen certificate is
used in parallel with the agent.  The control server notes each connect, and raises an
audit alert when there are too many, but not again during a cooldown.

The time of the last alert is a reading of the monotonic clock, and an agent without one
counts as alerted at reading zero.  The main result says what follows: alerts are raised
exactly when they are due, as long as the window is not crowded before the clock reads more
than the cooldown.  Times are nanoseconds.
-/

namespace RcTunnel
namespace Panel

open Foundation

namespace Flapping

/-- {lit}`_FLAP_WINDOW` -/
def flapWindow : Int := 120000000000

/-- {lit}`_FLAP_MAX` -/
def flapMax : Nat := 6

/-- {lit}`_FLAP_ALERT_COOLDOWN` -/
def flapAlertCooldown : Int := 600000000000

structure Flaps where
  /-- {lit}`_flap_hist` -/
  hist : Nat -> List Int
  /-- {lit}`_flap_last_alert` -/
  lastAlert : Nat -> Option Int

/-- The call of {lit}`logs.audit`, and the warning before it. -/
structure Audit where
  warning : Text
  actor : Text
  action : Text
  label : Text
  target : Text
  teamId : Option Nat
deriving DecidableEq, Repr

/-- {lit}`f"agent.{agent_id}"` -/
def identity (agentId : Nat) : Text := "agent.".toList ++ Nat.toDigits 10 agentId

def flappingAudit (agentId : Nat) (aname : Text) (teamId : Option Nat) (reconnects : Nat) :
    Audit where
  warning := "agent ".toList ++ Nat.toDigits 10 agentId ++ " is flapping: ".toList ++
    Nat.toDigits 10 reconnects ++ " reconnects in 120s (possible stolen cert)".toList
  actor := identity agentId
  action := "auth".toList
  label := "agent.flapping".toList
  target := if aname = [] then identity agentId else aname
  teamId := teamId

def noteConnect (flaps : Flaps) (agentId : Nat) (aname : Text) (teamId : Option Nat)
    (now : Int) : Flaps × Option Audit :=
  let h := recent flapWindow now (flaps.hist agentId ++ [now])
  let noted := { flaps with hist := Function.update flaps.hist agentId h }
  if flapMax < h.length ∧ flapAlertCooldown < now - (flaps.lastAlert agentId).getD 0 then
    ({ noted with lastAlert := Function.update flaps.lastAlert agentId (some now) },
      some (flappingAudit agentId aname teamId h.length))
  else
    (noted, none)

/-!
# The machine
-/

structure Connect where
  agentId : Nat
  aname : Text
  teamId : Option Nat
  now : Int
deriving DecidableEq, Repr

structure State where
  flaps : Flaps
  clock : Int
  /-- history: all connects of an agent, oldest first -/
  connects : Nat -> List Int
  /-- history: all alerts for an agent, oldest first -/
  alerts : Nat -> List (Int × Audit)

def note (c : Connect) (s : State) : Flaps × Option Audit :=
  noteConnect s.flaps c.agentId c.aname c.teamId c.now

def step (s : State) (c : Connect) : Option State :=
  if s.clock ≤ c.now then
    some {
      flaps := (note c s).1
      clock := c.now
      connects := Function.update s.connects c.agentId (s.connects c.agentId ++ [c.now])
      alerts := Function.update s.alerts c.agentId
        (s.alerts c.agentId ++ (note c s).2.toList.map fun audit => (c.now, audit)) }
  else
    none

/-- The process has just started, at any reading of the clock. -/
structure Started (s : State) : Prop where
  hist : forall id, s.flaps.hist id = []
  lastAlert : forall id, s.flaps.lastAlert id = none
  connects : forall id, s.connects id = []
  alerts : forall id, s.alerts id = []

def machine : Machine State Connect where
  init := Started
  step := step

/-!
# When an alert is due
-/

/-- More than the maximum of the agent's connects are in the window, this one included. -/
def Crowded (s : State) (c : Connect) : Prop :=
  flapMax < (recent flapWindow c.now (s.connects c.agentId ++ [c.now])).length

/-- And there was no alert for it during the cooldown. -/
def Due (s : State) (c : Connect) : Prop :=
  Crowded s c ∧ forall alert, alert ∈ s.alerts c.agentId -> flapAlertCooldown < c.now - alert.1

def Raised (s : State) (c : Connect) : Prop := (note c s).2.isSome = true

/-- An alert is raised exactly when it is due. -/
def AlertsWhenDue (s : State) (c : Connect) : Prop := Raised s c <-> Due s c

/-- The clock reads more than the cooldown when the window is crowded. -/
def Late (s : State) (c : Connect) : Prop := Crowded s c -> flapAlertCooldown < c.now

instance (s : State) (c : Connect) : Decidable (Crowded s c) :=
  inferInstanceAs (Decidable (_ < _))

instance (s : State) (c : Connect) : Decidable (Due s c) :=
  inferInstanceAs (Decidable (_ ∧ forall alert, alert ∈ s.alerts c.agentId -> _))

instance (s : State) (c : Connect) : Decidable (AlertsWhenDue s c) :=
  inferInstanceAs (Decidable ((note c s).2.isSome = true <-> Due s c))

instance (s : State) (c : Connect) : Decidable (Late s c) :=
  inferInstanceAs (Decidable (Crowded s c -> _))

/-!
# One connect
-/

section NoteConnect

variable (flaps : Flaps) (agentId : Nat) (aname : Text) (teamId : Option Nat) (now : Int)

theorem hist_noteConnect : (noteConnect flaps agentId aname teamId now).1.hist =
    Function.update flaps.hist agentId (recent flapWindow now (flaps.hist agentId ++ [now])) := by
  unfold noteConnect
  simp only
  split <;> rfl

theorem raised_noteConnect :
    (noteConnect flaps agentId aname teamId now).2.isSome = true <->
      flapMax < (recent flapWindow now (flaps.hist agentId ++ [now])).length ∧
        flapAlertCooldown < now - (flaps.lastAlert agentId).getD 0 := by
  unfold noteConnect
  simp only
  split
  · rename_i hraised
    exact ⟨fun _ => hraised, fun _ => rfl⟩
  · rename_i hnot
    exact ⟨fun h => absurd h Bool.false_ne_true, fun h => absurd h hnot⟩

/-- The time of an alert replaces that of the last one. -/
theorem lastAlert_noteConnect :
    ((noteConnect flaps agentId aname teamId now).2 = none ∧
        (noteConnect flaps agentId aname teamId now).1.lastAlert = flaps.lastAlert) ∨
      exists audit, (noteConnect flaps agentId aname teamId now).2 = some audit ∧
        (noteConnect flaps agentId aname teamId now).1.lastAlert =
          Function.update flaps.lastAlert agentId (some now) := by
  unfold noteConnect
  simp only
  split
  · exact Or.inr ⟨_, rfl, rfl⟩
  · exact Or.inl ⟨rfl, rfl⟩

/-- Nothing of another agent is looked at. -/
theorem noteConnect_congr {other : Flaps} (hhist : flaps.hist agentId = other.hist agentId)
    (hlast : flaps.lastAlert agentId = other.lastAlert agentId) :
    (noteConnect flaps agentId aname teamId now).2 =
      (noteConnect other agentId aname teamId now).2 := by
  unfold noteConnect
  rw [hhist, hlast]
  simp only
  split <;> rfl

end NoteConnect

/-!
# What the two tables represent
-/

/-- The table of connects has those that are recent, and the table of alerts has the last
one of each agent. -/
structure Represents (s : State) : Prop where
  hist : forall id, recent flapWindow s.clock (s.flaps.hist id) =
    recent flapWindow s.clock (s.connects id)
  last : forall id, s.flaps.lastAlert id = ((s.alerts id).map Prod.fst).getLast?
  sorted : forall id, ((s.alerts id).map Prod.fst).Pairwise (· ≤ ·)
  past : forall id alert, alert ∈ s.alerts id ->
    flapAlertCooldown < alert.1 ∧ alert.1 ≤ s.clock

theorem represents_of_started {s : State} (h : Started s) : Represents s := by
  constructor
  · intro id
    rw [h.hist, h.connects]
  · intro id
    rw [h.lastAlert, h.alerts]
    rfl
  · intro id
    rw [h.alerts]
    exact List.Pairwise.nil
  · intro id alert hmem
    rw [h.alerts] at hmem
    cases hmem

section Steps

variable {s t : State} {c : Connect}

theorem recent_hist (h : Represents s) (hle : s.clock ≤ c.now) :
    recent flapWindow c.now (s.flaps.hist c.agentId ++ [c.now]) =
      recent flapWindow c.now (s.connects c.agentId ++ [c.now]) := by
  rw [recent_append, recent_append, recent_congr (h.hist c.agentId) hle]

theorem raised_iff (h : Represents s) (hle : s.clock ≤ c.now) :
    Raised s c <->
      Crowded s c ∧ flapAlertCooldown < c.now - (s.flaps.lastAlert c.agentId).getD 0 := by
  unfold Raised note Crowded
  rw [raised_noteConnect, recent_hist h hle]

/-- Since the times of the alerts do not decrease, the last one decides. -/
theorem cooled_iff (h : Represents s) (now : Int) (id : Nat) :
    (forall alert, alert ∈ s.alerts id -> flapAlertCooldown < now - alert.1) <->
      forall last, s.flaps.lastAlert id = some last -> flapAlertCooldown < now - last := by
  constructor
  · intro hall last hlast
    rw [h.last] at hlast
    rcases List.mem_map.mp (List.mem_of_getLast? hlast) with ⟨alert, hmem, rfl⟩
    exact hall alert hmem
  · intro hall alert hmem
    have htime : alert.1 ∈ (s.alerts id).map Prod.fst := List.mem_map_of_mem hmem
    cases hlast : ((s.alerts id).map Prod.fst).getLast? with
    | none =>
        rw [List.getLast?_eq_none_iff.mp hlast] at htime
        cases htime
    | some last =>
        have hle : alert.1 ≤ last := le_last (h.sorted id) hlast htime
        have hcooled := hall last ((h.last id).trans hlast)
        omega

/-- The missing alert counts as one at reading zero, which makes a difference only before
the first one and while the clock reads no more than the cooldown. -/
theorem alertsWhenDue_iff_late (h : Represents s) (hle : s.clock ≤ c.now) :
    AlertsWhenDue s c <-> Late s c := by
  unfold AlertsWhenDue Due Late
  rw [raised_iff h hle, cooled_iff h]
  cases hlast : s.flaps.lastAlert c.agentId with
  | none => simp
  | some last =>
      rw [h.last] at hlast
      rcases List.mem_map.mp (List.mem_of_getLast? hlast) with ⟨alert, hmem, rfl⟩
      have hpast := h.past c.agentId alert hmem
      have hlate : flapAlertCooldown < c.now := by omega
      simp [hlate]

theorem step_clock (hstep : machine.step s c = some t) :
    s.clock ≤ c.now ∧ t.clock = c.now := by
  simp only [machine, step, Option.ite_none_right_eq_some, Option.some.injEq] at hstep
  rcases hstep with ⟨hle, rfl⟩
  exact ⟨hle, rfl⟩

theorem step_connects (hstep : machine.step s c = some t) :
    t.connects = Function.update s.connects c.agentId (s.connects c.agentId ++ [c.now]) ∧
      t.flaps.hist = Function.update s.flaps.hist c.agentId
        (recent flapWindow c.now (s.flaps.hist c.agentId ++ [c.now])) := by
  simp only [machine, step, Option.ite_none_right_eq_some, Option.some.injEq] at hstep
  rcases hstep with ⟨-, rfl⟩
  exact ⟨rfl, hist_noteConnect ..⟩

/-- Either no alert is raised and none is noted, or one is, with the time of the connect. -/
theorem step_alerts (hstep : machine.step s c = some t) :
    (¬ Raised s c ∧ t.flaps.lastAlert = s.flaps.lastAlert ∧ t.alerts = s.alerts) ∨
      Raised s c ∧ t.flaps.lastAlert = Function.update s.flaps.lastAlert c.agentId (some c.now) ∧
        exists audit, t.alerts =
          Function.update s.alerts c.agentId (s.alerts c.agentId ++ [(c.now, audit)]) := by
  simp only [machine, step, Option.ite_none_right_eq_some, Option.some.injEq] at hstep
  rcases hstep with ⟨-, rfl⟩
  unfold Raised note
  rcases lastAlert_noteConnect s.flaps c.agentId c.aname c.teamId c.now with
    ⟨hnone, hlast⟩ | ⟨audit, hsome, hlast⟩
  · left
    refine ⟨by simp [hnone], hlast, ?_⟩
    simp [hnone]
  · right
    refine ⟨by simp [hsome], hlast, audit, ?_⟩
    simp [hsome]

theorem represents_step (s : State) (c : Connect) (t : State) (h : Represents s)
    (hstep : machine.step s c = some t) : Represents t := by
  rcases step_clock hstep with ⟨hle, hclock⟩
  rcases step_connects hstep with ⟨hconnects, hhist⟩
  have hrecent : forall id, recent flapWindow t.clock (t.flaps.hist id) =
      recent flapWindow t.clock (t.connects id) := by
    intro id
    rw [hclock, hconnects, hhist]
    by_cases hid : id = c.agentId
    · subst hid
      rw [Function.update_self, Function.update_self, recent_recent (Int.le_refl _)]
      exact recent_hist h hle
    · rw [Function.update_of_ne hid, Function.update_of_ne hid]
      exact recent_congr (h.hist id) hle
  have hpast : forall id alert, alert ∈ s.alerts id ->
      flapAlertCooldown < alert.1 ∧ alert.1 ≤ t.clock := by
    intro id alert hmem
    have hbefore := h.past id alert hmem
    omega
  rcases step_alerts hstep with ⟨-, hlast, halerts⟩ | ⟨hraised, hlast, audit, halerts⟩
  · constructor
    · exact hrecent
    · rw [hlast, halerts]
      exact h.last
    · rw [halerts]
      exact h.sorted
    · rw [halerts]
      exact hpast
  · have hlate : flapAlertCooldown < c.now := by
      have hcooled := ((raised_iff h hle).mp hraised).right
      cases hbefore : s.flaps.lastAlert c.agentId with
      | none => simpa [hbefore] using hcooled
      | some last =>
          rw [h.last] at hbefore
          rcases List.mem_map.mp (List.mem_of_getLast? hbefore) with ⟨alert, hmem, -⟩
          have halert := hpast c.agentId alert hmem
          omega
    constructor
    · exact hrecent
    · intro id
      rw [hlast, halerts]
      by_cases hid : id = c.agentId
      · simp [hid]
      · simp [hid, h.last]
    · intro id
      rw [halerts]
      by_cases hid : id = c.agentId
      · rw [hid, Function.update_self, List.map_append]
        apply pairwise_concat (h.sorted c.agentId)
        intro time htime
        rcases List.mem_map.mp htime with ⟨alert, hmem, rfl⟩
        exact hclock ▸ (hpast c.agentId alert hmem).right
      · rw [Function.update_of_ne hid]
        exact h.sorted id
    · intro id alert hmem
      rw [halerts] at hmem
      by_cases hid : id = c.agentId
      · rw [hid, Function.update_self] at hmem
        rcases List.mem_append.mp hmem with hbefore | hnew
        · exact hpast c.agentId alert hbefore
        · rw [List.mem_singleton.mp hnew]
          exact ⟨hlate, Int.le_of_eq hclock.symm⟩
      · rw [Function.update_of_ne hid] at hmem
        exact hpast id alert hmem

end Steps

/-!
# Every run
-/

/-- The connects of an agent. -/
def ofAgent (id : Nat) (c : Connect) : Bool := c.agentId = id

/-- Two states that agree on an agent. -/
structure AgreeOn (id : Nat) (s u : State) : Prop where
  hist : s.flaps.hist id = u.flaps.hist id
  lastAlert : s.flaps.lastAlert id = u.flaps.lastAlert id
  alerts : s.alerts id = u.alerts id
  clock : u.clock ≤ s.clock

theorem agreeOn_of_connect {id : Nat} (s u : State) (c : Connect) (t : State)
    (h : AgreeOn id s u) (hkeep : ofAgent id c = true) (hstep : machine.step s c = some t) :
    exists v, machine.step u c = some v ∧ AgreeOn id t v := by
  have hid : c.agentId = id := by simpa [ofAgent] using hkeep
  have hle := (step_clock hstep).left
  have hu : u.clock ≤ c.now := Int.le_trans h.clock hle
  simp only [machine, step, Option.ite_none_right_eq_some, Option.some.injEq] at hstep
  rcases hstep with ⟨-, rfl⟩
  subst hid
  have hsame : (note c s).2 = (note c u).2 :=
    noteConnect_congr s.flaps c.agentId c.aname c.teamId c.now h.hist h.lastAlert
  refine ⟨_, if_pos hu, ?_⟩
  constructor
  · simp [note, hist_noteConnect, h.hist]
  · have hs := lastAlert_noteConnect s.flaps c.agentId c.aname c.teamId c.now
    have hu := lastAlert_noteConnect u.flaps c.agentId c.aname c.teamId c.now
    unfold note at hsame
    rcases hs with ⟨hs, hlast⟩ | ⟨audit, hs, hlast⟩
    · rcases hu with ⟨hu, hlast'⟩ | ⟨audit', hu, -⟩
      · simp [note, hlast, hlast', h.lastAlert]
      · rw [hs, hu] at hsame
        cases hsame
    · rcases hu with ⟨hu, -⟩ | ⟨audit', hu, hlast'⟩
      · rw [hs, hu] at hsame
        cases hsame
      · simp [note, hlast, hlast']
  · simp [hsame, h.alerts]
  · exact Int.le_refl _

theorem agreeOn_of_other {id : Nat} (s u : State) (c : Connect) (t : State)
    (h : AgreeOn id s u) (hleft : ofAgent id c = false) (hstep : machine.step s c = some t) :
    AgreeOn id t u := by
  have hid : id ≠ c.agentId := by
    intro heq
    simp [ofAgent, heq] at hleft
  rcases step_clock hstep with ⟨hle, hclock⟩
  rcases step_connects hstep with ⟨-, hhist⟩
  constructor
  · rw [hhist, Function.update_of_ne hid, h.hist]
  · rcases step_alerts hstep with ⟨-, hlast, -⟩ | ⟨-, hlast, -⟩
    · rw [hlast, h.lastAlert]
    · rw [hlast, Function.update_of_ne hid, h.lastAlert]
  · rcases step_alerts hstep with ⟨-, -, halerts⟩ | ⟨-, -, audit, halerts⟩
    · rw [halerts, h.alerts]
    · rw [halerts, Function.update_of_ne hid, h.alerts]
  · have hclock' := h.clock
    omega

/-- The alerts of an agent are those of a run of its connects alone. -/
def Independent (s t : State) (connects : List Connect) : Prop :=
  forall id, exists u, machine.exec s (connects.filter (ofAgent id)) = some u ∧
    t.alerts id = u.alerts id

theorem independent_of_exec {s t : State} {connects : List Connect}
    (hexec : machine.exec s connects = some t) : Independent s t connects := by
  intro id
  rcases machine.exec_filter agreeOn_of_connect agreeOn_of_other
    ⟨rfl, rfl, rfl, Int.le_refl s.clock⟩ hexec with ⟨u, hu, hagree⟩
  exact ⟨u, hu, hagree.alerts⟩

/--
On every run, for any agents and from any reading of the clock, an alert is raised at each
connect exactly when it is due, and no agent changes the alerts of another, if and only if
the clock reads more than the cooldown at every connect that finds the window crowded.
-/
theorem alerts_iff_late {s t : State} {connects : List Connect} (hs : Started s)
    (hexec : machine.exec s connects = some t) :
    machine.Obeys AlertsWhenDue s connects ∧ Independent s t connects <->
      machine.Obeys Late s connects := by
  have hiff : machine.Obeys AlertsWhenDue s connects <-> machine.Obeys Late s connects :=
    Machine.obeys_iff_obeys (fun s c t h _ => represents_step s c t h)
      (fun s c t h hstep => alertsWhenDue_iff_late h (step_clock hstep).left)
      (represents_of_started hs) hexec
  rw [hiff]
  exact ⟨And.left, fun hlate => ⟨hlate, independent_of_exec hexec⟩⟩

def seconds (n : Nat) : Int := n * 1000000000

def start : State where
  flaps := ⟨fun _ => [], fun _ => none⟩
  clock := 0
  connects _ := []
  alerts _ := []

theorem start_started : Started start := ⟨fun _ => rfl, fun _ => rfl, fun _ => rfl, fun _ => rfl⟩

/-- An agent connects once a second, and another one once. -/
def burst (first : Nat) : List Connect :=
  ⟨2, [], none, seconds first⟩ ::
    (List.range 8).map fun i => ⟨1, "edge".toList, some 3, seconds (first + i)⟩

/-- An hour after the host was started, the seventh connect raises the one alert. -/
theorem alerts_of_burst :
    machine.Obeys AlertsWhenDue start (burst 3600) ∧
      (machine.exec start (burst 3600)).map (fun t => t.alerts 1) =
        some [(seconds 3606, flappingAudit 1 "edge".toList (some 3) 7)] := by
  cases hexec : machine.exec start (burst 3600) with
  | none => exact absurd hexec (by decide +kernel)
  | some t =>
      constructor
      · have hlate : machine.Obeys Late start (burst 3600) := by decide +kernel
        exact ((alerts_iff_late start_started hexec).mpr hlate).left
      · rw [← hexec]
        decide +kernel

/-- A minute after it was started, none is raised, though it is due. -/
theorem silent_of_burst :
    (machine.exec start (burst 60)).map (fun t => t.alerts 1) = some [] ∧
      ¬ machine.Obeys AlertsWhenDue start (burst 60) := by
  decide +kernel

end Flapping

end Panel
end RcTunnel
