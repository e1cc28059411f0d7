import Mathlib.Data.List.Basic
import RcTunnel.Foundation.Signals

/-!
# Uptime from connects and disconnects

A control session logs a connect when it starts and a disconnect when it ends, and the
panel reads the times an agent was online off these events.  It remembers only whether the
agent is online, so the end of one session ends the others with it.

The main result says when the intervals are the times of the sessions: when no session ends
while another goes on, none goes on at the start of a window that begins with a connect, and
none that ends as it starts is recorded as one that goes on.
-/

namespace RcTunnel
namespace Panel

open Foundation

namespace Uptime

inductive Event where
  | connect
  | disconnect
deriving DecidableEq, Repr

section Intervals

variable {Time : Type u} [LinearOrder Time]

/-- The first loop of {lit}`_online_intervals`, on one event. -/
def observe (state : List (Time × Time) × Option Time) :
    Time × Event -> List (Time × Time) × Option Time
  | (ts, Event.connect) =>
      match state.2 with
      | none => (state.1, some ts)
      | some _ => state
  | (ts, Event.disconnect) =>
      match state.2 with
      | none => state
      | some start => (state.1 ++ [(start, ts)], none)

/-- The interval that is still open. -/
def close (now : Time) (state : List (Time × Time) × Option Time) : List (Time × Time) :=
  match state.2 with
  | none => state.1
  | some start => state.1 ++ [(start, now)]

/-- The agent was online when the window began. -/
def incoming (windowStart : Time) (events : List (Time × Event)) : Option Time :=
  if events.head?.map Prod.snd = some Event.disconnect then some windowStart else none

/-- {lit}`_online_intervals`; what it is told of the agent's status it does not use. -/
def onlineIntervals (events : List (Time × Event)) (windowStart now : Time)
    (_onlineNow : Bool) : List (Time × Time) :=
  let intervals := close now (events.foldl observe ([], incoming windowStart events))
  (intervals.map fun i => (max i.1 windowStart, min i.2 now)).filter fun i => i.1 < i.2

/-!
# Sessions
-/

variable (Time) in
/-- A control session, which may be open. -/
structure Session where
  start : Time
  stop : Option Time
  ordered : forall e, e ∈ stop -> start ≤ e

def Session.Live (s : Session Time) (t : Time) : Prop :=
  s.start ≤ t ∧ forall e, e ∈ s.stop -> t < e

instance (s : Session Time) (t : Time) : Decidable (s.Live t) :=
  inferInstanceAs (Decidable (_ ∧ _))

/-- What a session logs. -/
def Session.events (s : Session Time) : List (Time × Event) :=
  (s.start, Event.connect) :: s.stop.toList.map fun e => (e, Event.disconnect)

/-- The events of the window in the order of their times, of which there are some. -/
structure Recorded (sessions : List (Session Time)) (windowStart now : Time)
    (events : List (Time × Event)) : Prop where
  perm : events.Perm ((sessions.flatMap Session.events).filter fun e =>
    windowStart ≤ e.1 ∧ e.1 ≤ now)
  sorted : events.Pairwise fun a b => a.1 ≤ b.1
  nonempty : events ≠ []

/-- The intervals are the times of the window at which a session is live. -/
structure Reconstructs (sessions : List (Session Time)) (windowStart now : Time)
    (intervals : List (Time × Time)) : Prop where
  consecutive : Consecutive intervals
  inside : forall i, i ∈ intervals -> windowStart ≤ i.1 ∧ i.2 ≤ now
  union : forall t, t ∈ covered intervals <->
    t ∈ Set.Ico windowStart now ∧ exists s, s ∈ sessions ∧ s.Live t

/-- The last event up to a time. -/
def lastEvent (events : List (Time × Event)) (t : Time) : Option Event :=
  (events.filter fun e => e.1 ≤ t).getLast?.map Prod.snd

/-- No session goes on where the events have the agent offline, and none that ends as it
starts has it online alone. -/
structure Unoverlapped (sessions : List (Session Time)) (windowStart now : Time)
    (events : List (Time × Event)) : Prop where
  ends : forall s, s ∈ sessions -> forall e, e ∈ s.stop -> windowStart ≤ e -> e < now ->
    lastEvent events e = some Event.disconnect -> forall other, other ∈ sessions -> ¬ other.Live e
  start : forall first, first ∈ events.head? -> first.2 = Event.connect ->
    windowStart < first.1 -> forall s, s ∈ sessions -> ¬ s.Live windowStart
  passes : forall s, s ∈ sessions -> s.stop = some s.start -> windowStart ≤ s.start ->
    s.start < now -> lastEvent events s.start = some Event.connect ->
      exists other, other ∈ sessions ∧ other.Live s.start
  passed : forall s, s ∈ sessions -> s.stop = some s.start -> windowStart < s.start ->
    events.head? = some (s.start, Event.disconnect) ->
      exists other, other ∈ sessions ∧ other.Live windowStart

/-!
# The events as a signal
-/

def switch (e : Time × Event) : Time × Bool := (e.1, e.2 = Event.connect)

omit [LinearOrder Time] in
theorem close_foldl (now : Time) (events : List (Time × Event))
    (state : List (Time × Time) × Option Time) :
    close now (events.foldl observe state) =
      state.1 ++ spans now state.2 (events.map switch) := by
  induction events generalizing state with
  | nil =>
      rcases state with ⟨intervals, opened⟩
      cases opened with
      | none => simp [close, spans]
      | some start => simp [close, spans]
  | cons e rest ih =>
      rcases state with ⟨intervals, opened⟩
      rcases e with ⟨ts, event⟩
      rw [List.foldl_cons, ih]
      cases event with
      | connect =>
          cases opened with
          | none => rfl
          | some start => rfl
      | disconnect =>
          cases opened with
          | none => rfl
          | some start => simp [observe, switch, spans]

variable {sessions : List (Session Time)} {windowStart now : Time}
variable {events : List (Time × Event)}

theorem Recorded.bounds (h : Recorded sessions windowStart now events) {e : Time × Event}
    (he : e ∈ events) : windowStart ≤ e.1 ∧ e.1 ≤ now :=
  of_decide_eq_true (List.mem_filter.mp (h.perm.mem_iff.mp he)).right

theorem Recorded.within (h : Recorded sessions windowStart now events) :
    Within windowStart now (events.map switch) := by
  constructor
  · exact List.pairwise_map.mpr h.sorted
  · intro a ha
    rcases List.mem_map.mp ha with ⟨e, he, rfl⟩
    exact (h.bounds he).left
  · intro a ha
    rcases List.mem_map.mp ha with ⟨e, he, rfl⟩
    exact (h.bounds he).right
  · rcases List.exists_mem_of_ne_nil events h.nonempty with ⟨e, he⟩
    exact (h.bounds he).left.trans (h.bounds he).right

omit [LinearOrder Time] in
theorem incoming_getD (windowStart : Time) (events : List (Time × Event)) :
    (incoming windowStart events).getD windowStart = windowStart := by
  unfold incoming
  split <;> rfl

theorem Recorded.within_incoming (h : Recorded sessions windowStart now events) :
    Within ((incoming windowStart events).getD windowStart) now (events.map switch) := by
  rw [incoming_getD]
  exact h.within

/-- The clipping leaves the spans as they are. -/
theorem onlineIntervals_eq (h : Recorded sessions windowStart now events) (onlineNow : Bool) :
    onlineIntervals events windowStart now onlineNow =
      (spans now (incoming windowStart events) (events.map switch)).filter fun i => i.1 < i.2 := by
  have hopened := incoming_getD windowStart events
  have hclipped : (spans now (incoming windowStart events) (events.map switch)).map
      (fun i => (max i.1 windowStart, min i.2 now)) =
        spans now (incoming windowStart events) (events.map switch) := by
    refine (List.map_congr_left fun i hi => ?_).trans (List.map_id _)
    rcases spans_bounds windowStart _ hopened.ge h.within_incoming i hi with ⟨hlow, -, hhigh⟩
    rw [max_eq_left hlow, min_eq_left hhigh]
    rfl
  unfold onlineIntervals
  simp only [close_foldl, List.nil_append, hclipped]

/-!
# Events and sessions
-/

theorem Recorded.connect (h : Recorded sessions windowStart now events) {t : Time} :
    (t, Event.connect) ∈ events <->
      (exists s, s ∈ sessions ∧ s.start = t) ∧ windowStart ≤ t ∧ t ≤ now := by
  rw [h.perm.mem_iff, List.mem_filter, List.mem_flatMap, decide_eq_true_eq]
  apply and_congr_left
  intro _
  simp [Session.events, eq_comm]

theorem Recorded.disconnect (h : Recorded sessions windowStart now events) {t : Time} :
    (t, Event.disconnect) ∈ events <->
      (exists s, s ∈ sessions ∧ t ∈ s.stop) ∧ windowStart ≤ t ∧ t ≤ now := by
  rw [h.perm.mem_iff, List.mem_filter, List.mem_flatMap, decide_eq_true_eq]
  apply and_congr_left
  intro _
  simp [Session.events]

/-- What the last event up to a time is the last of. -/
theorem lastEvent_cases (hsorted : events.Pairwise fun a b => a.1 ≤ b.1) (t : Time) :
    (lastEvent events t = none ∧ forall e, e ∈ events -> t < e.1) ∨
      exists last, last ∈ events ∧ last.1 ≤ t ∧ (forall e, e ∈ events -> e.1 ≤ t -> e.1 ≤ last.1) ∧
        lastEvent events t = some last.2 ∧ lastEvent events last.1 = some last.2 := by
  have hkept : (events.filter fun e => e.1 ≤ t).Pairwise fun a b => a.1 ≤ b.1 :=
    hsorted.filter _
  cases hlast : (events.filter fun e => e.1 ≤ t).getLast? with
  | none =>
      refine Or.inl ⟨by rw [lastEvent, hlast]; rfl, fun e he => ?_⟩
      rw [List.getLast?_eq_none_iff, List.filter_eq_nil_iff] at hlast
      simpa using hlast e he
  | some last =>
      have hmem := List.mem_filter.mp (List.mem_of_getLast? hlast)
      have hle : last.1 ≤ t := of_decide_eq_true hmem.right
      have hbound : forall e, e ∈ events -> e.1 ≤ t -> e.1 ≤ last.1 := by
        intro e he het
        have hfilter : e ∈ events.filter fun e => e.1 ≤ t :=
          List.mem_filter.mpr ⟨he, decide_eq_true het⟩
        rw [← List.dropLast_append_getLast? last hlast] at hfilter hkept
        rcases List.mem_append.mp hfilter with hfront | hend
        · exact (List.pairwise_append.mp hkept).right.right e hfront last (List.mem_singleton_self _)
        · rw [List.mem_singleton.mp hend]
      have hsame : (events.filter fun e => e.1 ≤ last.1) = events.filter fun e => e.1 ≤ t := by
        apply List.filter_congr
        intro e he
        rw [decide_eq_decide]
        exact ⟨fun h => h.trans hle, hbound e he⟩
      refine Or.inr ⟨last, hmem.left, hle, hbound, ?_, ?_⟩
      · rw [lastEvent, hlast]
        rfl
      · rw [lastEvent, hsame, hlast]
        rfl

theorem level_switches (hsorted : events.Pairwise fun a b => a.1 ≤ b.1) (on : Bool) (t : Time) :
    level on (events.map switch) t =
      ((lastEvent events t).map fun e => decide (e = Event.connect)).getD on := by
  have hfilter : ((events.map switch).filter fun a => a.1 ≤ t) =
      (events.filter fun e => e.1 ≤ t).map switch := List.filter_map
  rw [level_eq_last (List.pairwise_map.mpr hsorted), hfilter, List.getLast?_map, lastEvent,
    Option.map_map, Option.map_map]
  rfl

/-- The times at which the events have the agent online. -/
theorem covered_onlineIntervals (h : Recorded sessions windowStart now events)
    (onlineNow : Bool) (t : Time) :
    t ∈ covered (onlineIntervals events windowStart now onlineNow) <->
      t ∈ Set.Ico windowStart now ∧
        ((lastEvent events t).map fun e => decide (e = Event.connect)).getD
          (incoming windowStart events).isSome = true := by
  rw [onlineIntervals_eq h, covered_filter, mem_covered_spans windowStart _ h.within_incoming,
    level_switches h.sorted]
  by_cases hhead : events.head?.map Prod.snd = some Event.disconnect
  · have hsome : incoming windowStart events = some windowStart := if_pos hhead
    rw [hsome]
    simp only [Option.some.injEq, forall_eq', Set.mem_Ico]
    tauto
  · have hnone : incoming windowStart events = none := if_neg hhead
    rw [hnone]
    simp only [reduceCtorEq, false_implies, implies_true, true_and, Set.mem_Ico, and_assoc]
    constructor
    · rintro ⟨hnow, hon⟩
      refine ⟨?_, hnow, hon⟩
      rcases lastEvent_cases h.sorted t with ⟨hlast, -⟩ | ⟨last, hmem, hle, -⟩
      · rw [hlast] at hon
        cases hon
      · exact (h.bounds hmem).left.trans hle
    · rintro ⟨-, hnow, hon⟩
      exact ⟨hnow, hon⟩

/-!
# When the intervals are right
-/

/-- A session goes on until it logs that it ends. -/
theorem live_of_earlier (h : Recorded sessions windowStart now events) {s : Session Time}
    (hs : s ∈ sessions) {before t : Time} (hlive : s.Live before) (hlow : windowStart ≤ before)
    (hle : before ≤ t) (hhigh : t ≤ now)
    (hquiet : forall e, e ∈ events -> e.1 ≤ t -> e.1 ≤ before) : s.Live t := by
  constructor
  · exact hlive.left.trans hle
  · intro e he
    by_contra hended
    rw [not_lt] at hended
    have hordered := hlive.right e he
    have hevent : (e, Event.disconnect) ∈ events :=
      h.disconnect.mpr ⟨⟨s, hs, he⟩, hlow.trans hordered.le, hended.trans hhigh⟩
    exact not_lt.mpr (hquiet _ hevent hended) hordered

section Unoverlapped

variable (h : Recorded sessions windowStart now events)
include h

/-- After a connect some session is live. -/
theorem Unoverlapped.online (hcond : Unoverlapped sessions windowStart now events) {t : Time}
    (ht : t ∈ Set.Ico windowStart now) (hlast : lastEvent events t = some Event.connect) :
    exists s, s ∈ sessions ∧ s.Live t := by
  rcases lastEvent_cases h.sorted t with ⟨hnone, -⟩ | ⟨last, hmem, hle, hbound, heq, hthen⟩
  · rw [hnone] at hlast
    cases hlast
  · rcases last with ⟨ts, event⟩
    rw [heq] at hlast
    cases hlast
    rcases h.connect.mp hmem with ⟨⟨s, hs, rfl⟩, hlow, -⟩
    have hbegan : exists s', s' ∈ sessions ∧ s'.Live s.start := by
      by_cases hpasses : s.stop = some s.start
      · exact hcond.passes s hs hpasses hlow (lt_of_le_of_lt hle ht.right) hthen
      · refine ⟨s, hs, le_refl _, fun e he => lt_of_le_of_ne (s.ordered e he) ?_⟩
        rintro rfl
        exact hpasses he
    rcases hbegan with ⟨s', hs', hlive⟩
    exact ⟨s', hs', live_of_earlier h hs' hlive hlow hle ht.right.le hbound⟩

/-- Before a first disconnect some session is live. -/
theorem Unoverlapped.seen (hcond : Unoverlapped sessions windowStart now events) {t : Time}
    (ht : t ∈ Set.Ico windowStart now) (hlater : forall e, e ∈ events -> t < e.1)
    (hhead : events.head?.map Prod.snd = some Event.disconnect) :
    exists s, s ∈ sessions ∧ s.Live t := by
  rcases Option.map_eq_some_iff.mp hhead with ⟨⟨ts, event⟩, hfirst, rfl⟩
  have hmem := List.mem_of_head? hfirst
  have hts : windowStart < ts := lt_of_le_of_lt ht.left (hlater _ hmem)
  rcases h.disconnect.mp hmem with ⟨⟨s, hs, hstop⟩, -, hhigh⟩
  have hbegan : exists s', s' ∈ sessions ∧ s'.Live windowStart := by
    by_cases hpassed : s.start = ts
    · subst hpassed
      exact hcond.passed s hs hstop hts hfirst
    · have hordered := lt_of_le_of_ne (s.ordered ts hstop) hpassed
      have hbefore : s.start < windowStart := by
        by_contra hinside
        rw [not_lt] at hinside
        have hevent : (s.start, Event.connect) ∈ events :=
          h.connect.mpr ⟨⟨s, hs, rfl⟩, hinside, hordered.le.trans hhigh⟩
        rcases List.head?_eq_some_iff.mp hfirst with ⟨rest, rfl⟩
        rcases List.mem_cons.mp hevent with heq | htail
        · cases heq
        · exact not_lt.mpr ((List.pairwise_cons.mp h.sorted).left _ htail) hordered
      refine ⟨s, hs, hbefore.le, fun e he => ?_⟩
      rw [Option.mem_def.mp hstop, Option.mem_some_iff] at he
      exact he ▸ hts
  rcases hbegan with ⟨s', hs', hlive⟩
  have hquiet : forall e, e ∈ events -> e.1 ≤ t -> e.1 ≤ windowStart :=
    fun e he hle => absurd hle (not_le.mpr (hlater e he))
  exact ⟨s', hs', live_of_earlier h hs' hlive (le_refl _) ht.left ht.right.le hquiet⟩

/-- After a disconnect no session is live. -/
theorem Unoverlapped.offline (hcond : Unoverlapped sessions windowStart now events) {t : Time}
    (ht : t ∈ Set.Ico windowStart now) (hlast : lastEvent events t = some Event.disconnect) :
    forall s, s ∈ sessions -> ¬ s.Live t := by
  intro s hs hlive
  rcases lastEvent_cases h.sorted t with ⟨hnone, -⟩ | ⟨last, hmem, hle, hbound, heq, hthen⟩
  · rw [hnone] at hlast
    cases hlast
  · rcases last with ⟨ts, event⟩
    rw [heq] at hlast
    cases hlast
    rcases h.disconnect.mp hmem with ⟨⟨s', hs', hstop⟩, hlow, -⟩
    have hnot := hcond.ends s' hs' ts hstop hlow (lt_of_le_of_lt hle ht.right) hthen s hs
    by_cases hstarted : s.start ≤ ts
    · exact hnot ⟨hstarted, fun e he => lt_of_le_of_lt hle (hlive.right e he)⟩
    · rw [not_le] at hstarted
      have hevent : (s.start, Event.connect) ∈ events :=
        h.connect.mpr ⟨⟨s, hs, rfl⟩, hlow.trans hstarted.le, hlive.left.trans ht.right.le⟩
      exact not_lt.mpr (hbound _ hevent hlive.left) hstarted

/-- Before a first connect no session is live. -/
theorem Unoverlapped.unseen (hcond : Unoverlapped sessions windowStart now events) {t : Time}
    (ht : t ∈ Set.Ico windowStart now) (hlater : forall e, e ∈ events -> t < e.1)
    (hhead : events.head?.map Prod.snd ≠ some Event.disconnect) :
    forall s, s ∈ sessions -> ¬ s.Live t := by
  intro s hs hlive
  rcases List.exists_cons_of_ne_nil h.nonempty with ⟨⟨ts, event⟩, rest, rfl⟩
  have hfirst := hlater (ts, event) List.mem_cons_self
  have hconnect : event = Event.connect := by
    cases event with
    | connect => rfl
    | disconnect => exact absurd rfl hhead
  have hnot := hcond.start (ts, event) rfl hconnect (lt_of_le_of_lt ht.left hfirst) s hs
  by_cases hinside : windowStart ≤ s.start
  · have hevent : (s.start, Event.connect) ∈ (ts, event) :: rest :=
      h.connect.mpr ⟨⟨s, hs, rfl⟩, hinside, hlive.left.trans ht.right.le⟩
    exact not_lt.mpr hlive.left (hlater _ hevent)
  · rw [not_le] at hinside
    exact hnot ⟨hinside.le, fun e he => lt_of_le_of_lt ht.left (hlive.right e he)⟩

end Unoverlapped

/-- No event up to a time. -/
theorem lastEvent_eq_none (h : Recorded sessions windowStart now events) {t : Time} :
    lastEvent events t = none <-> forall e, e ∈ events -> t < e.1 := by
  constructor
  · intro hnone
    rcases lastEvent_cases h.sorted t with ⟨-, hlater⟩ | ⟨last, -, -, -, heq, -⟩
    · exact hlater
    · rw [hnone] at heq
      cases heq
  · intro hlater
    rcases lastEvent_cases h.sorted t with ⟨hnone, -⟩ | ⟨last, hmem, hle, -⟩
    · exact hnone
    · exact absurd hle (not_le.mpr (hlater last hmem))

/-- No event is at the start of a window whose first event is later. -/
theorem lastEvent_of_head (h : Recorded sessions windowStart now events) {first : Time × Event}
    (hfirst : events.head? = some first) (hlt : windowStart < first.1) :
    lastEvent events windowStart = none := by
  rw [lastEvent_eq_none h]
  rcases List.head?_eq_some_iff.mp hfirst with ⟨rest, rfl⟩
  intro e he
  rcases List.mem_cons.mp he with rfl | he
  · exact hlt
  · exact hlt.trans_le ((List.pairwise_cons.mp h.sorted).left e he)

/-- Where no session ends beside another, the events have the agent online exactly when a
session is live. -/
theorem Unoverlapped.online_iff (hcond : Unoverlapped sessions windowStart now events)
    (h : Recorded sessions windowStart now events) {t : Time} (ht : t ∈ Set.Ico windowStart now) :
    ((lastEvent events t).map fun e => decide (e = Event.connect)).getD
        (incoming windowStart events).isSome = true <->
      exists s, s ∈ sessions ∧ s.Live t := by
  cases hlast : lastEvent events t with
  | none =>
      have hlater := (lastEvent_eq_none h).mp hlast
      by_cases hhead : events.head?.map Prod.snd = some Event.disconnect
      · have hsome : incoming windowStart events = some windowStart := if_pos hhead
        rw [hsome]
        exact iff_of_true rfl (hcond.seen h ht hlater hhead)
      · have hnone : incoming windowStart events = none := if_neg hhead
        rw [hnone]
        apply iff_of_false
        · exact Bool.false_ne_true
        · rintro ⟨s, hs, hlive⟩
          exact hcond.unseen h ht hlater hhead s hs hlive
  | some event =>
      cases event with
      | connect => exact iff_of_true rfl (hcond.online h ht hlast)
      | disconnect =>
          apply iff_of_false
          · exact Bool.false_ne_true
          · rintro ⟨s, hs, hlive⟩
            exact hcond.offline h ht hlast s hs hlive

/-- Intervals that are right have the agent online where a session is live. -/
theorem unoverlapped_of_reconstructs (h : Recorded sessions windowStart now events)
    {onlineNow : Bool} (hright : Reconstructs sessions windowStart now
      (onlineIntervals events windowStart now onlineNow)) :
    Unoverlapped sessions windowStart now events := by
  have honline : forall t, t ∈ Set.Ico windowStart now ->
      (((lastEvent events t).map fun e => decide (e = Event.connect)).getD
          (incoming windowStart events).isSome = true <->
        exists s, s ∈ sessions ∧ s.Live t) := by
    intro t ht
    have hcovered := (covered_onlineIntervals h onlineNow t).symm.trans (hright.union t)
    exact and_congr_right_iff.mp hcovered ht
  constructor
  · intro s hs e he hlow hhigh hlast other hother hlive
    have hon := (honline e ⟨hlow, hhigh⟩).mpr ⟨other, hother, hlive⟩
    rw [hlast] at hon
    cases hon
  · intro first hfirst hconnect hlt s hs hlive
    have hmem := List.mem_of_head? hfirst
    have hon := (honline windowStart ⟨le_refl _, hlt.trans_le (h.bounds hmem).right⟩).mpr
      ⟨s, hs, hlive⟩
    have hclosed : incoming windowStart events = none := by
      apply if_neg
      rw [Option.mem_def.mp hfirst, Option.map_some, hconnect]
      exact nofun
    rw [lastEvent_of_head h hfirst hlt, hclosed] at hon
    cases hon
  · intro s hs hpasses hlow hhigh hlast
    apply (honline s.start ⟨hlow, hhigh⟩).mp
    rw [hlast]
    rfl
  · intro s hs hpassed hlt hfirst
    have hmem := List.mem_of_head? hfirst
    apply (honline windowStart ⟨le_refl _, hlt.trans_le (h.bounds hmem).right⟩).mp
    have hopen : incoming windowStart events = some windowStart := by
      apply if_pos
      rw [hfirst, Option.map_some]
    rw [lastEvent_of_head h hfirst hlt, hopen]
    rfl

/--
The intervals are in order, inside the window, and the times at which a session is live,
exactly when no session ends beside another that goes on, none goes on at the start of a
window that begins with a connect, and none that ends as it starts stands alone.
-/
theorem reconstructs_iff (h : Recorded sessions windowStart now events) (onlineNow : Bool) :
    Reconstructs sessions windowStart now
        (onlineIntervals events windowStart now onlineNow) <->
      Unoverlapped sessions windowStart now events := by
  constructor
  · exact unoverlapped_of_reconstructs h
  · intro hcond
    constructor
    · rw [onlineIntervals_eq h]
      exact consecutive_filter (spans_apart windowStart _ h.within_incoming)
    · intro i hi
      rw [onlineIntervals_eq h] at hi
      rcases spans_bounds windowStart _ (incoming_getD windowStart events).ge h.within_incoming i
        (List.mem_filter.mp hi).left with ⟨hlow, -, hhigh⟩
      exact ⟨hlow, hhigh⟩
    · intro t
      rw [covered_onlineIntervals h]
      exact and_congr_right fun ht => hcond.online_iff h ht

end Intervals

/-!
# Two reconnects

An agent that was online before the window comes back after its first session has ended,
and one that comes back before.
-/

def earlier : Session Nat := ⟨1, some 5, by simp⟩

def later : Session Nat := ⟨7, none, by simp⟩

theorem reconstructs_of_gap :
    Reconstructs [earlier, later] 3 10
      (onlineIntervals [(5, Event.disconnect), (7, Event.connect)] 3 10 true) := by
  have hrecorded : Recorded [earlier, later] 3 10
      [(5, Event.disconnect), (7, Event.connect)] :=
    ⟨by decide, by decide, by decide⟩
  apply (reconstructs_iff hrecorded true).mpr
  constructor
  · decide
  · decide
  · decide
  · decide

def overlapping : Session Nat := ⟨3, none, by simp⟩

/-- The end of the old session ends the new one with it. -/
theorem offline_of_reconnect :
    Recorded [earlier, overlapping] 0 10
        [(1, Event.connect), (3, Event.connect), (5, Event.disconnect)] ∧
      onlineIntervals [(1, Event.connect), (3, Event.connect), (5, Event.disconnect)] 0 10 true =
        [(1, 5)] ∧
      ¬ Reconstructs [earlier, overlapping] 0 10
        (onlineIntervals [(1, Event.connect), (3, Event.connect), (5, Event.disconnect)] 0 10
          true) := by
  refine ⟨⟨by decide, by decide, by decide⟩, by decide, fun hright => ?_⟩
  have hlive : 7 ∈ covered (onlineIntervals
      [(1, Event.connect), (3, Event.connect), (5, Event.disconnect)] 0 10 true) :=
    (hright.union 7).mpr ⟨⟨by decide, by decide⟩, overlapping, by simp, by decide⟩
  rcases hlive with ⟨i, hi, ht⟩
  have hout : onlineIntervals
      [(1, Event.connect), (3, Event.connect), (5, Event.disconnect)] 0 10 true = [(1, 5)] := by
    decide
  rw [hout, List.mem_singleton] at hi
  rw [hi] at ht
  exact absurd ht.right (by decide)

end Uptime

end Panel
end RcTunnel
