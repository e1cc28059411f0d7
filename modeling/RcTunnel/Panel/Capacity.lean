import RcTunnel.Engine.Proto
import RcTunnel.Foundation.Separated
import RcTunnel.Foundation.Table
import RcTunnel.Panel.Throttle

/-!
# The throttle while its table is full

The table of the throttle has a bounded number of IPs.  When it is full, a failure of an
IP that is not in it is not recorded, which is what its comment says; but neither is a
failure of an IP that is in it.

Next to the table the state has all failures that were reported since the last clear.  The
main result says when the table agrees with them about an IP: as long as none of its
failures is reported while it has a live one and the table is full of live ones.
-/

namespace RcTunnel
namespace Panel

open Foundation

namespace Ratelimit
namespace Capacity

/-- A failure that was reported. -/
structure Report where
  time : Int
  /-- its IP had no live failure in the table, and there was no room -/
  turnedAway : Bool
deriving DecidableEq, Repr

structure State where
  fails : Fails
  clock : Int
  /-- history: the failures reported since the last clear, oldest first -/
  reports : Text -> List Report

inductive Action where
  | tooMany (ip : Option Text) (now : Int)
  | recordFail (ip : Option Text) (now : Int)
  | clear (ip : Option Text)
deriving DecidableEq, Repr

/-- As many IPs as the table holds have live failures. -/
def Full (fails : Fails) (now : Int) : Prop := maxIps ≤ (sweepLocked fails now).keys.length

instance (fails : Fails) (now : Int) : Decidable (Full fails now) :=
  inferInstanceAs (Decidable (_ ≤ _))

/-- The IP has a live failure in the table. -/
def Live (fails : Fails) (ip : Text) (now : Int) : Prop := recent window now (fails.of ip) ≠ []

instance (fails : Fails) (ip : Text) (now : Int) : Decidable (Live fails ip now) :=
  inferInstanceAs (Decidable (_ ≠ _))

/-- The history after a report. -/
def note (s : State) (ip : Option Text) (now : Int) : Text -> List Report :=
  match tracked ip with
  | none => s.reports
  | some ip =>
      Function.update s.reports ip (s.reports ip ++
        [⟨now, decide (¬ Live s.fails ip now ∧ Full s.fails now)⟩])

/-- The history after a clear. -/
def forget (s : State) (ip : Option Text) : Text -> List Report :=
  match tracked ip with
  | none => s.reports
  | some ip => Function.update s.reports ip []

def step (s : State) : Action -> Option State
  | Action.tooMany ip now =>
      if s.clock ≤ now then
        some { s with fails := (tooMany s.fails ip now).2, clock := now }
      else
        none
  | Action.recordFail ip now =>
      if s.clock ≤ now then
        some { fails := recordFail s.fails ip now, clock := now, reports := note s ip now }
      else
        none
  | Action.clear ip => some { s with fails := clear s.fails ip, reports := forget s ip }

structure Started (s : State) : Prop where
  fails : s.fails = ∅
  reports : forall ip, s.reports ip = []

def machine : Machine State Action where
  init := Started
  step := step

def State.reported (s : State) (ip : Text) : List Int := (s.reports ip).map Report.time

/-- The failures that were turned away. -/
def State.strangers (s : State) (ip : Text) : List Int :=
  ((s.reports ip).filter Report.turnedAway).map Report.time

/-- The failures that were not turned away. -/
def State.due (s : State) (ip : Text) : List Int :=
  ((s.reports ip).filter fun r => !r.turnedAway).map Report.time

/-- The table is within its bound. -/
def Capped (s : State) : Prop := s.fails.keys.length ≤ maxIps

/-- No failure of the IP that counts was turned away. -/
def Known (s : State) (ip : Text) (now : Int) : Prop := recent window now (s.strangers ip) = []

/-- An IP that the table has known throughout is throttled exactly when the maximum of its
failures is recent. -/
def Remembers (ip : Text) (s : State) : Prop :=
  forall request now, tracked request = some ip -> s.clock ≤ now -> Known s ip now ->
    ((tooMany s.fails request now).1 = true <->
      maxFails ≤ (recent window now (s.reported ip)).length)

/-- The table has the live failures of the IP that were not turned away. -/
def Exact (ip : Text) (s : State) : Prop :=
  recent window s.clock (s.fails.of ip) = recent window s.clock (s.due ip)

/-- No failure of the IP is reported while it has a live one and the table is full. -/
def Roomy (ip : Text) (s : State) : Action -> Prop
  | Action.recordFail request now =>
      tracked request = some ip -> Live s.fails ip now -> ¬ Full s.fails now
  | Action.tooMany _ _ => True
  | Action.clear _ => True

instance (ip : Text) (s : State) : forall a, Decidable (Roomy ip s a)
  | Action.recordFail request now =>
      inferInstanceAs (Decidable (tracked request = some ip -> Live s.fails ip now ->
        ¬ Full s.fails now))
  | Action.tooMany _ _ => isTrue trivial
  | Action.clear _ => isTrue trivial

/-!
# The sweep

An entry is removed when its last failure is old, and since the times of an entry do not
decrease, none of its failures is live then.
-/

/-- The times of each entry do not decrease, and none is in the future. -/
def Sorted (fails : Fails) (now : Int) : Prop :=
  forall ip, (fails.of ip).Pairwise (· ≤ ·) ∧ forall t, t ∈ fails.of ip -> t ≤ now

section Table

variable {fails : Fails} {now : Int}

theorem length_keys_sweepLocked : (sweepLocked fails now).keys.length ≤ fails.keys.length :=
  length_keys_foldl_erase _ fails

theorem of_eq_of_mem {entry : Sigma fun _ : Text => List Int} (h : entry ∈ fails.entries) :
    fails.of entry.1 = entry.2 := by
  have hlookup : fails.lookup entry.1 = some entry.2 := AList.mem_lookup_iff.mpr h
  rw [Fails.of, hlookup]
  rfl

/-- The sweep removes an entry whole, and only when nothing of it is live. -/
theorem of_sweepLocked (h : Sorted fails now) (ip : Text) :
    Fails.of (sweepLocked fails now) ip = fails.of ip ∨
      Fails.of (sweepLocked fails now) ip = [] ∧ recent window now (fails.of ip) = [] := by
  unfold sweepLocked Fails.of
  rw [lookup_foldl_erase]
  split
  · rename_i haged
    right
    constructor
    · rfl
    · rcases List.exists_of_mem_keys haged with ⟨times, hentry⟩
      rw [List.mem_filter] at hentry
      have htimes : fails.of ip = times := of_eq_of_mem hentry.left
      have hold := hentry.right
      show recent window now (fails.of ip) = []
      cases hlast : times.getLast? with
      | none => rw [htimes, List.getLast?_eq_none_iff.mp hlast, recent_nil]
      | some last =>
          simp only [hlast, decide_eq_true_eq] at hold
          exact recent_eq_nil_of_last (h ip).left (by rw [htimes, hlast]) hold
  · exact Or.inl rfl

theorem recent_sweepLocked (h : Sorted fails now) (ip : Text) :
    recent window now (Fails.of (sweepLocked fails now) ip) = recent window now (fails.of ip) := by
  rcases of_sweepLocked h ip with hsame | ⟨hgone, hnone⟩
  · rw [hsame]
  · rw [hgone, hnone, recent_nil]

theorem Sorted.later {later : Int} (h : Sorted fails now) (hle : now ≤ later) :
    Sorted fails later := by
  intro ip
  constructor
  · exact (h ip).left
  · intro t ht
    exact Int.le_trans ((h ip).right t ht) hle

theorem Sorted.sweepLocked (h : Sorted fails now) :
    Sorted (Ratelimit.sweepLocked fails now) now := by
  intro ip
  rcases of_sweepLocked h ip with hsame | ⟨hgone, -⟩
  · rw [hsame]
    exact h ip
  · rw [hgone]
    simp

theorem Sorted.erase (h : Sorted fails now) (ip : Text) : Sorted (fails.erase ip) now := by
  intro ip'
  rw [of_erase]
  split
  · simp
  · exact h ip'

theorem Sorted.insert {times : List Int} (h : Sorted fails now) (ip : Text)
    (hsorted : times.Pairwise (· ≤ ·)) (hpast : forall t, t ∈ times -> t ≤ now) :
    Sorted (fails.insert ip times) now := by
  intro ip'
  rw [of_insert]
  split
  · exact ⟨hsorted, hpast⟩
  · exact h ip'

theorem Sorted.append (h : Sorted fails now) (ip : Text) :
    Sorted (fails.insert ip (fails.of ip ++ [now])) now := by
  apply h.insert
  · exact pairwise_concat (h ip).left (h ip).right
  · intro t ht
    rcases List.mem_append.mp ht with hbefore | hlast
    · exact (h ip).right t hbefore
    · exact Int.le_of_eq (List.mem_singleton.mp hlast)

theorem Sorted.recentLocked (h : Sorted fails now) (ip : Text) :
    Sorted (Ratelimit.recentLocked fails ip now).2 now := by
  unfold Ratelimit.recentLocked
  split
  · exact h.erase ip
  · rename_i t times hsome
    have hsub : (t :: times).Sublist (fails.of ip) := by
      rw [← hsome]
      exact List.filter_sublist
    apply h.insert
    · exact (h ip).left.sublist hsub
    · intro t' ht'
      exact (h ip).right t' (hsub.subset ht')

/-- What is rewritten is there already. -/
theorem length_keys_recentLocked (ip : Text) :
    (recentLocked fails ip now).2.keys.length ≤ fails.keys.length := by
  unfold recentLocked
  split
  · exact length_keys_erase_le fails ip
  · rename_i t times hsome
    have hmem : ip ∈ fails := by
      by_contra hnot
      rw [Fails.of, AList.lookup_eq_none.mpr hnot] at hsome
      cases hsome
    exact le_of_eq (length_keys_insert_of_mem hmem _)

/-!
# A report

The branch that returns early is taken exactly when the table is full, whatever the IP.
-/

theorem recordFail_of_full {request : Option Text} {ip : Text}
    (htracked : tracked request = some ip) (hfull : Full fails now) :
    recordFail fails request now = sweepLocked fails now := by
  have hmany : maxIps ≤ fails.keys.length := le_trans hfull length_keys_sweepLocked
  have hstill : maxIps ≤ (sweepLocked fails now).keys.length := hfull
  unfold recordFail
  rw [htracked]
  simp only [if_pos hmany, if_pos hstill]

theorem recordFail_of_room {request : Option Text} {ip : Text} (h : Sorted fails now)
    (htracked : tracked request = some ip) (hroom : ¬ Full fails now) :
    exists swept : Fails, swept.keys.length < maxIps ∧ Sorted swept now ∧
      (forall ip', recent window now (swept.of ip') = recent window now (fails.of ip')) ∧
      recordFail fails request now = swept.insert ip (swept.of ip ++ [now]) := by
  unfold recordFail
  rw [htracked]
  by_cases hmany : maxIps ≤ fails.keys.length
  · have hfew : ¬ maxIps ≤ (sweepLocked fails now).keys.length := hroom
    refine ⟨sweepLocked fails now, Nat.not_le.mp hfew, h.sweepLocked,
      recent_sweepLocked h, ?_⟩
    simp only [if_pos hmany, if_neg hfew]
  · refine ⟨fails, Nat.not_le.mp hmany, h, fun _ => rfl, ?_⟩
    simp only [if_neg hmany]

theorem recent_recordFail {request : Option Text} {ip : Text} (h : Sorted fails now)
    (htracked : tracked request = some ip) (ip' : Text) :
    recent window now (Fails.of (recordFail fails request now) ip') =
      recent window now (fails.of ip') ++
        if ip' = ip ∧ ¬ Full fails now then [now] else [] := by
  by_cases hfull : Full fails now
  · rw [recordFail_of_full htracked hfull, recent_sweepLocked h]
    simp [hfull]
  · rcases recordFail_of_room h htracked hfull with ⟨swept, -, -, hsame, hinsert⟩
    rw [hinsert, of_insert]
    by_cases hip : ip' = ip
    · rw [if_pos hip, recent_append, recent_now, hsame]
      simp [hip, hfull]
    · rw [if_neg hip, hsame]
      simp [hip]

theorem Sorted.recordFail (h : Sorted fails now) (request : Option Text) :
    Sorted (Ratelimit.recordFail fails request now) now := by
  cases htracked : tracked request with
  | none =>
      rw [Ratelimit.recordFail, htracked]
      exact h
  | some ip =>
      by_cases hfull : Full fails now
      · rw [recordFail_of_full htracked hfull]
        exact h.sweepLocked
      · rcases recordFail_of_room h htracked hfull with ⟨swept, -, hswept, -, hinsert⟩
        rw [hinsert]
        exact hswept.append ip

theorem length_keys_recordFail {request : Option Text} (h : Sorted fails now)
    (hcapped : fails.keys.length ≤ maxIps) :
    (recordFail fails request now).keys.length ≤ maxIps := by
  cases htracked : tracked request with
  | none =>
      rw [recordFail, htracked]
      exact hcapped
  | some ip =>
      by_cases hfull : Full fails now
      · rw [recordFail_of_full htracked hfull]
        exact le_trans length_keys_sweepLocked hcapped
      · rcases recordFail_of_room h htracked hfull with ⟨swept, hfew, -, -, hinsert⟩
        rw [hinsert]
        exact le_trans (length_keys_insert_le swept ip _) hfew

end Table

/-!
# Every step
-/

/-- The history after a report, as the list of each IP. -/
theorem note_apply (s : State) {request : Option Text} {ip : Text}
    (htracked : tracked request = some ip) (now : Int) (ip' : Text) :
    note s request now ip' = s.reports ip' ++
      if ip' = ip then [⟨now, decide (¬ Live s.fails ip now ∧ Full s.fails now)⟩] else [] := by
  unfold note
  rw [htracked]
  by_cases hip : ip' = ip
  · simp [hip]
  · simp [hip]

theorem forget_apply (s : State) {request : Option Text} {ip : Text}
    (htracked : tracked request = some ip) (ip' : Text) :
    forget s request ip' = if ip' = ip then [] else s.reports ip' := by
  unfold forget
  rw [htracked]
  by_cases hip : ip' = ip
  · simp [hip]
  · simp [hip]

/-- The bound on the table, and the order of the times that it rests on. -/
structure Kept (s : State) : Prop where
  sorted : Sorted s.fails s.clock
  capped : Capped s

theorem kept_of_started {s : State} (h : Started s) : Kept s := by
  constructor
  · intro ip
    rw [h.fails]
    exact ⟨List.Pairwise.nil, fun t ht => by cases ht⟩
  · rw [Capped, h.fails]
    exact Nat.zero_le _

theorem exact_of_started {s : State} (h : Started s) (ip : Text) : Exact ip s := by
  rw [Exact, h.fails, State.due, h.reports]
  rfl

theorem kept_step (s : State) (a : Action) (t : State) (h : Kept s)
    (hstep : machine.step s a = some t) : Kept t := by
  cases a with
  | tooMany request now =>
      simp only [machine, step, Option.ite_none_right_eq_some, Option.some.injEq] at hstep
      rcases hstep with ⟨hle, rfl⟩
      have hsorted := h.sorted.later hle
      cases htracked : tracked request with
      | none =>
          constructor
          · simpa [tooMany, htracked] using hsorted
          · simpa [Capped, tooMany, htracked] using h.capped
      | some ip =>
          constructor
          · simpa [tooMany, htracked] using hsorted.recentLocked ip
          · simpa [Capped, tooMany, htracked] using
              le_trans (length_keys_recentLocked ip) h.capped
  | recordFail request now =>
      simp only [machine, step, Option.ite_none_right_eq_some, Option.some.injEq] at hstep
      rcases hstep with ⟨hle, rfl⟩
      have hsorted := h.sorted.later hle
      exact ⟨hsorted.recordFail request, length_keys_recordFail hsorted h.capped⟩
  | clear request =>
      cases hstep
      cases htracked : tracked request with
      | none =>
          constructor
          · simpa [clear, htracked] using h.sorted
          · simpa [Capped, clear, htracked] using h.capped
      | some ip =>
          constructor
          · simpa [clear, htracked] using h.sorted.erase ip
          · simpa [Capped, clear, htracked] using
              le_trans (length_keys_erase_le s.fails ip) h.capped

/-- The failures of a history that the table has to know, report by report. -/
theorem due_append (before : List Report) (r : Report) :
    ((before ++ [r]).filter fun r => !r.turnedAway).map Report.time =
      (before.filter fun r => !r.turnedAway).map Report.time ++
        if r.turnedAway then [] else [r.time] := by
  cases hturned : r.turnedAway <;> simp [hturned]

section Steps

variable {s : State} {request : Option Text} {ip ip' : Text} {now : Int}

/-- A report adds its failure to what the table has, unless the table is full. -/
theorem recent_table (hexact : Exact ip s) (hkept : Kept s) (hle : s.clock ≤ now)
    (htracked : tracked request = some ip') :
    recent window now (Fails.of (recordFail s.fails request now) ip) =
      recent window now (s.due ip) ++ if ip = ip' ∧ ¬ Full s.fails now then [now] else [] := by
  rw [recent_recordFail (hkept.sorted.later hle) htracked, recent_congr hexact hle]

/-- It adds it to the history, unless the IP is turned away. -/
theorem recent_history (htracked : tracked request = some ip') :
    recent window now (((note s request now ip).filter fun r => !r.turnedAway).map
        Report.time) =
      recent window now (s.due ip) ++
        if ip = ip' ∧ (Live s.fails ip' now ∨ ¬ Full s.fails now) then [now] else [] := by
  rw [note_apply s htracked]
  by_cases hip : ip = ip'
  · rw [if_pos hip, due_append, recent_append]
    by_cases hknown : Live s.fails ip' now ∨ ¬ Full s.fails now
    · have hturned : ¬ (¬ Live s.fails ip' now ∧ Full s.fails now) := by tauto
      simp [hturned, hip, hknown, recent_now, State.due]
    · have hturned : ¬ Live s.fails ip' now ∧ Full s.fails now := by tauto
      simp [hturned, State.due]
  · simp [hip, State.due]

end Steps

theorem exact_step {ip : Text} (s : State) (a : Action) (t : State) (h : Kept s ∧ Exact ip s)
    (hroomy : Roomy ip s a) (hstep : machine.step s a = some t) : Kept t ∧ Exact ip t := by
  refine ⟨kept_step s a t h.left hstep, ?_⟩
  rcases h with ⟨hkept, hexact⟩
  cases a with
  | tooMany request now =>
      simp only [machine, step, Option.ite_none_right_eq_some, Option.some.injEq] at hstep
      rcases hstep with ⟨hle, rfl⟩
      show recent window now (Fails.of (tooMany s.fails request now).2 ip) = _
      rw [recent_tooMany]
      exact recent_congr hexact hle
  | recordFail request now =>
      simp only [machine, step, Option.ite_none_right_eq_some, Option.some.injEq] at hstep
      rcases hstep with ⟨hle, rfl⟩
      cases htracked : tracked request with
      | none => simpa [Exact, recordFail, note, htracked, State.due] using recent_congr hexact hle
      | some ip' =>
          have hiff : (ip = ip' ∧ (Live s.fails ip' now ∨ ¬ Full s.fails now)) <->
              (ip = ip' ∧ ¬ Full s.fails now) := by
            constructor
            · rintro ⟨rfl, hlive | hroom⟩
              · exact ⟨rfl, hroomy htracked hlive⟩
              · exact ⟨rfl, hroom⟩
            · exact fun hand => ⟨hand.left, Or.inr hand.right⟩
          show recent window now (Fails.of (recordFail s.fails request now) ip) =
            recent window now (((note s request now ip).filter fun r => !r.turnedAway).map
              Report.time)
          rw [recent_table hexact hkept hle htracked, recent_history htracked]
          simp only [hiff]
  | clear request =>
      cases hstep
      cases htracked : tracked request with
      | none => simpa [Exact, clear, forget, htracked, State.due] using hexact
      | some ip' =>
          show recent window s.clock (Fails.of (clear s.fails request) ip) =
            recent window s.clock (((forget s request ip).filter fun r => !r.turnedAway).map
              Report.time)
          rw [of_clear htracked, forget_apply s htracked]
          by_cases hip : ip = ip'
          · simp [hip]
          · rw [if_neg hip, if_neg hip]
            exact hexact

/-- A failure that is dropped although its IP has a live one is missing. -/
theorem not_exact_of_dropped {ip : Text} (s : State) (a : Action) (t : State)
    (h : Kept s ∧ Exact ip s) (hroomy : ¬ Roomy ip s a) (hstep : machine.step s a = some t) :
    ¬ Exact ip t := by
  rcases h with ⟨hkept, hexact⟩
  cases a with
  | recordFail request now =>
      simp only [machine, step, Option.ite_none_right_eq_some, Option.some.injEq] at hstep
      rcases hstep with ⟨hle, rfl⟩
      simp only [Roomy, Classical.not_imp, not_not] at hroomy
      rcases hroomy with ⟨htracked, hlive, hfull⟩
      intro hsame
      have hboth : recent window now (Fails.of (recordFail s.fails request now) ip) =
          recent window now (((note s request now ip).filter fun r => !r.turnedAway).map
            Report.time) := hsame
      rw [recent_table hexact hkept hle htracked, recent_history htracked,
        if_neg fun hand => hand.right hfull, if_pos ⟨rfl, Or.inl hlive⟩] at hboth
      have hlength := congrArg List.length hboth
      simp at hlength
  | tooMany request now | clear request => exact absurd trivial hroomy

/-!
# Every run
-/

/-- Without recent failures that were turned away, all that are recent are due. -/
theorem recent_reported {s : State} {ip : Text} {now : Int} (hknown : Known s ip now) :
    recent window now (s.reported ip) = recent window now (s.due ip) := by
  unfold Known State.strangers at hknown
  unfold State.reported State.due
  generalize s.reports ip = reports at hknown ⊢
  induction reports with
  | nil => rfl
  | cons r rest ih =>
      cases hturned : r.turnedAway with
      | true =>
          simp only [recent, hturned, List.filter_cons_of_pos, List.map_cons] at hknown
          rw [List.filter_eq_nil_iff] at hknown
          have hold := hknown r.time List.mem_cons_self
          have hrest := ih (List.filter_eq_nil_iff.mpr fun t ht =>
            hknown t (List.mem_cons_of_mem _ ht))
          simpa [recent, hturned, hold] using hrest
      | false =>
          have hrest := ih (by simpa [hturned] using hknown)
          by_cases hlive : now - window < r.time
          · simpa [recent, hturned, hlive] using hrest
          · simpa [recent, hturned, hlive] using hrest

theorem remembers_of_exact {s : State} {ip : Text} (h : Exact ip s) : Remembers ip s := by
  intro request now htracked hle hknown
  rw [tooMany_iff htracked, recent_congr h hle, recent_reported hknown]

/--
The table never has more IPs than its bound.  It has the live failures of an IP that were
not turned away exactly as long as none is reported while the IP has a live one and the
table is full, and until then the IP is throttled exactly when the maximum of its failures
is recent.
-/
theorem remembers_of_roomy {s t : State} {actions : List Action} (hs : Started s)
    (hexec : machine.exec s actions = some t) (ip : Text) :
    machine.Always Capped s actions ∧
      (machine.Always (Exact ip) s actions <-> machine.Obeys (Roomy ip) s actions) ∧
      (machine.Obeys (Roomy ip) s actions -> machine.Always (Remembers ip) s actions) := by
  have hstart := And.intro (kept_of_started hs) (exact_of_started hs ip)
  have hexact : machine.Always (Exact ip) s actions <-> machine.Obeys (Roomy ip) s actions :=
    Machine.always_iff_obeys (fun _ h => h.right) exact_step not_exact_of_dropped hstart hexec
  refine ⟨?_, hexact, fun hroomy => (hexact.mpr hroomy).imp fun _ => remembers_of_exact⟩
  exact (Machine.always_of_step kept_step actions hstart.left).imp fun _ h => h.capped

def start : State where
  fails := ∅
  clock := 0
  reports _ := []

theorem start_started : Started start := ⟨rfl, fun _ => rfl⟩

/-- Two clients fail in turns, one of them signs in and fails again. -/
def failures : List Action :=
  (List.range 9).flatMap (fun (i : Nat) =>
    [Action.recordFail (some ['a']) i, Action.tooMany (some ['b']) i,
      Action.recordFail (some ['b']) i]) ++
  [Action.clear (some ['a']), Action.tooMany (some ['b']) 300000000000,
    Action.recordFail (some ['a']) 300000000000]

theorem remembers_of_failures :
    machine.Always (Exact ['a']) start failures ∧
      machine.Always (Remembers ['a']) start failures ∧
      machine.Always Capped start failures := by
  cases hexec : machine.exec start failures with
  | none => exact absurd hexec (by decide +kernel)
  | some t =>
      have hroomy : machine.Obeys (Roomy ['a']) start failures := by decide +kernel
      rcases remembers_of_roomy start_started hexec ['a'] with ⟨hcapped, hexact, hremembers⟩
      exact ⟨hexact.mpr hroomy, hremembers hroomy, hcapped⟩

/-!
# A full table

As many clients as the table has places fail once.  From then on the failures of every one
of them are dropped.
-/

/-- Every IP in the table has failed once, at this time, and no other one has. -/
structure Fresh (s : State) (now : Int) : Prop where
  clock : s.clock ≤ now
  once : forall ip, ip ∈ s.fails -> s.fails.of ip = [now]
  noted : forall ip, ip ∈ s.fails -> s.reports ip = [⟨now, false⟩]
  others : forall ip, ¬ ip ∈ s.fails -> s.reports ip = []

theorem tracked_some {ip : Text} (hne : ip ≠ []) : tracked (some ip) = some ip := by
  simp [tracked, hne]

section Fill

variable {s : State} {now : Int}

theorem fresh_step {ip : Text} (h : Fresh s now) (hne : ip ≠ []) (hnew : ¬ ip ∈ s.fails)
    (hroom : s.fails.keys.length < maxIps) :
    exists t, machine.step s (Action.recordFail (some ip) now) = some t ∧ Fresh t now ∧
      t.fails = s.fails.insert ip [now] := by
  have hnot : ¬ Full s.fails now := by
    unfold Full
    have hle : (sweepLocked s.fails now).keys.length ≤ s.fails.keys.length :=
      length_keys_sweepLocked
    omega
  have hnone : s.fails.of ip = [] := by
    rw [Fails.of, AList.lookup_eq_none.mpr hnew]
    rfl
  have hinsert : recordFail s.fails (some ip) now = s.fails.insert ip [now] := by
    simp [recordFail, tracked_some hne, Nat.not_le.mpr hroom, hnone]
  have hnote : forall ip', note s (some ip) now ip' = s.reports ip' ++
      if ip' = ip then [⟨now, false⟩] else [] := by
    intro ip'
    rw [note_apply s (tracked_some hne)]
    simp [hnot]
  refine ⟨⟨recordFail s.fails (some ip) now, now, note s (some ip) now⟩, ?_, ?_, hinsert⟩
  · simp [machine, step, h.clock]
  · constructor
    · exact Int.le_refl now
    · intro ip' hmem
      simp only [hinsert, AList.mem_insert] at hmem ⊢
      rw [of_insert]
      split
      · rfl
      · exact h.once ip' (hmem.resolve_left ‹_›)
    · intro ip' hmem
      simp only [hinsert, AList.mem_insert] at hmem
      show note s (some ip) now ip' = _
      rw [hnote]
      split
      · rename_i hip
        rw [hip, h.others ip hnew]
        rfl
      · rw [List.append_nil]
        exact h.noted ip' (hmem.resolve_left ‹_›)
    · intro ip' hmem
      simp only [hinsert, AList.mem_insert, not_or] at hmem
      show note s (some ip) now ip' = _
      rw [hnote, if_neg hmem.left, List.append_nil]
      exact h.others ip' hmem.right

theorem fresh_exec {ips : List Text} (h : Fresh s now) (hne : forall ip, ip ∈ ips -> ip ≠ [])
    (hnew : forall ip, ip ∈ ips -> ¬ ip ∈ s.fails) (hnodup : ips.Nodup)
    (hroom : s.fails.keys.length + ips.length ≤ maxIps) :
    exists t, machine.exec s (ips.map fun ip => Action.recordFail (some ip) now) = some t ∧
      Fresh t now ∧ t.fails.keys.length = s.fails.keys.length + ips.length ∧
      forall ip, ip ∈ ips ∨ ip ∈ s.fails -> ip ∈ t.fails := by
  induction ips generalizing s with
  | nil => exact ⟨s, rfl, h, rfl, fun ip hip => hip.resolve_left List.not_mem_nil⟩
  | cons ip rest ih =>
      rw [List.length_cons] at hroom
      rcases fresh_step h (hne ip List.mem_cons_self) (hnew ip List.mem_cons_self)
        (by omega) with ⟨u, hstep, hu, hfails⟩
      have hkeys : u.fails.keys.length = s.fails.keys.length + 1 := by
        rw [hfails]
        exact length_keys_insert_of_not_mem (hnew ip List.mem_cons_self) _
      have hnew' : forall ip', ip' ∈ rest -> ¬ ip' ∈ u.fails := by
        intro ip' hmem
        rw [hfails, AList.mem_insert, not_or]
        constructor
        · rintro rfl
          exact (List.nodup_cons.mp hnodup).left hmem
        · exact hnew ip' (List.mem_cons_of_mem _ hmem)
      rcases ih hu (fun ip' hmem => hne ip' (List.mem_cons_of_mem _ hmem)) hnew'
        (List.nodup_cons.mp hnodup).right (by omega) with ⟨t, hexec, ht, hlength, hall⟩
      refine ⟨t, ?_, ht, ?_, ?_⟩
      · rw [List.map_cons, machine.exec_cons_of_step _ hstep]
        exact hexec
      · rw [hlength, hkeys, List.length_cons]
        omega
      · intro ip' hmem
        apply hall
        rw [hfails, AList.mem_insert]
        rcases hmem with hmem | hmem
        · rcases List.mem_cons.mp hmem with rfl | hmem
          · exact Or.inr (Or.inl rfl)
          · exact Or.inl hmem
        · exact Or.inr (Or.inr hmem)

/-- A table of live failures is not changed by the sweep. -/
theorem sweepLocked_fresh {fails : Fails} (h : forall ip, ip ∈ fails -> fails.of ip = [now]) :
    sweepLocked fails now = fails := by
  have hlive : now - window < now := Int.sub_lt_self now (by decide)
  unfold sweepLocked
  rw [List.filter_eq_nil_iff.mpr]
  · rfl
  · intro entry hentry
    have hmem : entry.1 ∈ fails := AList.mem_keys.mpr (List.mem_keys_of_mem hentry)
    rw [← of_eq_of_mem hentry, h entry.1 hmem]
    simpa using hlive

/-- The failures of an IP in a full table of live failures are dropped. -/
theorem exec_dropped {ip : Text} (hclock : s.clock ≤ now) (hne : ip ≠ [])
    (honce : forall ip, ip ∈ s.fails -> s.fails.of ip = [now]) (hmem : ip ∈ s.fails)
    (hfull : maxIps ≤ s.fails.keys.length) (k : Nat) :
    exists t, machine.exec s (List.replicate k (Action.recordFail (some ip) now)) = some t ∧
      t.clock ≤ now ∧ t.fails = s.fails ∧ t.reports ip = s.reports ip ++ List.replicate k ⟨now, false⟩ := by
  induction k generalizing s with
  | zero => exact ⟨s, rfl, hclock, rfl, (List.append_nil _).symm⟩
  | succ k ih =>
      have hlive : Live s.fails ip now := by
        rw [Live, honce ip hmem, recent_now]
        simp
      have hfull' : Full s.fails now := by
        rw [Full, sweepLocked_fresh honce]
        exact hfull
      have hsame : recordFail s.fails (some ip) now = s.fails := by
        rw [recordFail_of_full (tracked_some hne) hfull', sweepLocked_fresh honce]
      have hnote : note s (some ip) now ip = s.reports ip ++ [⟨now, false⟩] := by
        rw [note_apply s (tracked_some hne)]
        simp [hlive]
      have hstep : machine.step s (Action.recordFail (some ip) now) =
          some ⟨s.fails, now, note s (some ip) now⟩ := by
        simp [machine, step, hclock, hsame]
      have hdropped := ih (s := ⟨s.fails, now, note s (some ip) now⟩) (Int.le_refl now) honce hmem
        hfull
      rcases hdropped with ⟨t, hexec, hnow, hfails, hreports⟩
      refine ⟨t, ?_, hnow, hfails, ?_⟩
      · rw [List.replicate_succ, machine.exec_cons_of_step _ hstep]
        exact hexec
      · rw [hreports]
        simp [hnote, List.replicate_succ]

end Fill

/-- {lit}`10.0.0.0`, {lit}`10.0.0.1` and so on. -/
def address (n : Nat) : Text :=
  "10.0.".toList ++ Nat.toDigits 10 (n / 256) ++ '.' :: Nat.toDigits 10 (n % 256)

/-- As many clients as the table has places fail once, then the first fails eight times. -/
def attack : List Action :=
  ((List.range maxIps).map address).map (fun ip => Action.recordFail (some ip) 1) ++
    List.replicate 8 (Action.recordFail (some (address 0)) 1)

theorem dot_not_mem_toDigits (n : Nat) : ¬ '.' ∈ Nat.toDigits 10 n := by
  intro hmem
  exact absurd (Nat.isDigit_of_mem_toDigits (by decide) (by decide) hmem) (by decide)

theorem address_inj {n m : Nat} (h : address n = address m) : n = m := by
  unfold address at h
  have hlow := last_sep_inj h (dot_not_mem_toDigits _) (dot_not_mem_toDigits _)
  rw [hlow] at h
  have hhigh := List.append_cancel_left (List.append_cancel_right h)
  have hdiv := Engine.toDigits_inj hhigh
  have hmod := Engine.toDigits_inj hlow
  omega

theorem nodup_addresses : ((List.range maxIps).map address).Nodup :=
  List.Nodup.map (fun _ _ h => address_inj h) List.nodup_range

theorem address_ne_nil (n : Nat) : address n ≠ [] :=
  List.append_ne_nil_of_right_ne_nil _ (List.cons_ne_nil _ _)

theorem fresh_start : Fresh start 1 := by
  have hempty : forall ip, ¬ ip ∈ start.fails := fun ip => AList.notMem_empty ip
  constructor
  · decide
  · exact fun ip hip => absurd hip (hempty ip)
  · exact fun ip hip => absurd hip (hempty ip)
  · exact fun _ _ => rfl

/-- The first part of the attack fills the table. -/
theorem exec_fill : exists u,
    machine.exec start (((List.range maxIps).map address).map fun ip =>
        Action.recordFail (some ip) 1) = some u ∧
      Fresh u 1 ∧ maxIps ≤ u.fails.keys.length ∧ address 0 ∈ u.fails := by
  have hlength : ((List.range maxIps).map address).length = maxIps := by
    rw [List.length_map, List.length_range]
  have hnames : forall ip, ip ∈ (List.range maxIps).map address -> ip ≠ [] := by
    intro ip hip
    rcases List.mem_map.mp hip with ⟨n, -, rfl⟩
    exact address_ne_nil n
  have hroom : start.fails.keys.length + ((List.range maxIps).map address).length ≤ maxIps := by
    rw [hlength]
    exact le_of_eq (Nat.zero_add maxIps)
  rcases fresh_exec fresh_start hnames (fun ip _ => AList.notMem_empty ip) nodup_addresses
    hroom with ⟨u, hfill, hu, hkeys, hall⟩
  have hfirst : address 0 ∈ (List.range maxIps).map address :=
    List.mem_map_of_mem (List.mem_range.mpr (by decide))
  refine ⟨u, hfill, hu, ?_, hall _ (Or.inl hfirst)⟩
  rw [hkeys, hlength]
  exact Nat.le_add_left _ _

/-- The first client has nine live failures, and is not throttled. -/
theorem forgotten_of_fullTable :
    exists t, machine.exec start attack = some t ∧ Known t (address 0) 1 ∧
      (recent window 1 (t.reported (address 0))).length = 9 ∧
      (tooMany t.fails (some (address 0)) 1).1 = false ∧ ¬ Remembers (address 0) t := by
  rcases exec_fill with ⟨u, hfill, hu, hfull, hmem⟩
  rcases exec_dropped hu.clock (address_ne_nil 0) hu.once hmem hfull 8 with
    ⟨t, hexec, hclock, hfails, hreports⟩
  have htracked : tracked (some (address 0)) = some (address 0) :=
    tracked_some (address_ne_nil 0)
  have hnone : (tooMany t.fails (some (address 0)) 1).1 = false := by
    rw [← Bool.not_eq_true, tooMany_iff htracked, hfails, hu.once (address 0) hmem]
    decide
  rw [hu.noted (address 0) hmem] at hreports
  have hreported : (recent window 1 (t.reported (address 0))).length = 9 := by
    rw [State.reported, hreports]
    decide
  have hknown : Known t (address 0) 1 := by
    rw [Known, State.strangers, hreports]
    decide
  refine ⟨t, machine.exec_append hfill hexec, hknown, hreported, hnone, ?_⟩
  intro hremembers
  have hthrottled := (hremembers (some (address 0)) 1 htracked hclock hknown).mpr
  rw [hreported, hnone] at hthrottled
  exact absurd (hthrottled (by decide)) Bool.false_ne_true

end Capacity
end Ratelimit

end Panel
end RcTunnel
