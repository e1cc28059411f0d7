import Mathlib.Data.List.AList
import RcTunnel.Foundation.Machine
import RcTunnel.Foundation.Window
import RcTunnel.Panel.Text

/-!
# The login throttle

The JSON login, the HTML login form and the enrollment share one table of failed
attempts per client IP.  A request passes the throttle when it comes in; its
credential is judged later, and between the two other requests run, since the
endpoints are served by a pool of threads.  What the judgement finds in the
database is part of the action.  Times are nanoseconds of the monotonic clock.

Next to the table the state has the times of all failed checks of an IP, which the
program does not keep.  The main result bounds them on the runs in which no sign-in
clears failures that still count, and no IP has more requests under way than it
has attempts left.
-/

namespace RcTunnel
namespace Panel

open Foundation

namespace Ratelimit

/-- {lit}`WINDOW` -/
def window : Int := 300000000000

/-- {lit}`MAX` -/
def maxFails : Nat := 8

/-- {lit}`MAX_IPS` -/
def maxIps : Nat := 50000

/-- {lit}`_fails` -/
abbrev Fails := AList fun _ : Text => List Int

def Fails.of (fails : Fails) (ip : Text) : List Int := (fails.lookup ip).getD []

/-- An IP that is missing or empty is not throttled. -/
def tracked (ip : Option Text) : Option Text := ip.filter fun ip => ip ≠ []

def sweepLocked (fails : Fails) (now : Int) : Fails :=
  let aged := fails.entries.filter fun entry =>
    match entry.2.getLast? with
    | none => true
    | some last => last ≤ now - window
  aged.foldl (fun fails entry => fails.erase entry.1) fails

def recentLocked (fails : Fails) (ip : Text) (now : Int) : List Int × Fails :=
  match recent window now (fails.of ip) with
  | [] => ([], fails.erase ip)
  | t :: times => (t :: times, fails.insert ip (t :: times))

def tooMany (fails : Fails) (ip : Option Text) (now : Int) : Bool × Fails :=
  match tracked ip with
  | none => (false, fails)
  | some ip =>
      ((maxFails ≤ (recentLocked fails ip now).1.length), (recentLocked fails ip now).2)

def recordFail (fails : Fails) (ip : Option Text) (now : Int) : Fails :=
  match tracked ip with
  | none => fails
  | some ip =>
      let swept := if maxIps ≤ fails.keys.length then sweepLocked fails now else fails
      -- still full of live attackers: no new IP is tracked
      if maxIps ≤ swept.keys.length then swept else swept.insert ip (swept.of ip ++ [now])

def clear (fails : Fails) (ip : Option Text) : Fails :=
  match tracked ip with
  | none => fails
  | some ip => fails.erase ip

/-!
# The three endpoints
-/

inductive Endpoint where
  | login
  | loginSubmit
  | enroll
deriving DecidableEq, Repr

/-- A request that has passed the throttle. -/
structure Request where
  endpoint : Endpoint
  ip : Option Text
deriving DecidableEq, Repr

inductive LoginCheck where
  | noUser
  | wrongPassword
  | accepted
deriving DecidableEq, Repr

inductive EnrollCheck where
  | noAgent
  | tokenUsed
  | badCsr
  /-- a concurrent enrollment has burned the token first -/
  | notBurned
  | enrolled
deriving DecidableEq, Repr

def LoginCheck.failed : LoginCheck -> Bool
  | LoginCheck.accepted => false
  | _ => true

def EnrollCheck.failed : EnrollCheck -> Bool
  | EnrollCheck.badCsr | EnrollCheck.enrolled => false
  | _ => true

def login (fails : Fails) (ip : Option Text) (check : LoginCheck) (now : Int) : Fails :=
  if check.failed then recordFail fails ip now else clear fails ip

def loginSubmit (fails : Fails) (ip : Option Text) (check : LoginCheck) (now : Int) : Fails :=
  if check.failed then recordFail fails ip now else clear fails ip

/-- An enrollment that succeeds does not clear. -/
def enroll (fails : Fails) (ip : Option Text) (check : EnrollCheck) (now : Int) : Fails :=
  if check.failed then recordFail fails ip now else fails

inductive Verdict where
  | login (check : LoginCheck)
  | loginSubmit (check : LoginCheck)
  | enroll (check : EnrollCheck)
deriving DecidableEq, Repr

def Verdict.endpoint : Verdict -> Endpoint
  | Verdict.login _ => Endpoint.login
  | Verdict.loginSubmit _ => Endpoint.loginSubmit
  | Verdict.enroll _ => Endpoint.enroll

def Verdict.failed : Verdict -> Bool
  | Verdict.login check | Verdict.loginSubmit check => check.failed
  | Verdict.enroll check => check.failed

def settle (fails : Fails) (ip : Option Text) (verdict : Verdict) (now : Int) : Fails :=
  match verdict with
  | Verdict.login check => login fails ip check now
  | Verdict.loginSubmit check => loginSubmit fails ip check now
  | Verdict.enroll check => enroll fails ip check now

/-!
# The machine
-/

structure State where
  fails : Fails
  /-- the requests that have passed the throttle and are not answered -/
  requests : List Request
  clock : Int
  /-- the failed checks of an IP, oldest first -/
  failed : Text -> List Int

inductive Action where
  | arrive (request : Request) (now : Int)
  | judge (ip : Option Text) (verdict : Verdict) (now : Int)
deriving DecidableEq, Repr

/-- The history after a check of an IP. -/
def note (failed : Text -> List Int) (ip : Option Text) (verdict : Verdict) (now : Int) :
    Text -> List Int :=
  match verdict.failed, tracked ip with
  | true, some ip => Function.update failed ip (failed ip ++ [now])
  | _, _ => failed

def step (s : State) : Action -> Option State
  | Action.arrive request now =>
      if s.clock ≤ now then
        let throttle := tooMany s.fails request.ip now
        some { s with
          fails := throttle.2
          requests := if throttle.1 then s.requests else request :: s.requests
          clock := now }
      else
        none
  | Action.judge ip verdict now =>
      if s.clock ≤ now ∧ ⟨verdict.endpoint, ip⟩ ∈ s.requests then
        some {
          fails := settle s.fails ip verdict now
          requests := s.requests.erase ⟨verdict.endpoint, ip⟩
          clock := now
          failed := note s.failed ip verdict now }
      else
        none

/-- The process has just started. -/
structure Started (s : State) : Prop where
  fails : s.fails = ∅
  requests : s.requests = []
  failed : forall ip, s.failed ip = []

def machine : Machine State Action where
  init := Started
  step := step

def State.inProgress (s : State) (ip : Text) : Nat :=
  s.requests.countP fun request => tracked request.ip = some ip

/-!
# The bound, and when it is kept
-/

/-- There is room for another IP. -/
def HasRoom (s : State) : Prop := s.fails.keys.length < maxIps

/-- No span of the window has more failed checks of an IP than the maximum. -/
def Bounded (s : State) : Prop :=
  forall ip, SpansBounded window maxFails (s.failed ip)

/-- When the maximum of failed checks is recent, a request is refused when it comes,
and no credential is looked at. -/
def Refuses (s : State) : Action -> Prop
  | Action.arrive request now => forall ip, tracked request.ip = some ip ->
      maxFails ≤ (recent window now (s.failed ip)).length ->
      (tooMany s.fails request.ip now).1 = true
  | Action.judge ip _ now => forall ip', tracked ip = some ip' ->
      (recent window now (s.failed ip')).length < maxFails

/-- A request passes while the failures that the table has of its IP leave room for
all that are under way, and a sign-in finds no live failure of its IP. -/
def Orderly (s : State) : Action -> Prop
  | Action.arrive request now => forall ip, tracked request.ip = some ip ->
      (recent window now (s.fails.of ip)).length < maxFails ->
      (recent window now (s.fails.of ip)).length + s.inProgress ip < maxFails
  | Action.judge ip verdict now => forall ip', tracked ip = some ip' ->
      verdict.endpoint ≠ Endpoint.enroll -> verdict.failed = false ->
      recent window now (s.fails.of ip') = []

instance HasRoom.decidable : DecidablePred HasRoom := fun s =>
  inferInstanceAs (Decidable (s.fails.keys.length < maxIps))

instance Orderly.decidable (s : State) : DecidablePred (Orderly s)
  | Action.arrive request now =>
      inferInstanceAs (Decidable (forall ip, ip ∈ tracked request.ip ->
        (recent window now (s.fails.of ip)).length < maxFails ->
        (recent window now (s.fails.of ip)).length + s.inProgress ip < maxFails))
  | Action.judge ip verdict now =>
      inferInstanceAs (Decidable (forall ip', ip' ∈ tracked ip ->
        verdict.endpoint ≠ Endpoint.enroll -> verdict.failed = false ->
        recent window now (s.fails.of ip') = []))

/-!
# What each operation does to the table
-/

section Table

variable {fails : Fails} {ip : Text} {now : Int}

theorem of_insert (times : List Int) (ip' : Text) :
    Fails.of (fails.insert ip times) ip' = if ip' = ip then times else fails.of ip' := by
  unfold Fails.of
  by_cases hip : ip' = ip
  · subst hip
    rw [AList.lookup_insert, if_pos rfl]
    rfl
  · rw [AList.lookup_insert_ne hip, if_neg hip]

theorem of_erase (ip' : Text) :
    Fails.of (fails.erase ip) ip' = if ip' = ip then [] else fails.of ip' := by
  unfold Fails.of
  by_cases hip : ip' = ip
  · subst hip
    rw [AList.lookup_erase, if_pos rfl]
    rfl
  · rw [AList.lookup_erase_ne hip, if_neg hip]

theorem fst_recentLocked : (recentLocked fails ip now).1 = recent window now (fails.of ip) := by
  unfold recentLocked
  split <;> simp [*]

theorem of_recentLocked (ip' : Text) :
    Fails.of (recentLocked fails ip now).2 ip' =
      if ip' = ip then recent window now (fails.of ip) else fails.of ip' := by
  unfold recentLocked
  split
  · rename_i hnone
    rw [of_erase, hnone]
  · rename_i t times hsome
    rw [of_insert, hsome]

/-- Looking at the throttle changes nothing that counts. -/
theorem recent_tooMany (request : Option Text) (ip' : Text) :
    recent window now (Fails.of (tooMany fails request now).2 ip') =
      recent window now (fails.of ip') := by
  unfold tooMany
  cases tracked request with
  | none => rfl
  | some ip =>
      rw [of_recentLocked]
      by_cases hip : ip' = ip
      · rw [if_pos hip, recent_recent (Int.le_refl now), hip]
      · rw [if_neg hip]

theorem tooMany_iff {request : Option Text} (htracked : tracked request = some ip) :
    (tooMany fails request now).1 = true <->
      maxFails ≤ (recent window now (fails.of ip)).length := by
  unfold tooMany
  rw [htracked]
  simp only [fst_recentLocked, decide_eq_true_eq]

theorem of_recordFail {request : Option Text} (hroom : fails.keys.length < maxIps)
    (htracked : tracked request = some ip) (ip' : Text) :
    Fails.of (recordFail fails request now) ip' =
      if ip' = ip then fails.of ip ++ [now] else fails.of ip' := by
  unfold recordFail
  rw [htracked]
  simp only [if_neg (Nat.not_le.mpr hroom)]
  exact of_insert _ ip'

theorem of_clear {request : Option Text} (htracked : tracked request = some ip) (ip' : Text) :
    Fails.of (clear fails request) ip' = if ip' = ip then [] else fails.of ip' := by
  unfold clear
  rw [htracked]
  exact of_erase ip'

theorem settle_failed {request : Option Text} {verdict : Verdict}
    (hfailed : verdict.failed = true) :
    settle fails request verdict now = recordFail fails request now := by
  cases verdict with
  | login check | loginSubmit check | enroll check => exact if_pos hfailed

theorem settle_passed {request : Option Text} {verdict : Verdict}
    (hfailed : verdict.failed = false) :
    settle fails request verdict now =
      if verdict.endpoint = Endpoint.enroll then fails else clear fails request := by
  have hpassed : ¬ verdict.failed = true := by simp [hfailed]
  cases verdict with
  | login check | loginSubmit check | enroll check => exact if_neg hpassed

/-- A check that does not fail changes nothing that counts, if it is an enrollment's or
finds no live failure. -/
theorem recent_settle_passed {request : Option Text} {verdict : Verdict}
    (htracked : tracked request = some ip) (hfailed : verdict.failed = false)
    (hclean : verdict.endpoint ≠ Endpoint.enroll -> recent window now (fails.of ip) = [])
    (ip' : Text) :
    recent window now (Fails.of (settle fails request verdict now) ip') =
      recent window now (fails.of ip') := by
  rw [settle_passed hfailed]
  by_cases henroll : verdict.endpoint = Endpoint.enroll
  · rw [if_pos henroll]
  · rw [if_neg henroll, of_clear htracked]
    by_cases hip : ip' = ip
    · rw [if_pos hip, hip, hclean henroll, recent_nil]
    · rw [if_neg hip]

/-- Nothing is kept of an IP that is missing or empty. -/
theorem settle_untracked {request : Option Text} (htracked : tracked request = none)
    (verdict : Verdict) : settle fails request verdict now = fails := by
  cases hfailed : verdict.failed with
  | true => rw [settle_failed hfailed, recordFail, htracked]
  | false => rw [settle_passed hfailed, clear, htracked, ite_self]

end Table

/-!
# Every step

A failed check adds the same time to the table and to the history, and as long as a
sign-in clears nothing that counts, both agree on what is recent.
-/

/-- The check that a verdict adds to the history of an IP. -/
def added (ip : Option Text) (verdict : Verdict) (now : Int) (ip' : Text) : List Int :=
  if verdict.failed = true ∧ tracked ip = some ip' then [now] else []

theorem note_apply (failed : Text -> List Int) (ip : Option Text) (verdict : Verdict)
    (now : Int) (ip' : Text) :
    note failed ip verdict now ip' = failed ip' ++ added ip verdict now ip' := by
  unfold note added
  cases hfailed : verdict.failed with
  | false => simp
  | true =>
      cases htracked : tracked ip with
      | none => simp
      | some ip'' =>
          by_cases hip : ip' = ip''
          · simp [hip]
          · simp [hip, Ne.symm hip]

theorem recent_now (now : Int) : recent window now [now] = [now] := by
  have hlive : now - window < now := Int.sub_lt_self now (by decide)
  simp [recent, hlive]

theorem recent_added (ip : Option Text) (verdict : Verdict) (now : Int) (ip' : Text) :
    recent window now (added ip verdict now ip') = added ip verdict now ip' := by
  unfold added
  split
  · exact recent_now now
  · rfl

theorem recent_settle {s : State} {ip : Option Text} {verdict : Verdict} {now : Int}
    (hroom : HasRoom s) (horderly : Orderly s (Action.judge ip verdict now)) (ip' : Text) :
    recent window now (Fails.of (settle s.fails ip verdict now) ip') =
      recent window now (s.fails.of ip') ++ added ip verdict now ip' := by
  cases htracked : tracked ip with
  | none => simp [settle_untracked htracked, added, htracked]
  | some ip'' =>
      cases hfailed : verdict.failed with
      | true =>
          rw [settle_failed hfailed, of_recordFail hroom htracked]
          by_cases hip : ip' = ip''
          · rw [if_pos hip, recent_append, recent_now]
            simp [added, hfailed, htracked, hip]
          · simp [added, htracked, hip, Ne.symm hip]
      | false =>
          have hclean : verdict.endpoint ≠ Endpoint.enroll ->
              recent window now (s.fails.of ip'') = [] :=
            fun hlogin => horderly ip'' htracked hlogin hfailed
          rw [recent_settle_passed htracked hfailed hclean]
          simp [added, hfailed]

/-- The table and the history agree on what is recent, and no IP has more requests under
way than attempts left. -/
structure Counted (s : State) : Prop where
  entries : forall ip, recent window s.clock (s.fails.of ip) =
    recent window s.clock (s.failed ip)
  live : forall ip,
    (recent window s.clock (s.failed ip)).length + s.inProgress ip ≤ maxFails
  spans : Bounded s

theorem counted_of_started {s : State} (h : Started s) : Counted s := by
  constructor
  · intro ip
    rw [h.fails, h.failed]
    rfl
  · intro ip
    rw [h.failed, State.inProgress, h.requests]
    exact Nat.zero_le _
  · intro ip
    rw [h.failed]
    exact spansBounded_nil maxFails

section Steps

variable {s t : State} {now : Int}

theorem entries_later (h : Counted s) (hle : s.clock ≤ now) (ip : Text) :
    recent window now (s.fails.of ip) = recent window now (s.failed ip) :=
  recent_congr (h.entries ip) hle

theorem live_later (h : Counted s) (hle : s.clock ≤ now) (ip : Text) :
    (recent window now (s.failed ip)).length + s.inProgress ip ≤ maxFails :=
  le_trans (Nat.add_le_add_right (length_recent_le hle) _) (h.live ip)

theorem inProgress_erase {request : Request} (hmem : request ∈ s.requests) (ip : Text) :
    (s.requests.erase request).countP (fun r => tracked r.ip = some ip) +
        (if tracked request.ip = some ip then 1 else 0) = s.inProgress ip := by
  have hperm := (List.perm_cons_erase hmem).countP_eq fun r => tracked r.ip = some ip
  rw [List.countP_cons] at hperm
  simp only [decide_eq_true_eq] at hperm
  exact hperm.symm

theorem counted_arrive {request : Request} (h : Counted s)
    (horderly : Orderly s (Action.arrive request now))
    (hstep : step s (Action.arrive request now) = some t) : Counted t := by
  simp only [step, Option.ite_none_right_eq_some, Option.some.injEq] at hstep
  rcases hstep with ⟨hle, rfl⟩
  constructor
  · intro ip
    show recent window now (Fails.of (tooMany s.fails request.ip now).2 ip) = _
    rw [recent_tooMany]
    exact entries_later h hle ip
  · intro ip
    have hlive := live_later h hle ip
    cases hrefused : (tooMany s.fails request.ip now).1 with
    | true => simpa [hrefused, State.inProgress] using hlive
    | false =>
        by_cases htracked : tracked request.ip = some ip
        · have hfew : (recent window now (s.fails.of ip)).length < maxFails := by
            rw [← Nat.not_le, ← tooMany_iff htracked, hrefused]
            exact Bool.false_ne_true
          have hroom := horderly ip htracked hfew
          rw [entries_later h hle] at hroom
          simpa [State.inProgress, List.countP_cons, htracked, Nat.lt_iff_add_one_le,
            Nat.add_assoc] using hroom
        · simpa [State.inProgress, List.countP_cons, htracked] using hlive
  · exact h.spans

/-- A check that fails takes the place of its request. -/
theorem length_added_le (ip : Option Text) (verdict : Verdict) (ip' : Text) :
    (added ip verdict now ip').length ≤ if tracked ip = some ip' then 1 else 0 := by
  unfold added
  by_cases htracked : tracked ip = some ip' <;> cases verdict.failed <;> simp [htracked]

theorem counted_judge {ip : Option Text} {verdict : Verdict} (h : Counted s)
    (hroom : HasRoom s) (horderly : Orderly s (Action.judge ip verdict now))
    (hstep : step s (Action.judge ip verdict now) = some t) : Counted t := by
  simp only [step, Option.ite_none_right_eq_some, Option.some.injEq] at hstep
  rcases hstep with ⟨⟨hle, hmem⟩, rfl⟩
  constructor
  · intro ip'
    show recent window now (Fails.of (settle s.fails ip verdict now) ip') =
      recent window now (note s.failed ip verdict now ip')
    rw [recent_settle hroom horderly, note_apply, recent_append, recent_added,
      entries_later h hle]
  · intro ip'
    have hlive := live_later h hle ip'
    have hone : (added ip verdict now ip').length ≤ if tracked ip = some ip' then 1 else 0 :=
      length_added_le ip verdict ip'
    have hended := inProgress_erase hmem ip'
    show (recent window now (note s.failed ip verdict now ip')).length +
      (s.requests.erase ⟨verdict.endpoint, ip⟩).countP (fun r => tracked r.ip = some ip') ≤ _
    rw [note_apply, recent_append, recent_added, List.length_append]
    simp only at hended
    omega
  · intro ip'
    show SpansBounded window maxFails (note s.failed ip verdict now ip')
    rw [note_apply]
    by_cases hadded : verdict.failed = true ∧ tracked ip = some ip'
    · have hlive := live_later h hle ip'
      have hended := inProgress_erase hmem ip'
      rw [if_pos hadded.right] at hended
      rw [added, if_pos hadded]
      exact (h.spans ip').append (by omega)
    · rw [added, if_neg hadded, List.append_nil]
      exact h.spans ip'

theorem refuses_of_counted {a : Action} (h : Counted s) (hstep : step s a = some t) :
    Refuses s a := by
  cases a with
  | arrive request now =>
      simp only [step, Option.ite_none_right_eq_some] at hstep
      intro ip htracked hmany
      rw [tooMany_iff htracked, entries_later h hstep.left]
      exact hmany
  | judge ip verdict now =>
      simp only [step, Option.ite_none_right_eq_some] at hstep
      rcases hstep with ⟨⟨hle, hmem⟩, -⟩
      intro ip' htracked
      have hlive := live_later h hle ip'
      have hended := inProgress_erase hmem ip'
      rw [if_pos htracked] at hended
      omega

end Steps

/-!
# Every run
-/

theorem counted_step (s : State) (a : Action) (t : State) (h : Counted s)
    (hguard : HasRoom s ∧ Orderly s a) (hstep : machine.step s a = some t) : Counted t := by
  cases a with
  | arrive request now => exact counted_arrive h hguard.right hstep
  | judge ip verdict now => exact counted_judge h hguard.left hguard.right hstep

/--
As long as no sign-in clears failures that still count, and requests pass the throttle
only while the attempts left cover all that are under way, no span of the window has
more than the maximum of failed checks of an IP, and every attempt after them is
refused before its credential is looked at.
-/
theorem throttled_of_orderly {s t : State} {actions : List Action} (hs : Started s)
    (hexec : machine.exec s actions = some t) (hroom : machine.Always HasRoom s actions)
    (horderly : machine.Obeys Orderly s actions) :
    machine.Always Bounded s actions ∧ machine.Obeys Refuses s actions := by
  have hguard := hroom.obeys.and horderly
  have hcounted := counted_of_started hs
  constructor
  · exact (Machine.always_of_obeys counted_step hcounted hguard).imp fun _ h => h.spans
  · have hrefuses : forall s a t, Counted s -> machine.step s a = some t -> Refuses s a :=
      fun _ _ _ h hstep => refuses_of_counted h hstep
    exact Machine.obeys_of_obeys counted_step hrefuses hcounted hexec hguard

def start : State where
  fails := ∅
  requests := []
  clock := 0
  failed _ := []

theorem start_started : Started start := ⟨rfl, rfl, fun _ => rfl⟩

def attacker : Option Text := some ['a']

/-- A request that comes and is judged at once. -/
def attempt (verdict : Verdict) (now : Int) : List Action :=
  [Action.arrive ⟨verdict.endpoint, attacker⟩ now, Action.judge attacker verdict now]

/-- Guesses of all three kinds, until the throttle refuses the ninth. -/
def guesses : List Action :=
  attempt (Verdict.enroll EnrollCheck.noAgent) 1 ++
  attempt (Verdict.login LoginCheck.wrongPassword) 2 ++
  attempt (Verdict.loginSubmit LoginCheck.noUser) 3 ++
  attempt (Verdict.enroll EnrollCheck.enrolled) 4 ++
  attempt (Verdict.enroll EnrollCheck.tokenUsed) 5 ++
  attempt (Verdict.enroll EnrollCheck.noAgent) 6 ++
  attempt (Verdict.login LoginCheck.wrongPassword) 7 ++
  attempt (Verdict.enroll EnrollCheck.noAgent) 8 ++
  attempt (Verdict.enroll EnrollCheck.noAgent) 9 ++
  [Action.arrive ⟨Endpoint.login, attacker⟩ 10]

theorem throttled_of_guesses :
    (machine.exec start guesses).map (fun t => t.failed ['a']) = some [1, 2, 3, 5, 6, 7, 8, 9] ∧
      machine.Always Bounded start guesses ∧ machine.Obeys Refuses start guesses := by
  cases hexec : machine.exec start guesses with
  | none => exact absurd hexec (by decide +kernel)
  | some t =>
      constructor
      · rw [← hexec]
        decide +kernel
      · exact throttled_of_orderly start_started hexec (by decide +kernel) (by decide +kernel)

/-- Seven bad tokens, the attacker's own sign-in, and seven bad tokens more. -/
def evasion : List Action :=
  (List.range 7).flatMap (fun i => attempt (Verdict.enroll EnrollCheck.noAgent) i) ++
  attempt (Verdict.login LoginCheck.accepted) 7 ++
  (List.range 7).flatMap fun i => attempt (Verdict.enroll EnrollCheck.noAgent) (8 + i)

/-- The sign-in resets the bucket that the enrollments are counted in. -/
theorem unbounded_of_evasion :
    machine.Always HasRoom start evasion ∧
      exists t, machine.exec start evasion = some t ∧
        ¬ SpansBounded window maxFails (t.failed ['a']) := by
  constructor
  · decide +kernel
  · have hcount : (machine.exec start evasion).map (fun t =>
        (inSpan window 0 (t.failed ['a'])).length) = some 14 := by decide +kernel
    rcases Option.map_eq_some_iff.mp hcount with ⟨t, hexec, hlength⟩
    refine ⟨t, hexec, fun hbounded => ?_⟩
    have hle := hbounded 0
    rw [hlength] at hle
    exact absurd hle (by decide)

/-- Requests that come together all pass, and may all fail. -/
example : (machine.exec start
    (List.replicate 9 (Action.arrive ⟨Endpoint.enroll, attacker⟩ 0) ++
      List.replicate 9 (Action.judge attacker (Verdict.enroll EnrollCheck.noAgent) 1))).map
    (fun t => (inSpan window 0 (t.failed ['a'])).length) = some 9 := by decide +kernel

end Ratelimit
end Panel
end RcTunnel
