import RcTunnel.Foundation.Machine
import Mathlib.Data.List.Basic

/-!
# The staged renewal key

The agent keeps the key of a renewal that is under way in a field of the process,
and asks for no other renewal while there is one.  Requests and replies belong to a
session; the panel drops a request that comes too early or that it cannot sign, and
says nothing.

The main results say which runs keep a staged key asked for: those in which no
session begins with one.  A run also keeps the next check able to ask when no
request is dropped.
-/

namespace RcTunnel
namespace Agent

open Foundation

namespace RenewKey

def certRenewDays : Int := 30

/-- {lit}`RENEW_COOLDOWN_SECS` -/
def renewCooldownSecs : Int := 60

/-- A control session; keys stand for the requests and the certificates made for them. -/
structure Session where
  /-- history: the keys a request was sent for -/
  sent : List Nat
  /-- renew messages that the panel has not read yet -/
  requests : List Nat
  /-- renewed messages that the agent has not read yet -/
  replies : List Nat
  lastRenew : Int
deriving DecidableEq, Repr

structure State where
  renewKey : Option Nat
  session : Option Session
  /-- number of keys generated so far -/
  keys : Nat
deriving DecidableEq, Repr

inductive Action where
  | connect
  /-- {lit}`_maybe_request_renew` with the days that are left; {lit}`ws.send` fails when
  the connection is gone -/
  | check (left : Option Int) (sent : Bool)
  /-- the panel reads a renew message, at a time of its loop -/
  | handle (now : Int) (usable : Bool)
  /-- the agent reads a renewed message; writing the files may fail -/
  | reply (written : Bool)
  | disconnect
  /-- the process starts anew -/
  | restart
deriving DecidableEq, Repr

/-- The certificate is unreadable or near its end. -/
def Near (left : Option Int) : Prop := forall days, days ∈ left -> days ≤ certRenewDays

instance (left : Option Int) : Decidable (Near left) :=
  inferInstanceAs (Decidable (forall days, days ∈ left -> _))

def Session.opened : Session := ⟨[], [], [], 0⟩

def Session.request (c : Session) (key : Nat) : Session :=
  { c with sent := c.sent ++ [key], requests := c.requests ++ [key] }

/-- The panel signs the request. -/
def Session.Honored (c : Session) (now : Int) (usable : Bool) : Prop :=
  renewCooldownSecs ≤ now - c.lastRenew ∧ usable = true

instance (c : Session) (now : Int) (usable : Bool) : Decidable (c.Honored now usable) :=
  inferInstanceAs (Decidable (_ ∧ _))

/-- The renew branch of {lit}`_handle`. -/
def Session.handle (c : Session) (now : Int) (usable : Bool) : Option Session :=
  match c.requests with
  | [] => none
  | key :: rest =>
      if now - c.lastRenew < renewCooldownSecs then
        some { c with requests := rest }
      else
        some { c with
          requests := rest
          lastRenew := now
          replies := if usable then c.replies ++ [key] else c.replies }

/-- {lit}`_maybe_request_renew` -/
def State.maybeRequestRenew (s : State) (c : Session) (left : Option Int) (sent : Bool) :
    State :=
  if ¬ Near left ∨ s.renewKey ≠ none then
    s
  else
    { renewKey := some s.keys
      session := if sent then some (c.request s.keys) else none
      keys := s.keys + 1 }

/-- {lit}`_install_renewed`: after the installation the process starts anew. -/
def State.installRenewed (s : State) (c : Session) (rest : List Nat) (written : Bool) : State :=
  match s.renewKey with
  | none => { s with session := some { c with replies := rest } }
  | some _ =>
      if written then
        { s with renewKey := none, session := none }
      else
        { s with session := none }

def step (s : State) : Action -> Option State
  | Action.connect =>
      match s.session with
      | some _ => none
      | none => some { s with session := some Session.opened }
  | Action.check left sent =>
      match s.session with
      | none => none
      | some c => some (s.maybeRequestRenew c left sent)
  | Action.handle now usable =>
      match s.session with
      | none => none
      | some c => (c.handle now usable).map fun c' => { s with session := some c' }
  | Action.reply written =>
      match s.session with
      | none => none
      | some c =>
          match c.replies with
          | [] => none
          | _ :: rest => some (s.installRenewed c rest written)
  | Action.disconnect => some { s with session := none }
  | Action.restart => some { s with renewKey := none, session := none }

def initial : State := ⟨none, none, 0⟩

def machine : Machine State Action where
  init s := s = initial
  step := step

/-!
# Asked for again
-/

/-- A staged key was asked for on the session that is up. -/
def AskedFor (s : State) : Prop :=
  forall c, c ∈ s.session -> forall key, key ∈ s.renewKey -> key ∈ c.sent

/-- A request or its reply is on its way. -/
def Session.Outstanding (c : Session) : Prop := c.requests ≠ [] ∨ c.replies ≠ []

/-- When nothing is outstanding, the next check near the end of the certificate sends a
request. -/
def AsksAgain (s : State) : Prop :=
  forall c, c ∈ s.session -> ¬ c.Outstanding -> forall left, Near left ->
    exists key c', (s.maybeRequestRenew c left true).session = some c' ∧
      c'.requests = c.requests ++ [key]

/-- No session begins with a staged key. -/
def Unstaged (s : State) : Action -> Prop
  | Action.connect => s.renewKey = none
  | _ => True

instance (s : State) (a : Action) : Decidable (Unstaged s a) := by
  unfold Unstaged
  split <;> infer_instance

/-- The panel signs every request it reads. -/
def Answered (s : State) : Action -> Prop
  | Action.handle now usable => forall c, c ∈ s.session -> c.Honored now usable
  | _ => True

instance (s : State) (a : Action) : Decidable (Answered s a) := by
  unfold Answered
  split <;> infer_instance

/-!
# What is on its way
-/

/-- Requests and replies on the session are for the staged key, one of them at most. -/
structure Inv (s : State) : Prop where
  flight : forall c, s.session = some c ->
    c.requests ++ c.replies = [] ∨ exists key, s.renewKey = some key ∧
      c.requests ++ c.replies = [key]

/-- A staged key has its request or its reply on the way. -/
def Pending (s : State) : Prop :=
  forall c, s.session = some c -> forall key, s.renewKey = some key -> c.Outstanding

section Steps

variable {s t : State}

theorem outstanding_iff {c : Session} : c.Outstanding <-> c.requests ++ c.replies ≠ [] := by
  rw [Session.Outstanding, ne_eq, ne_eq, ne_eq, List.append_eq_nil_iff, not_and_or]

/-- A check that stages a key, and one that does nothing. -/
theorem maybeRequestRenew_cases (s : State) (c : Session) (left : Option Int) (sent : Bool) :
    s.maybeRequestRenew c left sent = s ∨
      (Near left ∧ s.renewKey = none ∧
        s.maybeRequestRenew c left sent =
          ⟨some s.keys, if sent then some (c.request s.keys) else none, s.keys + 1⟩) := by
  unfold State.maybeRequestRenew
  split
  · exact Or.inl rfl
  · rename_i hdue
    rw [not_or, not_not, not_not] at hdue
    exact Or.inr ⟨hdue.left, hdue.right, rfl⟩

/-- What a request leaves of the session when the panel has read it. -/
theorem handle_some {c c' : Session} {now : Int} {usable : Bool}
    (h : c.handle now usable = some c') :
    exists key rest, c.requests = key :: rest ∧ c'.sent = c.sent ∧ c'.requests = rest ∧
      ((c.Honored now usable ∧ c'.replies = c.replies ++ [key]) ∨
        (¬ c.Honored now usable ∧ c'.replies = c.replies)) := by
  unfold Session.handle at h
  cases hrequests : c.requests with
  | nil =>
      rw [hrequests] at h
      cases h
  | cons key rest =>
      rw [hrequests] at h
      simp only at h
      refine ⟨key, rest, rfl, ?_⟩
      split at h
      · rename_i hearly
        cases h
        refine ⟨rfl, rfl, Or.inr ⟨?_, rfl⟩⟩
        intro hhonored
        exact absurd hhonored.left (Int.not_le.mpr hearly)
      · rename_i hlate
        cases h
        refine ⟨rfl, rfl, ?_⟩
        cases usable with
        | true => exact Or.inl ⟨⟨Int.not_lt.mp hlate, rfl⟩, rfl⟩
        | false =>
            right
            constructor
            · intro hhonored
              cases hhonored.right
            · rfl

/-- What is on its way, taken apart at the first request. -/
theorem Inv.of_requests (h : Inv s) {c : Session} (hc : s.session = some c) {key : Nat}
    {rest : List Nat} (hrequests : c.requests = key :: rest) :
    s.renewKey = some key ∧ rest = [] ∧ c.replies = [] := by
  rcases h.flight c hc with hnone | ⟨key', hkey, hone⟩
  · rw [hrequests] at hnone
    cases hnone
  · rw [hrequests, List.cons_append] at hone
    rcases List.cons.inj hone with ⟨rfl, htail⟩
    exact ⟨hkey, List.append_eq_nil_iff.mp htail⟩

theorem Inv.of_replies (h : Inv s) {c : Session} (hc : s.session = some c) {key : Nat}
    {rest : List Nat} (hreplies : c.replies = key :: rest) : s.renewKey ≠ none := by
  intro hkey
  rcases h.flight c hc with hnone | ⟨key', hsome, -⟩
  · rw [(List.append_eq_nil_iff.mp hnone).right] at hreplies
    cases hreplies
  · rw [hkey] at hsome
    cases hsome

/-- Nothing is on its way without a staged key. -/
theorem Inv.idle (h : Inv s) {c : Session} (hc : s.session = some c)
    (hkey : s.renewKey = none) : c.requests ++ c.replies = [] := by
  rcases h.flight c hc with hnone | ⟨key', hsome, -⟩
  · exact hnone
  · rw [hkey] at hsome
    cases hsome

/-- The session ends when a reply is installed, and when it cannot be. -/
theorem installRenewed_staged (h : s.renewKey ≠ none) (c : Session) (rest : List Nat)
    (written : Bool) : (s.installRenewed c rest written).session = none := by
  unfold State.installRenewed
  split
  · rename_i hnone
    exact absurd hnone h
  · split <;> rfl

/-- A step from a state of the invariant, as far as the session that follows it. -/
theorem step_cases {a : Action} (h : Inv s) (hstep : step s a = some t) :
    t.session = none ∨ t = s ∨
      (a = Action.connect ∧ t = { s with session := some Session.opened }) ∨
      (exists c, s.session = some c ∧ s.renewKey = none ∧
        t = ⟨some s.keys, some (c.request s.keys), s.keys + 1⟩) ∨
      (exists c c' now usable, a = Action.handle now usable ∧ s.session = some c ∧
        c.handle now usable = some c' ∧ t = { s with session := some c' }) := by
  cases a with
  | connect =>
      simp only [step] at hstep
      split at hstep
      · cases hstep
      · cases hstep
        exact Or.inr (Or.inr (Or.inl ⟨rfl, rfl⟩))
  | check left sent =>
      simp only [step] at hstep
      split at hstep
      · cases hstep
      · rename_i c hc
        cases hstep
        rcases maybeRequestRenew_cases s c left sent with hsame | ⟨-, hkey, hstaged⟩
        · exact Or.inr (Or.inl hsame)
        · rw [hstaged]
          cases sent with
          | false => exact Or.inl rfl
          | true => exact Or.inr (Or.inr (Or.inr (Or.inl ⟨c, hc, hkey, rfl⟩)))
  | handle now usable =>
      simp only [step] at hstep
      split at hstep
      · cases hstep
      · rename_i c hc
        rcases Option.map_eq_some_iff.mp hstep with ⟨c', hhandle, rfl⟩
        exact Or.inr (Or.inr (Or.inr (Or.inr ⟨c, c', now, usable, rfl, hc, hhandle, rfl⟩)))
  | reply written =>
      simp only [step] at hstep
      split at hstep
      · cases hstep
      · rename_i c hc
        split at hstep
        · cases hstep
        · rename_i key rest hreplies
          cases hstep
          exact Or.inl (installRenewed_staged (h.of_replies hc hreplies) c rest written)
  | disconnect =>
      cases hstep
      exact Or.inl rfl
  | restart =>
      cases hstep
      exact Or.inl rfl

theorem inv_step {a : Action} (h : Inv s) (hstep : step s a = some t) : Inv t := by
  constructor
  intro u hu
  rcases step_cases h hstep with hdown | rfl | ⟨-, rfl⟩ | ⟨c, hc, hkey, rfl⟩ |
    ⟨c, c', now, usable, -, hc, hhandle, rfl⟩
  · rw [hdown] at hu
    cases hu
  · exact h.flight u hu
  · cases hu
    exact Or.inl rfl
  · cases hu
    rcases List.append_eq_nil_iff.mp (h.idle hc hkey) with ⟨hrequests, hreplies⟩
    refine Or.inr ⟨s.keys, rfl, ?_⟩
    simp [Session.request, hrequests, hreplies]
  · cases hu
    rcases handle_some hhandle with ⟨key, rest, hrequests, -, hrest, hanswer⟩
    rcases h.of_requests hc hrequests with ⟨hkey, rfl, hreplies⟩
    rw [hrest, List.nil_append]
    rcases hanswer with ⟨-, hsigned⟩ | ⟨-, hdropped⟩
    · refine Or.inr ⟨key, hkey, ?_⟩
      rw [hsigned, hreplies]
      rfl
    · left
      rw [hdropped, hreplies]

/-!
# One step
-/

theorem askedFor_step {a : Action} (h : Inv s) (hasked : AskedFor s) (hguard : Unstaged s a)
    (hstep : step s a = some t) : AskedFor t := by
  intro u hu key hkey
  rcases step_cases h hstep with hdown | rfl | ⟨rfl, rfl⟩ | ⟨c, hc, -, rfl⟩ |
    ⟨c, c', now, usable, -, hc, hhandle, rfl⟩
  · rw [hdown] at hu
    cases hu
  · exact hasked u hu key hkey
  · rw [show s.renewKey = none from hguard] at hkey
    cases hkey
  · cases hu
    cases hkey
    exact List.mem_append_right _ List.mem_cons_self
  · cases hu
    rcases handle_some hhandle with ⟨-, -, -, hsent, -⟩
    rw [hsent]
    exact hasked c hc key hkey

theorem not_askedFor_step {a : Action} (hguard : ¬ Unstaged s a) (hstep : step s a = some t) :
    ¬ AskedFor t := by
  intro hasked
  cases a with
  | connect =>
      simp only [step] at hstep
      split at hstep
      · cases hstep
      · cases hstep
        rcases Option.ne_none_iff_exists'.mp hguard with ⟨key, hkey⟩
        cases hasked Session.opened rfl key hkey
  | check left sent => exact hguard trivial
  | handle now usable => exact hguard trivial
  | reply written => exact hguard trivial
  | disconnect => exact hguard trivial
  | restart => exact hguard trivial

/-- The next check is able to ask exactly when a staged key is waited for. -/
theorem asksAgain_iff : AsksAgain s <-> Pending s := by
  constructor
  · intro hasks c hc key hkey
    by_contra hidle
    have hnear : Near none := by
      intro days hdays
      cases hdays
    rcases hasks c hc hidle none hnear with ⟨key', c', hc', hrequests⟩
    have hsame : s.maybeRequestRenew c none true = s := by
      unfold State.maybeRequestRenew
      rw [if_pos]
      rw [hkey]
      exact Or.inr (Option.some_ne_none key)
    rw [hsame, hc] at hc'
    cases hc'
    have hlength := congrArg List.length hrequests
    simp at hlength
  · intro hpending c hc hidle left hnear
    have hkey : s.renewKey = none := by
      by_contra hsome
      rcases Option.ne_none_iff_exists'.mp hsome with ⟨key, hkey⟩
      exact hidle (hpending c hc key hkey)
    refine ⟨s.keys, c.request s.keys, ?_, rfl⟩
    unfold State.maybeRequestRenew
    rw [if_neg]
    · rfl
    · rw [not_or, not_not, not_not]
      exact ⟨hnear, hkey⟩

theorem pending_step {a : Action} (h : Inv s) (hpending : Pending s) (hguard : Unstaged s a)
    (hanswered : Answered s a) (hstep : step s a = some t) : Pending t := by
  intro u hu key hkey
  rcases step_cases h hstep with hdown | rfl | ⟨rfl, rfl⟩ | ⟨c, hc, -, rfl⟩ |
    ⟨c, c', now, usable, rfl, hc, hhandle, rfl⟩
  · rw [hdown] at hu
    cases hu
  · exact hpending u hu key hkey
  · rw [show s.renewKey = none from hguard] at hkey
    cases hkey
  · cases hu
    left
    exact List.append_ne_nil_of_right_ne_nil _ (List.cons_ne_nil _ _)
  · cases hu
    rcases handle_some hhandle with ⟨key, rest, -, -, -, ⟨-, hsigned⟩ | ⟨hnot, -⟩⟩
    · right
      rw [hsigned]
      exact List.append_ne_nil_of_right_ne_nil _ (List.cons_ne_nil _ _)
    · exact absurd (hanswered c hc) hnot

/-- A dropped request leaves its key staged and nothing on the way. -/
theorem not_pending_step {a : Action} (h : Inv s) (hanswered : ¬ Answered s a)
    (hstep : step s a = some t) : ¬ Pending t := by
  intro hpending
  cases a with
  | handle now usable =>
      simp only [step] at hstep
      split at hstep
      · cases hstep
      · rename_i c hc
        rcases Option.map_eq_some_iff.mp hstep with ⟨c', hhandle, rfl⟩
        rcases handle_some hhandle with ⟨key, rest, hrequests, -, hrest, hanswer⟩
        rcases h.of_requests hc hrequests with ⟨hkey, rfl, hreplies⟩
        rcases hanswer with ⟨hhonored, -⟩ | ⟨-, hdropped⟩
        · apply hanswered
          intro c'' hc''
          rw [Option.mem_def, hc] at hc''
          cases hc''
          exact hhonored
        · have hout := outstanding_iff.mp (hpending c' rfl key hkey)
          rw [hrest, hdropped, hreplies] at hout
          exact hout rfl
  | connect => exact hanswered trivial
  | check left sent => exact hanswered trivial
  | reply written => exact hanswered trivial
  | disconnect => exact hanswered trivial
  | restart => exact hanswered trivial

end Steps

/-!
# The run
-/

theorem inv_initial : Inv initial where
  flight := by
    intro c hc
    cases hc

theorem askedFor_initial : AskedFor initial := by
  intro c hc
  cases hc

theorem pending_initial : Pending initial := by
  intro c hc
  cases hc

/-- A staged key is asked for on every session of a run exactly when no session begins
with one; and whenever nothing is outstanding the next check asks again exactly when
the panel signs every request besides. -/
theorem askedFor_iff_unstaged {t : State} {actions : List Action}
    (hexec : machine.exec initial actions = some t) :
    (machine.Always AskedFor initial actions <-> machine.Obeys Unstaged initial actions) ∧
    (machine.Always (fun s => AskedFor s ∧ AsksAgain s) initial actions <->
      machine.Obeys (fun s a => Unstaged s a ∧ Answered s a) initial actions) := by
  constructor
  · refine Machine.always_iff_obeys (I := fun s => Inv s ∧ AskedFor s) (fun s h => h.right)
      ?_ ?_ ⟨inv_initial, askedFor_initial⟩ hexec
    · intro s a t h hguard hstep
      exact ⟨inv_step h.left hstep, askedFor_step h.left h.right hguard hstep⟩
    · intro s a t _ hnot hstep
      exact not_askedFor_step hnot hstep
  · refine Machine.always_iff_obeys (I := fun s => Inv s ∧ AskedFor s ∧ Pending s)
      (fun s h => ⟨h.right.left, asksAgain_iff.mpr h.right.right⟩)
      ?_ ?_ ⟨inv_initial, askedFor_initial, pending_initial⟩ hexec
    · intro s a t h hguard hstep
      exact ⟨inv_step h.left hstep, askedFor_step h.left h.right.left hguard.left hstep,
        pending_step h.left h.right.right hguard.left hguard.right hstep⟩
    · intro s a t h hnot hstep hP
      rcases Classical.not_and_iff_not_or_not.mp hnot with hstaged | hdropped
      · exact not_askedFor_step hstaged hstep hP.left
      · exact not_pending_step h.left hdropped hstep (asksAgain_iff.mp hP.right)

/-- A renewal that the agent installs before its next session. -/
def renewal : List Action :=
  [Action.connect, Action.check (some 90) true, Action.disconnect, Action.connect,
    Action.check (some 5) true, Action.check none true, Action.handle 100 true,
    Action.reply true, Action.connect, Action.check (some 365) true]

theorem askedFor_of_renewal : machine.Always AskedFor initial renewal ∧
    machine.Always (fun s => AskedFor s ∧ AsksAgain s) initial renewal :=
  ⟨(askedFor_iff_unstaged rfl).left.mpr (by decide),
    (askedFor_iff_unstaged rfl).right.mpr (by decide)⟩

/-- The connection is lost between the request and the reply. -/
theorem unasked_of_lostReply :
    ¬ forall s, machine.Reachable s -> AskedFor s ∧ AsksAgain s := by
  intro hall
  have hreach : machine.Reachable ⟨some 0, some Session.opened, 1⟩ :=
    ⟨initial, [Action.connect, Action.check (some 5) true, Action.disconnect, Action.connect],
      rfl, rfl⟩
  cases (hall _ hreach).left Session.opened rfl 0 rfl

end RenewKey

end Agent
end RcTunnel
