import RcTunnel.Foundation.Machine
import RcTunnel.Panel.AgentRow

/-!
# The certificate files of the agent

An enrollment and a renewal write the key, the certificate and the CA one after the
other, once the panel has burned the token or pinned the new serial.  The agent may
crash between any two writes, and when it starts anew it only asks whether the three
files are there.

The main result says which runs leave the files usable whenever the agent is down:
those in which it never goes down between the panel's answer and the write that makes
the files complete again.
-/

namespace RcTunnel
namespace Agent

open Foundation
open Panel

namespace Certificates

/-- The files, each as the number of the key it was made for. -/
structure Disk where
  key : Option Nat
  crt : Option Nat
  ca : Option Nat
deriving DecidableEq, Repr

inductive File where
  | key
  | crt
  | ca
deriving DecidableEq, Repr

def Disk.put (d : Disk) (n : Nat) : File -> Disk
  | File.key => { d with key := some n }
  | File.crt => { d with crt := some n }
  | File.ca => { d with ca := some n }

/-- Where the agent process is; {lit}`again` tells an enrollment or renewal of a running
agent, which starts the process anew at its end, from the first enrollment. -/
inductive Process where
  | down
  | running
  /-- {lit}`_enroll` has sent its request; the panel may have handled it -/
  | requested (again : Bool) (key : Nat) (burned : Bool)
  /-- the file that is written next, and whether the CA comes with the certificate -/
  | writing (again : Bool) (key : Nat) (ca : Bool) (next : File)
deriving DecidableEq, Repr

structure State where
  disk : Disk
  row : AgentRow
  process : Process
  /-- {lit}`_renew_key`, and whether the panel has signed the request for it -/
  renewKey : Option (Nat × Bool)
  /-- number of keys generated so far -/
  keys : Nat
deriving DecidableEq, Repr

inductive Action where
  /-- the operator reissues the token and configures the agent with it -/
  | provision (token : String)
  /-- the process starts: {lit}`ensure_enrolled` -/
  | start
  /-- {lit}`run` enrolls again when the server cannot be verified -/
  | enrollAgain
  /-- the panel handles the enrollment -/
  | enroll (serial : Nat)
  /-- the answer reaches the agent -/
  | respond
  /-- the request fails, or its answer is lost -/
  | fail
  /-- {lit}`_maybe_request_renew` stages a key -/
  | stage
  /-- the panel signs the request of the staged key -/
  | sign (serial : Nat)
  /-- {lit}`_install_renewed` -/
  | install (ca : Bool)
  /-- one file is written -/
  | write
  | crash
deriving DecidableEq, Repr

/-- The process is gone. -/
def State.exit (s : State) : State := { s with process := Process.down, renewKey := none }

/-- The end of an enrollment that failed. -/
def State.failed (s : State) : Bool -> State
  | false => s.exit
  | true => { s with process := Process.running }

/-- The end of {lit}`_enroll` and of {lit}`_install_renewed`; the second starts the process
anew, and so does {lit}`run` after it has enrolled again. -/
def State.written (s : State) : Bool -> State
  | false => { s with process := Process.running }
  | true => s.exit

def Disk.Exists (d : Disk) : Prop := d.key ≠ none ∧ d.crt ≠ none ∧ d.ca ≠ none

instance (d : Disk) : Decidable d.Exists := inferInstanceAs (Decidable (_ ∧ _))

def step (s : State) : Action -> Option State
  | Action.provision token =>
      match s.process with
      | Process.down => some { s with row := (reissueToken token s.row).1 }
      | _ => none
  | Action.start =>
      match s.process with
      | Process.down =>
          if s.disk.Exists then
            some { s with process := Process.running }
          else
            some { s with process := Process.requested false s.keys false, keys := s.keys + 1 }
      | _ => none
  | Action.enrollAgain =>
      match s.process with
      | Process.running =>
          some { s with process := Process.requested true s.keys false, keys := s.keys + 1 }
      | _ => none
  | Action.enroll serial =>
      match s.process with
      | Process.requested again key false =>
          match burnToken serial s.row with
          | none => some (s.failed again)
          | some row => some { s with row := row, process := Process.requested again key true }
      | _ => none
  | Action.respond =>
      match s.process with
      | Process.requested again key true =>
          some { s with process := Process.writing again key true File.key }
      | _ => none
  | Action.fail =>
      match s.process with
      | Process.requested again _ _ => some (s.failed again)
      | _ => none
  | Action.stage =>
      match s.process, s.renewKey with
      | Process.running, none =>
          some { s with renewKey := some (s.keys, false), keys := s.keys + 1 }
      | _, _ => none
  | Action.sign serial =>
      match s.renewKey with
      | some (key, false) =>
          some { s with row := renewCert serial s.row, renewKey := some (key, true) }
      | _ => none
  | Action.install ca =>
      match s.process, s.renewKey with
      | Process.running, some (key, true) =>
          some { s with process := Process.writing true key ca File.key }
      | _, _ => none
  | Action.write =>
      match s.process with
      | Process.writing again key ca File.key =>
          some { s with
            disk := s.disk.put key File.key
            process := Process.writing again key ca File.crt }
      | Process.writing again key true File.crt =>
          some { s with
            disk := s.disk.put key File.crt
            process := Process.writing again key true File.ca }
      | Process.writing again key false File.crt =>
          some (State.written { s with disk := s.disk.put key File.crt } again)
      | Process.writing again key _ File.ca =>
          some (State.written { s with disk := s.disk.put key File.ca } again)
      | _ => none
  | Action.crash =>
      match s.process with
      | Process.down => none
      | _ => some s.exit

/-!
# Usable files
-/

/-- The three files are there, and the key is the certificate's. -/
def Disk.Complete (d : Disk) : Prop := d.key ≠ none ∧ d.key = d.crt ∧ d.ca ≠ none

instance (d : Disk) : Decidable d.Complete := inferInstanceAs (Decidable (_ ∧ _))

/-- The agent has its certificate, or it has none and can still enroll. -/
def Usable (d : Disk) (row : AgentRow) : Prop :=
  d.Complete ∨ d.crt = none ∧ row.tokenUsed = false

instance (d : Disk) (row : AgentRow) : Decidable (Usable d row) :=
  inferInstanceAs (Decidable (_ ∨ _))

/-- Whenever the agent is down its files are usable. -/
def UsableDown (s : State) : Prop := s.process = Process.down -> Usable s.disk s.row

instance (s : State) : Decidable (UsableDown s) := inferInstanceAs (Decidable (_ -> _))

/-- Where the process may go down: not between the panel's answer and a first
certificate, not between a key and its certificate, and not before a first CA. -/
def Process.Safe (d : Disk) : Process -> Prop
  | Process.down => True
  | Process.running => True
  | Process.requested _ _ burned => burned = true -> d.crt ≠ none
  | Process.writing _ _ _ File.key => d.crt ≠ none
  | Process.writing _ _ _ File.crt => False
  | Process.writing _ _ _ File.ca => d.ca ≠ none

instance (d : Disk) : forall p : Process, Decidable (p.Safe d)
  | Process.down => inferInstanceAs (Decidable True)
  | Process.running => inferInstanceAs (Decidable True)
  | Process.requested _ _ _ => inferInstanceAs (Decidable (_ -> _))
  | Process.writing _ _ _ File.key => inferInstanceAs (Decidable (_ ≠ _))
  | Process.writing _ _ _ File.crt => inferInstanceAs (Decidable False)
  | Process.writing _ _ _ File.ca => inferInstanceAs (Decidable (_ ≠ _))

/-- The agent only goes down, and an enrollment only fails, where it may. -/
def SafeStop (s : State) : Action -> Prop
  | Action.crash => s.process.Safe s.disk
  | Action.fail => s.process.Safe s.disk
  | _ => True

instance (s : State) (a : Action) : Decidable (SafeStop s a) := by
  unfold SafeStop
  split <;> infer_instance

/-- The agent is down, and the files are usable. -/
structure Installed (s : State) : Prop where
  process : s.process = Process.down
  renewKey : s.renewKey = none
  usable : Usable s.disk s.row
  old : forall n, s.disk.crt = some n -> n < s.keys

def machine : Machine State Action where
  init := Installed
  step := step

/-!
# What the files hold
-/

/-- The files before a new key is written: complete, or without a certificate. -/
def Before (d : Disk) (row : AgentRow) : Bool -> Bool -> Prop
  | true, _ => d.Complete
  | false, burned => d.crt = none ∧ row.tokenUsed = burned

/-- What the files hold at each point of the process. -/
def Process.Holds (d : Disk) (row : AgentRow) : Process -> Prop
  | Process.down => Usable d row
  | Process.running => d.Complete
  | Process.requested again _ burned => Before d row again burned
  | Process.writing again _ ca File.key => Before d row again true ∧ (again = true ∨ ca = true)
  | Process.writing _ key ca File.crt =>
      d.key = some key ∧ (d.crt = none -> row.tokenUsed = true) ∧ (d.ca ≠ none ∨ ca = true)
  | Process.writing _ key _ File.ca => d.key = some key ∧ d.crt = some key

/-- The key that the process works on, while no certificate has it. -/
def Process.pending : Process -> Option Nat
  | Process.down => none
  | Process.running => none
  | Process.requested _ key _ => some key
  | Process.writing _ key _ File.key => some key
  | Process.writing _ key _ File.crt => some key
  | Process.writing _ _ _ File.ca => none

/-- The process may have a staged key, and has written nothing yet. -/
def Process.Stages : Process -> Prop
  | Process.running => True
  | Process.requested again _ _ => again = true
  | _ => False

/-- A running agent writes, and starts anew when it is done. -/
def Process.Replaces : Process -> Prop
  | Process.writing again _ _ _ => again = true
  | _ => False

/-- A key that no certificate on the disk has. -/
def Fresh (d : Disk) (keys key : Nat) : Prop :=
  key < keys ∧ forall n, d.crt = some n -> n < key

structure Inv (s : State) : Prop where
  holds : s.process.Holds s.disk s.row
  old : forall n, s.disk.crt = some n -> n < s.keys
  pending : forall key, s.process.pending = some key -> Fresh s.disk s.keys key
  staged : forall key signed, s.renewKey = some (key, signed) ->
    s.process.Replaces ∨ s.process.Stages ∧ Fresh s.disk s.keys key

section Files

variable {d : Disk} {row : AgentRow}

theorem Disk.Complete.crt (h : d.Complete) : d.crt ≠ none := by
  rw [← h.right.left]
  exact h.left

theorem usable_of_crt (h : d.crt ≠ none) : Usable d row <-> d.Complete := by
  constructor
  · intro husable
    exact husable.resolve_right fun hnone => h hnone.left
  · exact Or.inl

theorem usable_of_no_crt (h : d.crt = none) : Usable d row <-> row.tokenUsed = false := by
  constructor
  · intro husable
    rcases husable with hcomplete | hnone
    · exact absurd h hcomplete.crt
    · exact hnone.right
  · intro hunused
    exact Or.inr ⟨h, hunused⟩

/-- Before a new key is written the files are usable, unless the token is burned for a
first certificate. -/
theorem Before.usable_iff {again burned : Bool} (h : Before d row again burned) :
    Usable d row <-> (burned = true -> d.crt ≠ none) := by
  cases again with
  | true =>
      have hcomplete : d.Complete := h
      exact iff_of_true (Or.inl hcomplete) fun _ => hcomplete.crt
  | false =>
      rcases h with ⟨hcrt, hused⟩
      rw [usable_of_no_crt hcrt, hused, hcrt]
      simp

/-- Of the row only the token matters. -/
theorem Process.holds_row {p : Process} {row' : AgentRow} (h : p.Holds d row)
    (hused : row'.tokenUsed = row.tokenUsed) : p.Holds d row' := by
  have hbefore : forall {again burned : Bool}, Before d row again burned ->
      Before d row' again burned := by
    intro again burned hbefore
    cases again with
    | true => exact hbefore
    | false => exact ⟨hbefore.left, hused.trans hbefore.right⟩
  cases p with
  | down => exact h.imp_right fun hnone => ⟨hnone.left, hused.trans hnone.right⟩
  | running => exact h
  | requested again key burned => exact hbefore h
  | writing again key ca next =>
      cases next with
      | key => exact ⟨hbefore h.left, h.right⟩
      | crt => exact ⟨h.left, fun hcrt => hused.trans (h.right.left hcrt), h.right.right⟩
      | ca => exact h

end Files

/-- The files are usable exactly where the process may go down. -/
theorem usable_iff_safe {s : State} (h : Inv s) :
    Usable s.disk s.row <-> s.process.Safe s.disk := by
  have hholds := h.holds
  have hpending := h.pending
  cases hp : s.process with
  | down =>
      rw [hp] at hholds
      exact iff_of_true hholds trivial
  | running =>
      rw [hp] at hholds
      exact iff_of_true (Or.inl hholds) trivial
  | requested again key burned =>
      rw [hp] at hholds
      exact Before.usable_iff hholds
  | writing again key ca next =>
      cases next with
      | key =>
          rw [hp] at hholds
          exact (Before.usable_iff hholds.left).trans (forall_prop_of_true rfl)
      | crt =>
          rw [hp] at hholds hpending
          rcases hholds with ⟨hkey, hused, -⟩
          refine iff_of_false ?_ not_false
          rintro (⟨-, hmatch, -⟩ | ⟨hcrt, hunused⟩)
          · rw [hkey] at hmatch
            exact Nat.lt_irrefl key ((hpending key rfl).right key hmatch.symm)
          · rw [hused hcrt] at hunused
            cases hunused
      | ca =>
          rw [hp] at hholds
          rcases hholds with ⟨hkey, hcrt⟩
          have hsome : s.disk.crt ≠ none := by
            rw [hcrt]
            exact Option.some_ne_none key
          rw [usable_of_crt hsome, Disk.Complete, hkey, hcrt]
          constructor
          · intro hcomplete
            exact hcomplete.right.right
          · intro hca
            exact ⟨Option.some_ne_none key, rfl, hca⟩

/-!
# One step
-/

section Steps

variable {s t : State}

theorem inv_of_installed (h : Installed s) : Inv s where
  holds := by
    rw [h.process]
    exact h.usable
  old := h.old
  pending := by
    intro key hkey
    rw [h.process] at hkey
    cases hkey
  staged := by
    intro key signed hstaged
    rw [h.renewKey] at hstaged
    cases hstaged

/-- The process goes down where it may. -/
theorem Inv.exit (h : Inv s) (husable : Usable s.disk s.row) : Inv s.exit where
  holds := husable
  old := h.old
  pending := by
    intro key hkey
    cases hkey
  staged := by
    intro key signed hstaged
    cases hstaged

/-- A running agent goes on. -/
theorem Inv.resume (h : Inv s) (hcomplete : s.disk.Complete)
    (hreplaces : ¬ s.process.Replaces) : Inv { s with process := Process.running } where
  holds := hcomplete
  old := h.old
  pending := by
    intro key hkey
    cases hkey
  staged := by
    intro key signed hstaged
    exact Or.inr ⟨trivial, ((h.staged key signed hstaged).resolve_left hreplaces).right⟩

theorem Fresh.mono {d : Disk} {keys key : Nat} (h : Fresh d keys key) :
    Fresh d (keys + 1) key :=
  ⟨Nat.lt_succ_of_lt h.left, h.right⟩

/-- A new key is fresh. -/
theorem Inv.fresh (h : Inv s) : Fresh s.disk (s.keys + 1) s.keys :=
  ⟨Nat.lt_succ_self s.keys, h.old⟩

/-- There is no staged key outside of a running agent. -/
theorem Inv.unstaged (h : Inv s) (hreplaces : ¬ s.process.Replaces)
    (hstages : ¬ s.process.Stages) : s.renewKey = none := by
  cases hkey : s.renewKey with
  | none => rfl
  | some staged =>
      rcases h.staged staged.1 staged.2 hkey with hrep | ⟨hst, -⟩
      · exact absurd hrep hreplaces
      · exact absurd hst hstages

theorem Inv.old_succ (h : Inv s) : forall n, s.disk.crt = some n -> n < s.keys + 1 :=
  fun n hn => Nat.lt_succ_of_lt (h.old n hn)

theorem inv_start (h : Inv s) (hstep : step s Action.start = some t) : Inv t := by
  simp only [step] at hstep
  split at hstep
  · rename_i hp
    have hholds := h.holds
    rw [hp] at hholds
    have hnone : s.renewKey = none := by
      apply h.unstaged <;> simp [hp, Process.Replaces, Process.Stages]
    split at hstep
    · rename_i hexists
      cases hstep
      have hcomplete := (usable_of_crt hexists.right.left).mp hholds
      apply h.resume hcomplete
      simp [hp, Process.Replaces]
    · rename_i hmissing
      cases hstep
      have hcomplete : ¬ s.disk.Complete := by
        intro hcomplete
        exact hmissing ⟨hcomplete.left, hcomplete.crt, hcomplete.right.right⟩
      constructor
      · exact hholds.resolve_left hcomplete
      · exact h.old_succ
      · intro key hkey
        cases hkey
        exact h.fresh
      · intro key signed hstaged
        rw [hnone] at hstaged
        cases hstaged
  · cases hstep

theorem inv_enroll {serial : Nat} (h : Inv s)
    (hstep : step s (Action.enroll serial) = some t) : Inv t := by
  simp only [step] at hstep
  split at hstep
  · rename_i again key hp
    have hholds := h.holds
    rw [hp] at hholds
    split at hstep
    · rename_i hburn
      cases hstep
      cases again with
      | true =>
          apply h.resume hholds
          simp [hp, Process.Replaces]
      | false =>
          rw [burnToken_eq_none, hholds.right] at hburn
          cases hburn
    · rename_i row hburn
      cases hstep
      rcases burnToken_eq_some hburn with ⟨-, rfl⟩
      constructor
      · cases again with
        | true => exact hholds
        | false => exact ⟨hholds.left, rfl⟩
      · exact h.old
      · intro key' hkey'
        apply h.pending
        rw [hp]
        exact hkey'
      · intro key' signed hstaged
        have hold := h.staged key' signed hstaged
        rw [hp] at hold
        exact hold
  · cases hstep

theorem inv_respond (h : Inv s) (hstep : step s Action.respond = some t) : Inv t := by
  simp only [step] at hstep
  split at hstep
  · rename_i again key hp
    have hholds := h.holds
    rw [hp] at hholds
    cases hstep
    constructor
    · exact ⟨hholds, Or.inr rfl⟩
    · exact h.old
    · intro key' hkey'
      apply h.pending
      rw [hp]
      exact hkey'
    · intro key' signed hstaged
      have hold := h.staged key' signed hstaged
      rw [hp] at hold
      rcases hold with hrep | ⟨hst, -⟩
      · cases hrep
      · exact Or.inl hst
  · cases hstep

theorem inv_install {ca : Bool} (h : Inv s) (hstep : step s (Action.install ca) = some t) :
    Inv t := by
  simp only [step] at hstep
  split at hstep
  · rename_i key hp hkey
    have hholds := h.holds
    rw [hp] at hholds
    cases hstep
    constructor
    · exact ⟨hholds, Or.inl rfl⟩
    · exact h.old
    · intro key' hkey'
      cases hkey'
      rcases h.staged key true hkey with hrep | ⟨-, hfresh⟩
      · rw [hp] at hrep
        cases hrep
      · exact hfresh
    · intro key' signed hstaged
      exact Or.inl rfl
  · cases hstep

/-- The last file is written. -/
theorem Inv.written {disk : Disk} (h : Inv s) (hcomplete : disk.Complete)
    (hold : forall n, disk.crt = some n -> n < s.keys) {again ca : Bool} {key : Nat} {next : File}
    (hp : s.process = Process.writing again key ca next) :
    Inv (State.written { s with disk := disk } again) := by
  cases again with
  | true =>
      constructor
      · exact Or.inl hcomplete
      · exact hold
      · intro key' hkey'
        cases hkey'
      · intro key' signed hstaged
        cases hstaged
  | false =>
      have hnone : s.renewKey = none := by
        apply h.unstaged <;> simp [hp, Process.Replaces, Process.Stages]
      constructor
      · exact hcomplete
      · exact hold
      · intro key' hkey'
        cases hkey'
      · intro key' signed hstaged
        rw [show (State.written { s with disk := disk } false).renewKey = none from hnone]
          at hstaged
        cases hstaged

/-- The staged key of a process that writes. -/
theorem Inv.staged_writing (h : Inv s) {again ca : Bool} {key : Nat} {next : File}
    (hp : s.process = Process.writing again key ca next) {staged : Nat} {signed : Bool}
    (hstaged : s.renewKey = some (staged, signed)) : again = true := by
  have hold := h.staged staged signed hstaged
  rw [hp] at hold
  exact hold.resolve_right fun hstages => hstages.left

theorem inv_write (h : Inv s) (hstep : step s Action.write = some t) : Inv t := by
  have hholds := h.holds
  have hpending := h.pending
  simp only [step] at hstep
  split at hstep
  · rename_i again key ca hp
    rw [hp] at hholds hpending
    cases hstep
    rcases hholds with ⟨hbefore, hca⟩
    constructor
    · cases again with
      | true =>
          have hcomplete : s.disk.Complete := hbefore
          refine ⟨rfl, ?_, Or.inl hcomplete.right.right⟩
          intro hcrt
          exact absurd hcrt hcomplete.crt
      | false => exact ⟨rfl, fun _ => hbefore.right, Or.inr (hca.resolve_left Bool.noConfusion)⟩
    · exact h.old
    · exact hpending
    · intro staged signed hstaged
      exact Or.inl (h.staged_writing hp hstaged)
  · rename_i again key hp
    rw [hp] at hholds hpending
    cases hstep
    constructor
    · exact ⟨hholds.left, rfl⟩
    · intro n hn
      cases hn
      exact (hpending key rfl).left
    · intro key' hkey'
      cases hkey'
    · intro staged signed hstaged
      exact Or.inl (h.staged_writing hp hstaged)
  · rename_i again key hp
    rw [hp] at hholds hpending
    cases hstep
    rcases hholds with ⟨hkey, -, hca⟩
    have hcomplete : (s.disk.put key File.crt).Complete := by
      refine ⟨?_, hkey, hca.resolve_right Bool.noConfusion⟩
      rw [show (s.disk.put key File.crt).key = some key from hkey]
      exact Option.some_ne_none key
    apply h.written hcomplete _ hp
    intro n hn
    cases hn
    exact (hpending key rfl).left
  · rename_i again key ca hp
    rw [hp] at hholds
    cases hstep
    rcases hholds with ⟨hkey, hcrt⟩
    have hcomplete : (s.disk.put key File.ca).Complete := by
      refine ⟨?_, hkey.trans hcrt.symm, Option.some_ne_none key⟩
      rw [show (s.disk.put key File.ca).key = some key from hkey]
      exact Option.some_ne_none key
    exact h.written hcomplete h.old hp
  · cases hstep

theorem inv_fail (h : Inv s) (hsafe : s.process.Safe s.disk)
    (hstep : step s Action.fail = some t) : Inv t := by
  have husable := (usable_iff_safe h).mpr hsafe
  simp only [step] at hstep
  split at hstep
  · rename_i again key burned hp
    cases hstep
    cases again with
    | true =>
        have hholds := h.holds
        rw [hp] at hholds
        apply h.resume hholds
        simp [hp, Process.Replaces]
    | false => exact h.exit husable
  · cases hstep

theorem inv_step {a : Action} (h : Inv s) (hsafe : SafeStop s a)
    (hstep : step s a = some t) : Inv t := by
  cases a with
  | provision token =>
      simp only [step] at hstep
      split at hstep
      · rename_i hp
        cases hstep
        have hholds := h.holds
        rw [hp] at hholds
        constructor
        · rw [show ({ s with row := (reissueToken token s.row).1 } : State).process = _ from hp]
          exact hholds.imp_right fun hnone => ⟨hnone.left, rfl⟩
        · exact h.old
        · exact h.pending
        · exact h.staged
      · cases hstep
  | start => exact inv_start h hstep
  | enrollAgain =>
      simp only [step] at hstep
      split at hstep
      · rename_i hp
        cases hstep
        have hholds := h.holds
        rw [hp] at hholds
        constructor
        · exact hholds
        · exact h.old_succ
        · intro key hkey
          cases hkey
          exact h.fresh
        · intro key signed hstaged
          rcases h.staged key signed hstaged with hrep | ⟨-, hfresh⟩
          · rw [hp] at hrep
            cases hrep
          · exact Or.inr ⟨rfl, hfresh.mono⟩
      · cases hstep
  | enroll serial => exact inv_enroll h hstep
  | respond => exact inv_respond h hstep
  | fail => exact inv_fail h hsafe hstep
  | stage =>
      simp only [step] at hstep
      split at hstep
      · rename_i hp _
        cases hstep
        have hholds := h.holds
        rw [hp] at hholds
        constructor
        · rw [show ({ s with renewKey := some (s.keys, false), keys := s.keys + 1 }
            : State).process = _ from hp]
          exact hholds
        · exact h.old_succ
        · intro key hkey
          exact (h.pending key hkey).mono
        · intro key signed hstaged
          cases hstaged
          right
          rw [show ({ s with renewKey := some (s.keys, false), keys := s.keys + 1 }
            : State).process = _ from hp]
          exact ⟨trivial, h.fresh⟩
      · cases hstep
  | sign serial =>
      simp only [step] at hstep
      split at hstep
      · rename_i key hkey
        cases hstep
        constructor
        · exact Process.holds_row h.holds rfl
        · exact h.old
        · exact h.pending
        · intro key' signed hstaged
          cases hstaged
          exact h.staged key false hkey
      · cases hstep
  | install ca => exact inv_install h hstep
  | write => exact inv_write h hstep
  | crash =>
      simp only [step] at hstep
      split at hstep
      · cases hstep
      · cases hstep
        exact h.exit ((usable_iff_safe h).mpr hsafe)

/-- The agent stops where it may not, and its files are left unusable. -/
theorem not_usable_of_stop {a : Action} (h : Inv s) (hnot : ¬ SafeStop s a)
    (hstep : step s a = some t) : ¬ UsableDown t := by
  cases a with
  | crash =>
      simp only [step] at hstep
      split at hstep
      · cases hstep
      · cases hstep
        intro hdown
        exact hnot ((usable_iff_safe h).mp (hdown rfl))
  | fail =>
      simp only [step] at hstep
      split at hstep
      · rename_i again key burned hp
        cases hstep
        cases again with
        | true =>
            have hholds := h.holds
            rw [hp] at hholds
            exact absurd ((usable_iff_safe h).mp (Or.inl hholds)) hnot
        | false =>
            intro hdown
            exact hnot ((usable_iff_safe h).mp (hdown rfl))
      · cases hstep
  | provision token => exact absurd trivial hnot
  | start => exact absurd trivial hnot
  | enrollAgain => exact absurd trivial hnot
  | enroll serial => exact absurd trivial hnot
  | respond => exact absurd trivial hnot
  | stage => exact absurd trivial hnot
  | sign serial => exact absurd trivial hnot
  | install ca => exact absurd trivial hnot
  | write => exact absurd trivial hnot

end Steps

/-!
# The run
-/

/-- The files are usable whenever the agent is down exactly when it only goes down, and
an enrollment only fails, where it may. -/
theorem usable_iff_safeStop {s t : State} {actions : List Action} (hs : Installed s)
    (hexec : machine.exec s actions = some t) :
    machine.Always UsableDown s actions <-> machine.Obeys SafeStop s actions := by
  refine Machine.always_iff_obeys (I := Inv) ?_ ?_ ?_ (inv_of_installed hs) hexec
  · intro s h hdown
    have hholds := h.holds
    rw [hdown] at hholds
    exact hholds
  · intro s a t h hsafe hstep
    exact inv_step h hsafe hstep
  · intro s a t h hnot hstep
    exact not_usable_of_stop h hnot hstep

/-- An agent without files, and a token for it. -/
def blank : State where
  disk := ⟨none, none, none⟩
  row := ⟨"bootstrap", false, none, none⟩
  process := Process.down
  renewKey := none
  keys := 0

theorem installed_blank : Installed blank where
  process := rfl
  renewKey := rfl
  usable := Or.inr ⟨rfl, rfl⟩
  old := by
    intro n hn
    cases hn

/-- A first enrollment, a renewal, and crashes at good moments. -/
def lifetime : List Action :=
  [Action.start, Action.crash, Action.start, Action.enroll 5, Action.respond, Action.write,
    Action.write, Action.write, Action.stage, Action.sign 6, Action.install true, Action.crash,
    Action.start, Action.stage, Action.sign 7, Action.install true, Action.write, Action.write,
    Action.crash, Action.start]

theorem usable_of_lifetime : machine.Always UsableDown blank lifetime :=
  (usable_iff_safeStop installed_blank rfl).mpr (by decide)

def earlyCrash : List Action :=
  [Action.start, Action.enroll 5, Action.respond, Action.write, Action.crash]

/-- A crash behind the first write leaves a burned token and no certificate. -/
theorem unusable_of_earlyCrash :
    ¬ forall s, machine.Reachable s -> s.process = Process.down -> Usable s.disk s.row := by
  intro hall
  have hreach : machine.Reachable ((machine.exec blank earlyCrash).getD blank) :=
    ⟨blank, earlyCrash, installed_blank, rfl⟩
  exact absurd (hall _ hreach rfl) (by decide)

end Certificates

end Agent
end RcTunnel
