import RcTunnel.Foundation.Machine
import RcTunnel.Engine.Proto
import Mathlib.Data.Int.Order.Basic
import Mathlib.Data.List.AList
import Mathlib.Data.List.Lex

/-!
# Over-the-air upgrades of the agent

An upgrade is staged in memory, file by file, and nothing is written unless every
file has the hash the panel vouches for.  Then each file is backed up and replaced.
A process that is started too often in a short time restores whatever backups there
are.  Between any two file operations the process may be gone.
-/

namespace RcTunnel
namespace Agent

open Foundation
open Engine

namespace Upgrade

/-- What the agent has from Python and its libraries. -/
structure Python where
  /-- {lit}`int`; {lit}`none` is a {lit}`ValueError` -/
  int : Text -> Option Int
  /-- {lit}`hashlib.sha256(data).hexdigest()` -/
  sha256 : Bytes -> Text
  /-- {lit}`compile(data, f, "exec")` succeeds -/
  compiles : Bytes -> Bool
  /-- the {lit}`AGENT_VERSION` of the code -/
  agentVersion : Option Bytes -> Text

/-- The files of the install directory. -/
abbrev Directory := AList (fun _ : Text => Bytes)

def bakSuffix : Text := ['.', 'b', 'a', 'k']

def newSuffix : Text := ['.', 'n', 'e', 'w']

def pySuffix : Text := ['.', 'p', 'y']

def bak (f : Text) : Text := f ++ bakSuffix

def new (f : Text) : Text := f ++ newSuffix

/-- {lit}`bak.with_suffix("")` -/
def base (n : Text) : Text := n.take (n.length - bakSuffix.length)

/-- {lit}`install_dir.glob("*.bak")`, in the order of the directory. -/
def baks (files : Directory) : List Text := files.keys.filter fun n => bakSuffix <:+ n

/-!
# Staging
-/

def artifactChar (c : Char) : Bool := c.isAlphanum || c = '.' || c = '_' || c = '-'

/-- {lit}`_SAFE_ARTIFACT`; its {lit}`$` also matches before a newline at the end. -/
def safeArtifact : Text -> Bool
  | [] => false
  | c :: rest =>
      c.isAlphanum &&
        (if rest.getLast? = some '\n' then rest.dropLast else rest).all artifactChar

structure Message where
  version : Text
  files : List Text
  sha256 : List (Text × Text)
deriving DecidableEq, Repr

def rctunnelAgent : Text := "rctunnel_agent.py".toList

def Message.listed (msg : Message) : List Text :=
  if msg.files = [] then [rctunnelAgent, "localip.py".toList] else msg.files

/-- The trusted hash of a file, unless it is empty. -/
def Message.want (msg : Message) (f : Text) : Option Text :=
  (msg.sha256.lookup f).filter (· ≠ [])

def vtuple (py : Python) (s : Text) : List Int :=
  ((s.splitOn '.').mapM py.int).getD [0]

/-- A {lit}`.py` file must be Python code. -/
def Sound (py : Python) (f : Text) (data : Bytes) : Prop :=
  pySuffix <:+ f -> py.compiles data = true

instance (py : Python) (f : Text) (data : Bytes) : Decidable (Sound py f data) :=
  inferInstanceAs (Decidable (_ -> _))

scoped instance (f : Text) (names : List Text) : Decidable (f ∈ names) :=
  decidable_of_iff (names.contains f = true) List.contains_iff_mem

/-- {lit}`staged[f] = data` -/
def assign (staged : List (Text × Bytes)) (f : Text) (data : Bytes) : List (Text × Bytes) :=
  if f ∈ staged.map Prod.fst then
    staged.map fun e => if e.1 = f then (f, data) else e
  else
    staged ++ [(f, data)]

/-- One file as the loop of {lit}`_self_upgrade` accepts it. -/
structure Verified (py : Python) (msg : Message) (f : Text) (data : Bytes) : Prop where
  safe : safeArtifact f = true
  nonempty : data ≠ []
  hash : msg.want f = some (py.sha256 data)
  sound : Sound py f data

instance (py : Python) (msg : Message) (f : Text) (data : Bytes) :
    Decidable (Verified py msg f data) :=
  decidable_of_iff (safeArtifact f = true ∧ data ≠ [] ∧ msg.want f = some (py.sha256 data) ∧
      Sound py f data)
    ⟨fun ⟨hsafe, hnonempty, hhash, hsound⟩ => ⟨hsafe, hnonempty, hhash, hsound⟩,
      fun h => ⟨h.safe, h.nonempty, h.hash, h.sound⟩⟩

/-- The loop over the files, with what {lit}`_fetch_retry` returns for each of them. -/
def stage (py : Python) (msg : Message) :
    List Text -> List (Option Bytes) -> List (Text × Bytes) -> Option (List (Text × Bytes))
  | [], _, staged => some staged
  | f :: rest, downloads, staged =>
      match downloads.head?.join with
      | none => none
      | some data =>
          if Verified py msg f data then
            stage py msg rest downloads.tail (assign staged f data)
          else
            none

/-- The files to install; {lit}`none` leaves the agent as it is. -/
def Message.staged (py : Python) (version : Text) (msg : Message)
    (downloads : List (Option Bytes)) : Option (List (Text × Bytes)) :=
  if vtuple py msg.version ≤ vtuple py version then
    none
  else
    stage py msg msg.listed downloads []

/-!
# The process
-/

/-- The three operations on each file. -/
inductive Phase where
  | backup
  | write
  | replace
deriving DecidableEq, Repr

inductive Process where
  | down
  /-- with the {lit}`AGENT_VERSION` that was loaded -/
  | running (version : Text)
  | replacing (msg : Message) (todo : List (Text × Bytes)) (phase : Phase)
  /-- {lit}`_boot_guard` rolls back -/
  | restoring (todo : List Text)
deriving DecidableEq, Repr

/-- History: what was completed last, if no file was touched since. -/
inductive Outcome where
  | none
  | upgraded (msg : Message)
  | rolledBack
deriving DecidableEq, Repr

structure State where
  files : Directory
  /-- {lit}`.boot_attempts` -/
  bootAttempts : List Int
  process : Process
  /-- history: the files before the most recent upgrade, and whether they were whole -/
  previous : Option (Directory × Bool)
  /-- history: the files are those of one release -/
  whole : Bool
  outcome : Outcome

inductive Action where
  /-- {lit}`_boot_guard`, with the backups in the order of the directory -/
  | boot (now : Int) (glob : List Text)
  /-- one backup is restored, or cannot be -/
  | restore (copied : Bool)
  /-- {lit}`_session` has connected -/
  | connect
  | upgrade (msg : Message) (downloads : List (Option Bytes))
  /-- one file operation of {lit}`_self_upgrade`; a backup may fail -/
  | operate (copied : Bool)
  | crash
deriving DecidableEq, Repr

/-- The loop of {lit}`_boot_guard`, for one backup. -/
def restoreOne (py : Python) (files : Directory) (n : Text) (copied : Bool) : Directory :=
  match files.lookup n with
  | none => files
  | some data =>
      if copied = true ∧ base n ≠ [] ∧ Sound py (base n) data then
        files.insert (base n) data
      else
        files

/-- {lit}`shutil.copy2(dest, dest + ".bak")`, when there is one. -/
def backUp (files : Directory) (f : Text) (copied : Bool) : Directory :=
  match files.lookup f with
  | none => files
  | some data => if copied then files.insert (bak f) data else files

/-- The boots that count: the last ten of 120 seconds, and this one. -/
def recentBoots (attempts : List Int) (now : Int) : List Int :=
  let recent := attempts.filter fun t => now - t < 120
  recent.drop (recent.length - 10) ++ [now]

section Steps

variable (py : Python)

/-- One file operation. -/
def operate (s : State) (msg : Message) (f : Text) (data : Bytes) (rest : List (Text × Bytes))
    (copied : Bool) : Phase -> State
  | Phase.backup =>
      { s with
        files := backUp s.files f copied
        process := Process.replacing msg ((f, data) :: rest) Phase.write }
  | Phase.write =>
      { s with
        files := s.files.insert (new f) data
        process := Process.replacing msg ((f, data) :: rest) Phase.replace }
  | Phase.replace =>
      { s with
        files := (s.files.insert f ((s.files.lookup (new f)).getD [])).erase (new f)
        process := Process.replacing msg rest Phase.backup }

def step (s : State) : Action -> Option State
  | Action.boot now glob =>
      match s.process with
      | Process.down =>
          if glob.Perm (baks s.files) then
            if 5 ≤ (recentBoots s.bootAttempts now).length ∧ glob ≠ [] then
              some { s with process := Process.restoring glob }
            else
              some { s with
                bootAttempts := recentBoots s.bootAttempts now
                process := Process.running (py.agentVersion (s.files.lookup rctunnelAgent)) }
          else
            none
      | _ => none
  | Action.restore copied =>
      match s.process with
      | Process.restoring [] =>
          some { s with
            bootAttempts := []
            process := Process.down
            whole := (s.previous.map Prod.snd).getD false
            outcome := Outcome.rolledBack }
      | Process.restoring (n :: rest) =>
          some { s with
            files := restoreOne py s.files n copied
            process := Process.restoring rest
            whole := false
            outcome := Outcome.none }
      | _ => none
  | Action.connect =>
      match s.process with
      | Process.running _ => some { s with bootAttempts := [] }
      | _ => none
  | Action.upgrade msg downloads =>
      match s.process with
      | Process.running version =>
          match msg.staged py version downloads with
          | none => some s
          | some staged =>
              some { s with
                process := Process.replacing msg staged Phase.backup
                previous := some (s.files, s.whole)
                whole := false
                outcome := Outcome.none }
      | _ => none
  | Action.operate copied =>
      match s.process with
      | Process.replacing msg [] _ =>
          some { s with
            process := Process.down
            whole := true
            outcome := Outcome.upgraded msg }
      | Process.replacing msg ((f, data) :: rest) phase =>
          some (operate s msg f data rest copied phase)
      | _ => none
  | Action.crash =>
      match s.process with
      | Process.down => none
      | _ => some { s with process := Process.down }

/-- A freshly installed agent. -/
structure Pristine (s : State) : Prop where
  process : s.process = Process.down
  baks : baks s.files = []
  previous : s.previous = none
  whole : s.whole = true
  outcome : s.outcome = Outcome.none

def machine : Machine State Action where
  init := Pristine
  step := step py

end Steps

end Upgrade

end Agent
end RcTunnel
