import RcTunnel.Foundation.Machine
import RcTunnel.Engine.Grant
import RcTunnel.Engine.Strings

/-!
# The revoked-serials file

The panel appends serials to a file, and the server looks a certificate's serial
up in the set it has read from that file.  It reads the file again when the file's
modification time is later than the one it read the file at, and takes the file
for read whether or not the read succeeded.

The main result says which runs keep every appended serial revoked: those in which
an append never gets the modification time that was read last, and no read fails
that a listed serial needs.
-/

namespace RcTunnel
namespace Engine

open Foundation

namespace Revocation

structure File where
  modTime : Int
  text : Text
deriving DecidableEq, Repr

/-- A {lit}`revoker`; the zero time, before every modification time, is {lit}`none`. -/
structure Revoker where
  set : List Text
  mtime : Option Int
  loaded : Bool
deriving DecidableEq, Repr

/-- The lines of the file that are not blank. -/
def serials (text : Text) : List Text :=
  ((text.splitOn '\n').map trimSpace).filter (· ≠ [])

/-- The file is to be read again. -/
def Revoker.Due (r : Revoker) (modTime : Int) : Prop :=
  r.loaded = false ∨ forall m, m ∈ r.mtime -> m < modTime

instance (r : Revoker) (modTime : Int) : Decidable (r.Due modTime) :=
  inferInstanceAs (Decidable (_ ∨ _))

/-- {lit}`revoked`, given what {lit}`os.Stat` and {lit}`os.ReadFile` answer. -/
def Revoker.revoked (r : Revoker) (stat : Option Int) (read : Option Text) (serial : Text) :
    Revoker × Bool :=
  if serial = [] then
    (r, false)
  else
    match stat with
    | none => (if r.loaded then r else { r with set := [], loaded := true }, false)
    | some modTime =>
        if r.Due modTime then
          let m := (read.map serials).getD []
          (⟨m, some modTime, true⟩, m.contains serial)
        else
          (r, r.set.contains serial)

/-- A query that has seen the modification time and is about to read the file. -/
structure Query where
  serial : Text
  modTime : Int
  /-- history: the serial was in the file when the query began -/
  listed : Bool
deriving DecidableEq, Repr

/-- History: what a query has answered. -/
structure Answer where
  serial : Text
  listed : Bool
  revoked : Bool
deriving DecidableEq, Repr

structure State where
  file : Option File
  revoker : Revoker
  /-- the query that holds the lock between its two looks at the file -/
  query : Option Query
  /-- history: the serials that were appended -/
  appended : List Nat
  answers : List Answer
deriving DecidableEq, Repr

inductive Action where
  /-- the panel opens the file to append -/
  | openFile (now : Int)
  | append (now : Int) (serial : Nat)
  /-- a query up to the read of the file, or to its end when it reads nothing -/
  | query (serial : Text)
  | read (ok : Bool)
  /-- the server starts anew -/
  | restart
deriving DecidableEq, Repr

/-- A serial in the file and in a query. -/
def decimal (serial : Nat) : Text := Nat.toDigits 10 serial

def State.Listed (s : State) (serial : Text) : Prop := serial ∈ s.appended.map decimal

instance (s : State) (serial : Text) : Decidable (s.Listed serial) :=
  inferInstanceAs (Decidable (serial ∈ _))

/-- {lit}`f.write(serial.strip() + "\n")` at the end of the file. -/
def File.append (file : Option File) (now : Int) (serial : Nat) : File where
  modTime := now
  text := (file.map File.text).getD [] ++ (decimal serial ++ ['\n'])

def fresh : Revoker := ⟨[], none, false⟩

/-- The clock of the file system does not run backwards. -/
def State.Later (s : State) (now : Int) : Prop :=
  forall f, f ∈ s.file -> f.modTime ≤ now

instance (s : State) (now : Int) : Decidable (s.Later now) :=
  inferInstanceAs (Decidable (forall f, f ∈ s.file -> _))

def State.answer (s : State) (serial : Text) (listed : Bool) (answer : Revoker × Bool) :
    State :=
  { s with
    revoker := answer.1
    query := none
    answers := s.answers ++ [⟨serial, listed, answer.2⟩] }

def step (s : State) : Action -> Option State
  | Action.openFile now =>
      match s.file with
      | some _ => some s
      | none => some { s with file := some ⟨now, []⟩ }
  | Action.append now serial =>
      if s.Later now then
        some { s with
          file := some (File.append s.file now serial)
          appended := s.appended ++ [serial] }
      else
        none
  | Action.query serial =>
      match s.query, s.file with
      | some _, _ => none
      | none, none =>
          some (s.answer serial (s.Listed serial) (s.revoker.revoked none none serial))
      | none, some f =>
          if serial ≠ [] ∧ s.revoker.Due f.modTime then
            some { s with query := some ⟨serial, f.modTime, s.Listed serial⟩ }
          else
            some (s.answer serial (s.Listed serial)
              (s.revoker.revoked (some f.modTime) none serial))
  | Action.read ok =>
      match s.query with
      | none => none
      | some q =>
          some (s.answer q.serial q.listed
            (s.revoker.revoked (some q.modTime)
              (if ok then s.file.map File.text else none) q.serial))
  | Action.restart => some { s with revoker := fresh, query := none }

/-- There is no file, and the server has just started. -/
def initial : State := ⟨none, fresh, none, [], []⟩

def machine : Machine State Action where
  init s := s = initial
  step := step

/-!
# Revoked for good
-/

/-- Every query of a serial that was listed when it began has answered that it is
revoked, and one that is made now does, when it can read the file. -/
structure Monotone (s : State) : Prop where
  answered : forall a, a ∈ s.answers -> a.listed = true -> a.revoked = true
  next : forall serial, s.Listed serial ->
    (s.revoker.revoked (s.file.map File.modTime) (s.file.map File.text) serial).2 = true

/-- An append is noticed, and a read succeeds that a listed serial needs. -/
def Noticed (s : State) : Action -> Prop
  | Action.append now serial => s.revoker.Due now ∨ decimal serial ∈ s.revoker.set
  | Action.read false =>
      forall q, q ∈ s.query -> q.listed = false ∧
        (s.appended ≠ [] -> forall f, f ∈ s.file -> q.modTime < f.modTime)
  | Action.read true => True
  | Action.openFile _ => True
  | Action.query _ => True
  | Action.restart => True

instance (s : State) : forall a, Decidable (Noticed s a)
  | Action.append now serial =>
      inferInstanceAs (Decidable (s.revoker.Due now ∨ decimal serial ∈ s.revoker.set))
  | Action.read false =>
      inferInstanceAs (Decidable (forall q, q ∈ s.query -> q.listed = false ∧
        (s.appended ≠ [] -> forall f, f ∈ s.file -> q.modTime < f.modTime)))
  | Action.read true => isTrue trivial
  | Action.openFile _ => isTrue trivial
  | Action.query _ => isTrue trivial
  | Action.restart => isTrue trivial

/-!
# What the file says
-/

theorem decimal_ne_nil (serial : Nat) : decimal serial ≠ [] := Nat.toDigits_ne_nil

theorem isDigit_of_mem_decimal {serial : Nat} {c : Char} (hc : c ∈ decimal serial) :
    c.isDigit = true :=
  Nat.isDigit_of_mem_toDigits (by decide) (by decide) hc

theorem serials_append (t u : Text) : serials (t ++ '\n' :: u) = serials t ++ serials u := by
  simp [serials, List.splitOn_append_cons_self]

theorem serials_decimal (serial : Nat) : serials (decimal serial) = [decimal serial] := by
  have hline : '\n' ∉ decimal serial := by
    intro hmem
    exact absurd (isDigit_of_mem_decimal hmem) (by decide)
  have htrim : trimSpace (decimal serial) = decimal serial :=
    trimSpace_of_forall fun c hc => isSpace_of_isDigit (isDigit_of_mem_decimal hc)
  simp [serials, List.splitOn_eq_singleton hline, htrim, decimal_ne_nil]

/-- The text is made of whole lines. -/
def Whole (text : Text) : Prop := text = [] ∨ exists t, text = t ++ ['\n']

theorem serials_appended {text : Text} (h : Whole text) (serial : Nat) :
    serials (text ++ (decimal serial ++ ['\n'])) = serials text ++ [decimal serial] := by
  have hline : serials (decimal serial ++ ['\n']) = [decimal serial] := by
    rw [serials_append, serials_decimal]
    rfl
  rcases h with rfl | ⟨t, rfl⟩
  · exact hline
  · have hold : serials (t ++ ['\n']) = serials t := by
      rw [serials_append]
      exact List.append_nil _
    rw [List.append_assoc, List.singleton_append, serials_append, hline, hold]

/-- The file holds what was appended, and the server has not seen a later time than
the file's. -/
structure Inv (s : State) : Prop where
  whole : forall f, s.file = some f -> Whole f.text
  listed : forall f, s.file = some f -> serials f.text = s.appended.map decimal
  absent : s.file = none -> s.appended = []
  seen : forall m, s.revoker.mtime = some m -> exists f, s.file = some f ∧ m ≤ f.modTime
  query : forall q, s.query = some q -> q.serial ≠ [] ∧ s.revoker.Due q.modTime ∧
    exists f, s.file = some f ∧ q.modTime ≤ f.modTime
  known : forall q, s.query = some q -> q.listed = true -> s.Listed q.serial

section Steps

variable {s t : State}

theorem inv_initial : Inv initial := by
  constructor <;> simp [initial, fresh]

theorem Due.mono {r : Revoker} {m m' : Int} (h : r.Due m) (hle : m ≤ m') : r.Due m' :=
  h.imp_right fun hlt k hk => Int.lt_of_lt_of_le (hlt k hk) hle

/-- The time of the file that a query has read. -/
theorem seen_revoked {r r' : Revoker} {stat : Option Int} {read : Option Text} {serial : Text}
    {b : Bool} (h : r.revoked stat read serial = (r', b)) {m : Int} (hm : r'.mtime = some m) :
    r.mtime = some m ∨ stat = some m := by
  unfold Revoker.revoked at h
  split at h
  · cases h
    exact Or.inl hm
  · split at h
    · split at h
      · cases h
        exact Or.inl hm
      · cases h
        exact Or.inl hm
    · split at h
      · cases h
        exact Or.inr hm
      · cases h
        exact Or.inl hm

/-- What a query leaves of the state. -/
theorem Inv.answer (h : Inv s) {stat : Option Int} {read : Option Text} {serial : Text}
    {listed : Bool} (hstat : forall m, stat = some m -> exists f, s.file = some f ∧ m ≤ f.modTime) :
    Inv (s.answer serial listed (s.revoker.revoked stat read serial)) where
  whole := h.whole
  listed := h.listed
  absent := h.absent
  seen := by
    intro m hm
    rcases seen_revoked rfl hm with hold | hnew
    · exact h.seen m hold
    · exact hstat m hnew
  query := by
    intro q hq
    cases hq
  known := by
    intro q hq
    cases hq

/-- Nothing is appended and nothing read before there is a file. -/
theorem Inv.openFile (h : Inv s) (now : Int) (hfile : s.file = none) :
    Inv { s with file := some ⟨now, []⟩ } where
  whole := by
    intro f hf
    cases hf
    exact Or.inl rfl
  listed := by
    intro f hf
    cases hf
    rw [h.absent hfile]
    rfl
  absent := by
    intro hnone
    cases hnone
  seen := by
    intro m hm
    rcases h.seen m hm with ⟨f, hf, -⟩
    rw [hfile] at hf
    cases hf
  query := by
    intro q hq
    rcases h.query q hq with ⟨-, -, f, hf, -⟩
    rw [hfile] at hf
    cases hf
  known := h.known

theorem Inv.append (h : Inv s) {now : Int} {serial : Nat} (hlater : s.Later now) :
    Inv { s with
      file := some (File.append s.file now serial)
      appended := s.appended ++ [serial] } where
  whole := by
    intro f hf
    cases hf
    exact Or.inr ⟨_, (List.append_assoc _ _ _).symm⟩
  listed := by
    intro f hf
    cases hf
    unfold File.append
    cases hfile : s.file with
    | none =>
        rw [h.absent hfile]
        exact serials_appended (Or.inl rfl) serial
    | some old =>
        simp only [Option.map_some, Option.getD_some, List.map_append, List.map_cons,
          List.map_nil]
        rw [serials_appended (h.whole old hfile), h.listed old hfile]
  absent := by
    intro hnone
    cases hnone
  seen := by
    intro m hm
    rcases h.seen m hm with ⟨old, hold, hle⟩
    exact ⟨_, rfl, Int.le_trans hle (hlater old hold)⟩
  query := by
    intro q hq
    rcases h.query q hq with ⟨hne, hdue, old, hold, hle⟩
    exact ⟨hne, hdue, _, rfl, Int.le_trans hle (hlater old hold)⟩
  known := by
    intro q hq hlisted
    have hold := h.known q hq hlisted
    unfold State.Listed at hold ⊢
    rw [List.map_append]
    exact List.mem_append_left _ hold

theorem inv_step {a : Action} (h : Inv s) (hstep : step s a = some t) : Inv t := by
  cases a with
  | openFile now =>
      simp only [step] at hstep
      split at hstep
      · cases hstep
        exact h
      · rename_i hfile
        cases hstep
        exact h.openFile now hfile
  | append now serial =>
      simp only [step] at hstep
      split at hstep
      · rename_i hlater
        cases hstep
        exact h.append hlater
      · cases hstep
  | query serial =>
      simp only [step] at hstep
      split at hstep
      · cases hstep
      · cases hstep
        exact h.answer nofun
      · rename_i f hquery hfile
        split at hstep
        · rename_i hdue
          cases hstep
          constructor
          · exact h.whole
          · exact h.listed
          · exact h.absent
          · exact h.seen
          · intro q hq
            cases hq
            exact ⟨hdue.left, hdue.right, f, hfile, Int.le_refl _⟩
          · intro q hq hlisted
            cases hq
            exact of_decide_eq_true hlisted
        · cases hstep
          apply h.answer
          intro m hm
          cases hm
          exact ⟨f, hfile, Int.le_refl _⟩
  | read ok =>
      simp only [step] at hstep
      split at hstep
      · cases hstep
      · rename_i q hq
        cases hstep
        rcases h.query q hq with ⟨-, -, f, hf, hle⟩
        apply h.answer
        intro m hm
        cases hm
        exact ⟨f, hf, hle⟩
  | restart =>
      cases hstep
      constructor
      · exact h.whole
      · exact h.listed
      · exact h.absent
      · intro m hm
        cases hm
      · intro q hq
        cases hq
      · intro q hq
        cases hq

/-!
# One step
-/

/-- A query of a listed serial, when the file is there. -/
theorem revoked_listed (h : Inv s) {f : File} (hfile : s.file = some f) {serial : Text}
    (hlisted : s.Listed serial) :
    (s.revoker.revoked (some f.modTime) (some f.text) serial).2 = true <->
      s.revoker.Due f.modTime ∨ serial ∈ s.revoker.set := by
  have hne : serial ≠ [] := by
    rcases List.mem_map.mp hlisted with ⟨n, -, rfl⟩
    exact decimal_ne_nil n
  unfold Revoker.revoked
  rw [if_neg hne]
  simp only
  split
  · rename_i hdue
    simp only [Option.map_some, Option.getD_some, List.contains_iff_mem, hdue, true_or, iff_true]
    rw [h.listed f hfile]
    exact hlisted
  · rename_i hdue
    simp [hdue]

theorem file_of_listed (h : Inv s) {serial : Text} (hlisted : s.Listed serial) :
    exists f, s.file = some f := by
  cases hfile : s.file with
  | some f => exact ⟨f, rfl⟩
  | none =>
      unfold State.Listed at hlisted
      rw [h.absent hfile] at hlisted
      cases hlisted

/-- The next query is right exactly when the file is to be read again or the set has
every serial. -/
theorem next_iff (h : Inv s) :
    (forall serial, s.Listed serial ->
      (s.revoker.revoked (s.file.map File.modTime) (s.file.map File.text) serial).2 = true) <->
    forall f, s.file = some f -> forall serial, s.Listed serial ->
      s.revoker.Due f.modTime ∨ serial ∈ s.revoker.set := by
  constructor
  · intro hnext f hfile serial hlisted
    have hquery := hnext serial hlisted
    rw [hfile] at hquery
    exact (revoked_listed h hfile hlisted).mp hquery
  · intro hcovered serial hlisted
    rcases file_of_listed h hlisted with ⟨f, hfile⟩
    rw [hfile]
    exact (revoked_listed h hfile hlisted).mpr (hcovered f hfile serial hlisted)

/-- What a read of the file leaves of the server's state. -/
theorem revoked_due {r : Revoker} {modTime : Int} {read : Option Text} {serial : Text}
    (hne : serial ≠ []) (hdue : r.Due modTime) :
    r.revoked (some modTime) read serial =
      (⟨(read.map serials).getD [], some modTime, true⟩,
        ((read.map serials).getD []).contains serial) := by
  simp [Revoker.revoked, hne, hdue]

theorem revoked_not_due {r : Revoker} {modTime : Int} {read : Option Text} {serial : Text}
    (hnot : serial = [] ∨ ¬ r.Due modTime) :
    (r.revoked (some modTime) read serial).1 = r := by
  rcases hnot with rfl | hdue
  · simp [Revoker.revoked]
  · by_cases hne : serial = [] <;> simp [Revoker.revoked, hne, hdue]

/-- The listed serials a query need not find in the file. -/
def Covered (s : State) : Prop :=
  forall f, s.file = some f -> forall serial, s.Listed serial ->
    s.revoker.Due f.modTime ∨ serial ∈ s.revoker.set

/-- An answer keeps the property when it is right and the next one will be. -/
theorem Monotone.answer (h : Monotone s) {serial : Text} {listed : Bool}
    {answer : Revoker × Bool} (hright : listed = true -> answer.2 = true)
    (hinv : Inv (s.answer serial listed answer)) (hcovered : Covered (s.answer serial listed answer)) :
    Monotone (s.answer serial listed answer) where
  answered := by
    intro a ha hlisted
    rcases List.mem_append.mp ha with hold | hnew
    · exact h.answered a hold hlisted
    · cases List.mem_singleton.mp hnew
      exact hright hlisted
  next := (next_iff hinv).mpr hcovered

theorem Monotone.append (hinv : Inv s) (h : Monotone s) {now : Int} {serial : Nat}
    (hlater : s.Later now) (hnoticed : Noticed s (Action.append now serial)) :
    Monotone { s with
      file := some (File.append s.file now serial)
      appended := s.appended ++ [serial] } where
  answered := h.answered
  next := by
    refine (next_iff (hinv.append hlater)).mpr fun f hf listed hlisted => ?_
    cases hf
    rcases Classical.em (s.revoker.Due now) with hdue | hnot
    · exact Or.inl hdue
    · right
      have hserial : decimal serial ∈ s.revoker.set := hnoticed.resolve_left hnot
      simp only [State.Listed, List.map_append, List.map_cons, List.map_nil,
        List.mem_append, List.mem_singleton] at hlisted
      rcases hlisted with hold | rfl
      · rcases file_of_listed hinv hold with ⟨old, hfile⟩
        have hcovered := (next_iff hinv).mp h.next old hfile listed hold
        exact hcovered.resolve_left fun hdue => hnot (Due.mono hdue (hlater old hfile))
      · exact hserial

theorem Monotone.query (hinv : Inv s) (h : Monotone s) {serial : Text}
    (hstep : step s (Action.query serial) = some t) : Monotone t := by
  have hinv' := inv_step hinv hstep
  simp only [step] at hstep
  split at hstep
  · cases hstep
  · rename_i hquery hfile
    cases hstep
    apply h.answer _ hinv'
    · intro f hf
      rw [show (s.answer _ _ _).file = none from hfile] at hf
      cases hf
    · intro hlisted
      rcases file_of_listed hinv (of_decide_eq_true hlisted) with ⟨f, hf⟩
      rw [hfile] at hf
      cases hf
  · rename_i f hquery hfile
    split at hstep
    · cases hstep
      exact ⟨h.answered, h.next⟩
    · rename_i hnot
      cases hstep
      have hsame : (s.revoker.revoked (some f.modTime) none serial).1 = s.revoker := by
        apply revoked_not_due
        rw [not_and_or, not_not] at hnot
        exact hnot
      apply h.answer _ hinv'
      · intro f' hf' listed hlisted
        have hcovered := (next_iff hinv).mp h.next f' hf' listed hlisted
        rw [← hsame] at hcovered
        exact hcovered
      · intro hlisted
        have hnext := h.next serial (of_decide_eq_true hlisted)
        rw [hfile] at hnext
        have hread : s.revoker.revoked (some f.modTime) none serial =
            s.revoker.revoked (some f.modTime) (some f.text) serial := by
          rw [not_and_or, not_not] at hnot
          rcases hnot with rfl | hdue
          · simp [Revoker.revoked]
          · simp [Revoker.revoked, hdue]
        rw [hread]
        exact hnext

theorem Monotone.read (hinv : Inv s) (h : Monotone s) {ok : Bool}
    (hnoticed : Noticed s (Action.read ok))
    (hstep : step s (Action.read ok) = some t) : Monotone t := by
  have hinv' := inv_step hinv hstep
  simp only [step] at hstep
  split at hstep
  · cases hstep
  · rename_i q hq
    cases hstep
    rcases hinv.query q hq with ⟨hne, hdue, f, hfile, hle⟩
    rw [revoked_due hne hdue] at hinv' ⊢
    cases ok with
    | true =>
        simp only [if_true, hfile, Option.map_some, Option.getD_some] at hinv' ⊢
        rw [hinv.listed f hfile] at hinv' ⊢
        apply h.answer _ hinv'
        · intro f' _ listed hlisted
          exact Or.inr hlisted
        · intro hlisted
          rw [List.contains_iff_mem]
          exact hinv.known q hq hlisted
    | false =>
        rcases hnoticed q hq with ⟨hunlisted, hlater⟩
        apply h.answer _ hinv'
        · intro f' hf' listed hlisted
          left
          right
          intro m hm
          cases hm
          refine hlater ?_ f' hf'
          intro hnone
          rw [State.Listed] at hlisted
          rw [show (s.answer _ _ _).appended = [] from hnone] at hlisted
          cases hlisted
        · intro hlisted
          rw [hunlisted] at hlisted
          cases hlisted

theorem monotone_step {a : Action} (hinv : Inv s) (h : Monotone s) (hnoticed : Noticed s a)
    (hstep : step s a = some t) : Monotone t := by
  cases a with
  | openFile now =>
      have hinv' := inv_step hinv hstep
      simp only [step] at hstep
      split at hstep
      · cases hstep
        exact h
      · rename_i hfile
        cases hstep
        refine ⟨h.answered, (next_iff hinv').mpr fun f _ serial hlisted => ?_⟩
        rw [State.Listed, hinv.absent hfile] at hlisted
        cases hlisted
  | append now serial =>
      simp only [step] at hstep
      split at hstep
      · rename_i hlater
        cases hstep
        exact h.append hinv hlater hnoticed
      · cases hstep
  | query serial => exact h.query hinv hstep
  | read ok => exact h.read hinv hnoticed hstep
  | restart =>
      have hinv' := inv_step hinv hstep
      cases hstep
      exact ⟨h.answered, (next_iff hinv').mpr fun f _ serial _ => Or.inl (Or.inl rfl)⟩

/-- A step that is not noticed leaves a listed serial that is not revoked. -/
theorem not_monotone_step {a : Action} (hinv : Inv s) (hnot : ¬ Noticed s a)
    (hstep : step s a = some t) : ¬ Monotone t := by
  intro h
  have hinv' := inv_step hinv hstep
  cases a with
  | append now serial =>
      simp only [step] at hstep
      split at hstep
      · cases hstep
        apply hnot
        refine (next_iff hinv').mp h.next _ rfl (decimal serial) ?_
        simp [State.Listed]
      · cases hstep
  | read ok =>
      cases ok with
      | true => exact hnot trivial
      | false =>
          simp only [step] at hstep
          split at hstep
          · cases hstep
          · rename_i q hq
            cases hstep
            rcases hinv.query q hq with ⟨hne, hdue, -⟩
            rw [revoked_due hne hdue] at h hinv'
            apply hnot
            intro q' hq'
            rw [Option.mem_def, hq] at hq'
            cases hq'
            constructor
            · cases hlisted : q.listed with
              | false => rfl
              | true =>
                  have hanswer := h.answered _ (List.mem_append_right _ List.mem_cons_self) hlisted
                  cases hanswer
            · intro happended f hf
              rcases List.exists_mem_of_ne_nil _ happended with ⟨serial, hserial⟩
              have hlisted := List.mem_map_of_mem (f := decimal) hserial
              have hcovered := (next_iff hinv').mp h.next f hf _ hlisted
              rcases hcovered with hdue' | hmem
              · exact (hdue'.resolve_left Bool.noConfusion) _ rfl
              · cases hmem
  | openFile now => exact hnot trivial
  | query serial => exact hnot trivial
  | restart => exact hnot trivial

end Steps

/-!
# The run
-/

theorem monotone_initial : Monotone initial where
  answered := by
    intro a ha
    cases ha
  next := by
    intro serial hlisted
    cases hlisted

/-- An appended serial stays revoked throughout a run exactly when every append is
noticed and no read fails that a listed serial needs. -/
theorem monotone_iff_noticed {t : State} {actions : List Action}
    (hexec : machine.exec initial actions = some t) :
    machine.Always Monotone initial actions <-> machine.Obeys Noticed initial actions := by
  refine Machine.always_iff_obeys (I := fun s => Inv s ∧ Monotone s) (fun s h => h.right) ?_ ?_
    ⟨inv_initial, monotone_initial⟩ hexec
  · intro s a t h hnoticed hstep
    exact ⟨inv_step h.left hstep, monotone_step h.left h.right hnoticed hstep⟩
  · intro s a t h hnot hstep
    exact not_monotone_step h.left hnot hstep

/-- A server that reads the file once for each serial that is appended. -/
def reloads : List Action :=
  [Action.query ['7'], Action.append 1 7, Action.query ['7'], Action.read true,
    Action.append 2 9, Action.query ['9'], Action.read true, Action.append 3 9,
    Action.query ['7'], Action.read true]

theorem monotone_of_reloads : machine.Always Monotone initial reloads := by
  exact (monotone_iff_noticed rfl).mpr (by decide)

/-- Two appends share a modification time, and the file was read between them. -/
theorem missed_of_sameTime :
    ¬ forall (actions : List Action) (t : State), machine.exec initial actions = some t ->
      machine.Always Monotone initial actions := by
  intro hall
  have hbad : machine.Always Monotone initial
      [Action.append 1 7, Action.query ['7'], Action.read true, Action.append 1 9] :=
    hall _ _ rfl
  have hnext := (hbad.last rfl).next ['9'] (by decide)
  exact absurd hnext (by decide)

end Revocation

end Engine
end RcTunnel
