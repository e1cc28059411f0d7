import Mathlib.Data.List.GetD
import RcTunnel.Foundation.Lines
import RcTunnel.Foundation.Machine
import RcTunnel.Panel.Text

/-!
# The tail of the access log

The log shipper follows the access log of the proxy: it reads line by line, and when there
is nothing to read, it sleeps and looks whether the file was replaced.  The writer appends
text in chunks of any kind, and rotates by renaming the file and creating a new one; both
can happen between any two calls of the tail.

The files that had the name of the log are numbered in their order, and a file that is open
stays the same when it is renamed.  A text is what the text layer decodes, with translated
line ends.  The main result says when the lines that are yielded, together with those the
tail has still before it, are the complete lines that began after the tail was started.
-/

namespace RcTunnel
namespace Panel

open Foundation

namespace Logship

structure Place where
  file : Nat
  offset : Nat
deriving DecidableEq, Repr

def Place.Le (a b : Place) : Prop :=
  a.file < b.file ∨ a.file = b.file ∧ a.offset ≤ b.offset

instance (a b : Place) : Decidable (a.Le b) := inferInstanceAs (Decidable (_ ∨ _))

def Place.Lt (a b : Place) : Prop := a.Le b ∧ a ≠ b

structure Line where
  file : Nat
  start : Nat
  text : Text
deriving DecidableEq, Repr

def Line.place (line : Line) : Place := ⟨line.file, line.start⟩

/-- What {lit}`_tail` does next. -/
inductive Reader where
  /-- the loop until the path exists -/
  | waiting
  | opening
  /-- {lit}`f.seek(0, os.SEEK_END)` -/
  | seeking (file : Nat)
  | reading (file offset : Nat)
  /-- {lit}`os.stat(path).st_ino != inode` -/
  | checking (file offset : Nat)
  /-- {lit}`os.path.getsize(path) < f.tell()` -/
  | sizing (file offset : Nat)
  | reopening (file offset : Nat)
  /-- the file was closed and could not be opened again -/
  | closed
  /-- an exception has ended the loop -/
  | stopped
deriving DecidableEq, Repr

structure State where
  /-- all files that had the path, oldest first -/
  files : List Text
  /-- the newest one has it now -/
  present : Bool
  reader : Reader
  yielded : List Line
  /-- history: where the writer was when the tail was started -/
  start : Place
deriving DecidableEq, Repr

inductive Action where
  | tail
  | append (chunk : Text)
  | rename
  | create
deriving DecidableEq, Repr

def State.file (s : State) (i : Nat) : Text := s.files.getD i []

def State.newest (s : State) : Nat := s.files.length - 1

def State.unread (s : State) (file offset : Nat) : Text := (s.file file).drop offset

/-- The size of a text in bytes. -/
def size : Text -> Nat
  | [] => 0
  | c :: rest => c.utf8Size + size rest

/-- Where the writer is. -/
def endPlace (files : List Text) : Place :=
  match files.getLast? with
  | none => ⟨0, 0⟩
  | some t => ⟨files.length - 1, t.length⟩

def tailStep (s : State) : Option State :=
  match s.reader with
  | Reader.waiting =>
      some { s with reader := if s.present then Reader.opening else Reader.waiting }
  | Reader.opening =>
      some { s with reader := if s.present then Reader.seeking s.newest else Reader.stopped }
  | Reader.seeking file => some { s with reader := Reader.reading file (s.file file).length }
  | Reader.reading file offset =>
      let line := readline '\n' (s.unread file offset)
      if line = [] then
        some { s with reader := Reader.checking file offset }
      else
        some { s with
          yielded := s.yielded ++ [⟨file, offset, line⟩]
          reader := Reader.reading file (offset + line.length) }
  | Reader.checking file offset =>
      -- without the path the exception is caught, and the loop goes on
      if ¬ s.present then
        some { s with reader := Reader.reading file offset }
      else if s.newest ≠ file then
        some { s with reader := Reader.reopening file offset }
      else
        some { s with reader := Reader.sizing file offset }
  | Reader.sizing file offset =>
      if s.present ∧ size (s.file s.newest) < size ((s.file file).take offset) then
        some { s with reader := Reader.reopening file offset }
      else
        some { s with reader := Reader.reading file offset }
  | Reader.reopening _ _ =>
      some { s with reader := if s.present then Reader.reading s.newest 0 else Reader.closed }
  -- reading a closed file raises an exception that is not caught
  | Reader.closed => some { s with reader := Reader.stopped }
  | Reader.stopped => none

def step (s : State) : Action -> Option State
  | Action.tail => tailStep s
  | Action.append chunk =>
      match s.files.getLast? with
      | none => none
      | some t => some { s with files := s.files.dropLast ++ [t ++ chunk] }
  | Action.rename => if s.present then some { s with present := false } else none
  | Action.create =>
      if s.present then none else some { s with files := s.files ++ [[]], present := true }

/-- The tail is started, whether the log exists or not. -/
structure Started (s : State) : Prop where
  reader : s.reader = Reader.waiting
  yielded : s.yielded = []
  start : s.start = endPlace s.files
  present : s.present = true -> s.files ≠ []

def machine : Machine State Action where
  init := Started
  step := step

/-!
# What has to be yielded
-/

def linesIn (file : Nat) (t : Text) : List Line :=
  (linesFrom '\n' 0 [] t).map fun line => ⟨file, line.1, line.2⟩

def linesOf : Nat -> List Text -> List Line
  | _, [] => []
  | file, t :: rest => linesIn file t ++ linesOf (file + 1) rest

/-- All complete lines, in the order they were written. -/
def State.lines (s : State) : List Line := linesOf 0 s.files

/-- The lines that began after the tail was started. -/
def State.due (s : State) : List Line := s.lines.filter fun line => s.start.Le line.place

/-- Where the tail reads on, if it does. -/
def place (start : Place) : Reader -> Option Place
  | Reader.waiting => some start
  | Reader.opening => some start
  | Reader.seeking _ => some start
  | Reader.reading file offset => some ⟨file, offset⟩
  | Reader.checking file offset => some ⟨file, offset⟩
  | Reader.sizing file offset => some ⟨file, offset⟩
  | Reader.reopening file offset => some ⟨file, offset⟩
  | Reader.closed => none
  | Reader.stopped => none

/-- The line begins at the place or after it. -/
def After : Option Place -> Line -> Prop
  | none, _ => False
  | some p, line => p.Le line.place

instance : forall (p : Option Place) (line : Line), Decidable (After p line)
  | none, _ => isFalse id
  | some p, line => inferInstanceAs (Decidable (p.Le line.place))

/-- The complete lines that the tail has still before it. -/
def State.ahead (s : State) : List Line :=
  s.lines.filter fun line => After (place s.start s.reader) line

/-- The lines that are due are yielded or ahead, each once, whole and in order. -/
def Delivers (s : State) : Prop := s.yielded ++ s.ahead = s.due

instance (s : State) : Decidable (Delivers s) := inferInstanceAs (Decidable (_ = _))

/-- The lines that a chunk completes. -/
def completed (s : State) (chunk : Text) : List Line :=
  match s.files.getLast? with
  | none => []
  | some t =>
      (linesFrom '\n' (unfinished '\n' 0 [] t).1 (unfinished '\n' 0 [] t).2 chunk).map
        fun line => ⟨s.newest, line.1, line.2⟩

/-- The lines that are yielded are different ones, and in the order they were written. -/
def InOrder (s : State) : Prop := s.yielded.Pairwise fun a b => a.place.Lt b.place

/-- The tail has just found nothing to read in the newest file. -/
def CaughtUp (s : State) : Prop :=
  exists offset, s.reader = Reader.checking s.newest offset ∧ s.unread s.newest offset = []

/-- What the tail finds when it does its next step. -/
def Finds (s : State) : Reader -> Prop
  -- the path still exists
  | Reader.opening => s.present = true ∨ s.ahead = []
  -- no line was completed since the start
  | Reader.seeking file => forall line, line ∈ s.ahead ->
      Place.Le ⟨file, (s.file file).length⟩ line.place
  -- nothing is unread, or a whole line
  | Reader.reading file offset => s.unread file offset = [] ∨
      LineStart '\n' (s.file file) offset ∧ '\n' ∈ s.unread file offset
  -- no line is unread in the file that is closed, nor in one that came and went
  | Reader.reopening _ _ => forall line, line ∈ s.ahead ->
      s.present = true ∧ Place.Le ⟨s.newest, 0⟩ line.place
  | _ => True

/-- Every line that is completed is ahead, and the tail passes over none and splits none. -/
def Keeps (s : State) : Action -> Prop
  | Action.tail => Finds s s.reader
  | Action.append chunk => forall line, line ∈ completed s chunk ->
      s.start.Le line.place -> After (place s.start s.reader) line
  | Action.rename => True
  | Action.create => True

instance (s : State) : forall r, Decidable (Finds s r)
  | Reader.opening => inferInstanceAs (Decidable (_ ∨ _))
  | Reader.seeking file => inferInstanceAs (Decidable (forall line, line ∈ s.ahead ->
      Place.Le ⟨file, (s.file file).length⟩ line.place))
  | Reader.reading _ _ => inferInstanceAs (Decidable (_ ∨ _))
  | Reader.reopening _ _ => inferInstanceAs (Decidable (forall line, line ∈ s.ahead ->
      s.present = true ∧ Place.Le ⟨s.newest, 0⟩ line.place))
  | Reader.waiting | Reader.checking _ _ | Reader.sizing _ _ | Reader.closed
  | Reader.stopped => isTrue trivial

instance (s : State) : forall a, Decidable (Keeps s a)
  | Action.tail => inferInstanceAs (Decidable (Finds s s.reader))
  | Action.append chunk => inferInstanceAs (Decidable (forall line, line ∈ completed s chunk ->
      s.start.Le line.place -> After (place s.start s.reader) line))
  | Action.rename | Action.create => isTrue trivial

/-!
# The lines of the files
-/

theorem Place.le_refl (a : Place) : a.Le a := Or.inr ⟨rfl, Nat.le_refl _⟩

theorem Place.le_trans {a b c : Place} (hab : a.Le b) (hbc : b.Le c) : a.Le c := by
  unfold Place.Le at hab hbc ⊢
  omega

theorem linesOf_append (file : Nat) (xs ys : List Text) :
    linesOf file (xs ++ ys) = linesOf file xs ++ linesOf (file + xs.length) ys := by
  induction xs generalizing file with
  | nil => rfl
  | cons t rest ih =>
      rw [List.cons_append, linesOf, linesOf, ih, List.append_assoc, List.length_cons,
        Nat.add_assoc, Nat.add_comm 1]

theorem mem_linesIn {file : Nat} {t : Text} {line : Line} (h : line ∈ linesIn file t) :
    line.file = file ∧ (line.start, line.text) ∈ linesFrom '\n' 0 [] t := by
  rcases List.mem_map.mp h with ⟨found, hmem, rfl⟩
  exact ⟨rfl, hmem⟩

theorem mem_linesOf {file : Nat} {files : List Text} {line : Line}
    (h : line ∈ linesOf file files) :
    exists i t, files[i]? = some t ∧ line.file = file + i ∧
      (line.start, line.text) ∈ linesFrom '\n' 0 [] t := by
  induction files generalizing file with
  | nil => cases h
  | cons t rest ih =>
      rcases List.mem_append.mp h with hhead | hrest
      · rcases mem_linesIn hhead with ⟨hfile, hmem⟩
        exact ⟨0, t, rfl, hfile, hmem⟩
      · rcases ih hrest with ⟨i, t', hget, hfile, hmem⟩
        refine ⟨i + 1, t', hget, ?_, hmem⟩
        omega

theorem pairwise_linesOf (file : Nat) (files : List Text) :
    (linesOf file files).Pairwise fun a b => a.place.Lt b.place := by
  induction files generalizing file with
  | nil => exact List.Pairwise.nil
  | cons t rest ih =>
      rw [linesOf, List.pairwise_append]
      refine ⟨?_, ih (file + 1), ?_⟩
      · rw [linesIn, List.pairwise_map]
        refine pairwise_linesFrom.imp_of_mem ?_
        intro a b ha _ hle
        have hpos : 0 < a.2.length := List.length_pos_of_mem (bounds_of_mem ha).right.right
        constructor
        · exact Or.inr ⟨rfl, Nat.le_of_add_right_le hle⟩
        · intro hsame
          have hstart : a.1 = b.1 := congrArg Place.offset hsame
          omega
      · intro a ha b hb
        have hfile := (mem_linesIn ha).left
        rcases mem_linesOf hb with ⟨i, t', -, hlater, -⟩
        have hlt : a.file < b.file := by omega
        constructor
        · exact Or.inl hlt
        · intro hsame
          have hequal : a.file = b.file := congrArg Place.file hsame
          omega

/-- A complete line begins where a line does, and has its end. -/
theorem whole_of_mem_lines {s : State} {line : Line} (h : line ∈ s.lines) :
    LineStart '\n' (s.file line.file) line.start ∧ '\n' ∈ line.text := by
  rcases mem_linesOf h with ⟨i, t, hget, hfile, hmem⟩
  have ht : s.file line.file = t := by
    rw [State.file, List.getD_eq_getElem?_getD, hfile, Nat.zero_add, hget]
    rfl
  rw [ht]
  exact ⟨lineStart_of_mem hmem, (bounds_of_mem hmem).right.right⟩

/-- The lines from the beginning of a line on. -/
theorem filter_lines {s : State} {file offset : Nat} (hfile : file < s.files.length)
    (hstart : LineStart '\n' (s.file file) offset) :
    s.lines.filter (fun line => Place.Le ⟨file, offset⟩ line.place) =
      ((linesFrom '\n' offset [] (s.unread file offset)).map fun line =>
        ⟨file, line.1, line.2⟩) ++ linesOf (file + 1) (s.files.drop (file + 1)) := by
  have hget : s.file file = s.files[file] := by
    rw [State.file, List.getD_eq_getElem?_getD, List.getElem?_eq_getElem hfile]
    rfl
  have hsplit : s.files = s.files.take file ++ s.file file :: s.files.drop (file + 1) := by
    rw [hget, ← List.drop_eq_getElem_cons hfile, List.take_append_drop]
  have hlength : (s.files.take file).length = file := by
    rw [List.length_take]
    omega
  have hbefore : (linesOf 0 (s.files.take file)).filter
      (fun line => Place.Le ⟨file, offset⟩ line.place) = [] := by
    rw [List.filter_eq_nil_iff]
    intro line hline
    rcases mem_linesOf hline with ⟨i, t, hi, hline, -⟩
    have hlt : i < (s.files.take file).length := (List.getElem?_eq_some_iff.mp hi).1
    simp only [decide_eq_true_eq]
    unfold Place.Le Line.place
    simp only
    omega
  have hafter : (linesOf (file + 1) (s.files.drop (file + 1))).filter
      (fun line => Place.Le ⟨file, offset⟩ line.place) =
        linesOf (file + 1) (s.files.drop (file + 1)) := by
    rw [List.filter_eq_self]
    intro line hline
    rcases mem_linesOf hline with ⟨i, t, -, hline, -⟩
    simp only [decide_eq_true_eq]
    unfold Place.Le Line.place
    simp only
    omega
  have hin : (linesIn file (s.file file)).filter
      (fun line => Place.Le ⟨file, offset⟩ line.place) =
        (linesFrom '\n' offset [] (s.unread file offset)).map fun line =>
          ⟨file, line.1, line.2⟩ := by
    rw [State.unread, ← filter_lines_of_lineStart hstart, linesIn, List.filter_map]
    congr 1
    apply List.filter_congr
    intro line _
    simp [Place.Le, Line.place]
  have hlines : s.lines = linesOf 0 (s.files.take file) ++
      (linesIn file (s.file file) ++ linesOf (file + 1) (s.files.drop (file + 1))) := by
    rw [State.lines]
    conv_lhs => rw [hsplit]
    rw [linesOf_append, linesOf, hlength, Nat.zero_add]
  rw [hlines, List.filter_append, List.filter_append, hbefore, hin, hafter, List.nil_append]

/-!
# The invariant

The tail is never behind its start, and a file that it closes is not the newest one.
-/

def ReaderOk (s : State) : Reader -> Prop
  | Reader.seeking file =>
      file < s.files.length ∧ s.start.Le ⟨file, (s.file file).length⟩
  | Reader.reading file offset => file < s.files.length ∧ s.start.Le ⟨file, offset⟩
  | Reader.checking file offset => file < s.files.length ∧ s.start.Le ⟨file, offset⟩
  | Reader.sizing file offset => file < s.files.length ∧ s.start.Le ⟨file, offset⟩
  | Reader.reopening file offset => file < s.newest ∧ s.start.Le ⟨file, offset⟩
  | _ => True

structure Inv (s : State) : Prop where
  present : s.present = true -> s.files ≠ []
  start : s.start.Le (endPlace s.files)
  reader : ReaderOk s s.reader

theorem inv_of_started {s : State} (h : Started s) : Inv s := by
  constructor
  · exact h.present
  · rw [h.start]
    exact Place.le_refl _
  · rw [h.reader]
    trivial

theorem endPlace_concat (files : List Text) (t : Text) :
    endPlace (files ++ [t]) = ⟨files.length, t.length⟩ := by
  simp [endPlace]

/-- The end of the newest file. -/
theorem endPlace_of_ne_nil {s : State} (h : s.files ≠ []) :
    s.newest < s.files.length ∧ endPlace s.files = ⟨s.newest, (s.file s.newest).length⟩ := by
  rcases List.eq_nil_or_concat s.files with hnil | ⟨before, t, heq⟩
  · exact absurd hnil h
  · rw [List.concat_eq_append] at heq
    have hnewest : s.newest = before.length := by simp [State.newest, heq]
    rw [State.file, hnewest, heq, endPlace_concat]
    simp

theorem size_append (t u : Text) : size (t ++ u) = size t + size u := by
  induction t with
  | nil => simp [size]
  | cons c rest ih => rw [List.cons_append, size, size, ih, Nat.add_assoc]

/-- Nothing is smaller than a part of it. -/
theorem size_take_le (t : Text) (offset : Nat) : size (t.take offset) ≤ size t := by
  have hsplit := size_append (t.take offset) (t.drop offset)
  rw [List.take_append_drop] at hsplit
  omega

/-- The tail changes nothing of the files. -/
theorem frame_tail {s t : State} (hstep : tailStep s = some t) :
    t.files = s.files ∧ t.present = s.present ∧ t.start = s.start := by
  unfold tailStep at hstep
  grind

theorem reader_tail {s t : State} (h : Inv s) (hstep : tailStep s = some t) :
    ReaderOk s t.reader := by
  have hreader := h.reader
  have hstart : s.present = true -> s.newest < s.files.length ∧
      s.start.Le ⟨s.newest, (s.file s.newest).length⟩ := by
    intro hpresent
    rcases endPlace_of_ne_nil (h.present hpresent) with ⟨hlt, hend⟩
    exact ⟨hlt, hend ▸ h.start⟩
  unfold tailStep at hstep
  cases hr : s.reader with
  | waiting =>
      rw [hr] at hstep
      cases hstep
      cases s.present <;> trivial
  | opening =>
      rw [hr] at hstep
      cases hstep
      cases hpresent : s.present with
      | true => exact hstart hpresent
      | false => trivial
  | seeking file =>
      rw [hr] at hstep hreader
      cases hstep
      exact hreader
  | reading file offset =>
      rw [hr] at hstep hreader
      simp only at hstep
      split at hstep
      · cases hstep
        exact hreader
      · cases hstep
        have hforward : Place.Le ⟨file, offset⟩
            ⟨file, offset + (readline '\n' (s.unread file offset)).length⟩ :=
          Or.inr ⟨rfl, Nat.le_add_right _ _⟩
        exact ⟨hreader.left, Place.le_trans hreader.right hforward⟩
  | checking file offset =>
      rw [hr] at hstep hreader
      simp only at hstep
      split at hstep
      · cases hstep
        exact hreader
      · split at hstep
        · rename_i hother
          cases hstep
          have hlt : file < s.files.length := hreader.left
          have hnewer : file < s.newest := by
            unfold State.newest at hother ⊢
            omega
          exact ⟨hnewer, hreader.right⟩
        · cases hstep
          exact hreader
  | sizing file offset =>
      rw [hr] at hstep hreader
      simp only at hstep
      split at hstep
      · rename_i hsmaller
        cases hstep
        have hlt : file < s.files.length := hreader.left
        have hother : s.newest ≠ file := by
          rintro rfl
          have hle := size_take_le (s.file s.newest) offset
          omega
        have hnewer : file < s.newest := by
          unfold State.newest at hother ⊢
          omega
        exact ⟨hnewer, hreader.right⟩
      · cases hstep
        exact hreader
  | reopening file offset =>
      rw [hr] at hstep hreader
      cases hstep
      cases hpresent : s.present with
      | true =>
          have hforward : Place.Le ⟨file, offset⟩ ⟨s.newest, 0⟩ := Or.inl hreader.left
          exact ⟨(hstart hpresent).left, Place.le_trans hreader.right hforward⟩
      | false => trivial
  | closed =>
      rw [hr] at hstep
      cases hstep
      trivial
  | stopped =>
      rw [hr] at hstep
      cases hstep

/-- The writer only adds. -/
theorem ReaderOk.mono {s t : State} {r : Reader} (h : ReaderOk s r)
    (hlength : s.files.length ≤ t.files.length)
    (hfile : forall i, i < s.files.length -> (s.file i).length ≤ (t.file i).length)
    (hstart : t.start = s.start) : ReaderOk t r := by
  cases r with
  | seeking file =>
      rw [ReaderOk, hstart]
      refine ⟨Nat.lt_of_lt_of_le h.left hlength, Place.le_trans h.right ?_⟩
      exact Or.inr ⟨rfl, hfile file h.left⟩
  | reading file offset | checking file offset | sizing file offset =>
      rw [ReaderOk, hstart]
      exact ⟨Nat.lt_of_lt_of_le h.left hlength, h.right⟩
  | reopening file offset =>
      rw [ReaderOk, hstart]
      exact ⟨Nat.lt_of_lt_of_le h.left (Nat.sub_le_sub_right hlength 1), h.right⟩
  | waiting | opening | closed | stopped => trivial

theorem append_cases {s t : State} {chunk : Text}
    (hstep : machine.step s (Action.append chunk) = some t) :
    exists before newest, s.files = before ++ [newest] ∧
      t = { s with files := before ++ [newest ++ chunk] } := by
  rcases List.eq_nil_or_concat s.files with hnil | ⟨before, newest, heq⟩
  · simp [machine, step, hnil] at hstep
  · rw [List.concat_eq_append] at heq
    refine ⟨before, newest, heq, ?_⟩
    simpa [machine, step, heq] using hstep.symm

theorem inv_step (s : State) (a : Action) (t : State) (h : Inv s)
    (hstep : machine.step s a = some t) : Inv t := by
  cases a with
  | tail =>
      rcases frame_tail hstep with ⟨hfiles, hpresent, hstart⟩
      constructor
      · rw [hpresent, hfiles]
        exact h.present
      · rw [hstart, hfiles]
        exact h.start
      · apply (reader_tail h hstep).mono (le_of_eq (congrArg List.length hfiles.symm)) _ hstart
        intro i _
        rw [State.file, State.file, hfiles]
  | append chunk =>
      rcases append_cases hstep with ⟨before, newest, hs, rfl⟩
      constructor
      · intro _
        exact List.append_ne_nil_of_right_ne_nil _ (List.cons_ne_nil _ _)
      · have hstart := h.start
        rw [hs, endPlace_concat] at hstart
        rw [endPlace_concat]
        refine Place.le_trans hstart (Or.inr ⟨rfl, ?_⟩)
        rw [List.length_append]
        exact Nat.le_add_right _ _
      · apply h.reader.mono
        · simp [hs]
        · intro i hi
          by_cases hlt : i < before.length
          · rw [State.file, State.file, hs, List.getD_append _ _ _ _ hlt,
              List.getD_append _ _ _ _ hlt]
          · have hlast : i = before.length := by
              simp only [hs, List.length_append, List.length_singleton] at hi
              omega
            simp [State.file, hs, hlast]
        · rfl
  | rename =>
      simp only [machine, step, Option.ite_none_right_eq_some, Option.some.injEq] at hstep
      rcases hstep with ⟨-, rfl⟩
      exact ⟨fun hpresent => absurd hpresent Bool.false_ne_true, h.start, h.reader⟩
  | create =>
      simp only [machine, step, Option.ite_none_left_eq_some, Option.some.injEq] at hstep
      rcases hstep with ⟨-, rfl⟩
      constructor
      · intro _
        exact List.append_ne_nil_of_right_ne_nil _ (List.cons_ne_nil _ _)
      · rw [endPlace_concat]
        refine Place.le_trans h.start ?_
        rcases List.eq_nil_or_concat s.files with hnil | ⟨before, newest, heq⟩
        · simp [hnil, endPlace, Place.Le]
        · rw [List.concat_eq_append] at heq
          rw [heq, endPlace_concat]
          exact Or.inl (by simp)
      · apply h.reader.mono
        · simp
        · intro i hi
          rw [State.file, State.file, List.getD_append _ _ _ _ hi]
        · rfl

/-!
# What a step does to the lines

A step that moves the tail keeps the lines apart from those it passes over, and a chunk
adds the same lines to those that are due and those that are ahead, unless one of them is
behind the tail.
-/

theorem filter_eq_filter_iff {p q : Line -> Prop} [DecidablePred p] [DecidablePred q]
    {lines : List Line} (hle : forall line, q line -> p line) :
    lines.filter (fun line => q line) = lines.filter (fun line => p line) <->
      forall line, line ∈ lines.filter (fun line => p line) -> q line := by
  constructor
  · intro heq line hline
    rw [← heq, List.mem_filter] at hline
    simpa using hline.right
  · intro hall
    apply List.filter_congr
    intro line hline
    rw [decide_eq_decide]
    constructor
    · exact hle line
    · intro hp
      exact hall line (List.mem_filter.mpr ⟨hline, by simpa using hp⟩)

section Moves

variable {s : State} {r : Reader}

/-- A tail that moves on passes over no line exactly when those ahead are after its place. -/
theorem delivers_move (h : Delivers s)
    (hle : forall line, After (place s.start r) line -> After (place s.start s.reader) line) :
    Delivers { s with reader := r } <->
      forall line, line ∈ s.ahead -> After (place s.start r) line := by
  unfold Delivers at h ⊢
  show s.yielded ++ State.ahead { s with reader := r } = s.due <-> _
  rw [← h, List.append_right_inj]
  exact filter_eq_filter_iff hle

theorem delivers_stay (h : Delivers s) (hplace : place s.start r = place s.start s.reader) :
    Delivers { s with reader := r } := by
  rw [delivers_move h (by rw [hplace]; exact fun _ => id), hplace]
  intro line hline
  simpa using (List.mem_filter.mp hline).right

end Moves

/-- What is read is the next line that is due exactly when it is a whole one. -/
theorem delivers_read {s : State} {file offset : Nat} (h : Delivers s)
    (hreader : s.reader = Reader.reading file offset) (hfile : file < s.files.length) :
    Delivers { s with
        yielded := s.yielded ++ [⟨file, offset, readline '\n' (s.unread file offset)⟩]
        reader := Reader.reading file
          (offset + (readline '\n' (s.unread file offset)).length) } <->
      LineStart '\n' (s.file file) offset ∧ '\n' ∈ s.unread file offset := by
  constructor
  · intro hdelivers
    unfold Delivers at hdelivers
    have hdue : (⟨file, offset, readline '\n' (s.unread file offset)⟩ : Line) ∈ s.due := by
      show _ ∈ State.due { s with
        yielded := s.yielded ++ [⟨file, offset, readline '\n' (s.unread file offset)⟩]
        reader := Reader.reading file
          (offset + (readline '\n' (s.unread file offset)).length) }
      rw [← hdelivers]
      simp
    rcases whole_of_mem_lines (List.mem_filter.mp hdue).left with ⟨hstart, hmem⟩
    refine ⟨hstart, ?_⟩
    by_contra hnot
    rw [readline_of_not_mem hnot] at hmem
    exact hnot hmem
  · rintro ⟨hstart, hmem⟩
    have hahead : s.ahead =
        s.lines.filter fun line => Place.Le ⟨file, offset⟩ line.place := by
      rw [State.ahead, hreader]
      rfl
    unfold Delivers at h ⊢
    rw [hahead, filter_lines hfile hstart, linesFrom_of_mem hmem] at h
    have hnext : LineStart '\n' (s.file file)
        (offset + (readline '\n' (s.unread file offset)).length) :=
      lineStart_readline hstart hmem
    show s.yielded ++ [_] ++ s.lines.filter (fun line =>
      Place.Le ⟨file, offset + (readline '\n' (s.unread file offset)).length⟩ line.place) = s.due
    rw [← h, filter_lines hfile hnext]
    simp [State.unread]

theorem completed_eq {s : State} {before : List Text} {newest : Text} (chunk : Text)
    (hs : s.files = before ++ [newest]) :
    State.lines { s with files := before ++ [newest ++ chunk] } =
      s.lines ++ completed s chunk := by
  unfold State.lines completed
  have hnewest : s.newest = before.length := by simp [State.newest, hs]
  rw [hs, linesOf_append, linesOf_append, hnewest]
  simp [linesOf, linesIn, linesFrom_append]

/-- A chunk keeps the lines when it completes none that is due behind the tail. -/
theorem delivers_append {s t : State} {chunk : Text} (hinv : Inv s) (h : Delivers s)
    (hstep : machine.step s (Action.append chunk) = some t) :
    Delivers t <-> Keeps s (Action.append chunk) := by
  rcases append_cases hstep with ⟨before, newest, hs, rfl⟩
  have hlines := completed_eq chunk hs
  have hle : forall line, After (place s.start s.reader) line -> s.start.Le line.place := by
    intro line
    have hreader := hinv.reader
    cases hr : s.reader with
    | waiting | opening | seeking file => exact id
    | closed | stopped => exact False.elim
    | reading file offset | checking file offset | sizing file offset
    | reopening file offset =>
        rw [hr] at hreader
        exact Place.le_trans hreader.right
  unfold Delivers at h ⊢
  have hahead : State.ahead { s with files := before ++ [newest ++ chunk] } = s.ahead ++
      (completed s chunk).filter fun line => After (place s.start s.reader) line := by
    rw [State.ahead, hlines, List.filter_append]
    rfl
  have hdue : State.due { s with files := before ++ [newest ++ chunk] } = s.due ++
      (completed s chunk).filter fun line => s.start.Le line.place := by
    rw [State.due, hlines, List.filter_append]
    rfl
  rw [hahead, hdue, ← h, List.append_assoc, List.append_right_inj, List.append_right_inj,
    filter_eq_filter_iff hle]
  simp [Keeps, List.mem_filter]

theorem delivers_tail {s t : State} (hinv : Inv s) (h : Delivers s)
    (hstep : tailStep s = some t) : Delivers t <-> Finds s s.reader := by
  have hreader := hinv.reader
  unfold tailStep at hstep
  cases hr : s.reader with
  | waiting =>
      rw [hr] at hstep
      cases hstep
      refine iff_of_true (delivers_stay h ?_) trivial
      rw [hr]
      cases s.present <;> rfl
  | opening =>
      rw [hr] at hstep
      simp only at hstep
      split at hstep
      · rename_i hpresent
        cases hstep
        exact iff_of_true (delivers_stay h (by rw [hr]; rfl)) (Or.inl hpresent)
      · rename_i hmissing
        cases hstep
        rw [delivers_move h fun _ => False.elim]
        simp only [Finds, hmissing, Bool.false_eq_true, false_or]
        exact List.eq_nil_iff_forall_not_mem.symm
  | seeking file =>
      rw [hr] at hstep hreader
      cases hstep
      rw [delivers_move h]
      · rfl
      · rw [hr]
        exact fun line => Place.le_trans hreader.right
  | reading file offset =>
      rw [hr] at hstep hreader
      simp only at hstep
      split at hstep
      · rename_i hempty
        cases hstep
        have hnone : s.unread file offset = [] := by
          by_contra hne
          exact readline_ne_nil hne hempty
        refine iff_of_true (delivers_stay h ?_) (Or.inl hnone)
        rw [hr]
        rfl
      · rename_i hline
        cases hstep
        have hsome : s.unread file offset ≠ [] := by
          intro hnone
          rw [hnone] at hline
          exact hline rfl
        rw [delivers_read h hr hreader.left]
        simp [Finds, hsome]
  | checking file offset =>
      rw [hr] at hstep
      simp only at hstep
      refine iff_of_true ?_ trivial
      split at hstep
      · cases hstep
        exact delivers_stay h (by rw [hr]; rfl)
      · split at hstep
        · cases hstep
          exact delivers_stay h (by rw [hr]; rfl)
        · cases hstep
          exact delivers_stay h (by rw [hr]; rfl)
  | sizing file offset =>
      rw [hr] at hstep
      simp only at hstep
      refine iff_of_true ?_ trivial
      split at hstep
      · cases hstep
        exact delivers_stay h (by rw [hr]; rfl)
      · cases hstep
        exact delivers_stay h (by rw [hr]; rfl)
  | reopening file offset =>
      rw [hr] at hstep hreader
      simp only at hstep
      split at hstep
      · rename_i hpresent
        cases hstep
        rw [delivers_move h]
        · simp only [Finds, hpresent, true_and]
          rfl
        · rw [hr]
          exact fun line => Place.le_trans (Or.inl hreader.left)
      · rename_i hmissing
        cases hstep
        rw [delivers_move h fun _ => False.elim]
        simp only [Finds, hmissing, Bool.false_eq_true, false_and]
        rfl
  | closed =>
      rw [hr] at hstep
      cases hstep
      exact iff_of_true (delivers_stay h (by rw [hr]; rfl)) trivial
  | stopped =>
      rw [hr] at hstep
      cases hstep

/-- Every step keeps the lines exactly when it meets the condition. -/
theorem delivers_step {s t : State} {a : Action} (hinv : Inv s) (h : Delivers s)
    (hstep : machine.step s a = some t) : Delivers t <-> Keeps s a := by
  cases a with
  | tail => exact delivers_tail hinv h hstep
  | append chunk => exact delivers_append hinv h hstep
  | rename =>
      simp only [machine, step, Option.ite_none_right_eq_some, Option.some.injEq] at hstep
      rcases hstep with ⟨-, rfl⟩
      exact iff_of_true h trivial
  | create =>
      simp only [machine, step, Option.ite_none_left_eq_some, Option.some.injEq] at hstep
      rcases hstep with ⟨-, rfl⟩
      refine iff_of_true ?_ trivial
      have hlines : State.lines { s with files := s.files ++ [[]], present := true } =
          s.lines := by
        simp [State.lines, linesOf_append, linesOf, linesIn, linesFrom]
      unfold Delivers State.ahead State.due at h ⊢
      rw [hlines]
      exact h

/-!
# Every run
-/

theorem delivers_of_started {s : State} (h : Started s) : Delivers s := by
  unfold Delivers State.ahead State.due
  rw [h.reader, h.yielded]
  rfl

theorem inOrder_of_delivers {s : State} (h : Delivers s) : InOrder s := by
  have hdue : s.due.Pairwise fun a b => a.place.Lt b.place :=
    (pairwise_linesOf 0 s.files).sublist List.filter_sublist
  rw [← h] at hdue
  exact (List.pairwise_append.mp hdue).left

theorem ahead_of_caughtUp {s : State} (h : CaughtUp s) : s.ahead = [] := by
  rcases h with ⟨offset, hreader, hnone⟩
  unfold State.ahead
  rw [hreader, List.filter_eq_nil_iff]
  intro line hline
  rcases mem_linesOf hline with ⟨i, t, hget, hfile, hmem⟩
  have hlt : i < s.files.length := (List.getElem?_eq_some_iff.mp hget).1
  have hbounds := bounds_of_mem hmem
  have hpos : 0 < line.text.length := List.length_pos_of_mem hbounds.right.right
  simp only [decide_eq_true_eq]
  rintro (hafter | ⟨hsame, hafter⟩)
  · simp only [State.newest, Line.place] at hafter
    omega
  · simp only [Line.place] at hsame hafter
    have ht : s.file s.newest = t := by
      rw [State.file, List.getD_eq_getElem?_getD, hsame, hfile, Nat.zero_add, hget]
      rfl
    rw [State.unread, ht, List.drop_eq_nil_iff] at hnone
    simp only [List.length_nil] at hbounds
    omega

/--
Whatever the order of the steps of the writer and the tail, the lines that began after the
tail was started are yielded or still before it, each once, whole and in order, in every
state of a run exactly when every read finds nothing or a whole line, the tail leaves no
line of a file behind, and no line is completed behind it or after it has ended.  On such a
run the lines that are yielded are different ones in their order, and all that are due when
the tail has caught up.
-/
theorem delivers_iff_keeps {s t : State} {actions : List Action} (hs : Started s)
    (hexec : machine.exec s actions = some t) :
    (machine.Always Delivers s actions <-> machine.Obeys Keeps s actions) ∧
      (machine.Obeys Keeps s actions -> machine.Always InOrder s actions ∧
        machine.Always (fun u => CaughtUp u -> u.yielded = u.due) s actions) := by
  have hstart := And.intro (inv_of_started hs) (delivers_of_started hs)
  have hiff : machine.Always Delivers s actions <-> machine.Obeys Keeps s actions := by
    refine Machine.always_iff_obeys (I := fun s => Inv s ∧ Delivers s) (fun _ h => h.right)
      ?_ ?_ hstart hexec
    · intro s a t h hkeeps hstep
      exact ⟨inv_step s a t h.left hstep, (delivers_step h.left h.right hstep).mpr hkeeps⟩
    · intro s a t h hkeeps hstep hdelivers
      exact hkeeps ((delivers_step h.left h.right hstep).mp hdelivers)
  constructor
  · exact hiff
  · intro hkeeps
    have hdelivers := hiff.mpr hkeeps
    constructor
    · exact hdelivers.imp fun _ => inOrder_of_delivers
    · apply hdelivers.imp
      intro u hu hcaught
      unfold Delivers at hu
      rwa [ahead_of_caughtUp hcaught, List.append_nil] at hu

/-- The log has a line when the tail is started. -/
def start : State where
  files := ["old\n".toList]
  present := true
  reader := Reader.waiting
  yielded := []
  start := ⟨0, 4⟩

theorem start_started : Started start := ⟨rfl, rfl, rfl, fun _ => by decide⟩

/-- The steps until the tail reads. -/
def opened : List Action := List.replicate 3 Action.tail

/-- Two lines, a rotation while nothing is unread, and another line. -/
def rotation : List Action :=
  opened ++ [Action.append "a\nb\n".toList] ++ List.replicate 3 Action.tail ++
    [Action.rename, Action.tail, Action.create, Action.append "c\n".toList] ++
    List.replicate 5 Action.tail

def State.texts (s : State) : List Text := s.yielded.map Line.text

theorem delivers_of_rotation :
    (machine.exec start rotation).map State.texts =
        some ["a\n".toList, "b\n".toList, "c\n".toList] ∧
      machine.Always Delivers start rotation ∧
      machine.Always (fun u => CaughtUp u -> u.yielded = u.due) start rotation := by
  cases hexec : machine.exec start rotation with
  | none => exact absurd hexec (by decide +kernel)
  | some t =>
      have hkeeps : machine.Obeys Keeps start rotation := by decide +kernel
      rcases delivers_iff_keeps start_started hexec with ⟨hdelivers, hcaught⟩
      refine ⟨?_, hdelivers.mpr hkeeps, (hcaught hkeeps).right⟩
      rw [← hexec]
      decide +kernel

/-- A line that is appended in two chunks, with a read between them. -/
def torn : List Action :=
  opened ++ [Action.append "GET /ind".toList, Action.tail, Action.append "ex 200\n".toList,
    Action.tail, Action.tail]

/-- A line that is appended while the tail sleeps, just before the rotation. -/
def rotatedAway : List Action :=
  opened ++ [Action.tail, Action.append "a\n".toList, Action.rename, Action.create] ++
    List.replicate 2 Action.tail ++ [Action.append "b\n".toList, Action.tail]

/-- Two rotations, the second one just before the file is opened again. -/
def missing : List Action :=
  opened ++ [Action.tail, Action.rename, Action.create, Action.tail, Action.rename] ++
    List.replicate 2 Action.tail ++ [Action.create, Action.append "a\n".toList]

/-- The first line is yielded in two pieces, the second one is never yielded, and after the
third run nothing is any more. -/
theorem not_delivers :
    ((machine.exec start torn).map State.texts =
          some ["GET /ind".toList, "ex 200\n".toList] ∧
        ¬ machine.Always Delivers start torn) ∧
      ((machine.exec start rotatedAway).map State.texts = some ["b\n".toList] ∧
        ¬ machine.Always Delivers start rotatedAway) ∧
      (machine.exec start missing).map State.reader = some Reader.stopped ∧
        ¬ machine.Always Delivers start missing := by
  decide +kernel

end Logship

end Panel
end RcTunnel
