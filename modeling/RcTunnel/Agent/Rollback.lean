import RcTunnel.Agent.Upgrade

/-!
# Rolling an upgrade back

A rollback copies every backup over the file it was made of, whenever that was.  It
brings back what was installed before the most recent upgrade in the runs in which
each upgrade replaces files that are installed, leaves no file behind whose backup is
of another release, and is not cut short before it has made its own backups.
-/

namespace RcTunnel
namespace Agent

open Foundation
open Engine

namespace Upgrade

def Auxiliary (f : Text) : Prop := bakSuffix <:+ f ∨ newSuffix <:+ f

instance (f : Text) : Decidable (Auxiliary f) := inferInstanceAs (Decidable (_ ∨ _))

/-- The agent's own files are the same. -/
def SameAgent (a b : Directory) : Prop :=
  forall f, ¬ Auxiliary f -> a.lookup f = b.lookup f

/-- What a rollback would copy over the file. -/
def backup (py : Python) (files : Directory) (f : Text) : Option Bytes :=
  (files.lookup (bak f)).filter fun data => Sound py f data

/-- The backup of the file, if there is one, is the file itself. -/
def Current (py : Python) (files : Directory) (f : Text) : Prop :=
  forall data, data ∈ backup py files f -> files.lookup f = some data

instance (py : Python) (files : Directory) (f : Text) : Decidable (Current py files f) :=
  inferInstanceAs (Decidable (forall data, data ∈ backup py files f -> _))

/-- The file is installed, and a backup of it can be restored. -/
def Replaceable (py : Python) (files : Directory) (f : Text) : Prop :=
  ¬ Auxiliary f ∧ files.lookup f ≠ none ∧
    forall data, data ∈ files.lookup f -> Sound py f data

instance (py : Python) (files : Directory) (f : Text) : Decidable (Replaceable py files f) :=
  inferInstanceAs (Decidable (_ ∧ _ ∧ forall data, data ∈ files.lookup f -> _))

/-- The files of an upgrade that have no backup of this upgrade yet. -/
def pending (todo : List (Text × Bytes)) : Phase -> List Text
  | Phase.backup => todo.map Prod.fst
  | Phase.write => todo.tail.map Prod.fst
  | Phase.replace => todo.tail.map Prod.fst

/-- Upgrades and rollbacks leave one release. -/
structure Released (py : Python) (s : State) : Prop where
  refused : forall msg downloads t,
    (forall version, s.process = Process.running version ->
      msg.staged py version downloads = none) ->
    step py s (Action.upgrade msg downloads) = some t -> t = s
  upgraded : forall msg, s.outcome = Outcome.upgraded msg -> forall f, f ∈ msg.listed ->
    exists data, s.files.lookup f = some data ∧ msg.want f = some (py.sha256 data)
  rolledBack : s.outcome = Outcome.rolledBack ->
    exists files, s.previous = some (files, true) ∧ SameAgent s.files files

/-- The upgrade starts from one release, replaces files that are installed, and the
other files have no backup of another release. -/
def Process.Admits (py : Python) (s : State) (msg : Message) (downloads : List (Option Bytes)) :
    Process -> Prop
  | Process.running version =>
      msg.staged py version downloads ≠ none ->
        s.whole = true ∧ (forall f, f ∈ msg.listed -> Replaceable py s.files f) ∧
          forall n, n ∈ baks s.files -> base n ∉ msg.listed -> Current py s.files (base n)
  | _ => True

instance (py : Python) (s : State) (msg : Message) (downloads : List (Option Bytes))
    (p : Process) : Decidable (p.Admits py s msg downloads) := by
  unfold Process.Admits
  split <;> infer_instance

/-- The process may be gone: no file that is still to be backed up has the backup of
another release. -/
def Process.Stoppable (py : Python) (files : Directory) : Process -> Prop
  | Process.replacing _ todo phase => forall f, f ∈ pending todo phase -> Current py files f
  | _ => True

instance (py : Python) (files : Directory) (p : Process) : Decidable (p.Stoppable py files) := by
  unfold Process.Stoppable
  split <;> infer_instance

def Orderly (py : Python) (s : State) : Action -> Prop
  | Action.upgrade msg downloads => s.process.Admits py s msg downloads
  | Action.operate copied => copied = true
  | Action.restore copied => copied = true
  | Action.crash => s.process.Stoppable py s.files
  | Action.boot _ _ => True
  | Action.connect => True

instance (py : Python) (s : State) : forall a, Decidable (Orderly py s a)
  | Action.upgrade msg downloads =>
      inferInstanceAs (Decidable (s.process.Admits py s msg downloads))
  | Action.operate copied => inferInstanceAs (Decidable (copied = true))
  | Action.restore copied => inferInstanceAs (Decidable (copied = true))
  | Action.crash => inferInstanceAs (Decidable (s.process.Stoppable py s.files))
  | Action.boot _ _ => inferInstanceAs (Decidable True)
  | Action.connect => inferInstanceAs (Decidable True)

/-!
# Names
-/

theorem bakSuffix_bak (f : Text) : bakSuffix <:+ bak f := List.suffix_append f bakSuffix

theorem newSuffix_new (f : Text) : newSuffix <:+ new f := List.suffix_append f newSuffix

@[simp] theorem base_bak (f : Text) : base (bak f) = f := by
  simp [base, bak]

theorem bak_base {n : Text} (h : bakSuffix <:+ n) : bak (base n) = n := by
  rcases h with ⟨f, rfl⟩
  exact congrArg bak (base_bak f)

theorem bak_inj {f g : Text} : bak f = bak g <-> f = g := List.append_left_inj bakSuffix

theorem bak_ne {f g : Text} (hg : ¬ Auxiliary g) : bak f ≠ g := by
  rintro rfl
  exact hg (Or.inl (bakSuffix_bak f))

theorem new_ne {f g : Text} (hg : ¬ Auxiliary g) : new f ≠ g := by
  rintro rfl
  exact hg (Or.inr (newSuffix_new f))

theorem new_ne_bak (f g : Text) : new f ≠ bak g := by
  intro h
  have hlast := congrArg List.getLast? h
  simp [new, bak, newSuffix, bakSuffix] at hlast

/-!
# Staging
-/

section Staging

variable {py : Python} {msg : Message}

theorem keys_assign (staged : List (Text × Bytes)) (f : Text) (data : Bytes) :
    (assign staged f data).map Prod.fst =
      if f ∈ staged.map Prod.fst then staged.map Prod.fst else staged.map Prod.fst ++ [f] := by
  unfold assign
  split
  · rw [List.map_map]
    apply List.map_congr_left
    intro e _
    simp only [Function.comp]
    split
    · rename_i hkey
      exact hkey.symm
    · rfl
  · rw [List.map_append]
    rfl

theorem mem_assign {staged : List (Text × Bytes)} {f : Text} {data : Bytes} {e : Text × Bytes}
    (h : e ∈ assign staged f data) : e = (f, data) ∨ e ∈ staged := by
  unfold assign at h
  split at h
  · rcases List.mem_map.mp h with ⟨old, hold, rfl⟩
    split
    · exact Or.inl rfl
    · exact Or.inr hold
  · rcases List.mem_append.mp h with hold | hnew
    · exact Or.inr hold
    · exact Or.inl (List.mem_singleton.mp hnew)

theorem nodup_assign {staged : List (Text × Bytes)} (h : (staged.map Prod.fst).Nodup) (f : Text)
    (data : Bytes) : ((assign staged f data).map Prod.fst).Nodup := by
  rw [keys_assign]
  split
  · exact h
  · rename_i hnew
    exact List.nodup_append.mpr ⟨h, List.nodup_singleton f, by
      intro a ha b hb heq
      rw [List.mem_singleton] at hb
      exact hnew (hb ▸ heq ▸ ha)⟩

theorem mem_keys_assign {staged : List (Text × Bytes)} {f g : Text} {data : Bytes} :
    g ∈ (assign staged f data).map Prod.fst <-> g ∈ staged.map Prod.fst ∨ g = f := by
  rw [keys_assign]
  split
  · rename_i hf
    constructor
    · exact Or.inl
    · rintro (hg | rfl)
      · exact hg
      · exact hf
  · rw [List.mem_append, List.mem_singleton]

/-- Staged files are verified, each once, and they are the listed ones. -/
structure Stages (py : Python) (msg : Message) (names : Text -> Prop)
    (staged : List (Text × Bytes)) : Prop where
  nodup : (staged.map Prod.fst).Nodup
  verified : forall e, e ∈ staged -> Verified py msg e.1 e.2
  names : forall f, f ∈ staged.map Prod.fst <-> names f

theorem stage_stages {files : List Text} {downloads : List (Option Bytes)}
    {acc staged : List (Text × Bytes)} {names : Text -> Prop} (hacc : Stages py msg names acc)
    (h : stage py msg files downloads acc = some staged) :
    Stages py msg (fun f => names f ∨ f ∈ files) staged := by
  induction files generalizing downloads acc names with
  | nil =>
      cases h
      refine ⟨hacc.nodup, hacc.verified, fun f => ?_⟩
      rw [hacc.names f]
      simp
  | cons f rest ih =>
      unfold stage at h
      split at h
      · cases h
      · rename_i data _
        split at h
        · rename_i hverified
          have hnext : Stages py msg (fun g => names g ∨ g = f) (assign acc f data) := by
            refine ⟨nodup_assign hacc.nodup f data, ?_, fun g => ?_⟩
            · intro e he
              rcases mem_assign he with rfl | hold
              · exact hverified
              · exact hacc.verified e hold
            · rw [mem_keys_assign, hacc.names g]
          have hrest := ih hnext h
          refine ⟨hrest.nodup, hrest.verified, fun g => ?_⟩
          rw [hrest.names g, List.mem_cons, or_assoc]
        · cases h

theorem Message.staged_stages {version : Text} {downloads : List (Option Bytes)}
    {staged : List (Text × Bytes)} (h : msg.staged py version downloads = some staged) :
    Stages py msg (fun f => f ∈ msg.listed) staged := by
  unfold Message.staged at h
  split at h
  · cases h
  · have hempty : Stages py msg (fun _ => False) [] := by
      refine ⟨List.nodup_nil, ?_, fun f => by simp⟩
      intro e he
      cases he
    have hstages := stage_stages hempty h
    refine ⟨hstages.nodup, hstages.verified, fun f => ?_⟩
    rw [hstages.names f, false_or]

theorem Verified.ne_nil {f : Text} {data : Bytes} (h : Verified py msg f data) : f ≠ [] := by
  rintro rfl
  have hsafe := h.safe
  simp [safeArtifact] at hsafe

end Staging

/-!
# File operations
-/

/-- What a rollback leaves under the name. -/
def restored (py : Python) (files : Directory) (f : Text) : Option Bytes :=
  (backup py files f).or (files.lookup f)

/-- A rollback brings back the agent's files as they were. -/
def Restorable (py : Python) (files old : Directory) : Prop :=
  forall f, ¬ Auxiliary f -> restored py files f = old.lookup f

/-- Backups are of the agent's own files. -/
def Plain (files : Directory) : Prop :=
  forall n, n ∈ files -> bakSuffix <:+ n -> base n ≠ [] ∧ ¬ Auxiliary (base n)

section Files

variable {py : Python} {files old : Directory} {f g n : Text} {data : Bytes}

theorem mem_baks : n ∈ baks files <-> n ∈ files ∧ bakSuffix <:+ n := by
  rw [baks, List.mem_filter, decide_eq_true_eq, AList.mem_keys]

theorem Current.restored (h : Current py files f) : restored py files f = files.lookup f := by
  unfold Upgrade.restored
  cases hbackup : backup py files f with
  | none => rfl
  | some data => exact (h data hbackup).symm

theorem current_of_lookup (h : files.lookup f = Upgrade.restored py files f) :
    Current py files f := by
  intro data hdata
  rw [h, Upgrade.restored, hdata]
  rfl

theorem backup_eq_none (h : bak f ∉ files) : backup py files f = none := by
  rw [backup, AList.lookup_eq_none.mpr h]
  rfl

/-- What happens to other names leaves the backup. -/
theorem backup_congr {files' : Directory} (h : files'.lookup (bak f) = files.lookup (bak f)) :
    backup py files' f = backup py files f := by
  rw [backup, backup, h]

theorem lookup_restoreOne (hn : bakSuffix <:+ n) (hbase : base n ≠ []) (g : Text) :
    (restoreOne py files n true).lookup g =
      if g = base n then restored py files g else files.lookup g := by
  have hrestored : Upgrade.restored py files (base n) =
      ((files.lookup n).filter fun data => Sound py (base n) data).or (files.lookup (base n)) := by
    rw [Upgrade.restored, backup, bak_base hn]
  unfold restoreOne
  split
  · rename_i hnone
    split
    · rename_i hg
      rw [hg, hrestored, hnone]
      rfl
    · rfl
  · rename_i data hsome
    by_cases hsound : Sound py (base n) data
    · rw [if_pos ⟨rfl, hbase, hsound⟩]
      split
      · rename_i hg
        rw [hg, hrestored, hsome, AList.lookup_insert]
        simp [Option.filter, hsound]
      · rename_i hg
        exact AList.lookup_insert_ne hg
    · rw [if_neg fun h => hsound h.right.right]
      split
      · rename_i hg
        rw [hg, hrestored, hsome]
        simp [Option.filter, hsound]
      · rfl

theorem backup_restoreOne (hn : bakSuffix <:+ n) (hbase : base n ≠ [])
    (hplain : ¬ Auxiliary (base n)) (g : Text) :
    backup py (restoreOne py files n true) g = backup py files g := by
  apply backup_congr
  rw [lookup_restoreOne hn hbase, if_neg (bak_ne hplain)]

/-- Restoring one backup leaves what a rollback brings back. -/
theorem restored_restoreOne (hn : bakSuffix <:+ n) (hbase : base n ≠ [])
    (hplain : ¬ Auxiliary (base n)) (g : Text) :
    restored py (restoreOne py files n true) g = restored py files g := by
  rw [Upgrade.restored, backup_restoreOne hn hbase hplain, lookup_restoreOne hn hbase]
  unfold Upgrade.restored
  split
  · cases backup py files g with
    | none => rfl
    | some data => rfl
  · rfl

theorem mem_restoreOne {copied : Bool} (h : g ∈ restoreOne py files n copied) :
    g ∈ files ∨ g = base n := by
  unfold restoreOne at h
  split at h
  · exact Or.inl h
  · split at h
    · exact ((AList.mem_insert _).mp h).symm
    · exact Or.inl h

theorem lookup_backUp (hfile : files.lookup f = some data) (g : Text) :
    (backUp files f true).lookup g = if g = bak f then some data else files.lookup g := by
  simp only [backUp, hfile, if_true]
  split
  · rename_i hg
    rw [hg]
    exact AList.lookup_insert files
  · rename_i hg
    exact AList.lookup_insert_ne hg

theorem lookup_replaced (g : Text) :
    ((files.insert f data).erase (new f)).lookup g =
      if g = new f then none else if g = f then some data else files.lookup g := by
  split
  · rename_i hg
    rw [hg]
    exact AList.lookup_erase _ _
  · rename_i hnew
    rw [AList.lookup_erase_ne hnew]
    split
    · rename_i hg
      rw [hg]
      exact AList.lookup_insert files
    · rename_i hg
      exact AList.lookup_insert_ne hg

theorem Plain.restoreOne (h : Plain files) (hplain : ¬ Auxiliary (base n)) {copied : Bool} :
    Plain (restoreOne py files n copied) := by
  intro m hm hsuffix
  rcases mem_restoreOne hm with hold | rfl
  · exact h m hold hsuffix
  · exact absurd (Or.inl hsuffix) hplain

theorem Plain.backUp (h : Plain files) (hne : f ≠ []) (hplain : ¬ Auxiliary f) {copied : Bool} :
    Plain (backUp files f copied) := by
  intro m hm hsuffix
  unfold Upgrade.backUp at hm
  split at hm
  · exact h m hm hsuffix
  · split at hm
    · rcases (AList.mem_insert _).mp hm with rfl | hold
      · rw [base_bak]
        exact ⟨hne, hplain⟩
      · exact h m hold hsuffix
    · exact h m hm hsuffix

theorem Plain.write (h : Plain files) : Plain (files.insert (new f) data) := by
  intro m hm hsuffix
  rcases (AList.mem_insert _).mp hm with rfl | hold
  · exact absurd (bak_base hsuffix).symm (new_ne_bak _ _)
  · exact h m hold hsuffix

theorem Plain.replace (h : Plain files) (hplain : ¬ Auxiliary f) :
    Plain ((files.insert f data).erase (new f)) := by
  intro m hm hsuffix
  rcases (AList.mem_insert _).mp (AList.mem_erase.mp hm).right with rfl | hold
  · exact absurd (Or.inl hsuffix) hplain
  · exact h m hold hsuffix

end Files

/-!
# What is kept
-/

/-- An upgrade that is under way: the files that are still to be backed up are as they
were, and a rollback brings back the others. -/
structure Replacing (py : Python) (msg : Message) (files old : Directory)
    (todo : List (Text × Bytes)) (phase : Phase) : Prop where
  restored : forall f, ¬ Auxiliary f -> f ∉ pending todo phase ->
    restored py files f = old.lookup f
  pending : forall f, f ∈ pending todo phase ->
    files.lookup f = old.lookup f ∧ Replaceable py files f
  nodup : (todo.map Prod.fst).Nodup
  verified : forall e, e ∈ todo -> ¬ Auxiliary e.1 ∧ Verified py msg e.1 e.2
  listed : forall f, f ∈ msg.listed -> ¬ Auxiliary f ∧
    exists data, msg.want f = some (py.sha256 data) ∧
      ((f, data) ∈ todo ∨ files.lookup f = some data)
  backedUp : phase ≠ Phase.backup -> forall f data rest, todo = (f, data) :: rest ->
    backup py files f ≠ none
  written : phase = Phase.replace -> forall f data rest, todo = (f, data) :: rest ->
    files.lookup (new f) = some data

/-- What is installed at each point of the process. -/
def Process.Holds (py : Python) (s : State) : Process -> Prop
  | Process.down => forall old whole, s.previous = some (old, whole) -> Restorable py s.files old
  | Process.running _ =>
      forall old whole, s.previous = some (old, whole) -> Restorable py s.files old
  | Process.replacing msg todo phase =>
      exists old, s.previous = some (old, true) ∧ Replacing py msg s.files old todo phase
  | Process.restoring todo =>
      exists old, s.previous = some (old, true) ∧ Restorable py s.files old ∧
        (forall n, n ∈ todo -> bakSuffix <:+ n ∧ base n ≠ [] ∧ ¬ Auxiliary (base n)) ∧
        forall f, ¬ Auxiliary f -> bak f ∉ todo -> Current py s.files f

/-- A process that touches files has no outcome. -/
def Process.Busy : Process -> Prop
  | Process.replacing _ _ _ => True
  | _ => False

structure Inv (py : Python) (s : State) : Prop where
  plain : Plain s.files
  fresh : s.previous = none -> baks s.files = []
  previous : forall old whole, s.previous = some (old, whole) -> whole = true
  holds : s.process.Holds py s
  busy : s.process.Busy -> s.outcome = Outcome.none
  upgraded : forall msg, s.outcome = Outcome.upgraded msg -> forall f, f ∈ msg.listed ->
    exists data, s.files.lookup f = some data ∧ msg.want f = some (py.sha256 data)
  rolledBack : s.outcome = Outcome.rolledBack ->
    exists files, s.previous = some (files, true) ∧ SameAgent s.files files

theorem refused_step (py : Python) (s : State) (msg : Message)
    (downloads : List (Option Bytes)) (t : State)
    (hrefused : forall version, s.process = Process.running version ->
      msg.staged py version downloads = none)
    (hstep : step py s (Action.upgrade msg downloads) = some t) : t = s := by
  simp only [step] at hstep
  split at hstep
  · rename_i version hp
    rw [hrefused version hp] at hstep
    exact (Option.some.inj hstep).symm
  · cases hstep

theorem Inv.released {py : Python} {s : State} (h : Inv py s) : Released py s where
  refused := refused_step py s
  upgraded := h.upgraded
  rolledBack := h.rolledBack

section Operations

variable {py : Python} {msg : Message} {files old : Directory} {f : Text} {data : Bytes}
variable {rest : List (Text × Bytes)}

/-- The upgrade of a directory whose other backups are current. -/
theorem replacing_of_staged {staged : List (Text × Bytes)}
    (hstages : Stages py msg (fun f => f ∈ msg.listed) staged)
    (hinstalled : forall f, f ∈ msg.listed -> Replaceable py files f)
    (hcurrent : forall n, n ∈ baks files -> base n ∉ msg.listed -> Current py files (base n)) :
    Replacing py msg files files staged Phase.backup where
  restored := by
    intro f _ hf
    apply Current.restored
    by_cases hmem : bak f ∈ files
    · have hlisted : f ∉ msg.listed := fun hlisted => hf ((hstages.names f).mpr hlisted)
      have hbak := hcurrent (bak f) (mem_baks.mpr ⟨hmem, bakSuffix_bak f⟩)
      rw [base_bak] at hbak
      exact hbak hlisted
    · intro data hdata
      rw [backup_eq_none hmem] at hdata
      cases hdata
  pending := by
    intro f hf
    exact ⟨rfl, hinstalled f ((hstages.names f).mp hf)⟩
  nodup := hstages.nodup
  verified := by
    intro e he
    have hlisted := (hstages.names e.1).mp (List.mem_map_of_mem he)
    exact ⟨(hinstalled e.1 hlisted).left, hstages.verified e he⟩
  listed := by
    intro f hf
    rcases List.mem_map.mp ((hstages.names f).mpr hf) with ⟨e, he, rfl⟩
    exact ⟨(hinstalled e.1 hf).left, e.2, (hstages.verified e he).hash, Or.inl he⟩
  backedUp := by
    intro hphase
    exact absurd rfl hphase
  written := by
    intro hphase
    cases hphase

theorem Replacing.backUp (h : Replacing py msg files old ((f, data) :: rest) Phase.backup) :
    Replacing py msg (backUp files f true) old ((f, data) :: rest) Phase.write := by
  have hpending := h.pending f List.mem_cons_self
  rcases hpending with ⟨hsame, hplain, hinstalled, hsound⟩
  rcases Option.ne_none_iff_exists'.mp hinstalled with ⟨content, hfile⟩
  have hlookup : forall g, ¬ Auxiliary g -> (Upgrade.backUp files f true).lookup g =
      files.lookup g := by
    intro g hg
    rw [lookup_backUp hfile, if_neg fun heq => bak_ne hg heq.symm]
  have hbackup : backup py (Upgrade.backUp files f true) f = some content := by
    have hcontent := hsound content hfile
    rw [backup, lookup_backUp hfile, if_pos rfl]
    simp [Option.filter, hcontent]
  have hother : forall g, g ≠ f -> backup py (Upgrade.backUp files f true) g =
      backup py files g := by
    intro g hg
    apply backup_congr
    rw [lookup_backUp hfile, if_neg fun heq => hg (bak_inj.mp heq)]
  constructor
  · intro g hg hgone
    by_cases hgf : g = f
    · rw [hgf, Upgrade.restored, hbackup, ← hsame, hfile]
      rfl
    · have hold : g ∉ Upgrade.pending ((f, data) :: rest) Phase.backup := by
        intro hmem
        rcases List.mem_cons.mp hmem with heq | hrest
        · exact hgf heq
        · exact hgone hrest
      rw [Upgrade.restored, hother g hgf, hlookup g hg]
      exact h.restored g hg hold
  · intro g hg
    rcases h.pending g (List.mem_cons_of_mem f hg) with ⟨hgsame, hgplain, hgfile, hgsound⟩
    rw [hlookup g hgplain]
    refine ⟨hgsame, hgplain, ?_, ?_⟩
    · rw [hlookup g hgplain]
      exact hgfile
    · rw [hlookup g hgplain]
      exact hgsound
  · exact h.nodup
  · exact h.verified
  · intro g hg
    rcases h.listed g hg with ⟨hgplain, content', hwant, hwhere⟩
    refine ⟨hgplain, content', hwant, ?_⟩
    rw [hlookup g hgplain]
    exact hwhere
  · intro _ g content' rest' heq
    cases heq
    rw [hbackup]
    exact Option.some_ne_none content
  · intro hphase
    cases hphase

theorem Replacing.write (h : Replacing py msg files old ((f, data) :: rest) Phase.write) :
    Replacing py msg (files.insert (new f) data) old ((f, data) :: rest) Phase.replace := by
  have hlookup : forall g, ¬ Auxiliary g -> (files.insert (new f) data).lookup g =
      files.lookup g := by
    intro g hg
    exact AList.lookup_insert_ne fun heq => new_ne hg heq.symm
  have hbackup : forall g, backup py (files.insert (new f) data) g = backup py files g := by
    intro g
    exact backup_congr (AList.lookup_insert_ne fun heq => new_ne_bak f g heq.symm)
  constructor
  · intro g hg hgone
    rw [Upgrade.restored, hbackup, hlookup g hg]
    exact h.restored g hg hgone
  · intro g hg
    rcases h.pending g hg with ⟨hgsame, hgplain, hgfile, hgsound⟩
    rw [hlookup g hgplain]
    refine ⟨hgsame, hgplain, ?_, ?_⟩
    · rw [hlookup g hgplain]
      exact hgfile
    · rw [hlookup g hgplain]
      exact hgsound
  · exact h.nodup
  · exact h.verified
  · intro g hg
    rcases h.listed g hg with ⟨hgplain, content, hwant, hwhere⟩
    refine ⟨hgplain, content, hwant, ?_⟩
    rw [hlookup g hgplain]
    exact hwhere
  · intro _ g content rest' heq
    rw [hbackup]
    exact h.backedUp Phase.noConfusion g content rest' heq
  · intro _ g content rest' heq
    cases heq
    exact AList.lookup_insert files

theorem Replacing.replace (h : Replacing py msg files old ((f, data) :: rest) Phase.replace) :
    Replacing py msg ((files.insert f data).erase (new f)) old rest Phase.backup := by
  rcases h.verified _ List.mem_cons_self with ⟨hplain, hverified⟩
  have hlookup : forall g, ¬ Auxiliary g -> ((files.insert f data).erase (new f)).lookup g =
      if g = f then some data else files.lookup g := by
    intro g hg
    rw [lookup_replaced, if_neg fun heq => new_ne hg heq.symm]
  have hbackup : forall g, backup py ((files.insert f data).erase (new f)) g =
      backup py files g := by
    intro g
    apply backup_congr
    rw [lookup_replaced, if_neg fun heq => new_ne_bak f g heq.symm, if_neg (bak_ne hplain)]
  have hnodup := List.nodup_cons.mp h.nodup
  have hrest : forall g, g ∈ rest.map Prod.fst -> g ≠ f := by
    intro g hg heq
    exact hnodup.left (heq ▸ hg)
  constructor
  · intro g hg hgone
    have hold := h.restored g hg hgone
    by_cases hgf : g = f
    · have hsome := h.backedUp Phase.noConfusion f data rest rfl
      rcases Option.ne_none_iff_exists'.mp hsome with ⟨content, hcontent⟩
      rw [hgf] at hold ⊢
      rw [Upgrade.restored, hcontent] at hold
      rw [Upgrade.restored, hbackup, hcontent]
      exact hold
    · rw [Upgrade.restored, hbackup, hlookup g hg, if_neg hgf]
      exact hold
  · intro g hg
    rcases h.pending g hg with ⟨hgsame, hgplain, hgfile, hgsound⟩
    have hsame : ((files.insert f data).erase (new f)).lookup g = files.lookup g := by
      rw [hlookup g hgplain, if_neg (hrest g hg)]
    unfold Replaceable
    rw [hsame]
    exact ⟨hgsame, hgplain, hgfile, hgsound⟩
  · exact hnodup.right
  · intro e he
    exact h.verified e (List.mem_cons_of_mem _ he)
  · intro g hg
    rcases h.listed g hg with ⟨hgplain, content, hwant, hwhere⟩
    refine ⟨hgplain, ?_⟩
    by_cases hgf : g = f
    · subst hgf
      refine ⟨data, hverified.hash, Or.inr ?_⟩
      rw [hlookup g hgplain, if_pos rfl]
    · refine ⟨content, hwant, ?_⟩
      rw [hlookup g hgplain, if_neg hgf]
      rcases hwhere with hmem | hfile
      · rcases List.mem_cons.mp hmem with heq | hlater
        · exact absurd (congrArg Prod.fst heq) hgf
        · exact Or.inl hlater
      · exact Or.inr hfile
  · intro hphase
    exact absurd rfl hphase
  · intro hphase
    cases hphase

/-- An upgrade that has replaced every file. -/
theorem Replacing.done {phase : Phase} (h : Replacing py msg files old [] phase) :
    Restorable py files old := by
  intro f hf
  apply h.restored f hf
  cases phase <;> exact List.not_mem_nil

/-- An upgrade that is cut short where it may be. -/
theorem Replacing.stopped {todo : List (Text × Bytes)} {phase : Phase}
    (h : Replacing py msg files old todo phase)
    (hcurrent : forall f, f ∈ Upgrade.pending todo phase -> Current py files f) :
    Restorable py files old := by
  intro f hf
  by_cases hmem : f ∈ Upgrade.pending todo phase
  · rw [(hcurrent f hmem).restored]
    exact (h.pending f hmem).left
  · exact h.restored f hf hmem

end Operations

/-!
# One step
-/

section Steps

variable {py : Python} {s t : State}

theorem inv_of_pristine (h : Pristine s) : Inv py s where
  plain := by
    intro n hn hsuffix
    have hmem := mem_baks.mpr ⟨hn, hsuffix⟩
    rw [h.baks] at hmem
    cases hmem
  fresh := fun _ => h.baks
  previous := by
    intro old whole hprevious
    rw [h.previous] at hprevious
    cases hprevious
  holds := by
    rw [h.process]
    intro old whole hprevious
    rw [h.previous] at hprevious
    cases hprevious
  busy := fun _ => h.outcome
  upgraded := by
    intro msg hmsg
    rw [h.outcome] at hmsg
    cases hmsg
  rolledBack := by
    intro hback
    rw [h.outcome] at hback
    cases hback

/-- The process goes on, and no file is touched. -/
theorem Inv.proceed (h : Inv py s) (process : Process) (attempts : List Int)
    (hbusy : ¬ process.Busy) (hholds : process.Holds py s) :
    Inv py { s with process := process, bootAttempts := attempts } where
  plain := h.plain
  fresh := h.fresh
  previous := h.previous
  holds := by
    cases process <;> exact hholds
  busy := fun hprocess => absurd hprocess hbusy
  upgraded := h.upgraded
  rolledBack := h.rolledBack

theorem inv_boot {now : Int} {glob : List Text} (h : Inv py s)
    (hstep : step py s (Action.boot now glob) = some t) : Inv py t := by
  simp only [step] at hstep
  split at hstep
  · rename_i hp
    have hholds := h.holds
    rw [hp] at hholds
    split at hstep
    · rename_i hperm
      split at hstep
      · rename_i hloop
        cases hstep
        apply h.proceed (Process.restoring glob) s.bootAttempts not_false
        have hsome : s.previous ≠ none := by
          intro hnone
          apply hloop.right
          rw [h.fresh hnone] at hperm
          exact hperm.eq_nil
        rcases Option.ne_none_iff_exists'.mp hsome with ⟨⟨old, whole⟩, hprevious⟩
        have hwhole := h.previous old whole hprevious
        rw [hwhole] at hprevious
        refine ⟨old, hprevious, hholds old true hprevious, ?_, ?_⟩
        · intro n hn
          rcases mem_baks.mp (hperm.mem_iff.mp hn) with ⟨hfile, hsuffix⟩
          exact ⟨hsuffix, h.plain n hfile hsuffix⟩
        · intro f _ hf data hdata
          have hmissing : bak f ∉ s.files := by
            intro hfile
            exact hf (hperm.mem_iff.mpr (mem_baks.mpr ⟨hfile, bakSuffix_bak f⟩))
          rw [backup_eq_none hmissing] at hdata
          cases hdata
      · cases hstep
        exact h.proceed (Process.running _) _ not_false hholds
    · cases hstep
  · cases hstep

theorem inv_restore (h : Inv py s) (hstep : step py s (Action.restore true) = some t) :
    Inv py t := by
  simp only [step] at hstep
  split at hstep
  · rename_i hp
    have hholds := h.holds
    rw [hp] at hholds
    rcases hholds with ⟨old, hprevious, hrestorable, -, hcurrent⟩
    cases hstep
    constructor
    · exact h.plain
    · exact h.fresh
    · exact h.previous
    · intro old' whole hprevious'
      rw [show s.previous = some (old', whole) from hprevious'] at hprevious
      cases hprevious
      exact hrestorable
    · intro hbusy
      cases hbusy
    · intro msg hmsg
      cases hmsg
    · intro _
      refine ⟨old, hprevious, fun f hf => ?_⟩
      rw [← hrestorable f hf, (hcurrent f hf List.not_mem_nil).restored]
  · rename_i n rest hp
    have hholds := h.holds
    rw [hp] at hholds
    rcases hholds with ⟨old, hprevious, hrestorable, htodo, hcurrent⟩
    rcases htodo n List.mem_cons_self with ⟨hsuffix, hbase, hplain⟩
    cases hstep
    constructor
    · exact h.plain.restoreOne hplain
    · intro hnone
      rw [show s.previous = none from hnone] at hprevious
      cases hprevious
    · exact h.previous
    · refine ⟨old, hprevious, fun f hf => ?_, fun m hm => htodo m (List.mem_cons_of_mem n hm),
        fun f hf hgone => ?_⟩
      · rw [restored_restoreOne hsuffix hbase hplain]
        exact hrestorable f hf
      · by_cases hfn : f = base n
        · apply current_of_lookup
          rw [restored_restoreOne hsuffix hbase hplain, lookup_restoreOne hsuffix hbase,
            if_pos hfn]
        · have hold : bak f ∉ n :: rest := by
            intro hmem
            rcases List.mem_cons.mp hmem with heq | hlater
            · exact hfn (by rw [← heq, base_bak])
            · exact hgone hlater
          intro data hdata
          rw [backup_restoreOne hsuffix hbase hplain] at hdata
          rw [lookup_restoreOne hsuffix hbase, if_neg hfn]
          exact hcurrent f hf hold data hdata
    · intro hbusy
      cases hbusy
    · intro msg hmsg
      cases hmsg
    · intro hback
      cases hback
  · cases hstep

theorem inv_upgrade {msg : Message} {downloads : List (Option Bytes)} (h : Inv py s)
    (hguard : Orderly py s (Action.upgrade msg downloads))
    (hstep : step py s (Action.upgrade msg downloads) = some t) : Inv py t := by
  simp only [step] at hstep
  split at hstep
  · rename_i version hp
    split at hstep
    · cases hstep
      exact h
    · rename_i staged hstaged
      cases hstep
      have hadmits : s.process.Admits py s msg downloads := hguard
      rw [hp] at hadmits
      have hsome : msg.staged py version downloads ≠ none := by
        rw [hstaged]
        exact Option.some_ne_none staged
      rcases hadmits hsome with ⟨hwhole, hinstalled, hcurrent⟩
      constructor
      · exact h.plain
      · intro hnone
        cases hnone
      · intro old whole hprevious
        cases hprevious
        exact hwhole
      · refine ⟨s.files, by rw [hwhole], ?_⟩
        exact replacing_of_staged (Message.staged_stages hstaged) hinstalled hcurrent
      · intro _
        rfl
      · intro msg' hmsg
        cases hmsg
      · intro hback
        cases hback
  · cases hstep

/-- The upgrade goes on to the next file operation. -/
theorem Inv.operated (h : Inv py s) {files old : Directory} {msg : Message}
    {todo : List (Text × Bytes)} {phase : Phase} (hprevious : s.previous = some (old, true))
    (houtcome : s.outcome = Outcome.none) (hplain : Plain files)
    (hreplacing : Replacing py msg files old todo phase) :
    Inv py { s with files := files, process := Process.replacing msg todo phase } where
  plain := hplain
  fresh := by
    intro hnone
    rw [show s.previous = none from hnone] at hprevious
    cases hprevious
  previous := h.previous
  holds := ⟨old, hprevious, hreplacing⟩
  busy := fun _ => houtcome
  upgraded := by
    intro msg' hmsg
    rw [show s.outcome = _ from hmsg] at houtcome
    cases houtcome
  rolledBack := by
    intro hback
    rw [show s.outcome = _ from hback] at houtcome
    cases houtcome

theorem inv_operate (h : Inv py s) (hstep : step py s (Action.operate true) = some t) :
    Inv py t := by
  simp only [step] at hstep
  split at hstep
  · rename_i msg phase hp
    have hholds := h.holds
    rw [hp] at hholds
    rcases hholds with ⟨old, hprevious, hreplacing⟩
    cases hstep
    constructor
    · exact h.plain
    · exact h.fresh
    · exact h.previous
    · intro old' whole hprevious'
      rw [show s.previous = some (old', whole) from hprevious'] at hprevious
      cases hprevious
      exact hreplacing.done
    · intro hbusy
      cases hbusy
    · intro msg' hmsg f hf
      cases hmsg
      rcases hreplacing.listed f hf with ⟨-, data, hwant, hmem | hfile⟩
      · cases hmem
      · exact ⟨data, hfile, hwant⟩
    · intro hback
      cases hback
  · rename_i msg f data rest phase hp
    have hholds := h.holds
    have houtcome := h.busy
    rw [hp] at hholds houtcome
    rcases hholds with ⟨old, hprevious, hreplacing⟩
    rcases hreplacing.verified _ List.mem_cons_self with ⟨hplain, hverified⟩
    cases hstep
    cases phase with
    | backup =>
        exact h.operated hprevious (houtcome trivial)
          (h.plain.backUp hverified.ne_nil hplain) hreplacing.backUp
    | write =>
        exact h.operated hprevious (houtcome trivial) h.plain.write hreplacing.write
    | replace =>
        have hwritten := hreplacing.written rfl f data rest rfl
        simp only [operate, hwritten, Option.getD_some]
        exact h.operated hprevious (houtcome trivial) (h.plain.replace hplain)
          hreplacing.replace
  · cases hstep

theorem inv_crash (h : Inv py s) (hguard : Orderly py s Action.crash)
    (hstep : step py s Action.crash = some t) : Inv py t := by
  have hholds := h.holds
  have hstoppable : s.process.Stoppable py s.files := hguard
  simp only [step] at hstep
  split at hstep
  · cases hstep
  · cases hstep
    apply h.proceed Process.down s.bootAttempts not_false
    intro old whole hprevious
    cases hp : s.process with
    | down =>
        rw [hp] at hholds
        exact hholds old whole hprevious
    | running version =>
        rw [hp] at hholds
        exact hholds old whole hprevious
    | replacing msg todo phase =>
        rw [hp] at hholds hstoppable
        rcases hholds with ⟨old', hprevious', hreplacing⟩
        rw [hprevious] at hprevious'
        cases hprevious'
        exact hreplacing.stopped hstoppable
    | restoring todo =>
        rw [hp] at hholds
        rcases hholds with ⟨old', hprevious', hrestorable, -⟩
        rw [hprevious] at hprevious'
        cases hprevious'
        exact hrestorable

theorem inv_step {a : Action} (h : Inv py s) (hguard : Orderly py s a)
    (hstep : step py s a = some t) : Inv py t := by
  cases a with
  | boot now glob => exact inv_boot h hstep
  | restore copied =>
      cases hguard
      exact inv_restore h hstep
  | connect =>
      simp only [step] at hstep
      split at hstep
      · rename_i version hp
        cases hstep
        have hbusy : ¬ s.process.Busy := by
          rw [hp]
          exact not_false
        exact h.proceed s.process [] hbusy h.holds
      · cases hstep
  | upgrade msg downloads => exact inv_upgrade h hguard hstep
  | operate copied =>
      cases hguard
      exact inv_operate h hstep
  | crash => exact inv_crash h hguard hstep

end Steps

/-!
# The run
-/

/-- Along every orderly run a refused upgrade changes nothing, a completed one installs
what the panel vouches for, and a rollback brings back the release before it. -/
theorem released_of_orderly (py : Python) {s : State} {actions : List Action}
    (hs : Pristine s) (hobeys : (machine py).Obeys (Orderly py) s actions) :
    (machine py).Always (Released py) s actions := by
  have hinv : (machine py).Always (Inv py) s actions :=
    Machine.always_of_obeys (fun s a t h hguard hstep => inv_step h hguard hstep)
      (inv_of_pristine hs) hobeys
  exact hinv.imp fun s h => h.released

/-- A library in which every file compiles and a hash has a letter for each byte. -/
def letters : Python where
  int t := if t = ['2'] then some 2 else if t = ['1'] then some 1 else none
  sha256 data := data.map fun b => if b = 1 then 'x' else if b = 2 then 'y' else 'z'
  compiles _ := true
  agentVersion _ := ['1']

def installed : State where
  files := (AList.singleton ['a'] [1]).insert ['b'] [1]
  bootAttempts := []
  process := Process.down
  previous := none
  whole := true
  outcome := Outcome.none

theorem pristine_installed : Pristine installed :=
  ⟨rfl, by decide, rfl, rfl, rfl⟩

def both : Message := ⟨['2'], [['a'], ['b']], [(['a'], ['y']), (['b'], ['y'])]⟩

def one : Message := ⟨['2'], [['a']], [(['a'], ['z'])]⟩

/-- Starts that are too many in too short a time. -/
def crashLoop (glob : List Text) : List Action :=
  [Action.boot 10 glob, Action.crash, Action.boot 11 glob, Action.crash, Action.boot 12 glob,
    Action.crash, Action.boot 13 glob, Action.crash, Action.boot 14 glob]

def rollback : List Action :=
  [Action.boot 0 [], Action.connect, Action.upgrade both [some [2], some [2]]] ++
    List.replicate 7 (Action.operate true) ++
    crashLoop [bak ['a'], bak ['b']] ++ List.replicate 3 (Action.restore true)

theorem released_of_rollback :
    (machine letters).Always (Released letters) installed rollback :=
  released_of_orderly letters pristine_installed (by decide)

/-- The second upgrade leaves a file out, whose backup is of the release before. -/
def partialUpgrade : List Action :=
  [Action.boot 0 [], Action.connect, Action.upgrade both [some [2], some [2]]] ++
    List.replicate 7 (Action.operate true) ++
    [Action.boot 5 [bak ['a'], bak ['b']], Action.connect, Action.upgrade one [some [3]]] ++
    List.replicate 4 (Action.operate true) ++
    crashLoop [bak ['a'], bak ['b']] ++ List.replicate 3 (Action.restore true)

theorem mixed_of_partialUpgrade :
    ¬ forall s, (machine letters).Reachable s -> Released letters s := by
  intro hall
  have hreach : (machine letters).Reachable
      (((machine letters).exec installed partialUpgrade).getD installed) :=
    ⟨installed, partialUpgrade, pristine_installed, rfl⟩
  rcases (hall _ hreach).rolledBack rfl with ⟨files, hprevious, hsame⟩
  cases hprevious
  exact absurd (hsame ['b'] (by decide)) (by decide)

end Upgrade

end Agent
end RcTunnel
