import RcTunnel.Foundation.Machine
import RcTunnel.Foundation.Table
import RcTunnel.Panel.Database

/-!
# The last admin

Deleting a user is refused to the user himself, changing a role when no other admin is
left.  Both requests look at the committed users first and write later, and between the
two other requests commit.

The main result says that an admin remains in every committed state if the requests that
take one away commit while what they have checked still holds.
-/

namespace RcTunnel
namespace Panel

open Foundation

namespace Api

namespace Admins

inductive Op where
  | deleteUser (userId : Nat)
  | updateUserRole (userId : Nat) (role : Role)
deriving DecidableEq, Repr

def Op.target : Op -> Nat
  | Op.deleteUser userId | Op.updateUserRole userId _ => userId

/-- The next read of a request, or its write; the rows are those in its session. -/
inductive Phase where
  | admin
  | target (admin : User)
  | others (loaded : User)
  | write (loaded : User)
  | finished
deriving DecidableEq, Repr

structure Job where
  actor : Nat
  op : Op
  phase : Phase
deriving DecidableEq, Repr

structure State where
  db : Db
  jobs : Nat -> Option Job

inductive Action where
  | request (r actor : Nat) (op : Op)
  | read (r : Nat)
  | commit (r : Nat)
deriving DecidableEq, Repr

/-- The user that is loaded; the session has the row of the admin already. -/
def loadTarget (db : Db) (admin : User) (userId : Nat) : Except Error User :=
  found (if userId = admin.id then some admin else db.user? userId) 404 "user not found".toList

/-- There is an admin besides the user. -/
def OtherAdmin (db : Db) (userId : Nat) : Prop :=
  exists other, other ∈ db.users ∧ other.role = Role.admin ∧ other.id ≠ userId

instance (db : Db) (userId : Nat) : Decidable (OtherAdmin db userId) :=
  inferInstanceAs (Decidable (exists other, other ∈ db.users ∧ _))

/-- One read, with the checks up to the next. -/
def Job.read (db : Db) (job : Job) : Except Error Phase :=
  match job.phase, job.op with
  | Phase.admin, _ => do
      let admin ← found (db.user? job.actor) 401 "user not found".toList
      requireAdmin admin
      return Phase.target admin
  | Phase.target admin, Op.deleteUser userId => do
      require (userId ≠ admin.id) 409 "you cannot delete your own account".toList
      let u ← loadTarget db admin userId
      return Phase.write u
  | Phase.target admin, Op.updateUserRole userId role => do
      let u ← loadTarget db admin userId
      if u.role = Role.admin ∧ role ≠ Role.admin then
        return Phase.others u
      else
        return Phase.write u
  | Phase.others u, op => do
      require (OtherAdmin db op.target) 409 "cannot remove the last global admin".toList
      return Phase.write u
  | phase, _ => return phase

/-- The write and the commit.  A row that is gone fails an update, but not a delete; an
update is sent when the role is not the loaded one. -/
def Op.commit (db : Db) (loaded : User) : Op -> Except Error Db
  | Op.deleteUser userId =>
      return { db with users := db.users.filter fun u => u.id ≠ userId }
  | Op.updateUserRole userId role =>
      if loaded.role = role then
        return db
      else do
        let _ ← found (db.user? userId) 500 "Internal Server Error".toList
        return { db with
          users := rewriteRow User.id userId (fun u => { u with role := role }) db.users }

def State.setPhase (s : State) (r : Nat) (job : Job) (phase : Phase) : State :=
  { s with jobs := Function.update s.jobs r (some { job with phase := phase }) }

def step (s : State) : Action -> Option State
  | Action.request r actor op =>
      if s.jobs r = none then
        some { s with jobs := Function.update s.jobs r (some ⟨actor, op, Phase.admin⟩) }
      else
        none
  | Action.read r =>
      match s.jobs r with
      | none => none
      | some job =>
          match job.phase with
          | Phase.write _ | Phase.finished => none
          | _ =>
              match job.read s.db with
              | Except.error _ => some (s.setPhase r job Phase.finished)
              | Except.ok phase => some (s.setPhase r job phase)
  | Action.commit r =>
      match s.jobs r with
      | none => none
      | some job =>
          match job.phase with
          | Phase.write loaded =>
              match job.op.commit s.db loaded with
              | Except.error _ => some (s.setPhase r job Phase.finished)
              | Except.ok db => some { s.setPhase r job Phase.finished with db := db }
          | _ => none

/-- There is an admin among the committed users. -/
def HasAdmin (s : State) : Prop := exists u, u ∈ s.db.users ∧ u.role = Role.admin

structure Idle (s : State) : Prop where
  admin : HasAdmin s
  jobs : forall r, s.jobs r = none

def machine : Machine State Action where
  init := Idle
  step := step

/-!
# What a commit takes away, and what was checked
-/

/-- The commit writes to the row of an admin, who is none afterwards. -/
def TakesAway (db : Db) (loaded : User) (op : Op) : Prop :=
  (exists u, u ∈ db.users ∧ u.id = op.target ∧ u.role = Role.admin) ∧
    match op with
    | Op.deleteUser _ => True
    | Op.updateUserRole _ role => role ≠ Role.admin ∧ loaded.role ≠ role

/-- What the endpoint has checked holds of the committed users: that who deletes another
is an admin, or that there is another one. -/
def Checked (db : Db) (job : Job) : Prop :=
  match job.op with
  | Op.deleteUser _ => exists u, u ∈ db.users ∧ u.id = job.actor ∧ u.role = Role.admin
  | Op.updateUserRole userId _ => OtherAdmin db userId

/-- If the write takes an admin away, what was checked still holds. -/
def Job.Rechecks (db : Db) (job : Job) : Prop :=
  match job.phase with
  | Phase.write loaded => TakesAway db loaded job.op -> Checked db job
  | _ => True

/-- A commit that takes an admin away comes while what was checked still holds. -/
def Rechecked (s : State) : Action -> Prop
  | Action.commit r => forall job, job ∈ s.jobs r -> job.Rechecks s.db
  | _ => True

instance (db : Db) (loaded : User) (op : Op) : Decidable (TakesAway db loaded op) :=
  match op with
  | Op.deleteUser _ => inferInstanceAs (Decidable (_ ∧ True))
  | Op.updateUserRole _ _ => inferInstanceAs (Decidable (_ ∧ _ ∧ _))

instance (db : Db) (job : Job) : Decidable (Checked db job) :=
  match job with
  | ⟨_, Op.deleteUser _, _⟩ =>
      inferInstanceAs (Decidable (exists u, u ∈ db.users ∧ _ ∧ u.role = Role.admin))
  | ⟨_, Op.updateUserRole userId _, _⟩ => inferInstanceAs (Decidable (OtherAdmin db userId))

instance (db : Db) (job : Job) : Decidable (job.Rechecks db) :=
  match job with
  | ⟨_, _, Phase.write _⟩ => inferInstanceAs (Decidable (_ -> Checked db _))
  | ⟨_, _, Phase.admin⟩ | ⟨_, _, Phase.target _⟩ | ⟨_, _, Phase.others _⟩
  | ⟨_, _, Phase.finished⟩ => isTrue trivial

instance (s : State) : DecidablePred (Rechecked s)
  | Action.commit r => inferInstanceAs (Decidable (forall job, job ∈ s.jobs r -> _))
  | Action.request _ _ _ | Action.read _ => isTrue trivial

/-!
# Every step
-/

/-- What a request keeps while others commit: the admin it has loaded is the one who
sent it, and a user is deleted by another. -/
def Job.Inv (job : Job) : Prop :=
  match job.phase, job.op with
  | Phase.target admin, _ => admin.id = job.actor
  | Phase.others _, Op.deleteUser _ => False
  | Phase.write _, Op.deleteUser userId => userId ≠ job.actor
  | _, _ => True

structure Inv (s : State) : Prop where
  admin : HasAdmin s
  jobs : forall r job, s.jobs r = some job -> job.Inv

theorem inv_of_idle {s : State} (h : Idle s) : Inv s := by
  constructor
  · exact h.admin
  · intro r job hjob
    rw [h.jobs] at hjob
    cases hjob

theorem inv_read {db : Db} {job : Job} {phase : Phase} (h : job.Inv)
    (hread : job.read db = Except.ok phase) : Job.Inv { job with phase := phase } := by
  rcases job with ⟨actor, op, current⟩
  cases current with
  | admin =>
      simp only [Job.read, bind_ok, found_ok, pure_ok] at hread
      rcases hread with ⟨admin, hadmin, _, -, rfl⟩
      exact key_of_find hadmin
  | target admin =>
      cases op with
      | deleteUser userId =>
          simp only [Job.read, bind_ok, require_ok, pure_ok] at hread
          rcases hread with ⟨_, hother, _, -, rfl⟩
          exact fun hown => hother (hown.trans h.symm)
      | updateUserRole userId role =>
          simp only [Job.read, bind_ok] at hread
          rcases hread with ⟨u, -, hread⟩
          split at hread <;> cases hread <;> trivial
  | others u =>
      cases op with
      | deleteUser userId => exact h.elim
      | updateUserRole userId role =>
          simp only [Job.read, bind_ok, pure_ok] at hread
          rcases hread with ⟨_, -, rfl⟩
          trivial
  | write u =>
      cases hread
      exact h
  | finished =>
      cases hread
      exact h

/-- An admin who is not the target stays. -/
theorem admin_remains {db db' : Db} {loaded u : User} {op : Op}
    (hcommit : op.commit db loaded = Except.ok db') (hmem : u ∈ db.users)
    (hother : u.id ≠ op.target) : u ∈ db'.users := by
  cases op with
  | deleteUser userId =>
      cases hcommit
      exact List.mem_filter.mpr ⟨hmem, decide_eq_true hother⟩
  | updateUserRole userId role =>
      simp only [Op.commit] at hcommit
      split at hcommit
      · cases hcommit
        exact hmem
      · simp only [bind_ok, pure_ok] at hcommit
        rcases hcommit with ⟨_, -, rfl⟩
        exact List.mem_map.mpr ⟨u, hmem, if_neg hother⟩

/-- A commit that takes no admin away leaves one. -/
theorem admin_kept {db db' : Db} {loaded u : User} {op : Op}
    (hcommit : op.commit db loaded = Except.ok db') (hmem : u ∈ db.users)
    (hadmin : u.role = Role.admin) (hkept : ¬ TakesAway db loaded op) :
    exists u', u' ∈ db'.users ∧ u'.role = Role.admin := by
  by_cases htarget : u.id = op.target
  · cases op with
    | deleteUser userId => exact absurd ⟨⟨u, hmem, htarget, hadmin⟩, trivial⟩ hkept
    | updateUserRole userId role =>
        simp only [Op.commit] at hcommit
        split at hcommit
        · cases hcommit
          exact ⟨u, hmem, hadmin⟩
        · rename_i hsent
          simp only [bind_ok, pure_ok] at hcommit
          rcases hcommit with ⟨_, -, rfl⟩
          have hrole : role = Role.admin := by
            by_contra hne
            exact hkept ⟨⟨u, hmem, htarget, hadmin⟩, hne, hsent⟩
          exact ⟨_, rewritten_mem hmem htarget, hrole⟩
  · exact ⟨u, admin_remains hcommit hmem htarget, hadmin⟩

theorem admin_commit {db db' : Db} {loaded : User} {job : Job}
    (hadmin : exists u, u ∈ db.users ∧ u.role = Role.admin)
    (hjob : Job.Inv { job with phase := Phase.write loaded })
    (hchecked : TakesAway db loaded job.op -> Checked db job)
    (hcommit : job.op.commit db loaded = Except.ok db') :
    exists u, u ∈ db'.users ∧ u.role = Role.admin := by
  by_cases htakes : TakesAway db loaded job.op
  · have hchecked := hchecked htakes
    have hother : exists u, u ∈ db.users ∧ u.role = Role.admin ∧ u.id ≠ job.op.target := by
      rcases job with ⟨actor, op, phase⟩
      cases op with
      | deleteUser userId =>
          rcases hchecked with ⟨u, hmem, hid, hrole⟩
          exact ⟨u, hmem, hrole, fun htarget => hjob (htarget.symm.trans hid)⟩
      | updateUserRole userId role => exact hchecked
    rcases hother with ⟨u, hmem, hrole, hne⟩
    exact ⟨u, admin_remains hcommit hmem hne, hrole⟩
  · rcases hadmin with ⟨u, hmem, hrole⟩
    exact admin_kept hcommit hmem hrole htakes

theorem inv_setPhase {s : State} {r : Nat} {job : Job} {phase : Phase} (h : Inv s)
    (hphase : Job.Inv { job with phase := phase }) : Inv (s.setPhase r job phase) := by
  constructor
  · exact h.admin
  · intro r' job' hjob'
    rcases lookup_started hjob' with ⟨-, rfl⟩ | ⟨-, hold⟩
    · exact hphase
    · exact h.jobs r' job' hold

theorem step_read {s t : State} {r : Nat} (hstep : step s (Action.read r) = some t) :
    exists job, s.jobs r = some job ∧
      ((exists e, job.read s.db = Except.error e ∧ t = s.setPhase r job Phase.finished) ∨
        exists phase, job.read s.db = Except.ok phase ∧ t = s.setPhase r job phase) := by
  cases hjob : s.jobs r with
  | none => simp [step, hjob] at hstep
  | some job =>
      refine ⟨job, rfl, ?_⟩
      simp only [step, hjob] at hstep
      split at hstep
      · cases hstep
      · cases hstep
      · split at hstep
        · rename_i e hread
          cases hstep
          exact Or.inl ⟨e, hread, rfl⟩
        · rename_i phase hread
          cases hstep
          exact Or.inr ⟨phase, hread, rfl⟩

theorem step_commit {s t : State} {r : Nat} (hstep : step s (Action.commit r) = some t) :
    exists job loaded, s.jobs r = some job ∧ job.phase = Phase.write loaded ∧
      (t = s.setPhase r job Phase.finished ∨
        exists db, job.op.commit s.db loaded = Except.ok db ∧
          t = { s.setPhase r job Phase.finished with db := db }) := by
  cases hjob : s.jobs r with
  | none => simp [step, hjob] at hstep
  | some job =>
      simp only [step, hjob] at hstep
      split at hstep
      · rename_i loaded hphase
        refine ⟨job, loaded, rfl, hphase, ?_⟩
        split at hstep
        · cases hstep
          exact Or.inl rfl
        · rename_i db hcommit
          cases hstep
          exact Or.inr ⟨db, hcommit, rfl⟩
      · cases hstep

theorem inv_step {s t : State} {a : Action} (h : Inv s) (hguard : Rechecked s a)
    (hstep : step s a = some t) : Inv t := by
  cases a with
  | request r actor op =>
      simp only [step, Option.ite_none_right_eq_some] at hstep
      rcases hstep with ⟨-, hstep⟩
      cases hstep
      show Inv (s.setPhase r ⟨actor, op, Phase.admin⟩ Phase.admin)
      exact inv_setPhase h trivial
  | read r =>
      rcases step_read hstep with ⟨job, hjob, ⟨e, -, rfl⟩ | ⟨phase, hread, rfl⟩⟩
      · exact inv_setPhase h trivial
      · exact inv_setPhase h (inv_read (h.jobs r job hjob) hread)
  | commit r =>
      rcases step_commit hstep with ⟨job, loaded, hjob, hphase, rfl | ⟨db, hcommit, rfl⟩⟩
      · exact inv_setPhase h trivial
      · have hwriting : Job.Inv { job with phase := Phase.write loaded } := by
          rw [← hphase]
          exact h.jobs r job hjob
        have hfinished : Inv (s.setPhase r job Phase.finished) := inv_setPhase h trivial
        constructor
        · have hrechecks := hguard job hjob
          simp only [Job.Rechecks, hphase] at hrechecks
          exact admin_commit h.admin hwriting hrechecks hcommit
        · exact hfinished.jobs

/--
As long as every commit that takes an admin away comes while what its request has checked
still holds, there is an admin in every committed state.
-/
theorem hasAdmin_of_rechecked {s : State} {actions : List Action} (hs : Idle s)
    (hobeys : machine.Obeys Rechecked s actions) : machine.Always HasAdmin s actions :=
  (Machine.always_of_obeys (fun _ _ _ => inv_step) (inv_of_idle hs) hobeys).imp
    fun _ h => h.admin

/-!
# Requests that do not overlap

A request that runs alone commits while what it has checked holds.
-/

/-- A request starts when the others have finished. -/
def Alone (s : State) : Action -> Prop
  | Action.request _ _ _ => forall r job, s.jobs r = some job -> job.phase = Phase.finished
  | _ => True

/-- What a request has found still stands. -/
def Job.Holds (db : Db) (job : Job) : Prop :=
  match job.phase, job.op with
  | Phase.target admin, _ => db.user? job.actor = some admin ∧ admin.role = Role.admin
  | Phase.others _, Op.deleteUser _ => False
  | Phase.others loaded, Op.updateUserRole userId _ => db.user? userId = some loaded
  | Phase.write _, Op.deleteUser _ => Checked db job
  | Phase.write loaded, Op.updateUserRole userId role =>
      db.user? userId = some loaded ∧
        (loaded.role = Role.admin -> role ≠ Role.admin -> OtherAdmin db userId)
  | _, _ => True

structure SerialInv (s : State) : Prop where
  keys : (s.db.users.map User.id).Nodup
  jobs : forall r job, s.jobs r = some job -> job.Holds s.db
  one : forall r r' job job', s.jobs r = some job -> s.jobs r' = some job' ->
    job.phase ≠ Phase.finished -> job'.phase ≠ Phase.finished -> r = r'

theorem target_found {db : Db} {admin u : User} {actor userId : Nat}
    (hadmin : db.user? actor = some admin) (h : loadTarget db admin userId = Except.ok u) :
    db.user? userId = some u := by
  rw [loadTarget, found_ok] at h
  split at h
  · rename_i hown
    cases h
    rw [hown, key_of_find hadmin]
    exact hadmin
  · exact h

theorem holds_read {db : Db} {job : Job} {phase : Phase} (h : job.Holds db)
    (hread : job.read db = Except.ok phase) : Job.Holds db { job with phase := phase } := by
  rcases job with ⟨actor, op, current⟩
  cases current with
  | admin =>
      simp only [Job.read, bind_ok, found_ok, requireAdmin, require_ok, pure_ok] at hread
      rcases hread with ⟨admin, hadmin, _, hrole, rfl⟩
      exact ⟨hadmin, hrole⟩
  | target admin =>
      rcases h with ⟨hadmin, hrole⟩
      cases op with
      | deleteUser userId =>
          simp only [Job.read, bind_ok, pure_ok] at hread
          rcases hread with ⟨_, -, _, -, rfl⟩
          exact ⟨admin, List.mem_of_find?_eq_some hadmin, key_of_find hadmin, hrole⟩
      | updateUserRole userId role =>
          simp only [Job.read, bind_ok] at hread
          rcases hread with ⟨u, hload, hread⟩
          have hfound := target_found hadmin hload
          split at hread
          · cases hread
            exact hfound
          · rename_i hnone
            cases hread
            exact ⟨hfound, fun hu hne => absurd ⟨hu, hne⟩ hnone⟩
  | others loaded =>
      simp only [Job.read, bind_ok, require_ok, pure_ok] at hread
      rcases hread with ⟨_, hother, rfl⟩
      cases op with
      | deleteUser userId => exact h.elim
      | updateUserRole userId role => exact ⟨h, fun _ _ => hother⟩
  | write loaded =>
      cases hread
      exact h
  | finished =>
      cases hread
      exact h

/-- What a request has found when it commits is what it has checked. -/
theorem rechecked_of_holds {s : State} {a : Action} (h : SerialInv s) : Rechecked s a := by
  cases a with
  | request r actor op => trivial
  | read r => trivial
  | commit r =>
      intro job hjob
      have hholds := h.jobs r job hjob
      rcases job with ⟨actor, op, phase⟩
      cases phase with
      | write loaded =>
          intro htakes
          cases op with
          | deleteUser userId => exact hholds
          | updateUserRole userId role =>
              rcases htakes with ⟨⟨u, hmem, hid, hrole⟩, hne, -⟩
              have hsame : u = loaded := List.inj_on_of_nodup_map h.keys hmem
                (List.mem_of_find?_eq_some hholds.left)
                (hid.trans (key_of_find hholds.left).symm)
              exact hholds.right (hsame ▸ hrole) hne
      | _ => trivial

theorem serial_setPhase {s : State} {r : Nat} {job : Job} {phase : Phase} (h : SerialInv s)
    (hone : forall r' job', s.jobs r' = some job' -> job'.phase ≠ Phase.finished -> r' = r)
    (hholds : Job.Holds s.db { job with phase := phase }) :
    SerialInv (s.setPhase r job phase) := by
  constructor
  · exact h.keys
  · intro r' job' hjob'
    rcases lookup_started hjob' with ⟨-, rfl⟩ | ⟨-, hold⟩
    · exact hholds
    · exact h.jobs r' job' hold
  · intro r₁ r₂ job₁ job₂ h₁ h₂ hrun₁ hrun₂
    have honly : forall r' job', (s.setPhase r job phase).jobs r' = some job' ->
        job'.phase ≠ Phase.finished -> r' = r := by
      intro r' job' hjob' hrun
      rcases lookup_started hjob' with ⟨hr, -⟩ | ⟨-, hold⟩
      · exact hr
      · exact hone r' job' hold hrun
    exact (honly r₁ job₁ h₁ hrun₁).trans (honly r₂ job₂ h₂ hrun₂).symm

/-- A commit changes no other running request's findings, as there is none. -/
theorem serial_commit {s : State} {r : Nat} {job : Job} {loaded : User} {db : Db}
    (h : SerialInv s)
    (hone : forall r' job', s.jobs r' = some job' -> job'.phase ≠ Phase.finished -> r' = r)
    (hcommit : job.op.commit s.db loaded = Except.ok db) :
    SerialInv { s.setPhase r job Phase.finished with db := db } := by
  have hfinished : forall r' job', (s.setPhase r job Phase.finished).jobs r' = some job' ->
      job'.phase = Phase.finished := by
    intro r' job' hjob'
    rcases lookup_started hjob' with ⟨-, rfl⟩ | ⟨hne, hold⟩
    · rfl
    · by_contra hrun
      exact hne (hone r' job' hold hrun)
  constructor
  · cases hop : job.op with
    | deleteUser userId =>
        rw [hop] at hcommit
        cases hcommit
        exact nodup_keys_filter h.keys
    | updateUserRole userId role =>
        rw [hop] at hcommit
        simp only [Op.commit] at hcommit
        split at hcommit
        · cases hcommit
          exact h.keys
        · simp only [bind_ok, pure_ok] at hcommit
          rcases hcommit with ⟨_, -, rfl⟩
          apply nodup_keys_rewriteRow h.keys
          intro _
          rfl
  · intro r' job' hjob'
    simp only [Job.Holds, hfinished r' job' hjob']
  · intro r₁ r₂ job₁ job₂ h₁ h₂ hrun₁ hrun₂
    exact absurd (hfinished r₁ job₁ h₁) hrun₁

theorem serial_step {s t : State} {a : Action} (h : SerialInv s) (halone : Alone s a)
    (hstep : step s a = some t) : SerialInv t := by
  cases a with
  | request r actor op =>
      simp only [step, Option.ite_none_right_eq_some] at hstep
      rcases hstep with ⟨-, hstep⟩
      cases hstep
      show SerialInv (s.setPhase r ⟨actor, op, Phase.admin⟩ Phase.admin)
      apply serial_setPhase h
      · intro r' job' hjob' hrun
        exact absurd (halone r' job' hjob') hrun
      · trivial
  | read r =>
      rcases step_read hstep with ⟨job, hjob, hread⟩
      have hrun : job.phase ≠ Phase.finished := by
        intro hfinished
        simp [step, hjob, hfinished] at hstep
      have hone : forall r' job', s.jobs r' = some job' -> job'.phase ≠ Phase.finished ->
          r' = r := fun r' job' hjob' hrun' => h.one r' r job' job hjob' hjob hrun' hrun
      rcases hread with ⟨e, -, rfl⟩ | ⟨phase, hread, rfl⟩
      · exact serial_setPhase h hone trivial
      · exact serial_setPhase h hone (holds_read (h.jobs r job hjob) hread)
  | commit r =>
      rcases step_commit hstep with ⟨job, loaded, hjob, hphase, hcommit⟩
      have hrun : job.phase ≠ Phase.finished := by
        rw [hphase]
        exact Phase.noConfusion
      have hone : forall r' job', s.jobs r' = some job' -> job'.phase ≠ Phase.finished ->
          r' = r := fun r' job' hjob' hrun' => h.one r' r job' job hjob' hjob hrun' hrun
      rcases hcommit with rfl | ⟨db, hcommit, rfl⟩
      · exact serial_setPhase h hone trivial
      · exact serial_commit h hone hcommit

/-- Requests that do not overlap always leave an admin. -/
theorem hasAdmin_of_alone {s t : State} {actions : List Action}
    (hkeys : (s.db.users.map User.id).Nodup) (hs : Idle s)
    (hexec : machine.exec s actions = some t) (halone : machine.Obeys Alone s actions) :
    machine.Always HasAdmin s actions := by
  have hserial : SerialInv s := by
    constructor
    · exact hkeys
    · intro r job hjob
      rw [hs.jobs] at hjob
      cases hjob
    · intro r r' job job' hjob
      rw [hs.jobs] at hjob
      cases hjob
  have hmeets : forall s a t, SerialInv s -> machine.step s a = some t -> Rechecked s a :=
    fun _ _ _ h _ => rechecked_of_holds h
  have hkeep : forall s a t, SerialInv s -> Alone s a -> machine.step s a = some t ->
      SerialInv t := fun _ _ _ => serial_step
  have hrechecked := Machine.obeys_of_obeys hkeep hmeets hserial hexec halone
  exact (Machine.always_of_obeys (fun _ _ _ => inv_step) (inv_of_idle hs) hrechecked).imp
    fun _ h => h.admin

/-!
# Two admins
-/

def admin (id : Nat) : User :=
  ⟨id, "root@rc-tunnel.com".toList ++ Nat.toDigits 10 id, Role.admin, none⟩

/-- Admins with these ids, and nobody signed in. -/
def admins (ids : List Nat) : State := ⟨⟨[], ids.map admin, [], []⟩, fun _ => none⟩

theorem idle_admins (id : Nat) (ids : List Nat) : Idle (admins (id :: ids)) where
  admin := ⟨admin id, List.mem_cons_self, rfl⟩
  jobs _ := rfl

/-- Two requests that read first and commit then. -/
def together (first second : Nat × Op) : List Action :=
  [Action.request 0 first.1 first.2, Action.request 1 second.1 second.2, Action.read 0,
    Action.read 1, Action.read 0, Action.read 1, Action.commit 0, Action.commit 1]

/-- The third of three admins deletes the other two. -/
theorem hasAdmin_of_three :
    (exists t, machine.exec (admins [1, 2, 3])
        (together (3, Op.deleteUser 1) (3, Op.deleteUser 2)) = some t ∧
      t.db.users = [admin 3]) ∧
    machine.Always HasAdmin (admins [1, 2, 3])
      (together (3, Op.deleteUser 1) (3, Op.deleteUser 2)) := by
  constructor
  · have hend : (machine.exec (admins [1, 2, 3])
        (together (3, Op.deleteUser 1) (3, Op.deleteUser 2))).map (fun t => t.db.users) =
          some [admin 3] := by decide +kernel
    exact Option.map_eq_some_iff.mp hend
  · exact hasAdmin_of_rechecked (idle_admins 1 [2, 3]) (by decide +kernel)

/-- Two admins delete each other, and none is left. -/
theorem no_admin_of_together :
    exists t, machine.exec (admins [1, 2])
        (together (1, Op.deleteUser 2) (2, Op.deleteUser 1)) = some t ∧
      t.db.users = [] ∧ ¬ HasAdmin t := by
  have hend : (machine.exec (admins [1, 2])
      (together (1, Op.deleteUser 2) (2, Op.deleteUser 1))).map (fun t => t.db.users) =
        some [] := by decide +kernel
  rcases Option.map_eq_some_iff.mp hend with ⟨t, hexec, hnone⟩
  refine ⟨t, hexec, hnone, ?_⟩
  rintro ⟨u, hmem, -⟩
  rw [hnone] at hmem
  cases hmem

end Admins

end Api

end Panel
end RcTunnel
