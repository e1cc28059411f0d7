import RcTunnel.Foundation.Machine
import RcTunnel.Panel.AgentRow

/-!
# Concurrent enrollment, renewal and reissue of one agent

The requests of one agent interleave at the level of their database accesses.
An enrollment looks its token up, signs, and burns the token by a conditional
UPDATE.  A renewal, the confirmation of a handoff and a reissue load the row,
change the copy and flush the dirty columns.  Control sessions authenticate
once, when they connect, and may outlive what they authenticated with.

Four fields are histories no request reads: the number of committed reissues,
the serials issued under the last of them, the tokens of the enrollments that
succeeded, and the serials pinned for a session older than the last reissue.
-/

namespace RcTunnel
namespace Panel

open Foundation

namespace Provisioning

/-- An enrollment between its SELECT and its UPDATE. -/
structure EnrollRequest where
  token : String
  /-- reissues committed when the row was read -/
  epoch : Nat
deriving DecidableEq, Repr

/-- A control session and the serial of the certificate it presented. -/
structure Session where
  cert : Nat
  /-- {lit}`_clear_prev_serial` still has to run for it -/
  confirming : Bool
deriving DecidableEq, Repr

/-- An ORM session between its load and its commit. -/
inductive Txn where
  | renew (cert serial : Nat) (loaded : AgentRow)
  | clearPrev (loaded : AgentRow)
  | reissue (token : String) (loaded : AgentRow)
deriving DecidableEq, Repr

structure State where
  row : AgentRow
  /-- serials of all certificates signed so far -/
  issued : List Nat
  /-- serials of the certificates handed to a requester -/
  held : List Nat
  /-- all bootstrap tokens minted so far -/
  minted : List String
  sessions : Nat -> Option Session
  enrolls : Nat -> Option EnrollRequest
  txns : Nat -> Option Txn
  /-- history: reissues committed so far -/
  epoch : Nat
  /-- history: serials issued under the last committed reissue -/
  trusted : List Nat
  /-- history: the token each successful enrollment presented, and the agent's
  token at its UPDATE -/
  successes : List (String × String)
  /-- history: serials pinned for sessions older than the last reissue -/
  strays : List Nat

inductive Action where
  /-- the SELECT of an enrollment -/
  | lookup (request : Nat) (token : String)
  /-- the UPDATE and commit of an enrollment whose certificate is signed -/
  | burn (request serial : Nat)
  /-- {lit}`_peer_serial` may fail to read the presented certificate -/
  | connect (session cert : Nat) (readable : Bool)
  | disconnect (session : Nat)
  | beginRenew (txn session serial : Nat)
  | beginClear (txn session : Nat)
  | beginReissue (txn : Nat) (token : String)
  | commit (txn : Nat)
deriving DecidableEq, Repr

/-- The UPDATE found the token unused. -/
def State.enrolled (s : State) (request serial : Nat) (q : EnrollRequest)
    (row : AgentRow) : State :=
  { s with
    row := row
    issued := serial :: s.issued
    held := serial :: s.held
    enrolls := Function.update s.enrolls request none
    trusted :=
      if q.token = s.row.agentToken then serial :: s.trusted else s.trusted
    successes := (q.token, s.row.agentToken) :: s.successes }

/-- The UPDATE and commit of a loaded row. -/
def State.commit (s : State) (t : Nat) : Txn -> State
  | Txn.renew cert serial loaded =>
      { s with
        row := flush loaded (renewCert serial loaded) s.row
        held := serial :: s.held
        txns := Function.update s.txns t none
        trusted := if cert ∈ s.trusted then serial :: s.trusted else s.trusted
        strays :=
          if 0 < s.epoch ∧ cert ∉ s.trusted then serial :: s.strays else s.strays }
  | Txn.clearPrev loaded =>
      { s with
        row := flush loaded (clearPrevSerial loaded).1 s.row
        txns := Function.update s.txns t none }
  | Txn.reissue token loaded =>
      { s with
        row := flush loaded (reissueToken token loaded).1 s.row
        txns := Function.update s.txns t none
        epoch := s.epoch + 1
        trusted := [] }

def step (s : State) : Action -> Option State
  | Action.lookup r token =>
      if s.enrolls r ≠ none then
        none
      else if s.row.agentToken = token ∧ s.row.tokenUsed = false then
        some { s with
          enrolls := Function.update s.enrolls r (some ⟨token, s.epoch⟩) }
      else
        some s
  | Action.burn r serial =>
      match s.enrolls r with
      | none => none
      | some q =>
          if serial ∈ s.issued then
            none
          else
            match burnToken serial s.row with
            | none =>
                some { s with
                  issued := serial :: s.issued
                  enrolls := Function.update s.enrolls r none }
            | some row => some (s.enrolled r serial q row)
  | Action.connect sid cert readable =>
      if s.sessions sid ≠ none ∨ cert ∉ s.held then
        none
      else
        match checkSerial s.row (if readable then some cert else none) with
        | Verdict.superseded => some s
        | Verdict.accepted =>
            some { s with
              sessions := Function.update s.sessions sid (some ⟨cert, false⟩) }
        | Verdict.confirmed =>
            some { s with
              sessions := Function.update s.sessions sid (some ⟨cert, true⟩) }
  | Action.disconnect sid =>
      some { s with sessions := Function.update s.sessions sid none }
  | Action.beginRenew t sid serial =>
      match s.sessions sid with
      | none => none
      | some session =>
          if s.txns t ≠ none ∨ serial ∈ s.issued then
            none
          else
            some { s with
              issued := serial :: s.issued
              txns := Function.update s.txns t
                (some (Txn.renew session.cert serial s.row)) }
  | Action.beginClear t sid =>
      match s.sessions sid with
      | none => none
      | some session =>
          if s.txns t ≠ none ∨ session.confirming = false then
            none
          else
            some { s with
              sessions := Function.update s.sessions sid (some ⟨session.cert, false⟩)
              txns := Function.update s.txns t (some (Txn.clearPrev s.row)) }
  | Action.beginReissue t token =>
      if s.txns t ≠ none ∨ token ∈ s.minted then
        none
      else
        some { s with
          minted := token :: s.minted
          txns := Function.update s.txns t (some (Txn.reissue token s.row)) }
  | Action.commit t =>
      match s.txns t with
      | none => none
      | some txn => some (s.commit t txn)

/-- No request is running; the pins are certificates handed out before. -/
def Idle (s : State) : Prop :=
  (forall n, s.row.Accepts n -> n ∈ s.held) ∧
    (forall n, n ∈ s.held -> n ∈ s.issued) ∧
    s.row.agentToken ∈ s.minted ∧
    (forall sid, s.sessions sid = none) ∧
    (forall r, s.enrolls r = none) ∧
    (forall t, s.txns t = none) ∧
    s.epoch = 0 ∧ s.trusted = [] ∧ s.successes = [] ∧ s.strays = []

def machine : Machine State Action where
  init := Idle
  step := step

/-!
# What a step can do

The relation lists the outcomes of every action with the tests that lead to
them.  The invariants below are proved by cases on it.
-/

inductive Step (s : State) : Action -> State -> Prop where
  | lookupMiss {r : Nat} {token : String} :
      Step s (Action.lookup r token) s
  | lookupHit {r : Nat} {token : String} :
      s.enrolls r = none -> s.row.agentToken = token -> s.row.tokenUsed = false ->
      Step s (Action.lookup r token)
        { s with
          enrolls := Function.update s.enrolls r (some ⟨token, s.epoch⟩) }
  | burnLost {r serial : Nat} :
      serial ∉ s.issued -> s.row.tokenUsed = true ->
      Step s (Action.burn r serial)
        { s with
          issued := serial :: s.issued
          enrolls := Function.update s.enrolls r none }
  | burnWon {r serial : Nat} {q : EnrollRequest} {row : AgentRow} :
      s.enrolls r = some q -> serial ∉ s.issued ->
      burnToken serial s.row = some row ->
      Step s (Action.burn r serial) (s.enrolled r serial q row)
  | connectRefused {sid cert : Nat} {readable : Bool} :
      Step s (Action.connect sid cert readable) s
  | connectOpened {sid cert : Nat} {readable : Bool} (confirming : Bool) :
      s.sessions sid = none -> cert ∈ s.held ->
      checkSerial s.row (if readable then some cert else none) ≠ Verdict.superseded ->
      Step s (Action.connect sid cert readable)
        { s with
          sessions := Function.update s.sessions sid (some ⟨cert, confirming⟩) }
  | disconnect {sid : Nat} :
      Step s (Action.disconnect sid)
        { s with sessions := Function.update s.sessions sid none }
  | beginRenew {t sid serial : Nat} {session : Session} :
      s.sessions sid = some session -> s.txns t = none -> serial ∉ s.issued ->
      Step s (Action.beginRenew t sid serial)
        { s with
          issued := serial :: s.issued
          txns := Function.update s.txns t
            (some (Txn.renew session.cert serial s.row)) }
  | beginClear {t sid : Nat} {session : Session} :
      s.sessions sid = some session -> s.txns t = none ->
      Step s (Action.beginClear t sid)
        { s with
          sessions := Function.update s.sessions sid (some ⟨session.cert, false⟩)
          txns := Function.update s.txns t (some (Txn.clearPrev s.row)) }
  | beginReissue {t : Nat} {token : String} :
      s.txns t = none -> token ∉ s.minted ->
      Step s (Action.beginReissue t token)
        { s with
          minted := token :: s.minted
          txns := Function.update s.txns t (some (Txn.reissue token s.row)) }
  | commit {t : Nat} {txn : Txn} :
      s.txns t = some txn -> Step s (Action.commit t) (s.commit t txn)

theorem step_cases {s t : State} {a : Action} (h : step s a = some t) :
    Step s a t := by
  cases a with
  | lookup r token =>
      simp only [step] at h
      split at h
      · cases h
      · rename_i hfree
        split at h
        · rename_i hrow
          cases h
          exact Step.lookupHit (not_not.mp hfree) hrow.left hrow.right
        · cases h
          exact Step.lookupMiss
  | burn r serial =>
      simp only [step] at h
      split at h
      · cases h
      · rename_i q hq
        split at h
        · cases h
        · rename_i hfresh
          split at h
          · rename_i hburn
            cases h
            exact Step.burnLost hfresh (burnToken_eq_none.mp hburn)
          · rename_i row hburn
            cases h
            exact Step.burnWon hq hfresh hburn
  | connect sid cert readable =>
      simp only [step] at h
      split at h
      · cases h
      · rename_i hfree
        rw [not_or, not_not, not_not] at hfree
        split at h
        · cases h
          exact Step.connectRefused
        · rename_i hcheck
          cases h
          exact Step.connectOpened false hfree.left hfree.right (by simp [hcheck])
        · rename_i hcheck
          cases h
          exact Step.connectOpened true hfree.left hfree.right (by simp [hcheck])
  | disconnect sid =>
      cases h
      exact Step.disconnect
  | beginRenew t sid serial =>
      simp only [step] at h
      split at h
      · cases h
      · rename_i session hsession
        split at h
        · cases h
        · rename_i hfree
          rw [not_or, not_not] at hfree
          cases h
          exact Step.beginRenew hsession hfree.left hfree.right
  | beginClear t sid =>
      simp only [step] at h
      split at h
      · cases h
      · rename_i session hsession
        split at h
        · cases h
        · rename_i hfree
          rw [not_or, not_not] at hfree
          cases h
          exact Step.beginClear hsession hfree.left
  | beginReissue t token =>
      simp only [step] at h
      split at h
      · cases h
      · rename_i hfree
        rw [not_or, not_not] at hfree
        cases h
        exact Step.beginReissue hfree.left hfree.right
  | commit t =>
      simp only [step] at h
      split at h
      · cases h
      · rename_i txn htxn
        cases h
        exact Step.commit htxn

/-!
# What a commit writes

A renewal and a confirmation leave the token columns alone; a reissue always
writes the token, and the other columns only when they differ from the loaded
ones.
-/

@[simp] theorem flush_renewCert_agentToken (serial : Nat) (loaded current : AgentRow) :
    (flush loaded (renewCert serial loaded) current).agentToken =
      current.agentToken := by
  simp [flush, renewCert]

@[simp] theorem flush_renewCert_tokenUsed (serial : Nat) (loaded current : AgentRow) :
    (flush loaded (renewCert serial loaded) current).tokenUsed =
      current.tokenUsed := by
  simp [flush, renewCert]

@[simp] theorem flush_clearPrevSerial_agentToken (loaded current : AgentRow) :
    (flush loaded (clearPrevSerial loaded).1 current).agentToken =
      current.agentToken := by
  unfold clearPrevSerial
  split <;> simp [flush]

@[simp] theorem flush_clearPrevSerial_tokenUsed (loaded current : AgentRow) :
    (flush loaded (clearPrevSerial loaded).1 current).tokenUsed =
      current.tokenUsed := by
  unfold clearPrevSerial
  split <;> simp [flush]

theorem flush_clearPrevSerial_accepts {loaded current : AgentRow} {n : Nat}
    (h : (flush loaded (clearPrevSerial loaded).1 current).Accepts n) :
    current.Accepts n := by
  rcases h with hcert | hprev
  · exact Or.inl (by simpa [flush] using hcert)
  · have hcolumn : flushColumn loaded.prevCertSerial
        (clearPrevSerial loaded).1.prevCertSerial current.prevCertSerial =
          some (Pin.serial n) := hprev
    rcases flushColumn_cases loaded.prevCertSerial
        (clearPrevSerial loaded).1.prevCertSerial current.prevCertSerial with heq | heq
    · exact Or.inr (heq.symm.trans hcolumn)
    · rw [heq, clearPrevSerial_prevCertSerial] at hcolumn
      cases hcolumn

theorem flush_reissueToken_agentToken {token : String} {loaded : AgentRow}
    (h : token ≠ loaded.agentToken) (current : AgentRow) :
    (flush loaded (reissueToken token loaded).1 current).agentToken = token :=
  flushColumn_of_ne h current.agentToken

end Provisioning

end Panel
end RcTunnel
