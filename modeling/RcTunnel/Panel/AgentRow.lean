import Mathlib.Logic.Function.Basic

/-!
# The certificate columns of an agent row

The panel authenticates an agent by two columns of its row: the pinned serial
and, during a renewal handoff, the serial before it.  A third pair of columns
holds the bootstrap token and whether it was used.  This module translates the
functions that read or write these columns; the machines of the later modules
interleave them.
-/

namespace RcTunnel
namespace Panel

/-- A stored serial: a decimal serial number, or the sentinel {lit}`"revoked"`. -/
inductive Pin where
  | serial (n : Nat)
  | revoked
deriving DecidableEq, Repr

/-- The number of a pin that is a real serial. -/
def Pin.number? : Option Pin -> Option Nat
  | some (Pin.serial n) => some n
  | _ => none

@[simp] theorem Pin.number?_eq_some {pin : Option Pin} {n : Nat} :
    Pin.number? pin = some n <-> pin = some (Pin.serial n) := by
  rcases pin with _ | ⟨m⟩ | _ <;> simp [Pin.number?]

structure AgentRow where
  agentToken : String
  tokenUsed : Bool
  certSerial : Option Pin
  prevCertSerial : Option Pin
deriving DecidableEq, Repr

/-!
# What the control plane accepts
-/

/-- The serial is one of the two the control plane accepts. -/
def AgentRow.Accepts (row : AgentRow) (n : Nat) : Prop :=
  row.certSerial = some (Pin.serial n) ∨
    row.prevCertSerial = some (Pin.serial n)

instance (row : AgentRow) (n : Nat) : Decidable (row.Accepts n) :=
  inferInstanceAs (Decidable (_ ∨ _))

/-- How {lit}`_handle` answers a presented certificate. -/
inductive Verdict where
  /-- closed with code 4003 -/
  | superseded
  | accepted
  /-- accepted, and the handoff is confirmed: {lit}`_clear_prev_serial` runs -/
  | confirmed
deriving DecidableEq, Repr

/-- The pin check of {lit}`_handle`; an unreadable serial is {lit}`none`. -/
def checkSerial (row : AgentRow) (peer : Option Nat) : Verdict :=
  match row.certSerial, peer with
  | none, _ => Verdict.accepted
  | some _, none => Verdict.accepted
  | some pin, some ps =>
      if pin ≠ Pin.serial ps ∧ row.prevCertSerial ≠ some (Pin.serial ps) then
        Verdict.superseded
      else if pin = Pin.serial ps ∧ row.prevCertSerial ≠ none then
        Verdict.confirmed
      else
        Verdict.accepted

theorem checkSerial_superseded_iff {row : AgentRow} {n : Nat}
    (hpin : row.certSerial ≠ none) :
    checkSerial row (some n) = Verdict.superseded <-> ¬ row.Accepts n := by
  cases hcert : row.certSerial with
  | none => exact absurd hcert hpin
  | some pin =>
      simp only [checkSerial, hcert, AgentRow.Accepts, not_or, Option.some.injEq]
      constructor
      · intro h
        by_contra hnot
        rw [if_neg hnot] at h
        split at h <;> cases h
      · intro h
        rw [if_pos h]

theorem checkSerial_confirmed_cert {row : AgentRow} {peer : Option Nat}
    (h : checkSerial row peer = Verdict.confirmed) :
    exists n, peer = some n ∧ row.certSerial = some (Pin.serial n) ∧
      row.prevCertSerial ≠ none := by
  unfold checkSerial at h
  split at h
  · cases h
  · cases h
  · rename_i pin ps hcert
    split at h
    · cases h
    · split at h
      · rename_i hconf
        exact ⟨ps, rfl, by rw [hcert, hconf.left], hconf.right⟩
      · cases h

/-!
# Writers of the columns
-/

/-- {lit}`revoke_serial`: the lines appended to the revoked-serials file. -/
def revokeSerial (pin : Option Pin) : List Nat :=
  (Pin.number? pin).toList

theorem mem_revokeSerial {pin : Option Pin} {n : Nat} :
    n ∈ revokeSerial pin <-> pin = some (Pin.serial n) := by
  simp [revokeSerial]

/-- {lit}`_renew_cert`, once the new certificate is signed. -/
def renewCert (serial : Nat) (row : AgentRow) : AgentRow :=
  { row with
    prevCertSerial :=
      match row.certSerial with
      | some (Pin.serial n) => some (Pin.serial n)
      | _ => row.prevCertSerial
    certSerial := some (Pin.serial serial) }

/-- {lit}`_clear_prev_serial`: the row, and what it appends to the file. -/
def clearPrevSerial (row : AgentRow) : AgentRow × List Nat :=
  match row.prevCertSerial with
  | none => (row, [])
  | some pin => ({ row with prevCertSerial := none }, revokeSerial (some pin))

/-- {lit}`reissue_token`: the row, and what it appends to the file. -/
def reissueToken (token : String) (row : AgentRow) : AgentRow × List Nat :=
  ({ agentToken := token
     tokenUsed := false
     certSerial := some Pin.revoked
     prevCertSerial := none }, revokeSerial row.certSerial)

/-- {lit}`delete_agent`: what it appends to the file before the row is gone. -/
def deleteAgent (row : AgentRow) : List Nat :=
  revokeSerial row.certSerial

/-- The conditional UPDATE of {lit}`enroll`; {lit}`none` is a row count of 0. -/
def burnToken (serial : Nat) (row : AgentRow) : Option AgentRow :=
  if row.tokenUsed then
    none
  else
    some { row with
      tokenUsed := true
      certSerial := some (Pin.serial serial)
      prevCertSerial := none }

/-!
Each writer is described by the serials accepted after it.
-/

@[simp] theorem renewCert_certSerial (serial : Nat) (row : AgentRow) :
    (renewCert serial row).certSerial = some (Pin.serial serial) := rfl

theorem renewCert_prevCertSerial {serial n : Nat} {row : AgentRow}
    (h : row.certSerial = some (Pin.serial n)) :
    (renewCert serial row).prevCertSerial = some (Pin.serial n) := by
  simp [renewCert, h]

theorem renewCert_prevCertSerial_of_not_serial (serial : Nat) {row : AgentRow}
    (h : Pin.number? row.certSerial = none) :
    (renewCert serial row).prevCertSerial = row.prevCertSerial := by
  rcases row with ⟨token, used, _ | ⟨n⟩ | _, prev⟩
  · rfl
  · simp [Pin.number?] at h
  · rfl

theorem renewCert_accepts {serial c n : Nat} {row : AgentRow}
    (h : row.certSerial = some (Pin.serial c)) :
    (renewCert serial row).Accepts n <-> n = serial ∨ n = c := by
  simp only [AgentRow.Accepts, renewCert_certSerial, renewCert_prevCertSerial h,
    Option.some.injEq, Pin.serial.injEq]
  exact or_congr eq_comm eq_comm

@[simp] theorem clearPrevSerial_certSerial (row : AgentRow) :
    (clearPrevSerial row).1.certSerial = row.certSerial := by
  unfold clearPrevSerial
  split <;> rfl

@[simp] theorem clearPrevSerial_prevCertSerial (row : AgentRow) :
    (clearPrevSerial row).1.prevCertSerial = none := by
  unfold clearPrevSerial
  split
  · assumption
  · rfl

theorem clearPrevSerial_accepts {row : AgentRow} {n : Nat} :
    (clearPrevSerial row).1.Accepts n <->
      row.certSerial = some (Pin.serial n) := by
  simp [AgentRow.Accepts]

theorem clearPrevSerial_revoked (row : AgentRow) :
    (clearPrevSerial row).2 = revokeSerial row.prevCertSerial := by
  unfold clearPrevSerial
  split <;> simp_all [revokeSerial, Pin.number?]

theorem reissueToken_accepts {token : String} {row : AgentRow} (n : Nat) :
    ¬ (reissueToken token row).1.Accepts n := by
  simp [AgentRow.Accepts, reissueToken]

theorem burnToken_eq_some {serial : Nat} {row row' : AgentRow}
    (h : burnToken serial row = some row') :
    row.tokenUsed = false ∧
      row' = { row with
        tokenUsed := true
        certSerial := some (Pin.serial serial)
        prevCertSerial := none } := by
  unfold burnToken at h
  split at h
  · cases h
  · rename_i hused
    exact ⟨by simpa using hused, (Option.some.inj h).symm⟩

theorem burnToken_of_unused {row : AgentRow} (serial : Nat)
    (h : row.tokenUsed = false) :
    burnToken serial row = some { row with
      tokenUsed := true
      certSerial := some (Pin.serial serial)
      prevCertSerial := none } := by
  simp [burnToken, h]

theorem burnToken_eq_none {serial : Nat} {row : AgentRow} :
    burnToken serial row = none <-> row.tokenUsed = true := by
  simp [burnToken]

theorem burnToken_accepts {serial n : Nat} {row row' : AgentRow}
    (h : burnToken serial row = some row') :
    row'.Accepts n <-> n = serial := by
  rw [(burnToken_eq_some h).right]
  simp [AgentRow.Accepts, eq_comm]

/-!
# Flushing a loaded row

An ORM session loads the row, changes the copy and writes back, in one UPDATE,
only the columns whose new value differs from the loaded one.  A column another
request changed in between is overwritten when it is dirty and kept when it is
not.
-/

/-- The value a column has after the UPDATE. -/
def flushColumn {α : Type} [DecidableEq α] (loaded changed current : α) : α :=
  if changed = loaded then current else changed

/-- Write the dirty columns of a loaded row back over the current one. -/
def flush (loaded changed current : AgentRow) : AgentRow where
  agentToken := flushColumn loaded.agentToken changed.agentToken current.agentToken
  tokenUsed := flushColumn loaded.tokenUsed changed.tokenUsed current.tokenUsed
  certSerial := flushColumn loaded.certSerial changed.certSerial current.certSerial
  prevCertSerial :=
    flushColumn loaded.prevCertSerial changed.prevCertSerial current.prevCertSerial

theorem flushColumn_of_ne {α : Type} [DecidableEq α] {loaded changed : α}
    (h : changed ≠ loaded) (current : α) :
    flushColumn loaded changed current = changed := by
  simp [flushColumn, h]

@[simp] theorem flushColumn_same {α : Type} [DecidableEq α]
    (loaded current : α) : flushColumn loaded loaded current = current := by
  simp [flushColumn]

theorem flushColumn_cases {α : Type} [DecidableEq α]
    (loaded changed current : α) :
    flushColumn loaded changed current = current ∨
      flushColumn loaded changed current = changed := by
  unfold flushColumn
  split
  · exact Or.inl rfl
  · exact Or.inr rfl

end Panel
end RcTunnel
