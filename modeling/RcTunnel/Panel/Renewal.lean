import RcTunnel.Foundation.Machine
import RcTunnel.Panel.AgentRow

/-!
# Certificate renewal between the panel and one agent

The panel's two pins and the certificate on the agent's disk evolve separately.
A renew request, the panel's signing and the installation of the reply are
three steps; a reply may be lost with the connection, and the agent may restart
or reconnect between any two of them.  Requests the panel has not read yet
survive on the session they were sent on.

The main result says exactly which runs keep the certificate on disk accepted:
those in which the panel signs a renewal only while the agent holds the
current certificate.  The second pin covers one lost renewal, not two.
-/

namespace RcTunnel
namespace Panel

open Foundation

namespace Renewal

structure State where
  row : AgentRow
  /-- serial of the certificate on the agent's disk -/
  disk : Nat
  /-- serials of all certificates signed so far -/
  issued : List Nat
  /-- a renewal key is staged in the agent process ({lit}`_renew_key`) -/
  renewKey : Bool
  /-- the session the agent process is on -/
  link : Option Nat
  /-- renew messages of a session that the panel has not read yet -/
  requests : Nat -> Nat
  /-- renewed messages of a session that the agent has not read yet -/
  replies : Nat -> List Nat
  /-- number of sessions opened so far -/
  sessions : Nat

inductive Action where
  /-- connect with the certificate on disk -/
  | connect
  /-- {lit}`_maybe_request_renew` sends a request -/
  | requestRenew
  /-- the panel reads a renew message, signs and pins {lit}`serial` -/
  | signRenewal (session serial : Nat)
  /-- the panel reads a renew message and drops it (cooldown, bad CSR) -/
  | ignoreRenewal (session : Nat)
  /-- the agent reads a renewed message ({lit}`_install_renewed`) -/
  | deliver
  | dropLink
  | restart
deriving DecidableEq, Repr

/-- The link is gone, and with it the replies still in flight on it. -/
def State.unlink (s : State) : State :=
  match s.link with
  | none => s
  | some n =>
      { s with
        link := none
        replies := Function.update s.replies n [] }

/-- A session is accepted by {lit}`_handle`. -/
def State.openSession (s : State) (row : AgentRow) : State :=
  { s with
    row := row
    link := some s.sessions
    sessions := s.sessions + 1 }

/-- One message less to read on a session. -/
def State.takeRequest (s : State) (n : Nat) : State :=
  { s with requests := Function.update s.requests n (s.requests n - 1) }

def step (s : State) : Action -> Option State
  | Action.connect =>
      match s.link with
      | some _ => none
      | none =>
          match checkSerial s.row (some s.disk) with
          | Verdict.superseded => some s
          | Verdict.accepted => some (s.openSession s.row)
          | Verdict.confirmed => some (s.openSession (clearPrevSerial s.row).1)
  | Action.requestRenew =>
      match s.link with
      | none => none
      | some n =>
          if s.renewKey then
            none
          else
            some { s with
              renewKey := true
              requests := Function.update s.requests n (s.requests n + 1) }
  | Action.signRenewal n serial =>
      if s.requests n = 0 ∨ serial ∈ s.issued then
        none
      else
        some { s.takeRequest n with
          row := renewCert serial s.row
          issued := serial :: s.issued
          replies := Function.update s.replies n (s.replies n ++ [serial]) }
  | Action.ignoreRenewal n =>
      if s.requests n = 0 then none else some (s.takeRequest n)
  | Action.deliver =>
      match s.link with
      | none => none
      | some n =>
          match s.replies n with
          | [] => none
          | serial :: rest =>
              if s.renewKey then
                -- installing re-executes the process, so its link is gone too
                some { s.unlink with disk := serial, renewKey := false }
              else
                some { s with replies := Function.update s.replies n rest }
  | Action.dropLink =>
      match s.link with
      | none => none
      | some _ => some s.unlink
  | Action.restart => some { s.unlink with renewKey := false }

/-- An agent that has just enrolled. -/
def Enrolled (s : State) : Prop :=
  s.row.certSerial = some (Pin.serial s.disk) ∧
    s.row.prevCertSerial = none ∧
    s.issued = [s.disk] ∧
    s.renewKey = false ∧
    s.link = none ∧
    (forall n, s.requests n = 0) ∧
    (forall n, s.replies n = []) ∧
    s.sessions = 0

def machine : Machine State Action where
  init := Enrolled
  step := step

/-- The certificate on disk is accepted by the control plane. -/
def Live (s : State) : Prop :=
  s.row.Accepts s.disk

instance : DecidablePred Live := fun s =>
  inferInstanceAs (Decidable (s.row.Accepts s.disk))

/-- The panel signs a renewal only while the current certificate is on disk. -/
def SignsCurrent (s : State) : Action -> Prop
  | Action.signRenewal _ _ => s.row.certSerial = some (Pin.serial s.disk)
  | _ => True

instance (s : State) : forall a, Decidable (SignsCurrent s a)
  | Action.signRenewal _ _ => inferInstanceAs (Decidable (_ = _))
  | Action.connect | Action.requestRenew | Action.ignoreRenewal _
  | Action.deliver | Action.dropLink | Action.restart =>
      inferInstanceAs (Decidable True)

/-!
# The invariant of runs that sign current certificates only

While a handoff is pending the previous pin is the certificate on disk and
every reply in flight is the current pin; while none is pending no reply is in
flight.
-/

structure Inv (s : State) : Prop where
  pinned : exists c, s.row.certSerial = some (Pin.serial c) ∧ c ∈ s.issued ∧
    (c = s.disk ∨ s.row.prevCertSerial = some (Pin.serial s.disk)) ∧
    (forall n, s.link = some n -> forall x, x ∈ s.replies n -> x = c) ∧
    (forall n, s.link = some n -> c = s.disk -> s.replies n = [])
  diskIssued : s.disk ∈ s.issued
  linkOpened : forall n, s.link = some n -> n < s.sessions
  requestOpened : forall n, s.requests n ≠ 0 -> n < s.sessions
  replyOpened : forall n, s.replies n ≠ [] -> n < s.sessions

theorem Inv.live {s : State} (h : Inv s) : Live s := by
  rcases h.pinned with ⟨c, hcert, _, hdisk, _, _⟩
  rcases hdisk with rfl | hprev
  · exact Or.inl hcert
  · exact Or.inr hprev

theorem inv_of_enrolled {s : State} (h : Enrolled s) : Inv s := by
  rcases h with ⟨hcert, _, hissued, _, hlink, hrequests, hreplies, _⟩
  refine
    { pinned := ⟨s.disk, hcert, by simp [hissued], Or.inl rfl, ?_, ?_⟩
      diskIssued := by simp [hissued]
      linkOpened := by simp [hlink]
      requestOpened := by simp [hrequests]
      replyOpened := by simp [hreplies] }
  · intro n hn
    simp [hlink] at hn
  · intro n hn
    simp [hlink] at hn

/-- Losing the link keeps the invariant. -/
theorem Inv.unlink {s : State} (h : Inv s) : Inv s.unlink := by
  unfold State.unlink
  cases hlink : s.link with
  | none => exact h
  | some n =>
      rcases h.pinned with ⟨c, hcert, hissued, hdisk, _, _⟩
      refine
        { pinned := ⟨c, hcert, hissued, hdisk, ?_, ?_⟩
          diskIssued := h.diskIssued
          linkOpened := ?_
          requestOpened := h.requestOpened
          replyOpened := ?_ }
      · intro m hm
        cases hm
      · intro m hm
        cases hm
      · intro m hm
        cases hm
      · intro m hm
        by_cases hmn : m = n
        · simp [hmn] at hm
        · exact h.replyOpened m (by simpa [hmn] using hm)

theorem Inv.takeRequest {s : State} (h : Inv s) (n : Nat) :
    Inv (s.takeRequest n) := by
  refine
    { pinned := h.pinned
      diskIssued := h.diskIssued
      linkOpened := h.linkOpened
      requestOpened := ?_
      replyOpened := h.replyOpened }
  intro m hm
  by_cases hmn : m = n
  · subst hmn
    refine h.requestOpened m fun hzero => hm ?_
    simp [State.takeRequest, hzero]
  · exact h.requestOpened m (by simpa [State.takeRequest, hmn] using hm)

/-- A fresh session on which nothing is in flight. -/
theorem Inv.openSession {s : State} (h : Inv s) {row : AgentRow}
    (hcert : row.certSerial = s.row.certSerial)
    (hprev : s.row.certSerial ≠ some (Pin.serial s.disk) ->
      row.prevCertSerial = s.row.prevCertSerial) :
    Inv (s.openSession row) := by
  rcases h.pinned with ⟨c, hpin, hissued, hdisk, _, _⟩
  have hempty : s.replies s.sessions = [] := by
    by_contra hne
    exact absurd (h.replyOpened _ hne) (Nat.lt_irrefl _)
  refine
    { pinned := ⟨c, hcert.trans hpin, hissued, ?_, ?_, ?_⟩
      diskIssued := h.diskIssued
      linkOpened := ?_
      requestOpened := fun n hn => Nat.lt_succ_of_lt (h.requestOpened n hn)
      replyOpened := fun n hn => Nat.lt_succ_of_lt (h.replyOpened n hn) }
  · by_cases hc : c = s.disk
    · exact Or.inl hc
    · have hne : s.row.certSerial ≠ some (Pin.serial s.disk) := by
        rw [hpin]
        simpa using hc
      exact Or.inr ((hprev hne).trans (hdisk.resolve_left hc))
  · intro n hn x hx
    cases hn
    simp [State.openSession, hempty] at hx
  · intro n hn _
    cases hn
    exact hempty
  · intro n hn
    cases hn
    exact Nat.lt_succ_self _

/-!
# Steps
-/

theorem Inv.requestRenew {s : State} (h : Inv s) {n : Nat} (hlink : s.link = some n) :
    Inv { s with
      renewKey := true
      requests := Function.update s.requests n (s.requests n + 1) } := by
  refine
    { pinned := h.pinned
      diskIssued := h.diskIssued
      linkOpened := h.linkOpened
      requestOpened := ?_
      replyOpened := h.replyOpened }
  intro m hm
  by_cases hmn : m = n
  · exact hmn ▸ h.linkOpened n hlink
  · exact h.requestOpened m (by simpa [hmn] using hm)

/-- Signing while the current certificate is on disk; nothing is in flight then. -/
theorem Inv.signRenewal {s : State} (h : Inv s) {n serial : Nat}
    (hrequest : s.requests n ≠ 0) (hfresh : serial ∉ s.issued)
    (hdisk : s.row.certSerial = some (Pin.serial s.disk)) :
    Inv { s.takeRequest n with
      row := renewCert serial s.row
      issued := serial :: s.issued
      replies := Function.update s.replies n (s.replies n ++ [serial]) } := by
  rcases h.pinned with ⟨c, hcert, hissued, _, _, hquiet⟩
  have hc : c = s.disk := by
    rw [hcert] at hdisk
    simpa using hdisk
  have hne : serial ≠ s.disk := fun heq =>
    hfresh (heq ▸ h.diskIssued)
  refine
    { pinned := ⟨serial, rfl, by simp, Or.inr ?_, ?_, ?_⟩
      diskIssued := List.mem_cons_of_mem _ h.diskIssued
      linkOpened := h.linkOpened
      requestOpened := (h.takeRequest n).requestOpened
      replyOpened := ?_ }
  · exact hc ▸ renewCert_prevCertSerial hcert
  · intro m hm x hx
    have hnone : s.replies m = [] := hquiet m hm hc
    by_cases hmn : m = n
    · subst hmn
      simpa [hnone] using hx
    · simp [hmn, hnone] at hx
  · intro m _ heq
    exact absurd heq hne
  · intro m hm
    by_cases hmn : m = n
    · exact hmn ▸ h.requestOpened n hrequest
    · exact h.replyOpened m (by simpa [hmn] using hm)

theorem Inv.install {s : State} (h : Inv s) {n serial : Nat} {rest : List Nat}
    (hlink : s.link = some n) (hreply : s.replies n = serial :: rest) :
    Inv { s.unlink with disk := serial, renewKey := false } := by
  rcases h.pinned with ⟨c, hcert, hissued, _, hflight, _⟩
  have hserial : serial = c := hflight n hlink serial (by simp [hreply])
  have hu := h.unlink
  have hgone : s.unlink.link = none := by
    simp [State.unlink, hlink]
  have hrow : s.unlink.row = s.row := by
    simp [State.unlink, hlink]
  have hiss : s.unlink.issued = s.issued := by
    simp [State.unlink, hlink]
  refine
    { pinned := ⟨c, hrow ▸ hcert, hiss ▸ hissued, Or.inl hserial.symm, ?_, ?_⟩
      diskIssued := by rw [hserial]; exact hiss ▸ hissued
      linkOpened := hu.linkOpened
      requestOpened := hu.requestOpened
      replyOpened := hu.replyOpened }
  · intro m hm
    rw [hgone] at hm
    cases hm
  · intro m hm
    rw [hgone] at hm
    cases hm

/-- A reply that finds no staged key is dropped. -/
theorem Inv.discard {s : State} (h : Inv s) {n serial : Nat} {rest : List Nat}
    (hlink : s.link = some n) (hreply : s.replies n = serial :: rest) :
    Inv { s with replies := Function.update s.replies n rest } := by
  rcases h.pinned with ⟨c, hcert, hissued, hdisk, hflight, hquiet⟩
  have hne : c ≠ s.disk := by
    intro heq
    rw [hquiet n hlink heq] at hreply
    cases hreply
  refine
    { pinned := ⟨c, hcert, hissued, hdisk, ?_, ?_⟩
      diskIssued := h.diskIssued
      linkOpened := h.linkOpened
      requestOpened := h.requestOpened
      replyOpened := ?_ }
  · intro m hm x hx
    rw [hlink] at hm
    cases hm
    have hmem : x ∈ s.replies n := by
      rw [hreply]
      exact List.mem_cons_of_mem _ (by simpa using hx)
    exact hflight n hlink x hmem
  · intro m _ heq
    exact absurd heq hne
  · intro m hm
    by_cases hmn : m = n
    · exact hmn ▸ h.linkOpened n hlink
    · exact h.replyOpened m (by simpa [hmn] using hm)

theorem inv_step {s t : State} {a : Action} (h : Inv s) (hG : SignsCurrent s a)
    (hstep : step s a = some t) : Inv t := by
  cases a with
  | connect =>
      simp only [step] at hstep
      split at hstep
      · cases hstep
      · split at hstep
        · cases hstep
          exact h
        · cases hstep
          exact h.openSession rfl fun _ => rfl
        · rename_i hconf
          cases hstep
          rcases checkSerial_confirmed_cert hconf with ⟨n, hn, hcert, _⟩
          cases hn
          exact h.openSession (by simp) fun hne => absurd hcert hne
  | requestRenew =>
      simp only [step] at hstep
      split at hstep
      · cases hstep
      · rename_i n hlink
        split at hstep
        · cases hstep
        · cases hstep
          exact h.requestRenew hlink
  | signRenewal n serial =>
      simp only [step] at hstep
      split at hstep
      · cases hstep
      · rename_i hfresh
        rw [not_or] at hfresh
        cases hstep
        exact h.signRenewal hfresh.left hfresh.right hG
  | ignoreRenewal n =>
      simp only [step] at hstep
      split at hstep
      · cases hstep
      · cases hstep
        exact h.takeRequest n
  | deliver =>
      simp only [step] at hstep
      split at hstep
      · cases hstep
      · rename_i n hlink
        split at hstep
        · cases hstep
        · rename_i serial rest hreply
          split at hstep
          · cases hstep
            exact h.install hlink hreply
          · cases hstep
            exact h.discard hlink hreply
  | dropLink =>
      simp only [step] at hstep
      split at hstep
      · cases hstep
      · cases hstep
        exact h.unlink
  | restart =>
      simp only [step] at hstep
      cases hstep
      have hu := h.unlink
      exact
        { pinned := hu.pinned
          diskIssued := hu.diskIssued
          linkOpened := hu.linkOpened
          requestOpened := hu.requestOpened
          replyOpened := hu.replyOpened }

/-- Signing while the previous certificate is on disk drops the pin it is
accepted by. -/
theorem not_live_of_sign {s t : State} {a : Action} (h : Inv s)
    (hG : ¬ SignsCurrent s a) (hstep : step s a = some t) : ¬ Live t := by
  cases a with
  | signRenewal n serial =>
      simp only [step] at hstep
      split at hstep
      · cases hstep
      · rename_i hfresh
        rw [not_or] at hfresh
        cases hstep
        rcases h.pinned with ⟨c, hcert, _, _, _, _⟩
        have hne : s.disk ≠ c := by
          intro heq
          exact hG (by rw [SignsCurrent, hcert, heq])
        intro hlive
        rcases (renewCert_accepts hcert).mp hlive with heq | heq
        · exact hfresh.right (heq ▸ h.diskIssued)
        · exact hne heq
  | connect => exact absurd trivial hG
  | requestRenew => exact absurd trivial hG
  | ignoreRenewal n => exact absurd trivial hG
  | deliver => exact absurd trivial hG
  | dropLink => exact absurd trivial hG
  | restart => exact absurd trivial hG

/-!
# Runs
-/

/--
A run from enrollment keeps the certificate on disk accepted in every state
exactly when the panel only ever signs a renewal while that certificate is the
current one.
-/
theorem live_iff_signsCurrent {s t : State} {actions : List Action}
    (hinit : machine.init s) (hrun : machine.exec s actions = some t) :
    machine.Always Live s actions <-> machine.Obeys SignsCurrent s actions :=
  Machine.always_iff_obeys (I := Inv) (fun _ h => h.live)
    (fun _ _ _ h hG hstep => inv_step h hG hstep)
    (fun _ _ _ h hG hstep => not_live_of_sign h hG hstep)
    (inv_of_enrolled hinit) hrun

/-- The agent just after it enrolled with serial 0. -/
def enrolledAgent : State where
  row :=
    { agentToken := "t"
      tokenUsed := true
      certSerial := some (Pin.serial 0)
      prevCertSerial := none }
  disk := 0
  issued := [0]
  renewKey := false
  link := none
  requests := fun _ => 0
  replies := fun _ => []
  sessions := 0

/-- One renewal delivered and a later one lost with the link: the second pin
keeps the agent in. -/
theorem live_of_delivered_renewal :
    machine.Always Live enrolledAgent
      [Action.connect, Action.requestRenew, Action.signRenewal 0 1, Action.deliver,
        Action.connect, Action.requestRenew, Action.signRenewal 1 2, Action.dropLink,
        Action.connect] :=
  (live_iff_signsCurrent
    ⟨rfl, rfl, rfl, rfl, rfl, fun _ => rfl, fun _ => rfl, rfl⟩ rfl).mpr (by decide)

/--
Two renewals in a row whose replies are lost: the agent restarts between them
and is left with a certificate that neither pin accepts.
-/
theorem locked_out_after_two_lost_renewals :
    machine.init enrolledAgent ∧
      exists t, machine.exec enrolledAgent
        [Action.connect, Action.requestRenew, Action.signRenewal 0 1, Action.restart,
          Action.connect, Action.requestRenew, Action.signRenewal 1 2,
          Action.dropLink] = some t ∧
        ¬ Live t ∧ checkSerial t.row (some t.disk) = Verdict.superseded :=
  ⟨⟨rfl, rfl, rfl, rfl, rfl, fun _ => rfl, fun _ => rfl, rfl⟩,
    _, rfl, by decide, by decide⟩

end Renewal

end Panel
end RcTunnel
