import RcTunnel.Foundation.Machine
import RcTunnel.Panel.AgentRow

/-!
# The denylist of the data plane

A serial the control plane stops accepting has to reach the revoked-serials
file, or the data plane keeps accepting it.  Five operations move serials
between the two pins and the file, each with its own rule about what to append.
They run here one at a time, over the whole history of one agent.

The main result says exactly which histories keep the file complete: renewals,
reissues and deletions only happen while no handoff is pending, and an
enrollment never replaces a real pin.
-/

namespace RcTunnel
namespace Panel

open Foundation

namespace Denylist

structure State where
  /-- {lit}`none` once the agent is deleted -/
  row : Option AgentRow
  /-- open control sessions of the agent -/
  sessions : Nat
  /-- every serial that was ever pinned -/
  pinned : List Nat
  /-- the revoked-serials file -/
  revoked : List Nat

inductive Action where
  | enroll (token : String) (serial : Nat)
  /-- a control connection that presents a certificate -/
  | connect (peer : Option Nat)
  | disconnect
  /-- a renewal served on an open session -/
  | renew (serial : Nat)
  | reissue (token : String)
  | delete
deriving DecidableEq, Repr

def step (s : State) : Action -> Option State
  | Action.enroll token serial =>
      if serial ∈ s.pinned then
        none
      else
        match s.row with
        | none => some s
        | some row =>
            if row.agentToken = token then
              match burnToken serial row with
              | none => some s
              | some row' =>
                  some { s with row := some row', pinned := serial :: s.pinned }
            else
              some s
  | Action.connect peer =>
      match s.row with
      | none => some s
      | some row =>
          match checkSerial row peer with
          | Verdict.superseded => some s
          | Verdict.accepted => some { s with sessions := s.sessions + 1 }
          | Verdict.confirmed =>
              some { s with
                row := some (clearPrevSerial row).1
                revoked := s.revoked ++ (clearPrevSerial row).2
                sessions := s.sessions + 1 }
  | Action.disconnect =>
      if s.sessions = 0 then none else some { s with sessions := s.sessions - 1 }
  | Action.renew serial =>
      if s.sessions = 0 ∨ serial ∈ s.pinned then
        none
      else
        match s.row with
        | none => some s
        | some row =>
            some { s with
              row := some (renewCert serial row)
              pinned := serial :: s.pinned }
  | Action.reissue token =>
      match s.row with
      | none => some s
      | some row =>
          some { s with
            row := some (reissueToken token row).1
            revoked := s.revoked ++ (reissueToken token row).2 }
  | Action.delete =>
      match s.row with
      | none => some s
      | some row =>
          some { s with
            row := none
            revoked := s.revoked ++ deleteAgent row }

/-- A new agent, before its first enrollment. -/
def Created (s : State) : Prop :=
  (exists token, s.row = some
    { agentToken := token
      tokenUsed := false
      certSerial := none
      prevCertSerial := none }) ∧
    s.sessions = 0 ∧ s.pinned = [] ∧ s.revoked = []

def machine : Machine State Action where
  init := Created
  step := step

/-- The control plane accepts the serial for the agent. -/
def State.Accepts (s : State) (n : Nat) : Prop :=
  exists row, s.row = some row ∧ row.Accepts n

/-- Every serial that was pinned and is no longer accepted is in the file. -/
def Covered (s : State) : Prop :=
  forall n, n ∈ s.pinned -> ¬ s.Accepts n -> n ∈ s.revoked

/-- No handoff is pending when a pin is about to be dropped, and an enrollment
finds no real pin. -/
def DropsCovered (s : State) : Action -> Prop
  | Action.enroll token _ =>
      forall row, s.row = some row -> row.agentToken = token ->
        row.tokenUsed = false -> Pin.number? row.certSerial = none
  | Action.renew _ | Action.reissue _ | Action.delete =>
      forall row, s.row = some row -> row.prevCertSerial = none
  | Action.connect _ | Action.disconnect => True

instance (o : Option AgentRow) (p : AgentRow -> Prop) [DecidablePred p] :
    Decidable (forall row, o = some row -> p row) :=
  match o with
  | none => isTrue (by simp)
  | some row => decidable_of_iff (p row) (by simp)

instance (s : State) : forall a, Decidable (DropsCovered s a)
  | Action.enroll _ _ => inferInstanceAs (Decidable (forall _, _ -> _))
  | Action.renew _ | Action.reissue _ | Action.delete =>
      inferInstanceAs (Decidable (forall _, _ -> _))
  | Action.connect _ | Action.disconnect => inferInstanceAs (Decidable True)

@[simp] theorem State.accepts_some {s : State} {row : AgentRow} {n : Nat}
    (h : s.row = some row) : s.Accepts n <-> row.Accepts n := by
  simp [State.Accepts, h]

@[simp] theorem State.accepts_none {s : State} {n : Nat} (h : s.row = none) :
    ¬ s.Accepts n := by
  simp [State.Accepts, h]

instance (s : State) (n : Nat) : Decidable (s.Accepts n) :=
  match hrow : s.row with
  | none => isFalse (State.accepts_none hrow)
  | some row => decidable_of_iff (row.Accepts n) (State.accepts_some hrow).symm

instance : DecidablePred Covered := fun s =>
  inferInstanceAs
    (Decidable (forall n, n ∈ s.pinned -> ¬ s.Accepts n -> n ∈ s.revoked))

/-!
# The invariant of covered histories
-/

/-- A row's pins: the previous one is only set next to a real current one. -/
structure RowInv (pinned revoked : List Nat) (row : AgentRow) : Prop where
  accepted : forall n, row.Accepts n -> n ∈ pinned ∧ n ∉ revoked
  handoff : row.prevCertSerial ≠ none ->
    exists c p, row.certSerial = some (Pin.serial c) ∧
      row.prevCertSerial = some (Pin.serial p) ∧ p ≠ c

structure Inv (s : State) : Prop where
  covered : Covered s
  row : forall row, s.row = some row -> RowInv s.pinned s.revoked row
  revokedPinned : forall n, n ∈ s.revoked -> n ∈ s.pinned

theorem inv_of_created {s : State} (h : Created s) : Inv s := by
  rcases h with ⟨⟨token, hrow⟩, _, hpinned, hrevoked⟩
  refine
    { covered := by simp [Covered, hpinned]
      row := ?_
      revokedPinned := by simp [hrevoked] }
  intro row hr
  rw [hrow] at hr
  cases hr
  exact
    { accepted := by simp [AgentRow.Accepts]
      handoff := by simp }

theorem RowInv.prev_eq_none {pinned revoked : List Nat} {row : AgentRow}
    (h : RowInv pinned revoked row) (hcert : Pin.number? row.certSerial = none) :
    row.prevCertSerial = none := by
  by_contra hprev
  rcases h.handoff hprev with ⟨c, p, hc, _, _⟩
  simp [hc, Pin.number?] at hcert

/-- Without a pending handoff a row accepts its current pin only. -/
theorem accepts_iff_of_prev_none {row : AgentRow} {n : Nat}
    (h : row.prevCertSerial = none) :
    row.Accepts n <-> row.certSerial = some (Pin.serial n) := by
  simp [AgentRow.Accepts, h]

/-!
# Pinning a fresh serial
-/

/-- A step that pins a fresh serial and drops no accepted one. -/
theorem Inv.pin {s : State} (h : Inv s) {row row' : AgentRow} {serial : Nat}
    (hrow : s.row = some row) (hfresh : serial ∉ s.pinned)
    (haccepts : forall n, row'.Accepts n <-> n = serial ∨ row.Accepts n)
    (hhandoff : row'.prevCertSerial ≠ none ->
      exists c p, row'.certSerial = some (Pin.serial c) ∧
        row'.prevCertSerial = some (Pin.serial p) ∧ p ≠ c) :
    Inv { s with row := some row', pinned := serial :: s.pinned } := by
  have hold := h.row row hrow
  refine
    { covered := ?_
      row := ?_
      revokedPinned := fun n hn => List.mem_cons_of_mem _ (h.revokedPinned n hn) }
  · intro n hn hnot
    have hnot' : ¬ row'.Accepts n := fun ha => hnot ⟨row', rfl, ha⟩
    rw [haccepts, not_or] at hnot'
    have hmem : n ∈ s.pinned := by
      rcases List.mem_cons.mp hn with heq | hmem
      · exact absurd heq hnot'.left
      · exact hmem
    exact h.covered n hmem (by simpa [State.accepts_some hrow] using hnot'.right)
  · intro r hr
    cases hr
    refine
      { accepted := ?_
        handoff := hhandoff }
    intro n hn
    rcases (haccepts n).mp hn with rfl | hprev
    · exact ⟨List.mem_cons_self, fun hrev => hfresh (h.revokedPinned _ hrev)⟩
    · exact ⟨List.mem_cons_of_mem _ (hold.accepted n hprev).left,
        (hold.accepted n hprev).right⟩

theorem Inv.renew {s : State} (h : Inv s) {row : AgentRow} {serial : Nat}
    (hrow : s.row = some row) (hfresh : serial ∉ s.pinned)
    (hprev : row.prevCertSerial = none) :
    Inv { s with
      row := some (renewCert serial row)
      pinned := serial :: s.pinned } := by
  cases hcert : Pin.number? row.certSerial with
  | none =>
      have hkept := renewCert_prevCertSerial_of_not_serial serial hcert
      apply h.pin hrow hfresh
      · intro n
        rw [accepts_iff_of_prev_none hprev,
          accepts_iff_of_prev_none (hkept.trans hprev)]
        constructor
        · intro hn
          exact Or.inl (by simpa using hn.symm)
        · intro hcase
          rcases hcase with rfl | hn
          · rfl
          · simp [hn, Pin.number?] at hcert
      · intro hne
        exact absurd (hkept.trans hprev) hne
  | some c =>
      have hpin : row.certSerial = some (Pin.serial c) := by simpa using hcert
      apply h.pin hrow hfresh
      · intro n
        rw [renewCert_accepts hpin, accepts_iff_of_prev_none hprev, hpin]
        simp [eq_comm]
      · intro _
        refine ⟨serial, c, rfl, renewCert_prevCertSerial hpin, ?_⟩
        intro heq
        subst heq
        exact hfresh ((h.row row hrow).accepted c (Or.inl hpin)).left

/-!
# Dropping pins
-/

/-- A step that drops pins and appends exactly the dropped ones to the file. -/
theorem Inv.drop {s : State} (h : Inv s) {row : AgentRow} {row' : Option AgentRow}
    {dropped : List Nat} (hrow : s.row = some row)
    (hkept : forall n, row.Accepts n ->
      (exists r, row' = some r ∧ r.Accepts n) ∨ n ∈ dropped)
    (hdropped : forall n, n ∈ dropped -> row.Accepts n)
    (hnew : forall r, row' = some r -> forall n, r.Accepts n ->
      row.Accepts n ∧ n ∉ dropped)
    (hprev : forall r, row' = some r -> r.prevCertSerial = none) (sessions : Nat) :
    Inv { s with
      row := row'
      revoked := s.revoked ++ dropped
      sessions := sessions } := by
  have hold := h.row row hrow
  refine
    { covered := ?_
      row := ?_
      revokedPinned := ?_ }
  · intro n hn hnot
    by_cases ha : row.Accepts n
    · rcases hkept n ha with hstill | hmem
      · exact absurd hstill hnot
      · exact List.mem_append_right _ hmem
    · exact List.mem_append_left _
        (h.covered n hn (by simpa [State.accepts_some hrow] using ha))
  · intro r hr
    refine
      { accepted := ?_
        handoff := fun hne => absurd (hprev r hr) hne }
    intro n hn
    rcases hnew r hr n hn with ⟨ha, hnot⟩
    refine ⟨(hold.accepted n ha).left, ?_⟩
    rw [List.mem_append, not_or]
    exact ⟨(hold.accepted n ha).right, hnot⟩
  · intro n hn
    rcases List.mem_append.mp hn with hmem | hmem
    · exact h.revokedPinned n hmem
    · exact (hold.accepted n (hdropped n hmem)).left

theorem Inv.confirm {s : State} (h : Inv s) {row : AgentRow} {peer : Option Nat}
    (hrow : s.row = some row) (hcheck : checkSerial row peer = Verdict.confirmed) :
    Inv { s with
      row := some (clearPrevSerial row).1
      revoked := s.revoked ++ (clearPrevSerial row).2
      sessions := s.sessions + 1 } := by
  rcases checkSerial_confirmed_cert hcheck with ⟨_, _, _, hprev⟩
  rcases (h.row row hrow).handoff hprev with ⟨c, p, hcert, hp, hne⟩
  have hdropped : forall n, n ∈ (clearPrevSerial row).2 <-> n = p := by
    intro n
    rw [clearPrevSerial_revoked, mem_revokeSerial, hp]
    simp [eq_comm]
  refine h.drop hrow ?_ ?_ ?_ ?_ _
  · intro n hn
    rcases hn with hn | hn
    · exact Or.inl ⟨_, rfl, clearPrevSerial_accepts.mpr hn⟩
    · rw [hp] at hn
      exact Or.inr ((hdropped n).mpr (by simpa using hn.symm))
  · intro n hn
    rw [(hdropped n).mp hn]
    exact Or.inr hp
  · intro r hr n hn
    cases hr
    have hn' := clearPrevSerial_accepts.mp hn
    refine ⟨Or.inl hn', fun hmem => hne ?_⟩
    rw [hcert, (hdropped n).mp hmem] at hn'
    simpa using hn'.symm
  · intro r hr
    cases hr
    exact clearPrevSerial_prevCertSerial row

/-- A reissue or deletion without a pending handoff. -/
theorem Inv.revoke {s : State} (h : Inv s) {row : AgentRow} {row' : Option AgentRow}
    (hrow : s.row = some row) (hprev : row.prevCertSerial = none)
    (hnew : forall r, row' = some r ->
      (forall n, ¬ r.Accepts n) ∧ r.prevCertSerial = none) :
    Inv { s with
      row := row'
      revoked := s.revoked ++ revokeSerial row.certSerial } := by
  refine h.drop hrow ?_ ?_ ?_ (fun r hr => (hnew r hr).right) s.sessions
  · intro n hn
    rw [accepts_iff_of_prev_none hprev] at hn
    exact Or.inr (mem_revokeSerial.mpr hn)
  · intro n hn
    exact Or.inl (mem_revokeSerial.mp hn)
  · intro r hr n hn
    exact absurd hn ((hnew r hr).left n)

/-!
# Steps
-/

theorem inv_step {s t : State} {a : Action} (h : Inv s) (hG : DropsCovered s a)
    (hstep : step s a = some t) : Inv t := by
  cases a with
  | enroll token serial =>
      simp only [step] at hstep
      split at hstep
      · cases hstep
      · rename_i hfresh
        split at hstep
        · cases hstep
          exact h
        · rename_i row hrow
          split at hstep
          · rename_i htoken
            split at hstep
            · cases hstep
              exact h
            · rename_i row' hburn
              cases hstep
              have hcert := hG row hrow htoken (burnToken_eq_some hburn).left
              have hprev := (h.row row hrow).prev_eq_none hcert
              apply h.pin hrow hfresh
              · intro n
                rw [burnToken_accepts hburn, accepts_iff_of_prev_none hprev]
                constructor
                · exact Or.inl
                · intro hcase
                  rcases hcase with heq | hn
                  · exact heq
                  · simp [hn, Pin.number?] at hcert
              · rw [(burnToken_eq_some hburn).right]
                simp
          · cases hstep
            exact h
  | connect peer =>
      simp only [step] at hstep
      split at hstep
      · cases hstep
        exact h
      · rename_i row hrow
        split at hstep
        · cases hstep
          exact h
        · cases hstep
          exact ⟨h.covered, h.row, h.revokedPinned⟩
        · rename_i hcheck
          cases hstep
          exact h.confirm hrow hcheck
  | disconnect =>
      simp only [step] at hstep
      split at hstep
      · cases hstep
      · cases hstep
        exact ⟨h.covered, h.row, h.revokedPinned⟩
  | renew serial =>
      simp only [step] at hstep
      split at hstep
      · cases hstep
      · rename_i hfresh
        rw [not_or] at hfresh
        split at hstep
        · cases hstep
          exact h
        · rename_i row hrow
          cases hstep
          exact h.renew hrow hfresh.right (hG row hrow)
  | reissue token =>
      simp only [step] at hstep
      split at hstep
      · cases hstep
        exact h
      · rename_i row hrow
        cases hstep
        refine h.revoke hrow (hG row hrow) fun r hr => ?_
        cases hr
        exact ⟨reissueToken_accepts, rfl⟩
  | delete =>
      simp only [step] at hstep
      split at hstep
      · cases hstep
        exact h
      · rename_i row hrow
        cases hstep
        exact h.revoke hrow (hG row hrow) fun r hr => by cases hr

/-- The pin a step outside the guard drops without listing it. -/
theorem not_covered_of_dropped {t : State} {n : Nat} (hpinned : n ∈ t.pinned)
    (hnot : ¬ t.Accepts n) (hrevoked : n ∉ t.revoked) : ¬ Covered t :=
  fun h => hrevoked (h n hpinned hnot)

theorem not_covered_step {s t : State} {a : Action} (h : Inv s)
    (hG : ¬ DropsCovered s a) (hstep : step s a = some t) : ¬ Covered t := by
  cases a with
  | enroll token serial =>
      simp only [DropsCovered, not_forall] at hG
      rcases hG with ⟨row, hrow, rfl, hused, hcert⟩
      rcases Option.ne_none_iff_exists'.mp hcert with ⟨c, hc⟩
      have hpin : row.Accepts c := Or.inl (by simpa using hc)
      have hold := (h.row row hrow).accepted c hpin
      have hburn := burnToken_of_unused serial hused
      simp only [step, hrow, if_pos, hburn] at hstep
      split at hstep
      · cases hstep
      · rename_i hfresh
        cases hstep
        refine not_covered_of_dropped (n := c) (List.mem_cons_of_mem _ hold.left) ?_
          hold.right
        intro hcase
        rcases hcase with ⟨r, hr, ha⟩
        cases hr
        rw [burnToken_accepts hburn] at ha
        exact hfresh (ha ▸ hold.left)
  | renew serial =>
      simp only [DropsCovered, not_forall] at hG
      rcases hG with ⟨row, hrow, hprev⟩
      rcases (h.row row hrow).handoff hprev with ⟨c, p, hc, hp, hne⟩
      have hold := (h.row row hrow).accepted p (Or.inr hp)
      simp only [step, hrow] at hstep
      split at hstep
      · cases hstep
      · rename_i hfresh
        rw [not_or] at hfresh
        cases hstep
        refine not_covered_of_dropped (n := p) (List.mem_cons_of_mem _ hold.left) ?_
          hold.right
        intro hcase
        rcases hcase with ⟨r, hr, ha⟩
        cases hr
        rcases (renewCert_accepts hc).mp ha with heq | heq
        · exact hfresh.right (heq ▸ hold.left)
        · exact hne heq
  | reissue token =>
      simp only [DropsCovered, not_forall] at hG
      rcases hG with ⟨row, hrow, hprev⟩
      rcases (h.row row hrow).handoff hprev with ⟨c, p, hc, hp, hne⟩
      have hold := (h.row row hrow).accepted p (Or.inr hp)
      simp only [step, hrow] at hstep
      cases hstep
      refine not_covered_of_dropped (n := p) hold.left ?_ ?_
      · intro hcase
        rcases hcase with ⟨r, hr, ha⟩
        cases hr
        exact reissueToken_accepts p ha
      · simp only [reissueToken, List.mem_append, not_or]
        exact ⟨hold.right, by simpa [mem_revokeSerial, hc] using Ne.symm hne⟩
  | delete =>
      simp only [DropsCovered, not_forall] at hG
      rcases hG with ⟨row, hrow, hprev⟩
      rcases (h.row row hrow).handoff hprev with ⟨c, p, hc, hp, hne⟩
      have hold := (h.row row hrow).accepted p (Or.inr hp)
      simp only [step, hrow] at hstep
      cases hstep
      refine not_covered_of_dropped (n := p) hold.left (State.accepts_none rfl) ?_
      simp only [deleteAgent, List.mem_append, not_or]
      exact ⟨hold.right, by simpa [mem_revokeSerial, hc] using Ne.symm hne⟩
  | connect peer => exact absurd trivial hG
  | disconnect => exact absurd trivial hG

/-!
# Histories
-/

/--
A history of an agent keeps the revoked-serials file complete in every state
exactly when no operation that drops pins runs during a pending handoff and no
enrollment replaces a real pin.
-/
theorem covered_iff_dropsCovered {s t : State} {actions : List Action}
    (hinit : machine.init s) (hrun : machine.exec s actions = some t) :
    machine.Always Covered s actions <-> machine.Obeys DropsCovered s actions :=
  Machine.always_iff_obeys (I := Inv) (fun _ h => h.covered)
    (fun _ _ _ h hG hstep => inv_step h hG hstep)
    (fun _ _ _ h hG hstep => not_covered_step h hG hstep)
    (inv_of_created hinit) hrun

/-- An agent row as {lit}`create_agent` leaves it. -/
def createdAgent : State where
  row := some
    { agentToken := "t0"
      tokenUsed := false
      certSerial := none
      prevCertSerial := none }
  sessions := 0
  pinned := []
  revoked := []

/-- Every handoff is confirmed by a reconnect before the next drop. -/
theorem covered_of_confirmed_handoffs :
    machine.Always Covered createdAgent
      [Action.enroll "t0" 0, Action.connect (some 0), Action.renew 1,
        Action.disconnect, Action.connect (some 1), Action.renew 2,
        Action.connect (some 2), Action.reissue "t1", Action.enroll "t1" 3,
        Action.delete] :=
  (covered_iff_dropsCovered ⟨⟨"t0", rfl⟩, rfl, rfl, rfl⟩ rfl).mpr (by decide)

/-- A reissue during a handoff drops the previous pin without listing it. -/
theorem uncovered_after_reissue_during_handoff :
    machine.init createdAgent ∧
      exists t, machine.exec createdAgent
        [Action.enroll "t0" 0, Action.connect (some 0), Action.renew 1,
          Action.reissue "t1"] = some t ∧
        ¬ Covered t ∧ 0 ∈ t.pinned ∧ ¬ t.Accepts 0 ∧ t.revoked = [1] :=
  ⟨⟨⟨"t0", rfl⟩, rfl, rfl, rfl⟩, _, rfl, by decide, by decide, by decide, by decide⟩

end Denylist

end Panel
end RcTunnel
