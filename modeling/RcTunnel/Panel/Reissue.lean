import RcTunnel.Panel.Enrollment

/-!
# Finality of a reissue

A reissue is meant to cut off everything provisioned before it.  Three races
undo it: an enrollment admitted with the old token, a renewal served on a
session that outlives its certificate, and the commit of the reissue itself,
which writes back only the columns it changed in the row it had loaded.

The main result says that a run keeps reissues final exactly when none of the
three happens.
-/

namespace RcTunnel
namespace Panel

open Foundation

namespace Provisioning

/-- After a reissue only serials issued under it are accepted, and no session
older than it had a serial pinned. -/
def Final (s : State) : Prop :=
  (0 < s.epoch -> forall n, s.row.Accepts n -> n ∈ s.trusted) ∧ s.strays = []

/-- The pins a reissue's commit leaves as they are hold no serial: the sentinel
is written unless the loaded pin was it, the fallback is cleared unless the
loaded row had none. -/
def ClearsPins (loaded current : AgentRow) : Prop :=
  (loaded.certSerial = some Pin.revoked -> Pin.number? current.certSerial = none) ∧
    (loaded.prevCertSerial = none -> Pin.number? current.prevCertSerial = none)

/-- The request that writes pins is not older than the last reissue. -/
def CommitCurrent (s : State) : Txn -> Prop
  | Txn.renew cert _ _ => 0 < s.epoch -> cert ∈ s.trusted
  | Txn.clearPrev _ => True
  | Txn.reissue _ loaded => ClearsPins loaded s.row

def WriterCurrent (s : State) : Action -> Prop
  | Action.burn r serial => LookupCurrent s (Action.burn r serial)
  | Action.commit t => forall txn, s.txns t = some txn -> CommitCurrent s txn
  | _ => True

instance : DecidablePred Final := fun s =>
  decidable_of_iff
    ((0 < s.epoch ->
      (forall n, n ∈ (Pin.number? s.row.certSerial).toList -> n ∈ s.trusted) ∧
        (forall n, n ∈ (Pin.number? s.row.prevCertSerial).toList -> n ∈ s.trusted)) ∧
      s.strays = [])
    (by simp [Final, AgentRow.Accepts, or_imp, forall_and])

instance (loaded current : AgentRow) : Decidable (ClearsPins loaded current) :=
  inferInstanceAs (Decidable (_ ∧ _))

instance (s : State) : forall txn, Decidable (CommitCurrent s txn)
  | Txn.renew cert _ _ => inferInstanceAs (Decidable (0 < s.epoch -> cert ∈ s.trusted))
  | Txn.clearPrev _ => inferInstanceAs (Decidable True)
  | Txn.reissue _ loaded => inferInstanceAs (Decidable (ClearsPins loaded s.row))

instance (o : Option Txn) (p : Txn -> Prop) [DecidablePred p] :
    Decidable (forall txn, o = some txn -> p txn) :=
  match o with
  | none => isTrue (by simp)
  | some txn => decidable_of_iff (p txn) (by simp)

instance (s : State) : forall a, Decidable (WriterCurrent s a)
  | Action.burn r serial =>
      inferInstanceAs (Decidable (LookupCurrent s (Action.burn r serial)))
  | Action.commit _ => inferInstanceAs (Decidable (forall _, _ -> _))
  | Action.lookup _ _ | Action.connect _ _ _ | Action.disconnect _
  | Action.beginRenew _ _ _ | Action.beginClear _ _ | Action.beginReissue _ _ =>
      inferInstanceAs (Decidable True)

/-!
# Where serials are

Every run keeps this account of the issued serials.  A serial is trusted, then
held, then issued; what a running transaction carries was read from the row.
-/

/-- A renewal that has not committed: its serial is not handed out yet, and if
its session belongs to the last reissue, so does the pin it replaces. -/
structure Pending (s : State) (cert serial : Nat) (loaded : AgentRow) : Prop where
  session : cert ∈ s.held
  issued : serial ∈ s.issued
  unpublished : serial ∉ s.held
  replaced : forall n, loaded.certSerial = some (Pin.serial n) -> n ∈ s.held
  trusted : 0 < s.epoch -> cert ∈ s.trusted ->
    forall n, loaded.certSerial = some (Pin.serial n) -> n ∈ s.trusted

structure SerialInv (s : State) : Prop where
  row : forall n, s.row.Accepts n -> n ∈ s.held
  held : forall n, n ∈ s.held -> n ∈ s.issued
  trusted : forall n, n ∈ s.trusted -> n ∈ s.held
  sessions : forall i session, s.sessions i = some session -> session.cert ∈ s.held
  renewals : forall t cert serial loaded,
    s.txns t = some (Txn.renew cert serial loaded) -> Pending s cert serial loaded
  distinct : forall t u cert cert' serial loaded loaded',
    s.txns t = some (Txn.renew cert serial loaded) ->
    s.txns u = some (Txn.renew cert' serial loaded') -> t = u

theorem serialInv_of_idle {s : State} (h : Idle s) : SerialInv s := by
  rcases h with ⟨hrow, hheld, _, hsessions, _, htxns, _, htrusted, _⟩
  exact
    { row := hrow
      held := hheld
      trusted := by simp [htrusted]
      sessions := by simp [hsessions]
      renewals := by simp [htxns]
      distinct := by simp [htxns] }

theorem final_of_idle {s : State} (h : Idle s) : Final s := by
  rcases h with ⟨_, _, _, _, _, _, hepoch, _, _, hstrays⟩
  exact ⟨by simp [hepoch], hstrays⟩

/-- A renewal stays pending while serials are only issued and handed out, and
while its session does not become trusted. -/
theorem Pending.mono {s t : State} {cert serial : Nat} {loaded : AgentRow}
    (h : Pending s cert serial loaded)
    (hheld : forall n, n ∈ s.held -> n ∈ t.held)
    (hissued : forall n, n ∈ s.issued -> n ∈ t.issued)
    (hnew : serial ∉ t.held)
    (htrusted : 0 < t.epoch -> cert ∈ t.trusted ->
      0 < s.epoch ∧ cert ∈ s.trusted ∧ forall n, n ∈ s.trusted -> n ∈ t.trusted) :
    Pending t cert serial loaded := by
  refine
    { session := hheld cert h.session
      issued := hissued serial h.issued
      unpublished := hnew
      replaced := fun n hn => hheld n (h.replaced n hn)
      trusted := ?_ }
  intro hepoch hcert n hn
  rcases htrusted hepoch hcert with ⟨hepoch', hcert', hgrow⟩
  exact hgrow n (h.trusted hepoch' hcert' n hn)

theorem SerialInv.issue {s : State} (h : SerialInv s) (serial : Nat)
    (enrolls : Nat -> Option EnrollRequest) :
    SerialInv { s with issued := serial :: s.issued, enrolls := enrolls } := by
  refine
    { row := h.row
      held := fun n hn => List.mem_cons_of_mem _ (h.held n hn)
      trusted := h.trusted
      sessions := h.sessions
      renewals := ?_
      distinct := h.distinct }
  intro t cert other loaded ht
  have hold := h.renewals t cert other loaded ht
  exact hold.mono (fun _ hn => hn) (fun _ hn => List.mem_cons_of_mem _ hn)
    hold.unpublished (fun hepoch hcert => ⟨hepoch, hcert, fun _ hn => hn⟩)

theorem SerialInv.burn {s : State} (h : SerialInv s) {r serial : Nat}
    {q : EnrollRequest} {row : AgentRow} (hfresh : serial ∉ s.issued)
    (hburn : burnToken serial s.row = some row) :
    SerialInv (s.enrolled r serial q row) := by
  have hmem : forall n, n ∈ (s.enrolled r serial q row).trusted ->
      n = serial ∨ n ∈ s.trusted := by
    intro n hn
    simp only [State.enrolled] at hn
    split at hn
    · exact List.mem_cons.mp hn
    · exact Or.inr hn
  have hgrow : forall n, n ∈ s.trusted -> n ∈ (s.enrolled r serial q row).trusted := by
    intro n hn
    simp only [State.enrolled]
    split
    · exact List.mem_cons_of_mem _ hn
    · exact hn
  refine
    { row := ?_
      held := ?_
      trusted := ?_
      sessions := fun i session hi => List.mem_cons_of_mem _ (h.sessions i session hi)
      renewals := ?_
      distinct := h.distinct }
  · intro n hn
    rw [(burnToken_accepts hburn).mp hn]
    exact List.mem_cons_self
  · intro n hn
    rcases List.mem_cons.mp hn with rfl | hn
    · exact List.mem_cons_self
    · exact List.mem_cons_of_mem _ (h.held n hn)
  · intro n hn
    rcases hmem n hn with rfl | hn
    · exact List.mem_cons_self
    · exact List.mem_cons_of_mem _ (h.trusted n hn)
  · intro t cert other loaded ht
    have hold := h.renewals t cert other loaded ht
    refine hold.mono (fun _ hn => List.mem_cons_of_mem _ hn)
      (fun _ hn => List.mem_cons_of_mem _ hn) ?_ ?_
    · intro hheld
      rcases List.mem_cons.mp hheld with rfl | hheld
      · exact hfresh hold.issued
      · exact hold.unpublished hheld
    · intro hepoch hcert
      rcases hmem cert hcert with rfl | hcert
      · exact absurd (h.held _ hold.session) hfresh
      · exact ⟨hepoch, hcert, hgrow⟩

theorem SerialInv.beginRenew {s : State} (h : SerialInv s) (hfinal : Final s)
    {t i serial : Nat} {session : Session} (hi : s.sessions i = some session)
    (hfresh : serial ∉ s.issued) :
    SerialInv { s with
      issued := serial :: s.issued
      txns := Function.update s.txns t
        (some (Txn.renew session.cert serial s.row)) } := by
  refine
    { row := h.row
      held := fun n hn => List.mem_cons_of_mem _ (h.held n hn)
      trusted := h.trusted
      sessions := h.sessions
      renewals := ?_
      distinct := ?_ }
  · intro u cert other loaded hu
    rcases lookup_started hu with ⟨_, heq⟩ | ⟨_, hold⟩
    · cases heq
      exact
        { session := h.sessions i session hi
          issued := List.mem_cons_self
          unpublished := fun hheld => hfresh (h.held _ hheld)
          replaced := fun n hn => h.row n (Or.inl hn)
          trusted := fun hepoch _ n hn => hfinal.left hepoch n (Or.inl hn) }
    · have hpending := h.renewals u cert other loaded hold
      exact hpending.mono (fun _ hn => hn) (fun _ hn => List.mem_cons_of_mem _ hn)
        hpending.unpublished (fun hepoch hcert => ⟨hepoch, hcert, fun _ hn => hn⟩)
  · intro u v cert cert' other l l' hu hv
    rcases lookup_started hu with ⟨hut, hequ⟩ | ⟨_, hu'⟩ <;>
      rcases lookup_started hv with ⟨hvt, heqv⟩ | ⟨_, hv'⟩
    · exact hut.trans hvt.symm
    · cases hequ
      exact absurd (h.renewals v _ _ _ hv').issued hfresh
    · cases heqv
      exact absurd (h.renewals u _ _ _ hu').issued hfresh
    · exact h.distinct u v cert cert' other l l' hu' hv'

/-- A transaction that renews nothing starts or ends. -/
theorem SerialInv.txns {s : State} (h : SerialInv s)
    {sessions : Nat -> Option Session} {txns : Nat -> Option Txn}
    (minted : List String)
    (hsessions : forall i session, sessions i = some session ->
      session.cert ∈ s.held)
    (htxns : forall t cert serial loaded,
      txns t = some (Txn.renew cert serial loaded) ->
      s.txns t = some (Txn.renew cert serial loaded)) :
    SerialInv { s with minted := minted, sessions := sessions, txns := txns } :=
  { row := h.row
    held := h.held
    trusted := h.trusted
    sessions := hsessions
    renewals := fun t cert serial loaded ht =>
      have hold := h.renewals t cert serial loaded (htxns t cert serial loaded ht)
      hold.mono (fun _ hn => hn) (fun _ hn => hn) hold.unpublished
        (fun hepoch hcert => ⟨hepoch, hcert, fun _ hn => hn⟩)
    distinct := fun t u cert cert' serial l l' ht hu =>
      h.distinct t u cert cert' serial l l' (htxns t cert serial l ht)
        (htxns u cert' serial l' hu) }

/-!
# What a commit leaves pinned
-/

theorem flush_renewCert_accepts {serial n : Nat} {loaded current : AgentRow}
    (h : (flush loaded (renewCert serial loaded) current).Accepts n) :
    n = serial ∨ current.Accepts n ∨ loaded.certSerial = some (Pin.serial n) := by
  rcases h with hcert | hprev
  · have hcolumn : flushColumn loaded.certSerial (some (Pin.serial serial))
        current.certSerial = some (Pin.serial n) := hcert
    rcases flushColumn_cases loaded.certSerial (some (Pin.serial serial))
        current.certSerial with heq | heq
    · exact Or.inr (Or.inl (Or.inl (heq.symm.trans hcolumn)))
    · rw [heq] at hcolumn
      exact Or.inl (by simpa using hcolumn.symm)
  · have hcolumn : flushColumn loaded.prevCertSerial
        (renewCert serial loaded).prevCertSerial current.prevCertSerial =
          some (Pin.serial n) := hprev
    cases hloaded : Pin.number? loaded.certSerial with
    | none =>
        rw [renewCert_prevCertSerial_of_not_serial _ hloaded, flushColumn_same] at hcolumn
        exact Or.inr (Or.inl (Or.inr hcolumn))
    | some c =>
        have hc : loaded.certSerial = some (Pin.serial c) := by simpa using hloaded
        rw [renewCert_prevCertSerial hc] at hcolumn
        rcases flushColumn_cases loaded.prevCertSerial (some (Pin.serial c))
            current.prevCertSerial with heq | heq
        · exact Or.inr (Or.inl (Or.inr (heq.symm.trans hcolumn)))
        · rw [heq] at hcolumn
          exact Or.inr (Or.inr (hc.trans hcolumn))

theorem flush_reissueToken_accepts {token : String} {n : Nat}
    {loaded current : AgentRow} :
    (flush loaded (reissueToken token loaded).1 current).Accepts n <->
      (loaded.certSerial = some Pin.revoked ∧
          current.certSerial = some (Pin.serial n)) ∨
        (loaded.prevCertSerial = none ∧
          current.prevCertSerial = some (Pin.serial n)) := by
  have hcert : (flush loaded (reissueToken token loaded).1 current).certSerial =
      flushColumn loaded.certSerial (some Pin.revoked) current.certSerial := rfl
  have hprev : (flush loaded (reissueToken token loaded).1 current).prevCertSerial =
      flushColumn loaded.prevCertSerial none current.prevCertSerial := rfl
  rw [AgentRow.Accepts, hcert, hprev, flushColumn, flushColumn]
  apply or_congr
  · split
    · rename_i heq
      simp [heq.symm]
    · rename_i hne
      simp [Ne.symm hne]
  · split
    · rename_i heq
      simp [heq.symm]
    · rename_i hne
      simp [Ne.symm hne]

theorem clearsPins_iff (token : String) {loaded current : AgentRow} :
    ClearsPins loaded current <->
      forall n, ¬ (flush loaded (reissueToken token loaded).1 current).Accepts n := by
  have hnone (pin : Option Pin) :
      Pin.number? pin = none <-> forall n, pin ≠ some (Pin.serial n) := by
    rcases pin with _ | ⟨m⟩ | _ <;> simp [Pin.number?]
  simp only [ClearsPins, flush_reissueToken_accepts, hnone, not_or, not_and,
    forall_and, ne_eq]
  constructor
  · intro hcase
    rcases hcase with ⟨hcert, hprev⟩
    exact ⟨fun n h => hcert h n, fun n h => hprev h n⟩
  · intro hcase
    rcases hcase with ⟨hcert, hprev⟩
    exact ⟨fun h n => hcert n h, fun h n => hprev n h⟩

theorem SerialInv.commitRenew {s : State} (h : SerialInv s) {t cert serial : Nat}
    {loaded : AgentRow} (ht : s.txns t = some (Txn.renew cert serial loaded)) :
    SerialInv (s.commit t (Txn.renew cert serial loaded)) := by
  have hpending := h.renewals t cert serial loaded ht
  have hmem : forall n, n ∈ (s.commit t (Txn.renew cert serial loaded)).trusted ->
      n = serial ∨ n ∈ s.trusted := by
    intro n hn
    simp only [State.commit] at hn
    split at hn
    · exact List.mem_cons.mp hn
    · exact Or.inr hn
  have hgrow : forall n, n ∈ s.trusted ->
      n ∈ (s.commit t (Txn.renew cert serial loaded)).trusted := by
    intro n hn
    simp only [State.commit]
    split
    · exact List.mem_cons_of_mem _ hn
    · exact hn
  refine
    { row := ?_
      held := ?_
      trusted := ?_
      sessions := fun i session hi => List.mem_cons_of_mem _ (h.sessions i session hi)
      renewals := ?_
      distinct := fun u v c c' k l l' hu hv =>
        h.distinct u v c c' k l l' (lookup_ended hu).right (lookup_ended hv).right }
  · intro n hn
    rcases flush_renewCert_accepts hn with rfl | hn | hn
    · exact List.mem_cons_self
    · exact List.mem_cons_of_mem _ (h.row n hn)
    · exact List.mem_cons_of_mem _ (hpending.replaced n hn)
  · intro n hn
    rcases List.mem_cons.mp hn with rfl | hn
    · exact hpending.issued
    · exact h.held n hn
  · intro n hn
    rcases hmem n hn with rfl | hn
    · exact List.mem_cons_self
    · exact List.mem_cons_of_mem _ (h.trusted n hn)
  · intro u cert' other loaded' hu
    rcases lookup_ended hu with ⟨hne, hu'⟩
    have hold := h.renewals u cert' other loaded' hu'
    refine hold.mono (fun _ hn => List.mem_cons_of_mem _ hn) (fun _ hn => hn) ?_ ?_
    · intro hheld
      rcases List.mem_cons.mp hheld with rfl | hheld
      · exact hne (h.distinct u t cert' cert other loaded' loaded hu' ht)
      · exact hold.unpublished hheld
    · intro hepoch hcert
      rcases hmem cert' hcert with rfl | hcert
      · exact absurd hold.session hpending.unpublished
      · exact ⟨hepoch, hcert, hgrow⟩

/-- A commit that accepts no new serial, and trusts all it did or none. -/
theorem SerialInv.shrink {s : State} (h : SerialInv s) {row : AgentRow} {t : Nat}
    {epoch : Nat} {trusted : List Nat}
    (hrow : forall n, row.Accepts n -> s.row.Accepts n)
    (htrusted : trusted = [] ∨ (trusted = s.trusted ∧ epoch = s.epoch)) :
    SerialInv { s with
      row := row
      txns := Function.update s.txns t none
      epoch := epoch
      trusted := trusted } := by
  refine
    { row := fun n hn => h.row n (hrow n hn)
      held := h.held
      trusted := ?_
      sessions := h.sessions
      renewals := ?_
      distinct := fun u v c c' k l l' hu hv =>
        h.distinct u v c c' k l l' (lookup_ended hu).right (lookup_ended hv).right }
  · rcases htrusted with rfl | ⟨rfl, _⟩
    · simp
    · exact h.trusted
  · intro u cert serial loaded hu
    have hold := h.renewals u cert serial loaded (lookup_ended hu).right
    refine hold.mono (fun _ hn => hn) (fun _ hn => hn) hold.unpublished ?_
    rcases htrusted with rfl | ⟨rfl, rfl⟩
    · intro _ hcert
      cases hcert
    · exact fun hepoch hcert => ⟨hepoch, hcert, fun _ hn => hn⟩

theorem serialInv_step {s t : State} {a : Action} (h : SerialInv s)
    (hfinal : Final s) (hstep : step s a = some t) : SerialInv t := by
  cases step_cases hstep with
  | lookupMiss => exact h
  | lookupHit _ _ _ =>
      exact ⟨h.row, h.held, h.trusted, h.sessions,
        fun u c k l hu => ⟨(h.renewals u c k l hu).1, (h.renewals u c k l hu).2,
          (h.renewals u c k l hu).3, (h.renewals u c k l hu).4,
          (h.renewals u c k l hu).5⟩, h.distinct⟩
  | burnLost _ _ => exact h.issue _ _
  | burnWon _ hfresh hburn => exact h.burn hfresh hburn
  | connectRefused => exact h
  | connectOpened confirming _ hheld _ =>
      refine h.txns s.minted (fun i session hi => ?_) (fun _ _ _ _ hu => hu)
      rcases lookup_started hi with ⟨_, rfl⟩ | ⟨_, hi'⟩
      · exact hheld
      · exact h.sessions i session hi'
  | disconnect =>
      exact h.txns s.minted
        (fun i session hi => h.sessions i session (lookup_ended hi).right)
        (fun _ _ _ _ hu => hu)
  | beginRenew hi _ hfresh => exact h.beginRenew hfinal hi hfresh
  | beginClear hsession _ =>
      rename_i sid session _
      refine h.txns s.minted (fun i other hi => ?_) (fun u c k l hu => ?_)
      · rcases lookup_started hi with ⟨_, rfl⟩ | ⟨_, hi'⟩
        · exact h.sessions sid session hsession
        · exact h.sessions i other hi'
      · rcases lookup_started hu with ⟨_, heq⟩ | ⟨_, hu'⟩
        · cases heq
        · exact hu'
  | beginReissue _ _ =>
      refine h.txns _ h.sessions (fun u c k l hu => ?_)
      rcases lookup_started hu with ⟨_, heq⟩ | ⟨_, hu'⟩
      · cases heq
      · exact hu'
  | commit ht =>
      rename_i txn
      cases txn with
      | renew cert serial loaded => exact h.commitRenew ht
      | clearPrev loaded =>
          exact h.shrink (fun _ hn => flush_clearPrevSerial_accepts hn)
            (Or.inr ⟨rfl, rfl⟩)
      | reissue token loaded =>
          refine h.shrink (fun n hn => ?_) (Or.inl rfl)
          rcases flush_reissueToken_accepts.mp hn with ⟨_, hcert⟩ | ⟨_, hprev⟩
          · exact Or.inl hcert
          · exact Or.inr hprev

/-!
# Finality
-/

theorem final_step {s t : State} {a : Action} (htoken : TokenInv s)
    (h : SerialInv s) (hfinal : Final s) (hG : WriterCurrent s a)
    (hstep : step s a = some t) : Final t := by
  cases step_cases hstep with
  | burnWon hq hfresh hburn =>
      rename_i r serial q row
      have hcurrent : q.token = s.row.agentToken :=
        (htoken.enrolls r q hq).right.right.mpr
          (hG q hq (burnToken_eq_some hburn).left)
      refine ⟨fun _ n hn => ?_, hfinal.right⟩
      rw [(burnToken_accepts hburn).mp hn]
      simp [State.enrolled, hcurrent]
  | commit ht =>
      rename_i txn
      have hcommit := hG txn ht
      cases txn with
      | renew cert serial loaded =>
          have hpending := h.renewals _ cert serial loaded ht
          constructor
          · intro hepoch n hn
            have hcert := hcommit hepoch
            simp only [State.commit, if_pos hcert]
            rcases flush_renewCert_accepts hn with rfl | hn | hn
            · exact List.mem_cons_self
            · exact List.mem_cons_of_mem _ (hfinal.left hepoch n hn)
            · exact List.mem_cons_of_mem _ (hpending.trusted hepoch hcert n hn)
          · have hnot : ¬ (0 < s.epoch ∧ cert ∉ s.trusted) := by
              intro hcase
              rcases hcase with ⟨hepoch, hcert⟩
              exact hcert (hcommit hepoch)
            simp only [State.commit, if_neg hnot]
            exact hfinal.right
      | clearPrev loaded =>
          exact ⟨fun hepoch n hn => hfinal.left hepoch n (flush_clearPrevSerial_accepts hn),
            hfinal.right⟩
      | reissue token loaded =>
          exact ⟨fun _ n hn => absurd hn ((clearsPins_iff _).mp hcommit n), hfinal.right⟩
  | _ => exact hfinal

theorem not_final_step {s t : State} {a : Action} (htoken : TokenInv s)
    (h : SerialInv s) (hG : ¬ WriterCurrent s a) (hstep : step s a = some t) :
    ¬ Final t := by
  cases a with
  | burn r serial =>
      simp only [WriterCurrent, LookupCurrent, not_forall] at hG
      rcases hG with ⟨q, hq, hused, hstale⟩
      have henroll := (htoken.enrolls r q hq).right
      have hepoch : 0 < s.epoch := by
        have hlt := Nat.lt_of_le_of_ne henroll.left hstale
        exact Nat.zero_lt_of_lt hlt
      have hother : q.token ≠ s.row.agentToken :=
        fun heq => hstale (henroll.right.mp heq)
      simp only [step, hq, burnToken_of_unused serial hused] at hstep
      split at hstep
      · cases hstep
      · rename_i hfresh
        cases hstep
        intro hfinal
        have hmem := hfinal.left hepoch serial (Or.inl rfl)
        simp only [State.enrolled, if_neg hother] at hmem
        exact hfresh (h.held serial (h.trusted serial hmem))
  | commit i =>
      simp only [WriterCurrent, not_forall] at hG
      rcases hG with ⟨txn, htxn, hcommit⟩
      simp only [step, htxn] at hstep
      cases hstep
      intro hfinal
      cases txn with
      | renew cert serial loaded =>
          simp only [CommitCurrent, not_forall] at hcommit
          rcases hcommit with ⟨hepoch, hcert⟩
          have hstrays := hfinal.right
          simp [State.commit, hepoch, hcert] at hstrays
      | clearPrev loaded => exact hcommit trivial
      | reissue token loaded =>
          refine hcommit ((clearsPins_iff token).mpr fun n hn => ?_)
          have hmem := hfinal.left (Nat.succ_pos _) n hn
          cases hmem
  | _ => exact absurd trivial hG

/--
In a run of control sessions, renewals, reissues and enrollments every state is
final exactly when each request that writes pins is as recent as the last
reissue, and each reissue commits over pins it clears.
-/
theorem final_iff_writerCurrent {s t : State} {actions : List Action}
    (hinit : machine.init s) (hrun : machine.exec s actions = some t) :
    machine.Always Final s actions <-> machine.Obeys WriterCurrent s actions :=
  Machine.always_iff_obeys (I := fun s => TokenInv s ∧ SerialInv s ∧ Final s)
    (fun _ h => h.right.right)
    (fun _ _ _ h hG hstep =>
      ⟨tokenInv_step h.left hstep, serialInv_step h.right.left h.right.right hstep,
        final_step h.left h.right.left h.right.right hG hstep⟩)
    (fun _ _ _ h hG hstep => not_final_step h.left h.right.left hG hstep)
    ⟨tokenInv_of_idle hinit, serialInv_of_idle hinit, final_of_idle hinit⟩ hrun

/-- The old session ends without renewing; the reinstalled agent renews. -/
theorem final_of_reinstall :
    machine.Always Final unenrolled
      [Action.lookup 0 "t0", Action.burn 0 7, Action.connect 0 7 true,
        Action.beginReissue 0 "t1", Action.commit 0, Action.disconnect 0,
        Action.lookup 0 "t1", Action.burn 0 8, Action.connect 0 8 true,
        Action.beginRenew 0 0 9, Action.commit 0, Action.connect 1 9 true,
        Action.beginClear 0 1, Action.commit 0] :=
  (final_iff_writerCurrent idle_unenrolled rfl).mpr (by decide)

/-- A session that was open when the token was reissued renews afterwards, and
the panel pins the serial it asks for. -/
theorem old_session_renews_across_reissue :
    machine.init unenrolled ∧
      exists t, machine.exec unenrolled
        [Action.lookup 0 "t0", Action.burn 0 7, Action.connect 0 7 true,
          Action.beginReissue 0 "t1", Action.commit 0, Action.beginRenew 0 0 8,
          Action.commit 0] = some t ∧
        ¬ Final t ∧ t.row.Accepts 8 ∧ t.strays = [8] ∧ t.trusted = [] ∧
        t.successes = [("t0", "t0")] :=
  ⟨idle_unenrolled, _, rfl, by decide, by decide, rfl, rfl, rfl⟩

end Provisioning

end Panel
end RcTunnel
