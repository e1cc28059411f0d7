import RcTunnel.Foundation.Table
import RcTunnel.Panel.Provisioning

/-!
# Bootstrap tokens

An enrollment finds the agent by its token and burns the token by the agent's
id, in a later statement.  Two enrollments cannot both burn one token, but a
reissue that commits in between replaces the token the enrollment was admitted
with, and its UPDATE then burns the new one.

The main result says that this is the only way: tokens are single-use and die on
reissue in exactly the runs where every UPDATE that finds the token unused was
preceded by a lookup under the same reissue.
-/

namespace RcTunnel
namespace Panel

open Foundation

namespace Provisioning

/-- No token is burned twice, and the one presented was the agent's. -/
def SingleUse (s : State) : Prop :=
  (s.successes.map Prod.fst).Nodup ∧ forall p, p ∈ s.successes -> p.1 = p.2

instance : DecidablePred SingleUse := fun s =>
  inferInstanceAs (Decidable
    ((s.successes.map Prod.fst).Nodup ∧ forall p, p ∈ s.successes -> p.1 = p.2))

/-- An UPDATE that finds the token unused belongs to a lookup no reissue has
committed after. -/
def LookupCurrent (s : State) : Action -> Prop
  | Action.burn r _ =>
      forall q, s.enrolls r = some q -> s.row.tokenUsed = false ->
        q.epoch = s.epoch
  | _ => True

instance (o : Option EnrollRequest) (p : EnrollRequest -> Prop) [DecidablePred p] :
    Decidable (forall q, o = some q -> p q) :=
  match o with
  | none => isTrue (by simp)
  | some q => decidable_of_iff (p q) (by simp)

instance (s : State) : forall a, Decidable (LookupCurrent s a)
  | Action.burn _ _ => inferInstanceAs (Decidable (forall _, _ -> _))
  | Action.lookup _ _ | Action.connect _ _ _ | Action.disconnect _
  | Action.beginRenew _ _ _ | Action.beginClear _ _ | Action.beginReissue _ _
  | Action.commit _ => inferInstanceAs (Decidable True)

/-!
# Where tokens are

Every run keeps this account of the minted tokens, whatever it does to the
property.
-/

/-- The token of a reissue that has not committed is still unknown to all. -/
structure Unpublished (s : State) (token : String) (loaded : AgentRow) : Prop where
  minted : token ∈ s.minted
  changed : token ≠ loaded.agentToken
  row : token ≠ s.row.agentToken
  enrolls : forall r q, s.enrolls r = some q -> q.token ≠ token
  successes : forall p, p ∈ s.successes -> p.1 ≠ token

structure TokenInv (s : State) : Prop where
  row : s.row.agentToken ∈ s.minted
  enrolls : forall r q, s.enrolls r = some q ->
    q.token ∈ s.minted ∧ q.epoch ≤ s.epoch ∧
      (q.token = s.row.agentToken <-> q.epoch = s.epoch)
  successes : forall p, p ∈ s.successes -> p.1 ∈ s.minted
  burned : forall p, p ∈ s.successes -> p.1 = s.row.agentToken ->
    s.row.tokenUsed = true
  reissues : forall t token loaded, s.txns t = some (Txn.reissue token loaded) ->
    Unpublished s token loaded
  distinct : forall t u token loaded loaded',
    s.txns t = some (Txn.reissue token loaded) ->
    s.txns u = some (Txn.reissue token loaded') -> t = u

theorem tokenInv_of_idle {s : State} (h : Idle s) : TokenInv s := by
  rcases h with ⟨_, _, hrow, _, henrolls, htxns, _, _, hsuccesses, _⟩
  exact
    { row := hrow
      enrolls := by simp [henrolls]
      successes := by simp [hsuccesses]
      burned := by simp [hsuccesses]
      reissues := by simp [htxns]
      distinct := by simp [htxns] }

/-- A step that leaves the tokens alone and starts no enrollment or reissue. -/
theorem TokenInv.frame {s t : State} (h : TokenInv s)
    (htoken : t.row.agentToken = s.row.agentToken)
    (hused : t.row.tokenUsed = s.row.tokenUsed)
    (hminted : t.minted = s.minted) (hepoch : t.epoch = s.epoch)
    (hsuccesses : t.successes = s.successes)
    (henrolls : forall r q, t.enrolls r = some q -> s.enrolls r = some q)
    (htxns : forall i token loaded, t.txns i = some (Txn.reissue token loaded) ->
      s.txns i = some (Txn.reissue token loaded)) :
    TokenInv t := by
  refine
    { row := by simpa [htoken, hminted] using h.row
      enrolls := ?_
      successes := by simpa [hsuccesses, hminted] using h.successes
      burned := by simpa [hsuccesses, htoken, hused] using h.burned
      reissues := ?_
      distinct := fun i j token l l' hi hj =>
        h.distinct i j token l l' (htxns i token l hi) (htxns j token l' hj) }
  · intro r q hq
    rw [hminted, hepoch, htoken]
    exact h.enrolls r q (henrolls r q hq)
  · intro i token loaded hi
    have hold := h.reissues i token loaded (htxns i token loaded hi)
    exact
      { minted := by simpa [hminted] using hold.minted
        changed := hold.changed
        row := by simpa [htoken] using hold.row
        enrolls := fun r q hq => hold.enrolls r q (henrolls r q hq)
        successes := by simpa [hsuccesses] using hold.successes }

theorem TokenInv.lookup {s : State} (h : TokenInv s) {r : Nat} {token : String}
    (htoken : s.row.agentToken = token) :
    TokenInv { s with
      enrolls := Function.update s.enrolls r (some ⟨token, s.epoch⟩) } := by
  refine
    { row := h.row
      enrolls := ?_
      successes := h.successes
      burned := h.burned
      reissues := ?_
      distinct := h.distinct }
  · intro i q hq
    rcases lookup_started hq with ⟨_, rfl⟩ | ⟨_, hold⟩
    · exact ⟨htoken ▸ h.row, Nat.le_refl _, by simp [htoken]⟩
    · exact h.enrolls i q hold
  · intro i fresh loaded hi
    have hold := h.reissues i fresh loaded hi
    refine { hold with enrolls := ?_ }
    intro j q hq
    rcases lookup_started hq with ⟨_, rfl⟩ | ⟨_, hq⟩
    · exact fun heq => hold.row (heq.symm.trans htoken.symm)
    · exact hold.enrolls j q hq

theorem TokenInv.burn {s : State} (h : TokenInv s) {r serial : Nat}
    {q : EnrollRequest} {row : AgentRow} (hq : s.enrolls r = some q)
    (hburn : burnToken serial s.row = some row) :
    TokenInv (s.enrolled r serial q row) := by
  have hrow := (burnToken_eq_some hburn).right
  have htoken : row.agentToken = s.row.agentToken := by rw [hrow]
  refine
    { row := by simpa [State.enrolled, htoken] using h.row
      enrolls := ?_
      successes := ?_
      burned := fun _ _ _ => by simp [State.enrolled, hrow]
      reissues := ?_
      distinct := h.distinct }
  · intro i p hp
    simp only [State.enrolled, htoken]
    exact h.enrolls i p (lookup_ended hp).right
  · intro p hp
    rcases List.mem_cons.mp hp with rfl | hp
    · exact (h.enrolls r q hq).left
    · exact h.successes p hp
  · intro i fresh loaded hi
    have hold := h.reissues i fresh loaded hi
    refine
      { minted := hold.minted
        changed := hold.changed
        row := by simpa [State.enrolled, htoken] using hold.row
        enrolls := fun j p hp => hold.enrolls j p (lookup_ended hp).right
        successes := ?_ }
    intro p hp
    rcases List.mem_cons.mp hp with rfl | hp
    · exact hold.enrolls r q hq
    · exact hold.successes p hp

theorem TokenInv.mint {s : State} (h : TokenInv s) {t : Nat} {token : String}
    (hfresh : token ∉ s.minted) :
    TokenInv { s with
      minted := token :: s.minted
      txns := Function.update s.txns t (some (Txn.reissue token s.row)) } := by
  have hnew {other : String} (hother : other ∈ s.minted) : token ≠ other :=
    fun heq => hfresh (heq ▸ hother)
  refine
    { row := List.mem_cons_of_mem _ h.row
      enrolls := ?_
      successes := fun p hp => List.mem_cons_of_mem _ (h.successes p hp)
      burned := h.burned
      reissues := ?_
      distinct := ?_ }
  · intro r q hq
    rcases h.enrolls r q hq with ⟨hmem, hle, hiff⟩
    exact ⟨List.mem_cons_of_mem _ hmem, hle, hiff⟩
  · intro i fresh loaded hi
    rcases lookup_started hi with ⟨_, heq⟩ | ⟨_, hi⟩
    · cases heq
      exact
        { minted := List.mem_cons_self
          changed := hnew h.row
          row := hnew h.row
          enrolls := fun r q hq => (hnew (h.enrolls r q hq).left).symm
          successes := fun p hp => (hnew (h.successes p hp)).symm }
    · have hold := h.reissues i fresh loaded hi
      exact { hold with minted := List.mem_cons_of_mem _ hold.minted }
  · intro i j fresh l l' hi hj
    rcases lookup_started hi with ⟨hit, heqi⟩ | ⟨_, hi'⟩ <;>
      rcases lookup_started hj with ⟨hjt, heqj⟩ | ⟨_, hj'⟩
    · exact hit.trans hjt.symm
    · cases heqi
      exact absurd (h.reissues j _ _ hj').minted hfresh
    · cases heqj
      exact absurd (h.reissues i _ _ hi').minted hfresh
    · exact h.distinct i j fresh l l' hi' hj'

/-- The commit of a reissue publishes its token and turns every pending lookup
stale. -/
theorem TokenInv.reissue {s : State} (h : TokenInv s) {t : Nat} {token : String}
    {loaded : AgentRow} (ht : s.txns t = some (Txn.reissue token loaded)) :
    TokenInv (s.commit t (Txn.reissue token loaded)) := by
  have hpub := h.reissues t token loaded ht
  have htoken := flush_reissueToken_agentToken hpub.changed s.row
  refine
    { row := by simpa [State.commit, htoken] using hpub.minted
      enrolls := ?_
      successes := h.successes
      burned := ?_
      reissues := ?_
      distinct := ?_ }
  · intro r q hq
    rcases h.enrolls r q hq with ⟨hmem, hle, _⟩
    refine ⟨hmem, Nat.le_succ_of_le hle, ?_⟩
    simp only [State.commit, htoken]
    constructor
    · intro heq
      exact absurd heq (hpub.enrolls r q hq)
    · intro heq
      exact absurd hle (by simp [heq])
  · intro p hp heq
    simp only [State.commit, htoken] at heq
    exact absurd heq (hpub.successes p hp)
  · intro i fresh l hi
    rcases lookup_ended hi with ⟨hne, hold⟩
    have hpub' := h.reissues i fresh l hold
    refine
      { minted := hpub'.minted
        changed := hpub'.changed
        row := ?_
        enrolls := hpub'.enrolls
        successes := hpub'.successes }
    simp only [State.commit, htoken]
    intro hsame
    subst hsame
    exact hne (h.distinct i t fresh l loaded hold ht)
  · intro i j fresh l l' hi hj
    exact h.distinct i j fresh l l' (lookup_ended hi).right (lookup_ended hj).right

theorem tokenInv_step {s t : State} {a : Action} (h : TokenInv s)
    (hstep : step s a = some t) : TokenInv t := by
  cases step_cases hstep with
  | lookupMiss => exact h
  | lookupHit _ htoken _ => exact h.lookup htoken
  | burnLost _ _ =>
      exact h.frame rfl rfl rfl rfl rfl (fun _ _ hq => (lookup_ended hq).right)
        (fun _ _ _ hi => hi)
  | burnWon hq _ hburn => exact h.burn hq hburn
  | connectRefused => exact h
  | connectOpened _ _ _ _ =>
      exact h.frame rfl rfl rfl rfl rfl (fun _ _ hq => hq) (fun _ _ _ hi => hi)
  | disconnect =>
      exact h.frame rfl rfl rfl rfl rfl (fun _ _ hq => hq) (fun _ _ _ hi => hi)
  | beginRenew _ _ _ =>
      refine h.frame rfl rfl rfl rfl rfl (fun _ _ hq => hq) fun _ _ _ hi => ?_
      rcases lookup_started hi with ⟨_, heq⟩ | ⟨_, hi⟩
      · cases heq
      · exact hi
  | beginClear _ _ =>
      refine h.frame rfl rfl rfl rfl rfl (fun _ _ hq => hq) fun _ _ _ hi => ?_
      rcases lookup_started hi with ⟨_, heq⟩ | ⟨_, hi⟩
      · cases heq
      · exact hi
  | beginReissue _ hfresh => exact h.mint hfresh
  | commit ht =>
      rename_i txn
      cases txn with
      | renew cert serial loaded =>
          exact h.frame (by simp [State.commit]) (by simp [State.commit]) rfl rfl rfl
            (fun _ _ hq => hq) (fun _ _ _ hi => (lookup_ended hi).right)
      | clearPrev loaded =>
          exact h.frame (by simp [State.commit]) (by simp [State.commit]) rfl rfl rfl
            (fun _ _ hq => hq) (fun _ _ _ hi => (lookup_ended hi).right)
      | reissue token loaded => exact h.reissue ht

/-!
# Single use
-/

/-- Only a burned token changes the history of successes. -/
theorem successes_step {s t : State} {a : Action} (hstep : step s a = some t) :
    t.successes = s.successes ∨
      exists r serial q, a = Action.burn r serial ∧ s.enrolls r = some q ∧
        s.row.tokenUsed = false ∧
        t.successes = (q.token, s.row.agentToken) :: s.successes := by
  cases step_cases hstep with
  | burnWon hq _ hburn =>
      exact Or.inr ⟨_, _, _, rfl, hq, (burnToken_eq_some hburn).left, rfl⟩
  | commit ht =>
      rename_i txn
      cases txn <;> exact Or.inl rfl
  | _ => exact Or.inl rfl

theorem singleUse_step {s t : State} {a : Action} (h : TokenInv s)
    (hsingle : SingleUse s) (hG : LookupCurrent s a) (hstep : step s a = some t) :
    SingleUse t := by
  rcases successes_step hstep with heq | ⟨r, serial, q, rfl, hq, hused, heq⟩
  · simpa [SingleUse, heq] using hsingle
  · have htoken : q.token = s.row.agentToken :=
      (h.enrolls r q hq).right.right.mpr (hG q hq hused)
    have hnew : q.token ∉ s.successes.map Prod.fst := by
      intro hmem
      rcases List.mem_map.mp hmem with ⟨p, hp, hpq⟩
      have hburned := h.burned p hp (hpq.trans htoken)
      rw [hused] at hburned
      cases hburned
    constructor
    · rw [heq, List.map_cons]
      exact List.nodup_cons.mpr ⟨hnew, hsingle.left⟩
    · intro p hp
      rw [heq] at hp
      rcases List.mem_cons.mp hp with rfl | hp
      · exact htoken
      · exact hsingle.right p hp

theorem not_singleUse_step {s t : State} {a : Action} (h : TokenInv s)
    (hG : ¬ LookupCurrent s a) (hstep : step s a = some t) : ¬ SingleUse t := by
  cases a with
  | burn r serial =>
      simp only [LookupCurrent, not_forall] at hG
      rcases hG with ⟨q, hq, hused, hstale⟩
      rcases successes_step hstep with heq | ⟨_, _, p, ha, hp, _, heq⟩
      · simp only [step, hq, burnToken_of_unused serial hused] at hstep
        split at hstep
        · cases hstep
        · cases hstep
          simp [State.enrolled] at heq
      · cases ha
        rw [hq] at hp
        cases hp
        intro hsingle
        have hpair := hsingle.right (q.token, s.row.agentToken) (by simp [heq])
        exact hstale ((h.enrolls r q hq).right.right.mp hpair)
  | _ => exact absurd trivial hG

/--
In a run of concurrent enrollments, renewals and reissues every state is
single-use exactly when no UPDATE burns a token its lookup did not find.
-/
theorem singleUse_iff_lookupCurrent {s t : State} {actions : List Action}
    (hinit : machine.init s) (hrun : machine.exec s actions = some t) :
    machine.Always SingleUse s actions <-> machine.Obeys LookupCurrent s actions :=
  Machine.always_iff_obeys (I := fun s => TokenInv s ∧ SingleUse s)
    (fun _ h => h.right)
    (fun _ _ _ h hG hstep =>
      ⟨tokenInv_step h.left hstep, singleUse_step h.left h.right hG hstep⟩)
    (fun _ _ _ h hG hstep => not_singleUse_step h.left hG hstep)
    ⟨tokenInv_of_idle hinit, by simp [SingleUse, hinit.2.2.2.2.2.2.2.2.1]⟩ hrun

/-- An agent that was created and has not enrolled. -/
def unenrolled : State where
  row :=
    { agentToken := "t0"
      tokenUsed := false
      certSerial := none
      prevCertSerial := none }
  issued := []
  held := []
  minted := ["t0"]
  sessions := fun _ => none
  enrolls := fun _ => none
  txns := fun _ => none
  epoch := 0
  trusted := []
  successes := []
  strays := []

theorem idle_unenrolled : Idle unenrolled := by
  simp [Idle, unenrolled, AgentRow.Accepts]

/-- Two enrollments race for each of two tokens. -/
theorem singleUse_of_raced_enrollments :
    machine.Always SingleUse unenrolled
      [Action.lookup 0 "t0", Action.lookup 1 "t0", Action.burn 1 7,
        Action.burn 0 8, Action.beginReissue 0 "t1", Action.commit 0,
        Action.lookup 0 "t1", Action.lookup 1 "t0", Action.burn 0 9] :=
  (singleUse_iff_lookupCurrent idle_unenrolled rfl).mpr (by decide)

/-- A reissue commits between the lookup and the UPDATE of an enrollment, which
then succeeds with the replaced token. -/
theorem stale_token_enrolls_across_reissue :
    machine.init unenrolled ∧
      exists t, machine.exec unenrolled
        [Action.lookup 0 "t0", Action.beginReissue 0 "t1", Action.commit 0,
          Action.burn 0 7] = some t ∧
        ¬ SingleUse t ∧ t.row.agentToken = "t1" ∧ ("t0", "t1") ∈ t.successes ∧
        t.row.certSerial = some (Pin.serial 7) :=
  ⟨idle_unenrolled, _, rfl, by decide, rfl, by decide, rfl⟩

end Provisioning

end Panel
end RcTunnel
