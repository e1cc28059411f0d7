import RcTunnel.Engine.Routing

/-!
# Who closes a socket

A client's closers name the sockets they close by number.  Numbers are never used
again, so a handler closes sockets of its own client only.
-/

namespace RcTunnel
namespace Engine

open Foundation

namespace Server

/-- The closers a handler has left to run for one entry. -/
def Task.closers : Task -> List Closer
  | Task.closing _ _ closers | Task.cleaning _ closers => closers
  | Task.evict _ | Task.sweep _ | Task.apply _ _ | Task.reply _ | Task.serve | Task.leave
  | Task.cleanup _ | Task.gone => []

def Client.Holds (cl : Client) (closer : Closer) : Prop :=
  closer ∈ cl.task.closers ∨ exists e, e ∈ cl.regs ∧ closer ∈ e.closers

structure SocketInv (s : State) : Prop where
  numbered : forall k, k ∈ s.shared.sockets -> k.id < s.shared.nextSocket
  owned : forall c cl socket, s.clients c = some cl ->
    cl.Holds (Closer.closeListener socket) -> socket < s.shared.nextSocket ∧
      forall k, k ∈ s.shared.sockets -> k.id = socket -> k.client = c

section Proof

variable {cfg : Config} {rt : Runtime} {foreign : Kind -> Int -> Bool}

theorem socketInv_initial : SocketInv initial :=
  { numbered := by simp [initial]
    owned := by simp [initial] }

/-- A step of one handler that opens at most one socket, for its client. -/
theorem SocketInv.step {s : State} (h : SocketInv s) {c : Nat} {cl new : Client}
    (shared : Shared) (hcl : s.clients c = some cl)
    (hnext : s.shared.nextSocket ≤ shared.nextSocket)
    (hsockets : forall k, k ∈ shared.sockets -> k ∈ s.shared.sockets ∨
      (k.id = s.shared.nextSocket ∧ k.client = c ∧
        s.shared.nextSocket < shared.nextSocket))
    (hholds : forall socket, new.Holds (Closer.closeListener socket) ->
      cl.Holds (Closer.closeListener socket) ∨
        (socket = s.shared.nextSocket ∧ s.shared.nextSocket < shared.nextSocket)) :
    SocketInv { s.setClient c new with shared := shared } := by
  refine
    { numbered := ?_
      owned := ?_ }
  · intro k hk
    rcases hsockets k hk with hold | ⟨hid, _, hlt⟩
    · exact Nat.lt_of_lt_of_le (h.numbered k hold) hnext
    · exact hid ▸ hlt
  · intro c' cl' socket hcl' hcloses
    rcases lookup_started hcl' with ⟨rfl, rfl⟩ | ⟨_, hold⟩
    · rcases hholds socket hcloses with hcloses | ⟨rfl, hlt⟩
      · rcases h.owned c' cl socket hcl hcloses with ⟨hlt, howner⟩
        refine ⟨Nat.lt_of_lt_of_le hlt hnext, fun k hk hid => ?_⟩
        rcases hsockets k hk with hold | ⟨_, hclient, _⟩
        · exact howner k hold hid
        · exact hclient
      · refine ⟨hlt, fun k hk hid => ?_⟩
        rcases hsockets k hk with hold | ⟨_, hclient, _⟩
        · exact absurd hid (Nat.ne_of_lt (h.numbered k hold))
        · exact hclient
    · rcases h.owned c' cl' socket hold hcloses with ⟨hlt, howner⟩
      refine ⟨Nat.lt_of_lt_of_le hlt hnext, fun k hk hid => ?_⟩
      rcases hsockets k hk with hmem | ⟨hnumber, _, _⟩
      · exact howner k hmem hid
      · exact absurd (hid.symm.trans hnumber) (Nat.ne_of_lt hlt)

/-- A step of a handler that opens and closes nothing. -/
theorem SocketInv.quietStep {s : State} (h : SocketInv s) {c : Nat} {cl new : Client}
    (hcl : s.clients c = some cl)
    (hholds : forall closer, new.Holds closer -> cl.Holds closer) :
    SocketInv (s.setClient c new) :=
  h.step s.shared hcl (Nat.le_refl _) (fun _ hk => Or.inl hk)
    fun _ hcloses => Or.inl (hholds _ hcloses)

theorem SocketInv.closerStep {s : State} (h : SocketInv s) {c : Nat} {cl new : Client}
    {closer : Closer} (hcl : s.clients c = some cl)
    (hholds : forall closer, new.Holds closer -> cl.Holds closer) :
    SocketInv { s.setClient c new with shared := closer.run c s.shared } :=
  h.step _ hcl (Nat.le_of_eq (Closer.run_nextSocket c s.shared closer).symm)
    (fun _ hk => Or.inl (Closer.run_sockets hk)) fun _ hcloses => Or.inl (hholds _ hcloses)

/-- A task that runs no closers leaves those of the entries. -/
theorem Client.Holds.of_regs {cl new : Client} (hclosers : new.task.closers = [])
    (hregs : forall e, e ∈ new.regs -> e ∈ cl.regs) (closer : Closer)
    (h : new.Holds closer) : cl.Holds closer := by
  rcases h with hmem | ⟨e, he, hmem⟩
  · rw [hclosers] at hmem
    cases hmem
  · exact Or.inr ⟨e, hregs e he, hmem⟩

/-- A task that starts on the closers of an entry. -/
theorem Client.Holds.of_entry {cl new : Client} {name : Text} {e : RegEntry}
    (hget : cl.regs.get? name = some e) (hclosers : new.task.closers = e.closers)
    (hregs : new.regs = cl.regs) (closer : Closer) (h : new.Holds closer) :
    cl.Holds closer := by
  rcases h with hmem | ⟨e', he, hmem⟩
  · exact Or.inr ⟨e, List.mem_of_find?_eq_some hget, hclosers ▸ hmem⟩
  · exact Or.inr ⟨e', hregs ▸ he, hmem⟩

/-- A task that has run the first of its closers. -/
theorem Client.Holds.of_rest {cl new : Client} {first : Closer} {rest : List Closer}
    (hold : cl.task.closers = first :: rest) (hnew : new.task.closers = rest)
    (hregs : new.regs = cl.regs) (closer : Closer) (h : new.Holds closer) :
    cl.Holds closer := by
  rcases h with hmem | ⟨e, he, hmem⟩
  · apply Or.inl
    rw [hold]
    exact List.mem_cons_of_mem _ (hnew ▸ hmem)
  · exact Or.inr ⟨e, hregs ▸ he, hmem⟩

theorem SocketInv.evict {s : State} (h : SocketInv s) {c : Nat} {cl : Client}
    {proxies : List ProxySpec} (hcl : s.clients c = some cl) :
    SocketInv { (s.evictOld c cl.id).setClient c
        { cl with task := Task.sweep proxies } with
      current := Function.update s.current cl.id (some c) } := by
  refine
    { numbered := fun k hk => ?_
      owned := ?_ }
  · simp only [State.setClient, evictOld_shared] at hk ⊢
    exact h.numbered k hk
  · intro c' cl' socket hcl' hcloses
    simp only [State.setClient, evictOld_shared]
    rcases lookup_started hcl' with ⟨rfl, rfl⟩ | ⟨_, hold'⟩
    · rcases hcloses with hmem | ⟨e, he, hmem⟩
      · cases hmem
      · exact h.owned c' cl socket hcl (Or.inr ⟨e, he, hmem⟩)
    · rcases evictOld_other hold' with ⟨old, hold, _, hregs, htasks⟩
      apply h.owned c' old socket hold
      unfold Client.Holds at hcloses ⊢
      rw [← hregs, ← htasks]
      exact hcloses

theorem SocketInv.registerStep {s : State} (h : SocketInv s) {c : Nat} {cl : Client}
    {p : ProxySpec} {rest : List ProxySpec} {statuses : List ProxyStatus}
    (hcl : s.clients c = some cl) :
    SocketInv { s.setClient c { cl with
        regs := cl.regs.record
          (register rt foreign s.identity (cl.registrar c) p s.shared).2.1
        task := Task.apply rest statuses } with
      shared := (register rt foreign s.identity (cl.registrar c) p s.shared).1 } := by
  rcases register_numbers rt foreign s.identity (cl.registrar c) p s.shared with
    ⟨hnext, _, hsockets, hentry⟩
  refine h.step _ hcl hnext hsockets fun socket hcloses => ?_
  rcases hcloses with hmem | ⟨e, he, hmem⟩
  · cases hmem
  · cases hrecord : (register rt foreign s.identity (cl.registrar c) p s.shared).2.1 with
    | none =>
        simp only [hrecord, Regs.record] at he
        exact Or.inl (Or.inr ⟨e, he, hmem⟩)
    | some e' =>
        simp only [hrecord, Regs.record, Regs.set] at he
        rcases List.mem_cons.mp he with rfl | he
        · exact Or.inr (hentry e socket hrecord hmem)
        · exact Or.inl (Or.inr ⟨e, (List.mem_filter.mp he).left, hmem⟩)

theorem socketInv_handlerStep {s t : State} {c : Nat} {cl : Client}
    {a : HandlerAction} (h : SocketInv s) (hcl : s.clients c = some cl)
    (hstep : HandlerStep cfg rt foreign s c cl a t) : SocketInv t := by
  cases hstep with
  | evict => exact h.evict hcl
  | refused => exact h
  | sweep _ hget _ => exact h.quietStep hcl (Client.Holds.of_entry hget rfl rfl)
  | cleanup _ _ hget => exact h.quietStep hcl (Client.Holds.of_entry hget rfl rfl)
  | closing htask =>
      exact h.closerStep hcl (Client.Holds.of_rest (by rw [htask]; rfl) rfl rfl)
  | cleaning htask =>
      exact h.closerStep hcl (Client.Holds.of_rest (by rw [htask]; rfl) rfl rfl)
  | closed =>
      exact h.quietStep hcl
        (Client.Holds.of_regs rfl fun _ he => (List.mem_filter.mp he).left)
  | register => exact h.registerStep hcl
  | reply =>
      refine h.quietStep hcl (Client.Holds.of_regs ?_ fun _ he => he)
      split <;> rfl
  | leave =>
      have hquiet : SocketInv (s.setClient c { cl with
          task := Task.cleanup (cl.regs.map fun e => e.spec.name) }) :=
        h.quietStep hcl (Client.Holds.of_regs rfl fun _ he => he)
      exact
        { numbered := hquiet.numbered
          owned := hquiet.owned }
  | gone => exact h.quietStep hcl (Client.Holds.of_regs rfl fun _ he => by cases he)
  | _ => exact h.quietStep hcl (Client.Holds.of_regs rfl fun _ he => he)

theorem socketInv_step {s t : State} {a : Action} (h : SocketInv s)
    (hstep : step cfg rt foreign s a = some t) : SocketInv t := by
  cases a with
  | hello c cert token grant clientId fresh revoked proxies now =>
      rcases step_hello hstep with rfl | ⟨cl, hnone, rfl, hadmit⟩
      · exact h
      · rcases admitHello_ok hadmit with ⟨g, _, rfl⟩
        refine
          { numbered := h.numbered
            owned := ?_ }
        intro c' cl' socket hcl' hcloses
        rcases lookup_started hcl' with ⟨_, rfl⟩ | ⟨_, hold⟩
        · rcases hcloses with hmem | ⟨e, he, _⟩
          · cases hmem
          · cases he
        · exact h.owned c' cl' socket hold hcloses
  | handler c action =>
      rcases step_handler hstep with ⟨cl, hcl, hcase⟩
      exact socketInv_handlerStep h hcl hcase
  | traffic action =>
      rcases step_traffic hstep with ⟨hshared, hclients, _⟩
      refine
        { numbered := ?_
          owned := ?_ }
      · rw [hshared]
        exact h.numbered
      · rw [hclients, hshared]
        exact h.owned

theorem socketInv_of_reachable {s : State}
    (h : (machine cfg rt foreign).Reachable s) : SocketInv s := by
  apply h.invariant
  · intro db heq
    subst heq
    exact socketInv_initial
  · intro s a t hs hstep
    have hstep : step cfg rt foreign s a = some t := hstep
    exact socketInv_step hs hstep

end Proof

end Server

end Engine
end RcTunnel
