import Mathlib.Data.List.Forall2
import RcTunnel.Engine.Removal
import RcTunnel.Engine.Steps

/-!
# Applying a list of proxies

One client goes from the proxies it holds to the ones it lists: first the closers
of every entry that is not listed as it is, then a registration for every proxy
that is not held as it is listed.  The first pass looks at the last proxy of each
name, the second at all of them in order.
-/

namespace RcTunnel
namespace Engine

open Foundation

namespace Update

/-- A live public connection, and the listener that accepted it. -/
structure Conn where
  listener : Nat
  id : Nat
deriving DecidableEq, Repr

/-- What the closers of an entry undo. -/
structure World where
  shared : Shared
  live : List Conn
  /-- the udp sockets whose {lit}`stop` is closed -/
  stopped : List Nat

def listenersOf (e : RegEntry) : List Nat :=
  e.closers.filterMap fun closer =>
    match closer with
    | Closer.closeListener socket => some socket
    | _ => none

/-- One closer of the entry. -/
def World.run (c : Nat) (e : RegEntry) (w : World) (closer : Closer) : World :=
  { shared := closer.run c w.shared
    live :=
      if closer = Closer.closeAll then
        w.live.filter fun conn => conn.listener ∉ listenersOf e
      else
        w.live
    stopped := if closer = Closer.closeStop then w.stopped ++ listenersOf e else w.stopped }

/-- All closers of the entry, in their order. -/
def World.closeEntry (c : Nat) (w : World) (e : RegEntry) : World :=
  e.closers.foldl (World.run c e) w

/-- The first loop of {lit}`applyUpdate`, over the entries in some order. -/
def sweep (c : Nat) (proxies : List ProxySpec) :
    List RegEntry -> World × Regs -> World × Regs
  | [], s => s
  | e :: rest, (w, regs) =>
      if Server.Stale proxies e then
        sweep c proxies rest (w.closeEntry c e, regs.delete e.spec.name)
      else
        sweep c proxies rest (w, regs)

section Visit

variable (rt : Runtime) (foreign : Kind -> Int -> Bool)
  (identity : Nat -> Option Text) (r : Registrar)

/-- One turn of the second loop. -/
def visit (p : ProxySpec) (s : World × Regs) : (World × Regs) × ProxyStatus :=
  if Server.Unchanged s.2 p then
    (s, accepted p)
  else
    match register rt foreign identity r p s.1.shared with
    | (shared, entry, status) => (({ s.1 with shared := shared }, s.2.record entry), status)

/-- The second loop. -/
def visitAll : List ProxySpec -> World × Regs -> (World × Regs) × List ProxyStatus
  | [], s => (s, [])
  | p :: rest, s =>
      match visitAll rest (visit rt foreign identity r p s).1 with
      | (final, statuses) =>
          (final, (visit rt foreign identity r p s).2 :: statuses)

/-- {lit}`applyUpdate`. -/
def applyUpdate (order : List RegEntry) (proxies : List ProxySpec) (w : World)
    (regs : Regs) : (World × Regs) × List ProxyStatus :=
  visitAll rt foreign identity r proxies (sweep r.client proxies order (w, regs))

end Visit

/-!
# What an update is for
-/

/-- The desired proxy of a name: the last one listed. -/
def lastNamed (proxies : List ProxySpec) (name : Text) : Option ProxySpec :=
  proxies.reverse.find? fun p => p.name = name

/-- The server treats the proxies alike. -/
structure SameServed (p q : ProxySpec) : Prop where
  type : p.type = q.type
  remotePort : p.remotePort = q.remotePort
  subdomain : p.subdomain = q.subdomain
  customDomains : p.customDomains = q.customDomains

instance (p q : ProxySpec) : Decidable (SameServed p q) :=
  decidable_of_iff (p.type = q.type ∧ p.remotePort = q.remotePort ∧
      p.subdomain = q.subdomain ∧ p.customDomains = q.customDomains)
    ⟨fun ⟨htype, hport, hsub, hdomains⟩ => ⟨htype, hport, hsub, hdomains⟩,
      fun h => ⟨h.type, h.remotePort, h.subdomain, h.customDomains⟩⟩

/-- The entry's closers close the socket. -/
def Listens (e : RegEntry) (socket : Nat) : Prop := Closer.closeListener socket ∈ e.closers

/-- The reference is the entry's, whose closers drop the host. -/
def Serves (e : RegEntry) (host : Text) (ref : ProxyRef) : Prop :=
  e.spec = ref.spec ∧ exists lowered, Closer.dropHosts lowered ∈ e.closers ∧ host ∈ lowered

/-- What a client holds: every open listener and every host of the client belongs to
one of its entries, and each listener to one only. -/
structure Clean (c : Nat) (w : World) (regs : Regs) : Prop where
  keyed : regs.Keyed
  listeners : forall k, k ∈ w.shared.sockets -> k.client = c ->
    exists e, e ∈ regs ∧ Listens e k.id
  apart : forall e, e ∈ regs -> forall e', e' ∈ regs -> forall socket,
    Listens e socket -> Listens e' socket -> e = e'
  hosts : forall host ref, w.shared.vhosts host = some ref -> ref.client = c ->
    exists e, e ∈ regs ∧ Serves e host ref
  numbered : forall e, e ∈ regs -> forall socket, Listens e socket ->
    socket < w.shared.nextSocket

/-- The entry's listener and connections are as they were. -/
structure Kept (e : RegEntry) (w w' : World) : Prop where
  listener : forall k, k ∈ w.shared.sockets -> Listens e k.id -> k ∈ w'.shared.sockets
  live : forall conn, conn ∈ w.live -> conn.listener ∈ listenersOf e -> conn ∈ w'.live
  running : forall socket, socket ∈ w'.stopped -> socket ∈ listenersOf e ->
    socket ∈ w.stopped

/-- The update has converged and leaks nothing. -/
structure Converged (c : Nat) (proxies : List ProxySpec) (w : World) (regs : Regs)
    (w' : World) (regs' : Regs) (statuses : List ProxyStatus) : Prop where
  names : forall e, e ∈ regs' -> exists p, p ∈ proxies ∧ p.name = e.spec.name
  desired : forall e, e ∈ regs' -> forall p, lastNamed proxies e.spec.name = some p ->
    SameServed e.spec p
  listeners : forall k, k ∈ w'.shared.sockets -> k.client = c ->
    ExistsUnique fun e => e ∈ regs' ∧ Listens e k.id
  hosts : forall host ref, w'.shared.vhosts host = some ref -> ref.client = c ->
    ExistsUnique fun e => e ∈ regs' ∧ Serves e host ref
  statuses : List.Forall₂ (fun p st => st.name = p.name ∧ (st.ok = true ->
    exists e, regs'.get? p.name = some e ∧ SameServed e.spec p)) proxies statuses
  kept : forall e, e ∈ regs -> forall p, lastNamed proxies e.spec.name = some p ->
    SameServed e.spec p -> e ∈ regs' ∧ Kept e w w'

section Orderly

variable (rt : Runtime) (foreign : Kind -> Int -> Bool)
  (identity : Nat -> Option Text) (r : Registrar)

/-- A listed proxy whose name is held is held as it is listed, or it is refused, for
other reasons than its key, and its name is listed again. -/
def Orderly : List ProxySpec -> World × Regs -> Prop
  | [], _ => True
  | p :: rest, s =>
      (forall e, e ∈ s.2.get? p.name -> SameServed e.spec p ∨
        (specKey e.spec ≠ specKey p ∧ ¬ Acceptable rt foreign identity r p s.1.shared ∧
          exists q, q ∈ rest ∧ q.name = p.name)) ∧
      Orderly rest (visit rt foreign identity r p s).1

instance : Decidable (Acceptable rt foreign identity r p s) :=
  inferInstanceAs (Decidable (_ ∧ _ ∧ _ ∧ _))

instance Orderly.decidable :
    forall proxies s, Decidable (Orderly rt foreign identity r proxies s)
  | [], _ => isTrue trivial
  | p :: rest, s =>
      have := Orderly.decidable rest (visit rt foreign identity r p s).1
      inferInstanceAs (Decidable ((forall e, e ∈ s.2.get? p.name -> SameServed e.spec p ∨
        (specKey e.spec ≠ specKey p ∧ ¬ Acceptable rt foreign identity r p s.1.shared ∧
          exists q, q ∈ rest ∧ q.name = p.name)) ∧ _))

end Orderly

/-!
# Closing an entry
-/

theorem mem_listenersOf {e : RegEntry} {socket : Nat} :
    socket ∈ listenersOf e <-> Listens e socket := by
  unfold listenersOf Listens
  rw [List.mem_filterMap]
  constructor
  · rintro ⟨closer, hmem, heq⟩
    split at heq
    · cases heq
      exact hmem
    · cases heq
  · intro hmem
    exact ⟨Closer.closeListener socket, hmem, rfl⟩

section Close

variable {c : Nat} {e : RegEntry}

theorem run_sockets {w : World} {closer : Closer} {k : Socket} :
    k ∈ (w.run c e closer).shared.sockets <->
      k ∈ w.shared.sockets ∧ closer ≠ Closer.closeListener k.id := by
  cases closer with
  | closeListener socket =>
      show k ∈ w.shared.sockets.filter (fun k => k.id ≠ socket) <-> _
      rw [List.mem_filter, decide_eq_true_eq, ne_eq, ne_eq, Closer.closeListener.injEq,
        eq_comm]
  | deleteTcp port => simp [World.run, Closer.run]
  | closeAll => simp [World.run, Closer.run]
  | closeStop => simp [World.run, Closer.run]
  | dropHosts lowered => simp [World.run, Closer.run]

theorem run_vhosts {w : World} {closer : Closer} {host : Text} {ref : ProxyRef}
    (h : (w.run c e closer).shared.vhosts host = some ref) :
    w.shared.vhosts host = some ref ∧ (ref.client = c -> forall lowered,
      closer = Closer.dropHosts lowered -> host ∉ lowered) := by
  have hold : w.shared.vhosts host = some ref := Closer.run_vhosts h
  constructor
  · exact hold
  · intro hclient lowered heq hmem
    subst heq
    simp [World.run, Closer.run, removeHosts, hmem, hold, hclient] at h

theorem Kept.refl (e : RegEntry) (w : World) : Kept e w w :=
  ⟨fun _ hk _ => hk, fun _ hconn _ => hconn, fun _ hstopped _ => hstopped⟩

theorem Kept.trans {w₁ w₂ w₃ : World} (h₁ : Kept e w₁ w₂) (h₂ : Kept e w₂ w₃) :
    Kept e w₁ w₃ where
  listener k hk hlistens := h₂.listener k (h₁.listener k hk hlistens) hlistens
  live conn hconn hmem := h₂.live conn (h₁.live conn hconn hmem) hmem
  running socket hstopped hmem := h₁.running socket (h₂.running socket hstopped hmem) hmem

/-- Closing takes exactly the sockets that the closers name. -/
theorem foldl_run_sockets {closers : List Closer} {w : World} {k : Socket} :
    k ∈ (closers.foldl (World.run c e) w).shared.sockets <->
      k ∈ w.shared.sockets ∧ Closer.closeListener k.id ∉ closers := by
  induction closers generalizing w with
  | nil => simp
  | cons closer rest ih =>
      rw [List.foldl_cons, ih, run_sockets, List.mem_cons, not_or, and_assoc, eq_comm]

theorem foldl_run_vhosts {closers : List Closer} {w : World} {host : Text} {ref : ProxyRef}
    (h : (closers.foldl (World.run c e) w).shared.vhosts host = some ref) :
    w.shared.vhosts host = some ref ∧ (ref.client = c -> forall lowered,
      Closer.dropHosts lowered ∈ closers -> host ∉ lowered) := by
  induction closers generalizing w with
  | nil => exact ⟨h, fun _ _ hmem => by cases hmem⟩
  | cons closer rest ih =>
      rcases ih h with ⟨hnext, hrest⟩
      rcases run_vhosts hnext with ⟨hold, hfirst⟩
      constructor
      · exact hold
      · intro hclient lowered hmem
        rcases List.mem_cons.mp hmem with heq | hmem
        · exact hfirst hclient lowered heq.symm
        · exact hrest hclient lowered hmem

theorem foldl_run_nextSocket {closers : List Closer} {w : World} :
    (closers.foldl (World.run c e) w).shared.nextSocket = w.shared.nextSocket := by
  induction closers generalizing w with
  | nil => rfl
  | cons closer rest ih => exact ih.trans (Closer.run_nextSocket c w.shared closer)

theorem foldl_run_live {closers : List Closer} {w : World} {conn : Conn}
    (h : conn ∈ w.live) (hother : conn.listener ∉ listenersOf e) :
    conn ∈ (closers.foldl (World.run c e) w).live := by
  induction closers generalizing w with
  | nil => exact h
  | cons closer rest ih =>
      apply ih
      unfold World.run
      split
      · exact List.mem_filter.mpr ⟨h, by simpa using hother⟩
      · exact h

theorem foldl_run_stopped {closers : List Closer} {w : World} {socket : Nat}
    (h : socket ∈ (closers.foldl (World.run c e) w).stopped) :
    socket ∈ w.stopped ∨ socket ∈ listenersOf e := by
  induction closers generalizing w with
  | nil => exact Or.inl h
  | cons closer rest ih =>
      rcases ih h with hnext | hmem
      · unfold World.run at hnext
        simp only at hnext
        split at hnext
        · exact List.mem_append.mp hnext
        · exact Or.inl hnext
      · exact Or.inr hmem

/-- Closing an entry leaves the others as they were. -/
theorem kept_closeEntry {w : World} {other : RegEntry}
    (hapart : forall socket, Listens e socket -> ¬ Listens other socket) :
    Kept other w (w.closeEntry c e) := by
  constructor
  · intro k hk hlistens
    exact foldl_run_sockets.mpr ⟨hk, fun hmem => hapart k.id hmem hlistens⟩
  · intro conn hconn hmem
    apply foldl_run_live hconn
    intro hclosed
    exact hapart _ (mem_listenersOf.mp hclosed) (mem_listenersOf.mp hmem)
  · intro socket hstopped hmem
    rcases foldl_run_stopped hstopped with hold | hclosed
    · exact hold
    · exact absurd (mem_listenersOf.mp hmem) (hapart socket (mem_listenersOf.mp hclosed))

theorem Clean.closeEntry {w : World} {regs : Regs} (h : Clean c w regs) (he : e ∈ regs) :
    Clean c (w.closeEntry c e) (regs.delete e.spec.name) := by
  refine ⟨h.keyed.delete _, ?_, ?_, ?_, ?_⟩
  · intro k hk hclient
    rcases foldl_run_sockets.mp hk with ⟨hopen, hnot⟩
    rcases h.listeners k hopen hclient with ⟨owner, howner, hlistens⟩
    refine ⟨owner, h.keyed.mem_delete he howner ?_, hlistens⟩
    intro heq
    subst heq
    exact hnot hlistens
  · intro e₁ he₁ e₂ he₂ socket h₁ h₂
    exact h.apart e₁ (List.mem_filter.mp he₁).left e₂ (List.mem_filter.mp he₂).left
      socket h₁ h₂
  · intro host ref href hclient
    rcases foldl_run_vhosts href with ⟨hold, hnot⟩
    rcases h.hosts host ref hold hclient with ⟨owner, howner, hspec, lowered, hmem, hhost⟩
    refine ⟨owner, h.keyed.mem_delete he howner ?_, hspec, lowered, hmem, hhost⟩
    intro heq
    subst heq
    exact hnot hclient lowered hmem hhost
  · intro other hother socket hlistens
    unfold World.closeEntry
    rw [foldl_run_nextSocket]
    exact h.numbered other (List.mem_filter.mp hother).left socket hlistens

end Close

/-!
# The first loop
-/

section Sweep

variable {c : Nat} {proxies : List ProxySpec}

theorem mem_sweep {order : List RegEntry} {w : World} {regs : Regs} {e : RegEntry} :
    e ∈ (sweep c proxies order (w, regs)).2 <->
      e ∈ regs ∧ forall e', e' ∈ order -> Server.Stale proxies e' ->
        e'.spec.name ≠ e.spec.name := by
  induction order generalizing w regs with
  | nil => simp [sweep]
  | cons first rest ih =>
      simp only [sweep]
      split
      · rename_i hstale
        rw [ih, Regs.delete, List.mem_filter, decide_eq_true_eq]
        simp only [List.mem_cons, forall_eq_or_imp]
        constructor
        · rintro ⟨⟨hmem, hname⟩, hrest⟩
          exact ⟨hmem, fun _ => Ne.symm hname, hrest⟩
        · rintro ⟨hmem, hname, hrest⟩
          exact ⟨⟨hmem, Ne.symm (hname hstale)⟩, hrest⟩
      · rename_i hfresh
        rw [ih]
        simp only [List.mem_cons, forall_eq_or_imp]
        constructor
        · rintro ⟨hmem, hrest⟩
          exact ⟨hmem, fun hstale => absurd hstale hfresh, hrest⟩
        · rintro ⟨hmem, _, hrest⟩
          exact ⟨hmem, hrest⟩

/-- What is closed is stale, and what is not stale is kept. -/
theorem sweep_clean {order : List RegEntry} {w : World} {regs : Regs}
    (h : Clean c w regs) (horder : forall e, e ∈ order -> e ∈ regs)
    (hnodup : Regs.Keyed order) :
    Clean c (sweep c proxies order (w, regs)).1 (sweep c proxies order (w, regs)).2 ∧
      forall e, e ∈ regs -> ¬ Server.Stale proxies e ->
        Kept e w (sweep c proxies order (w, regs)).1 := by
  induction order generalizing w regs with
  | nil => exact ⟨h, fun e _ _ => Kept.refl e w⟩
  | cons first rest ih =>
      have hfirst := horder first List.mem_cons_self
      rcases List.pairwise_cons.mp hnodup with ⟨hapart, hrest⟩
      simp only [sweep]
      split
      · rename_i hstale
        have hnext : forall e, e ∈ rest -> e ∈ regs.delete first.spec.name := by
          intro e he
          refine h.keyed.mem_delete hfirst (horder e (List.mem_cons_of_mem _ he)) ?_
          intro heq
          exact hapart e he (congrArg (fun e => e.spec.name) heq).symm
        have htail := ih (h.closeEntry hfirst) hnext hrest
        refine ⟨htail.left, fun e he hfresh => ?_⟩
        have hne : e ≠ first := by
          intro heq
          exact hfresh (heq ▸ hstale)
        have hclosed : Kept e w (w.closeEntry c first) := by
          apply kept_closeEntry
          intro socket hlistens hother
          exact hne (h.apart e he first hfirst socket hother hlistens)
        exact hclosed.trans (htail.right e (h.keyed.mem_delete hfirst he hne) hfresh)
      · exact ih h (fun e he => horder e (List.mem_cons_of_mem _ he)) hrest

end Sweep

/-!
# The second loop
-/

/-- A listening entry is recorded with the closer of its listener. -/
theorem register_listens {rt : Runtime} {foreign : Kind -> Int -> Bool}
    {identity : Nat -> Option Text} {r : Registrar} {p : ProxySpec} {s : Shared}
    {kind : Kind} {e : RegEntry} (hkind : p.kind? = some kind) (hne : kind ≠ Kind.vhost)
    (h : (register rt foreign identity r p s).2.1 = some e) : Listens e s.nextSocket := by
  unfold register at h
  rw [hkind] at h
  split at h
  · cases h
  · rename_i heq
    cases heq
  · rename_i heq
    cases heq
    unfold Listens
    rw [Removal.acquire_closers hne h]
    cases kind with
    | tcp => simp [Removal.closersOf]
    | udp => simp [Removal.closersOf]
    | vhost => exact absurd rfl hne

section Visit

variable {rt : Runtime} {foreign : Kind -> Int -> Bool}
  {identity : Nat -> Option Text} {r : Registrar}

theorem mem_set_of_free {regs : Regs} {e e' : RegEntry}
    (hfree : regs.get? e.spec.name = none) (he' : e' ∈ regs) : e' ∈ regs.set e := by
  refine List.mem_cons_of_mem _ (List.mem_filter.mpr ⟨he', ?_⟩)
  simpa using List.find?_eq_none.mp hfree e' he'

/-- An entry under a free name, with sockets of its own. -/
theorem Clean.add {c : Nat} {w : World} {regs : Regs} (h : Clean c w regs) {e : RegEntry}
    {shared : Shared} (hfree : regs.get? e.spec.name = none)
    (hsockets : forall k, k ∈ shared.sockets -> k ∈ w.shared.sockets ∨ Listens e k.id)
    (hvhosts : forall host ref, shared.vhosts host = some ref ->
      w.shared.vhosts host = some ref ∨ Serves e host ref)
    (hnew : forall socket, Listens e socket ->
      w.shared.nextSocket ≤ socket ∧ socket < shared.nextSocket)
    (hnext : w.shared.nextSocket ≤ shared.nextSocket) :
    Clean c { w with shared := shared } (regs.set e) := by
  have hold : forall e', e' ∈ regs.set e -> e' = e ∨ e' ∈ regs := by
    intro e' he'
    rcases List.mem_cons.mp he' with heq | hmem
    · exact Or.inl heq
    · exact Or.inr (List.mem_filter.mp hmem).left
  have hdisjoint : forall e', e' ∈ regs -> forall socket, Listens e socket ->
      ¬ Listens e' socket := by
    intro e' he' socket hlistens hother
    have hlt := h.numbered e' he' socket hother
    exact absurd (hnew socket hlistens).left (Nat.not_le.mpr hlt)
  refine ⟨h.keyed.set e, ?_, ?_, ?_, ?_⟩
  · intro k hk hclient
    rcases hsockets k hk with hopen | hlistens
    · rcases h.listeners k hopen hclient with ⟨owner, howner, hlistens⟩
      exact ⟨owner, mem_set_of_free hfree howner, hlistens⟩
    · exact ⟨e, List.mem_cons_self, hlistens⟩
  · intro e₁ he₁ e₂ he₂ socket h₁ h₂
    rcases hold e₁ he₁ with rfl | hmem₁
    · rcases hold e₂ he₂ with rfl | hmem₂
      · rfl
      · exact absurd h₂ (hdisjoint e₂ hmem₂ socket h₁)
    · rcases hold e₂ he₂ with rfl | hmem₂
      · exact absurd h₁ (hdisjoint e₁ hmem₁ socket h₂)
      · exact h.apart e₁ hmem₁ e₂ hmem₂ socket h₁ h₂
  · intro host ref href hclient
    rcases hvhosts host ref href with hvhost | hserves
    · rcases h.hosts host ref hvhost hclient with ⟨owner, howner, hserves⟩
      exact ⟨owner, mem_set_of_free hfree howner, hserves⟩
    · exact ⟨e, List.mem_cons_self, hserves⟩
  · intro e' he' socket hlistens
    rcases hold e' he' with rfl | he'
    · exact (hnew socket hlistens).right
    · exact Nat.lt_of_lt_of_le (h.numbered e' he' socket hlistens) hnext

/-- Registering a proxy whose name is free leaks nothing. -/
theorem Clean.register {c : Nat} {w : World} {regs : Regs} (h : Clean c w regs)
    {p : ProxySpec} (hfree : regs.get? p.name = none) :
    Clean c { w with shared := (Engine.register rt foreign identity r p w.shared).1 }
      (regs.record (Engine.register rt foreign identity r p w.shared).2.1) := by
  have hlistens : forall kind e, p.kind? = some kind -> kind ≠ Kind.vhost ->
      (Engine.register rt foreign identity r p w.shared).2.1 = some e ->
      Listens e w.shared.nextSocket := fun _ _ => register_listens
  have houtcome := register_outcome rt foreign identity r p w.shared
  generalize Engine.register rt foreign identity r p w.shared = result at houtcome hlistens ⊢
  cases houtcome with
  | rejected _ => exact h
  | opened hok hkind hne hvhosts hsockets hnext hclosers =>
      rename_i kind shared closers
      refine h.add hfree ?_ ?_ ?_ ?_
      · intro k hk
        rw [hsockets] at hk
        rcases List.mem_cons.mp hk with rfl | hold
        · exact Or.inr (hlistens kind _ hkind hne rfl)
        · exact Or.inl hold
      · intro host ref href
        rw [hvhosts] at href
        exact Or.inl href
      · intro socket hmem
        rw [hclosers socket hmem, hnext]
        exact ⟨Nat.le_refl _, Nat.lt_succ_self _⟩
      · rw [hnext]
        exact Nat.le_succ _
  | claimed hok hkind =>
      refine h.add hfree (fun k hk => Or.inl hk) ?_ ?_ (Nat.le_refl _)
      · intro host ref href
        simp only [claimHosts] at href
        split at href
        · rename_i hmem
          cases href
          exact Or.inr ⟨rfl, _, List.mem_singleton_self _, hmem⟩
        · exact Or.inl href
      · intro socket hmem
        simp [Listens] at hmem

theorem SameServed.refl (p : ProxySpec) : SameServed p p := ⟨rfl, rfl, rfl, rfl⟩

theorem SameServed.symm {p q : ProxySpec} (h : SameServed p q) : SameServed q p :=
  ⟨h.type.symm, h.remotePort.symm, h.subdomain.symm, h.customDomains.symm⟩

theorem SameServed.specKey {p q : ProxySpec} (h : SameServed p q) :
    Engine.specKey p = Engine.specKey q := by
  unfold Engine.specKey
  rw [h.type, h.remotePort, h.subdomain, h.customDomains]

/-- A turn without the fast path: the proxy is recorded, or nothing changes. -/
theorem visit_register {p : ProxySpec} {s : World × Regs} (h : ¬ Server.Unchanged s.2 p) :
    (Acceptable rt foreign identity r p s.1.shared ∧
        exists e shared, e.spec = p ∧
          register rt foreign identity r p s.1.shared = (shared, some e, accepted p) ∧
          visit rt foreign identity r p s =
            (({ s.1 with shared := shared }, s.2.set e), accepted p)) ∨
      (¬ Acceptable rt foreign identity r p s.1.shared ∧
        exists error, visit rt foreign identity r p s = (s, rejected p error)) := by
  unfold visit
  rw [if_neg h]
  have houtcome := register_outcome rt foreign identity r p s.1.shared
  generalize register rt foreign identity r p s.1.shared = result at houtcome ⊢
  cases houtcome with
  | rejected hnot => exact Or.inr ⟨hnot, _, rfl⟩
  | opened hok => exact Or.inl ⟨hok, _, _, rfl, rfl, rfl⟩
  | claimed hok => exact Or.inl ⟨hok, _, _, rfl, rfl, rfl⟩

/-- A turn that is in order changes nothing, or records a proxy under a free name. -/
theorem visit_orderly {p : ProxySpec} {rest : List ProxySpec} {s : World × Regs}
    (h : Orderly rt foreign identity r (p :: rest) s) :
    (exists st, visit rt foreign identity r p s = (s, st) ∧ st.name = p.name ∧
        (st.ok = true -> exists e, s.2.get? p.name = some e ∧ SameServed e.spec p)) ∨
      (s.2.get? p.name = none ∧ exists e shared, e.spec = p ∧
        register rt foreign identity r p s.1.shared = (shared, some e, accepted p) ∧
        visit rt foreign identity r p s =
          (({ s.1 with shared := shared }, s.2.set e), accepted p)) := by
  by_cases hsame : Server.Unchanged s.2 p
  · apply Or.inl
    rcases hsame with ⟨e, he, hkey⟩
    refine ⟨accepted p, if_pos ⟨e, he, hkey⟩, rfl, fun _ => ⟨e, he, ?_⟩⟩
    rcases h.left e he with hserved | ⟨hother, _⟩
    · exact hserved
    · exact absurd hkey hother
  · rcases visit_register hsame with ⟨hok, hrecorded⟩ | ⟨_, error, hvisit⟩
    · refine Or.inr ⟨?_, hrecorded⟩
      cases hget : s.2.get? p.name with
      | none => rfl
      | some e =>
          rcases h.left e hget with hserved | ⟨_, hnot, _⟩
          · exact absurd ⟨e, hget, hserved.specKey⟩ hsame
          · exact absurd hok hnot
    · exact Or.inl ⟨rejected p error, hvisit, rfl, fun hok => by cases hok⟩

theorem lastNamed_cons (p : ProxySpec) (rest : List ProxySpec) (name : Text) :
    lastNamed (p :: rest) name =
      (lastNamed rest name).or (if p.name = name then some p else none) := by
  unfold lastNamed
  rw [List.reverse_cons, List.find?_append]
  by_cases hname : p.name = name
  · simp [hname]
  · simp [hname]

theorem lastNamed_eq_none {proxies : List ProxySpec} {name : Text} :
    lastNamed proxies name = none <-> forall p, p ∈ proxies -> p.name ≠ name := by
  simp [lastNamed]

/-- What the turns over the rest of the proxies come to, when they are in order. -/
structure Landed (c : Nat) (rest : List ProxySpec) (s final : World × Regs)
    (statuses : List ProxyStatus) : Prop where
  clean : Clean c final.1 final.2
  held : forall e, e ∈ s.2 -> e ∈ final.2 ∧ Kept e s.1 final.1
  desired : forall e, e ∈ final.2 ->
    (e ∈ s.2 ∧ lastNamed rest e.spec.name = none) ∨
      exists p, lastNamed rest e.spec.name = some p ∧ SameServed e.spec p
  statuses : List.Forall₂ (fun p st => st.name = p.name ∧ (st.ok = true ->
    exists e, final.2.get? p.name = some e ∧ SameServed e.spec p)) rest statuses

theorem get?_of_held {regs regs' : Regs} {name : Text} {e : RegEntry}
    (hkeyed : regs'.Keyed) (hheld : forall e, e ∈ regs -> e ∈ regs')
    (h : regs.get? name = some e) : regs'.get? name = some e := by
  rcases Regs.name_of_get? h with ⟨hmem, rfl⟩
  exact hkeyed.get? (hheld e hmem)

theorem landed_of_orderly {c : Nat} {rest : List ProxySpec} {s : World × Regs}
    (hclean : Clean c s.1 s.2) (h : Orderly rt foreign identity r rest s) :
    Landed c rest s (visitAll rt foreign identity r rest s).1
      (visitAll rt foreign identity r rest s).2 := by
  induction rest generalizing s with
  | nil =>
      exact
        { clean := hclean
          held := fun e he => ⟨he, Kept.refl e s.1⟩
          desired := fun e he => Or.inl ⟨he, rfl⟩
          statuses := List.Forall₂.nil }
  | cons p rest ih =>
      simp only [visitAll]
      rcases visit_orderly h with ⟨st, hvisit, hname, hok⟩ |
        ⟨hfree, e, shared, hspec, hregister, hvisit⟩
      · have hnext := h.right
        rw [hvisit] at hnext ⊢
        have htail := ih hclean hnext
        refine ⟨htail.clean, htail.held, ?_, ?_⟩
        · intro e he
          rw [lastNamed_cons]
          rcases htail.desired e he with ⟨hheld, hnone⟩ | ⟨q, hlast, hserved⟩
          · rw [hnone, Option.none_or]
            by_cases hp : p.name = e.spec.name
            · rw [if_pos hp]
              have hget : s.2.get? p.name = some e := hp ▸ hclean.keyed.get? hheld
              rcases h.left e hget with hserved | ⟨_, _, q, hq, hagain⟩
              · exact Or.inr ⟨p, rfl, hserved⟩
              · exact absurd (hagain.trans hp) (lastNamed_eq_none.mp hnone q hq)
            · rw [if_neg hp]
              exact Or.inl ⟨hheld, rfl⟩
          · rw [hlast, Option.some_or]
            exact Or.inr ⟨q, rfl, hserved⟩
        · refine List.Forall₂.cons ⟨hname, fun hst => ?_⟩ htail.statuses
          rcases hok hst with ⟨e, hget, hserved⟩
          exact ⟨e, get?_of_held htail.clean.keyed (fun e he => (htail.held e he).left) hget,
            hserved⟩
      · have hnext := h.right
        have hadded : Clean c
            { s.1 with shared := (register rt foreign identity r p s.1.shared).1 }
            (s.2.record (register rt foreign identity r p s.1.shared).2.1) :=
          hclean.register hfree
        have hopen := (register_numbers rt foreign identity r p s.1.shared).right.left
        rw [hregister] at hadded hopen
        rw [hvisit] at hnext ⊢
        subst hspec
        have htail := ih hadded hnext
        refine ⟨htail.clean, ?_, ?_, ?_⟩
        · intro old hold
          have hlater := htail.held old (mem_set_of_free hfree hold)
          refine ⟨hlater.left, Kept.trans ⟨?_, ?_, ?_⟩ hlater.right⟩
          · exact fun k hk _ => hopen k hk
          · exact fun conn hconn _ => hconn
          · exact fun socket hstopped _ => hstopped
        · intro old hold
          rw [lastNamed_cons]
          rcases htail.desired old hold with ⟨hheld, hnone⟩ | ⟨q, hlast, hserved⟩
          · rw [hnone, Option.none_or]
            rcases List.mem_cons.mp hheld with rfl | hheld
            · rw [if_pos rfl]
              exact Or.inr ⟨old.spec, rfl, SameServed.refl old.spec⟩
            · rcases List.mem_filter.mp hheld with ⟨hmem, hname⟩
              rw [decide_eq_true_eq] at hname
              rw [if_neg (Ne.symm hname)]
              exact Or.inl ⟨hmem, rfl⟩
          · rw [hlast, Option.some_or]
            exact Or.inr ⟨q, rfl, hserved⟩
        · refine List.Forall₂.cons ⟨rfl, fun _ => ⟨e, ?_, SameServed.refl e.spec⟩⟩
            htail.statuses
          exact htail.clean.keyed.get? (htail.held e List.mem_cons_self).left

theorem visit_keyed {p : ProxySpec} {s : World × Regs} (h : s.2.Keyed) :
    (visit rt foreign identity r p s).1.2.Keyed := by
  unfold visit
  split
  · exact h
  · exact h.record _

variable (rt foreign identity r) in
theorem visitAll_keyed (rest : List ProxySpec) {s : World × Regs} (h : s.2.Keyed) :
    (visitAll rt foreign identity r rest s).1.2.Keyed := by
  induction rest generalizing s with
  | nil => exact h
  | cons p rest ih => exact ih (visit_keyed h)

/-- What is held in the end under the name of a changed proxy was not held before. -/
theorem free_of_outcome {before after : Regs} {p : ProxySpec}
    (hheld : forall e, e ∈ before -> forall f, f ∈ after -> f.spec.name = e.spec.name ->
      specKey f.spec = specKey e.spec)
    (hserved : exists f, after.get? p.name = some f ∧ SameServed f.spec p)
    (hchanged : ¬ Server.Unchanged before p) : before.get? p.name = none := by
  rcases hserved with ⟨f, hf, hsame⟩
  rcases Regs.name_of_get? hf with ⟨hfmem, hfname⟩
  cases hget : before.get? p.name with
  | none => rfl
  | some old =>
      rcases Regs.name_of_get? hget with ⟨hmem, hname⟩
      have hkey := hheld old hmem f hfmem (hfname.trans hname.symm)
      exact absurd ⟨old, hget, hkey.symm.trans hsame.specKey⟩ hchanged

/-- Turns whose outcome is right were in order, and kept every entry. -/
theorem orderly_of_outcome {rest : List ProxySpec} {s final : World × Regs}
    {statuses : List ProxyStatus} (hkeyed : s.2.Keyed)
    (hfinal : visitAll rt foreign identity r rest s = (final, statuses))
    (hheld : forall e, e ∈ s.2 -> forall f, f ∈ final.2 -> f.spec.name = e.spec.name ->
      specKey f.spec = specKey e.spec)
    (hdesired : forall f, f ∈ final.2 -> forall q, lastNamed rest f.spec.name = some q ->
      SameServed f.spec q)
    (hstatuses : List.Forall₂ (fun p st => st.name = p.name ∧ (st.ok = true ->
      exists e, final.2.get? p.name = some e ∧ SameServed e.spec p)) rest statuses) :
    Orderly rt foreign identity r rest s ∧ forall e, e ∈ s.2 -> e ∈ final.2 := by
  induction rest generalizing s statuses with
  | nil =>
      cases hfinal
      exact ⟨trivial, fun e he => he⟩
  | cons p rest ih =>
      have hfinalKeyed := visitAll_keyed rt foreign identity r (p :: rest) hkeyed
      rw [hfinal] at hfinalKeyed
      simp only [visitAll] at hfinal
      rcases htail : visitAll rt foreign identity r rest
        (visit rt foreign identity r p s).1 with ⟨reached, statuses'⟩
      rw [htail] at hfinal
      cases hfinal
      cases hstatuses with
      | cons hp hrest =>
          have hdesired' : forall f, f ∈ reached.2 -> forall q,
              lastNamed rest f.spec.name = some q -> SameServed f.spec q := by
            intro f hf q hq
            apply hdesired f hf q
            rw [lastNamed_cons, hq, Option.some_or]
          -- a proxy that was accepted is what is held in the end
          have hkey : (visit rt foreign identity r p s).2.ok = true -> forall f, f ∈ reached.2 ->
              f.spec.name = p.name -> specKey f.spec = specKey p := by
            intro hok f hf hname
            rcases hp.right hok with ⟨e, hget, hserved⟩
            rw [← hname, hfinalKeyed.get? hf] at hget
            cases hget
            exact hserved.specKey
          have hheldByName : forall e, s.2.get? p.name = some e -> e ∈ s.2 ∧ e.spec.name = p.name :=
            fun _ => Regs.name_of_get?
          by_cases hsame : Server.Unchanged s.2 p
          · have hvisit : visit rt foreign identity r p s = (s, accepted p) := if_pos hsame
            rw [hvisit] at htail hp
            rcases ih hkeyed htail hheld hdesired' hrest with ⟨horderly, hstays⟩
            refine ⟨⟨fun e he => Or.inl ?_, by rwa [hvisit]⟩, hstays⟩
            rcases hp.right rfl with ⟨f, hget, hserved⟩
            rcases hheldByName e he with ⟨hmem, hname⟩
            rw [← hname, hfinalKeyed.get? (hstays e hmem)] at hget
            cases hget
            exact hserved
          · rcases visit_register hsame with
              ⟨_, e, shared, hspec, _, hvisit⟩ | ⟨hnot, error, hvisit⟩
            · rw [hvisit] at htail hp hkey
              have hfree := free_of_outcome hheld (hp.right rfl) hsame
              have hnext : forall e', e' ∈ s.2.set e -> forall f, f ∈ reached.2 ->
                  f.spec.name = e'.spec.name -> specKey f.spec = specKey e'.spec := by
                intro e' he' f hf hname
                rcases List.mem_cons.mp he' with rfl | he'
                · rw [hspec] at hname ⊢
                  exact hkey rfl f hf hname
                · exact hheld e' (List.mem_filter.mp he').left f hf hname
              rcases ih (hkeyed.set e) htail hnext hdesired' hrest with ⟨horderly, hstays⟩
              refine ⟨⟨fun old hold => ?_, by rwa [hvisit]⟩, fun old hold => ?_⟩
              · rw [hfree] at hold
                cases hold
              · exact hstays old (mem_set_of_free (hspec ▸ hfree) hold)
            · rw [hvisit] at htail
              rcases ih hkeyed htail hheld hdesired' hrest with ⟨horderly, hstays⟩
              refine ⟨⟨fun e he => Or.inr ⟨?_, hnot, ?_⟩, by rwa [hvisit]⟩, hstays⟩
              · exact fun heq => hsame ⟨e, he, heq⟩
              · by_contra hagain
                rcases hheldByName e he with ⟨hmem, hname⟩
                have hnone : lastNamed rest p.name = none :=
                  lastNamed_eq_none.mpr fun q hq hqname => hagain ⟨q, hq, hqname⟩
                have hserved := hdesired e (hstays e hmem) p (by
                  rw [hname, lastNamed_cons, hnone, Option.none_or, if_pos rfl])
                exact hsame ⟨e, he, hserved.specKey⟩

end Visit

/-!
# Both loops
-/

section Apply

variable {rt : Runtime} {foreign : Kind -> Int -> Bool}
  {identity : Nat -> Option Text} {r : Registrar} {order : List RegEntry}
  {proxies : List ProxySpec} {w : World} {regs : Regs}

theorem not_stale_iff {e : RegEntry} :
    ¬ Server.Stale proxies e <->
      exists p, lastNamed proxies e.spec.name = some p ∧ specKey p = specKey e.spec := by
  unfold Server.Stale lastNamed
  simp only [not_forall, not_not, exists_prop]

/-- The entries the first loop leaves are those that are not stale. -/
theorem mem_swept (hclean : Clean r.client w regs) (hperm : order.Perm regs) {e : RegEntry} :
    e ∈ (sweep r.client proxies order (w, regs)).2 <->
      e ∈ regs ∧ ¬ Server.Stale proxies e := by
  rw [mem_sweep]
  constructor
  · intro h
    refine ⟨h.left, fun hstale => ?_⟩
    exact h.right e (hperm.mem_iff.mpr h.left) hstale rfl
  · intro h
    refine ⟨h.left, fun e' he' hstale hname => h.right ?_⟩
    have hget := hclean.keyed.get? (hperm.mem_iff.mp he')
    rw [hname, hclean.keyed.get? h.left] at hget
    cases hget
    exact hstale

theorem Clean.swept (hclean : Clean r.client w regs) (hperm : order.Perm regs) :
    Clean r.client (sweep r.client proxies order (w, regs)).1
        (sweep r.client proxies order (w, regs)).2 ∧
      forall e, e ∈ regs -> ¬ Server.Stale proxies e ->
        Kept e w (sweep r.client proxies order (w, regs)).1 := by
  have hkeyed : Regs.Keyed order := hclean.keyed.perm hperm.symm fun {_ _} hne => Ne.symm hne
  exact sweep_clean hclean (fun e he => hperm.mem_iff.mp he) hkeyed

theorem Converged.orderly (hclean : Clean r.client w regs) (hperm : order.Perm regs)
    {final : World × Regs} {statuses : List ProxyStatus}
    (hfinal : applyUpdate rt foreign identity r order proxies w regs = (final, statuses))
    (h : Converged r.client proxies w regs final.1 final.2 statuses) :
    Orderly rt foreign identity r proxies (sweep r.client proxies order (w, regs)) := by
  refine (orderly_of_outcome (hclean.swept hperm).left.keyed hfinal ?_ h.desired
    h.statuses).left
  intro e he f hf hname
  rcases not_stale_iff.mp ((mem_swept hclean hperm).mp he).right with ⟨p, hlast, hkey⟩
  exact (h.desired f hf p (hname ▸ hlast)).specKey.trans hkey

theorem Landed.converged (hclean : Clean r.client w regs) (hperm : order.Perm regs)
    {final : World × Regs} {statuses : List ProxyStatus}
    (h : Landed r.client proxies (sweep r.client proxies order (w, regs)) final statuses) :
    Converged r.client proxies w regs final.1 final.2 statuses := by
  have hdesired : forall e, e ∈ final.2 ->
      exists p, lastNamed proxies e.spec.name = some p ∧ SameServed e.spec p := by
    intro e he
    rcases h.desired e he with ⟨hheld, hnone⟩ | hsome
    · rcases not_stale_iff.mp ((mem_swept hclean hperm).mp hheld).right with ⟨p, hlast, _⟩
      rw [hnone] at hlast
      cases hlast
    · exact hsome
  constructor
  · intro e he
    rcases hdesired e he with ⟨p, hlast, _⟩
    have hname := List.find?_some hlast
    exact ⟨p, List.mem_reverse.mp (List.mem_of_find?_eq_some hlast), by simpa using hname⟩
  · intro e he p hp
    rcases hdesired e he with ⟨q, hlast, hserved⟩
    rw [hlast] at hp
    cases hp
    exact hserved
  · intro k hk hclient
    rcases h.clean.listeners k hk hclient with ⟨e, he, hlistens⟩
    refine ⟨e, ⟨he, hlistens⟩, fun e' he' => ?_⟩
    exact h.clean.apart e' he'.left e he k.id he'.right hlistens
  · intro host ref href hclient
    rcases h.clean.hosts host ref href hclient with ⟨e, he, hserves⟩
    refine ⟨e, ⟨he, hserves⟩, fun e' he' => ?_⟩
    have hget := h.clean.keyed.get? he'.left
    rw [he'.right.left, ← hserves.left, h.clean.keyed.get? he] at hget
    exact (Option.some.inj hget).symm
  · exact h.statuses
  · intro e he p hlast hserved
    have hfresh : ¬ Server.Stale proxies e :=
      not_stale_iff.mpr ⟨p, hlast, hserved.specKey.symm⟩
    have hswept := (hclean.swept hperm).right e he hfresh
    rcases h.held e ((mem_swept hclean hperm).mpr ⟨he, hfresh⟩) with ⟨hmem, hkept⟩
    exact ⟨hmem, hswept.trans hkept⟩

/--
Applying a list of proxies to what a client holds converges and leaks nothing exactly
when its second loop goes in order.
-/
theorem converged_iff_orderly (hclean : Clean r.client w regs) (hperm : order.Perm regs)
    {final : World × Regs} {statuses : List ProxyStatus}
    (hfinal : applyUpdate rt foreign identity r order proxies w regs = (final, statuses)) :
    Converged r.client proxies w regs final.1 final.2 statuses <->
      Orderly rt foreign identity r proxies (sweep r.client proxies order (w, regs)) := by
  constructor
  · exact Converged.orderly hclean hperm hfinal
  · intro h
    have hlanded := landed_of_orderly (hclean.swept hperm).left h
    unfold applyUpdate at hfinal
    rw [hfinal] at hlanded
    exact hlanded.converged hclean hperm

/-- A client that holds nothing yet. -/
theorem clean_new {c : Nat} (hsockets : forall k, k ∈ w.shared.sockets -> k.client ≠ c)
    (hhosts : forall host, ¬ w.shared.HeldBy host c) : Clean c w [] where
  keyed := List.Pairwise.nil
  listeners k hk hclient := absurd hclient (hsockets k hk)
  apart e he := by cases he
  hosts host ref href hclient := absurd ⟨ref, href, hclient⟩ (hhosts host)
  numbered e he := by cases he

/-- After updates in order, the next one starts from what it requires. -/
theorem clean_of_orderly (hclean : Clean r.client w regs) (hperm : order.Perm regs)
    (h : Orderly rt foreign identity r proxies (sweep r.client proxies order (w, regs))) :
    Clean r.client (applyUpdate rt foreign identity r order proxies w regs).1.1
      (applyUpdate rt foreign identity r order proxies w regs).1.2 :=
  (landed_of_orderly (hclean.swept hperm).left h).clean

end Apply

/-!
# The handler's steps

Undisturbed, the steps of the handler between an accepted message and its answer do
what {lit}`applyUpdate` does.
-/

section Handler

variable {cfg : Server.Config} {rt : Runtime} {foreign : Kind -> Int -> Bool}
  {s : Server.State} {c : Nat} {cl : Server.Client}

/-- The state while the handler of the client is at a task. -/
def during (s : Server.State) (c : Nat) (cl : Server.Client) (task : Server.Task)
    (regs : Regs) (shared : Shared) : Server.State :=
  { s.setClient c { cl with regs := regs, task := task } with shared := shared }

section Steps

variable {task : Server.Task} {regs : Regs} {shared : Shared}

theorem during_setClient (task' : Server.Task) (regs' : Regs) :
    (during s c cl task regs shared).setClient c { cl with regs := regs', task := task' } =
      during s c cl task' regs' shared := by
  unfold during Server.State.setClient
  simp

theorem during_identity (hcl : s.clients c = some cl) :
    (during s c cl task regs shared).identity = s.identity := by
  funext c'
  unfold Server.State.identity during Server.State.setClient
  by_cases hc : c' = c
  · subst hc
    simp [hcl]
  · simp [Function.update_of_ne hc]

theorem step_during (a : Server.HandlerAction) :
    (Server.machine cfg rt foreign).step (during s c cl task regs shared)
        (Server.Action.handler c a) =
      Server.handlerStep cfg rt foreign (during s c cl task regs shared) c
        { cl with regs := regs, task := task } task a := by
  simp only [Server.machine, Server.step, during, Server.State.setClient, Function.update_self]

end Steps

def closings (c : Nat) (closers : List Closer) : List Server.Action :=
  List.replicate (closers.length + 1) (Server.Action.handler c Server.HandlerAction.close)

theorem exec_closings {proxies : List ProxySpec} {name : Text} {closers : List Closer}
    {regs : Regs} {shared : Shared} :
    (Server.machine cfg rt foreign).exec
        (during s c cl (Server.Task.closing proxies name closers) regs shared)
        (closings c closers) =
      some (during s c cl (Server.Task.sweep proxies) (regs.delete name)
        (closers.foldl (Closer.run c) shared)) := by
  induction closers generalizing shared with
  | nil =>
      have hstep : (Server.machine cfg rt foreign).step
          (during s c cl (Server.Task.closing proxies name []) regs shared)
          (Server.Action.handler c Server.HandlerAction.close) =
        some (during s c cl (Server.Task.sweep proxies) (regs.delete name) shared) :=
        (step_during _).trans (congrArg some (during_setClient _ _))
      exact Machine.exec_cons_of_step _ [] hstep
  | cons closer rest ih =>
      have hstep : (Server.machine cfg rt foreign).step
          (during s c cl (Server.Task.closing proxies name (closer :: rest)) regs shared)
          (Server.Action.handler c Server.HandlerAction.close) =
        some (during s c cl (Server.Task.closing proxies name rest) regs
          (closer.run c shared)) := by
        refine (step_during _).trans (congrArg some ?_)
        rw [during_setClient]
        rfl
      exact (Machine.exec_cons_of_step _ _ hstep).trans ih

theorem closeEntry_shared (w : World) (e : RegEntry) :
    (w.closeEntry c e).shared = e.closers.foldl (Closer.run c) w.shared := by
  have hfold : forall closers : List Closer, forall w : World,
      (closers.foldl (World.run c e) w).shared = closers.foldl (Closer.run c) w.shared := by
    intro closers
    induction closers with
    | nil => exact fun _ => rfl
    | cons closer rest ih => exact fun w => ih (w.run c e closer)
  exact hfold e.closers w

/-- The handler's steps in the first loop. -/
def sweeps (c : Nat) (proxies : List ProxySpec) : List RegEntry -> List Server.Action
  | [] => []
  | e :: rest =>
      if Server.Stale proxies e then
        Server.Action.handler c (Server.HandlerAction.sweep e.spec.name) ::
          closings c e.closers ++ sweeps c proxies rest
      else
        sweeps c proxies rest

theorem exec_sweeps {proxies : List ProxySpec} {order : List RegEntry} {w : World}
    {regs : Regs} (hkeyed : regs.Keyed) (horder : forall e, e ∈ order -> e ∈ regs)
    (hnodup : Regs.Keyed order) :
    (Server.machine cfg rt foreign).exec
        (during s c cl (Server.Task.sweep proxies) regs w.shared)
        (sweeps c proxies order) =
      some (during s c cl (Server.Task.sweep proxies)
        (sweep c proxies order (w, regs)).2 (sweep c proxies order (w, regs)).1.shared) := by
  induction order generalizing w regs with
  | nil => rfl
  | cons e rest ih =>
      have he := horder e List.mem_cons_self
      rcases List.pairwise_cons.mp hnodup with ⟨hapart, hrest⟩
      simp only [sweeps, sweep]
      split
      · rename_i hstale
        have hstep : (Server.machine cfg rt foreign).step
            (during s c cl (Server.Task.sweep proxies) regs w.shared)
            (Server.Action.handler c (Server.HandlerAction.sweep e.spec.name)) =
          some (during s c cl (Server.Task.closing proxies e.spec.name e.closers) regs
            w.shared) := by
          refine (step_during _).trans ?_
          simp only [Server.handlerStep, hkeyed.get? he, if_pos hstale, during_setClient]
        have hnext : forall e', e' ∈ rest -> e' ∈ regs.delete e.spec.name := by
          intro e' he'
          refine hkeyed.mem_delete he (horder e' (List.mem_cons_of_mem _ he')) ?_
          intro heq
          exact hapart e' he' (congrArg (fun e => e.spec.name) heq).symm
        have htail := ih (w := w.closeEntry c e) (hkeyed.delete e.spec.name) hnext hrest
        rw [closeEntry_shared] at htail
        refine (Machine.exec_cons_of_step _ _ hstep).trans ?_
        exact Machine.exec_append _ exec_closings htail
      · exact ih hkeyed (fun e' he' => horder e' (List.mem_cons_of_mem _ he')) hrest

theorem exec_visits (hcl : s.clients c = some cl) {rest : List ProxySpec}
    {statuses : List ProxyStatus} {w : World} {regs : Regs} :
    (Server.machine cfg rt foreign).exec
        (during s c cl (Server.Task.apply rest statuses) regs w.shared)
        (rest.map fun _ => Server.Action.handler c Server.HandlerAction.register) =
      some (during s c cl
        (Server.Task.apply [] (statuses ++
          (visitAll rt foreign s.identity (cl.registrar c) rest (w, regs)).2))
        (visitAll rt foreign s.identity (cl.registrar c) rest (w, regs)).1.2
        (visitAll rt foreign s.identity (cl.registrar c) rest (w, regs)).1.1.shared) := by
  induction rest generalizing statuses w regs with
  | nil => simp [visitAll]
  | cons p rest ih =>
      let result := visit rt foreign s.identity (cl.registrar c) p (w, regs)
      have hstep : (Server.machine cfg rt foreign).step
          (during s c cl (Server.Task.apply (p :: rest) statuses) regs w.shared)
          (Server.Action.handler c Server.HandlerAction.register) =
        some (during s c cl (Server.Task.apply rest (statuses ++ [result.2])) result.1.2
          result.1.1.shared) := by
        refine (step_during _).trans ?_
        simp only [Server.handlerStep, during_identity hcl, result, visit]
        split
        · rw [during_setClient]
        · rw [during_setClient]
          rfl
      refine (Machine.exec_cons_of_step _ _ hstep).trans (ih.trans ?_)
      simp only [visitAll, List.append_assoc, List.singleton_append, result]

/-- The handler's steps from an accepted message to its answer. -/
def handlerSteps (c : Nat) (proxies : List ProxySpec) (order : List RegEntry) :
    List Server.Action :=
  sweeps c proxies order ++
    (Server.Action.handler c Server.HandlerAction.sweepDone ::
      proxies.map fun _ => Server.Action.handler c Server.HandlerAction.register) ++
    [Server.Action.handler c Server.HandlerAction.applied]

theorem exec_handlerSteps (hcl : s.clients c = some cl) {proxies : List ProxySpec}
    (htask : cl.task = Server.Task.sweep proxies) {order : List RegEntry} {w : World}
    (hclean : Clean c w cl.regs) (hperm : order.Perm cl.regs) (hw : w.shared = s.shared)
    {final : World × Regs} {statuses : List ProxyStatus}
    (hfinal : applyUpdate rt foreign s.identity (cl.registrar c) order proxies w cl.regs =
      (final, statuses)) :
    (Server.machine cfg rt foreign).exec s (handlerSteps c proxies order) =
      some (during s c cl (Server.Task.reply statuses) final.2 final.1.shared) := by
  let swept := sweep c proxies order (w, cl.regs)
  have hstart : s = during s c cl (Server.Task.sweep proxies) cl.regs w.shared := by
    rw [← htask, hw]
    unfold during Server.State.setClient
    rw [← hcl, Function.update_eq_self]
  have hkeyed : Regs.Keyed order := hclean.keyed.perm hperm.symm fun {_ _} hne => Ne.symm hne
  have hsweeps : (Server.machine cfg rt foreign).exec s (sweeps c proxies order) =
      some (during s c cl (Server.Task.sweep proxies) swept.2 swept.1.shared) := by
    conv =>
      lhs
      rw [hstart]
    exact exec_sweeps hclean.keyed (fun e he => hperm.mem_iff.mp he) hkeyed
  have hdone : (Server.machine cfg rt foreign).step
      (during s c cl (Server.Task.sweep proxies) swept.2 swept.1.shared)
      (Server.Action.handler c Server.HandlerAction.sweepDone) =
    some (during s c cl (Server.Task.apply proxies []) swept.2 swept.1.shared) := by
    have hfresh : forall e, e ∈ swept.2 -> ¬ Server.Stale proxies e := by
      intro e he
      exact ((mem_swept (r := cl.registrar c) hclean hperm).mp he).right
    refine (step_during _).trans ?_
    simp only [Server.handlerStep]
    rw [if_pos hfresh, during_setClient]
  have hvisits : (Server.machine cfg rt foreign).exec
      (during s c cl (Server.Task.apply proxies []) swept.2 swept.1.shared)
      (proxies.map fun _ => Server.Action.handler c Server.HandlerAction.register) =
    some (during s c cl (Server.Task.apply [] statuses) final.2 final.1.shared) := by
    refine (exec_visits hcl).trans ?_
    have hall : visitAll rt foreign s.identity (cl.registrar c) proxies (swept.1, swept.2) =
        (final, statuses) := hfinal
    rw [hall, List.nil_append]
  have happlied : (Server.machine cfg rt foreign).step
      (during s c cl (Server.Task.apply [] statuses) final.2 final.1.shared)
      (Server.Action.handler c Server.HandlerAction.applied) =
    some (during s c cl (Server.Task.reply statuses) final.2 final.1.shared) :=
    (step_during _).trans (congrArg some (during_setClient _ _))
  have hloops := Machine.exec_append _ hsweeps
    ((Machine.exec_cons_of_step _ _ hdone).trans hvisits)
  exact Machine.exec_append _ hloops (Machine.exec_cons_of_step _ [] happlied)

end Handler

/-!
# Two updates

The first client of a server registers proxies of three names, and later others; or
two proxies of one name.
-/

def errors : Runtime where
  hmac _ _ := []
  unicodeLower c := c
  listenError := "bind: address already in use".toList

def tunnel (name type : String) (port : Int) (domains : List String) : ProxySpec where
  name := name.toList
  type := type.toList
  localAddr := "127.0.0.1:80".toList
  remotePort := port
  subdomain := []
  customDomains := domains.map String.toList

def agent : Registrar := ⟨0, "agent.7".toList, none, ⟨[], 0⟩⟩

def onlyAgent : Nat -> Option Text := fun c => if c = 0 then some "agent.7".toList else none

def idle : World := ⟨Server.initial.shared, [], []⟩

theorem clean_idle : Clean 0 idle [] := by
  apply clean_new
  · intro k hk
    cases hk
  · intro host hheld
    rcases hheld with ⟨ref, href, _⟩
    cases href

def applyTo (order : List RegEntry) (proxies : List ProxySpec) (s : World × Regs) :
    (World × Regs) × List ProxyStatus :=
  applyUpdate errors (fun _ _ => false) onlyAgent agent order proxies s.1 s.2

def firstList : List ProxySpec :=
  [tunnel "t1" "tcp" 2222 [], tunnel "t2" "udp" 53 [], tunnel "web" "http" 0 ["a.example"]]

def afterFirst : World × Regs := (applyTo [] firstList (idle, [])).1

/-- One proxy stays, one moves to another port, one goes and one comes. -/
def secondList : List ProxySpec :=
  [tunnel "db" "tcp" 5432 [], tunnel "t1" "tcp" 2222 [], tunnel "t2" "udp" 5353 []]

theorem converged_secondList :
    Converged 0 secondList afterFirst.1 afterFirst.2
      (applyTo afterFirst.2 secondList afterFirst).1.1
      (applyTo afterFirst.2 secondList afterFirst).1.2
      (applyTo afterFirst.2 secondList afterFirst).2 := by
  have hfirst : Orderly errors (fun _ _ => false) onlyAgent agent firstList
      (sweep 0 firstList [] (idle, [])) := by decide +kernel
  have hsecond : Orderly errors (fun _ _ => false) onlyAgent agent secondList
      (sweep 0 secondList afterFirst.2 afterFirst) := by decide +kernel
  have hclean : Clean 0 afterFirst.1 afterFirst.2 :=
    clean_of_orderly (r := agent) clean_idle (List.Perm.refl []) hfirst
  exact (converged_iff_orderly (r := agent) hclean (List.Perm.refl _) rfl).mpr hsecond

/-- The first proxy of the name is registered and answered, then the second. -/
def sameName : List ProxySpec := [tunnel "t1" "tcp" 2222 [], tunnel "t1" "tcp" 3333 []]

theorem leaked_sameName :
    Clean 0 idle [] ∧ ¬ Converged 0 sameName idle [] (applyTo [] sameName (idle, [])).1.1
      (applyTo [] sameName (idle, [])).1.2 (applyTo [] sameName (idle, [])).2 := by
  refine ⟨clean_idle, fun h => ?_⟩
  -- the first listener is open, and belongs to no entry
  have hopen : (applyTo [] sameName (idle, [])).1.1.shared.sockets.any
      (fun k => k.id = 0 ∧ k.client = 0) = true := by decide +kernel
  have hnone : (applyTo [] sameName (idle, [])).1.2.all
      (fun e => Closer.closeListener 0 ∉ e.closers) = true := by decide +kernel
  rcases List.any_eq_true.mp hopen with ⟨k, hk, hsocket⟩
  rw [decide_eq_true_eq] at hsocket
  rcases h.listeners k hk hsocket.right with ⟨e, ⟨he, hlistens⟩, _⟩
  have hnot := List.all_eq_true.mp hnone e he
  rw [decide_eq_true_eq] at hnot
  exact hnot (hsocket.left ▸ hlistens)

end Update

end Engine
end RcTunnel
