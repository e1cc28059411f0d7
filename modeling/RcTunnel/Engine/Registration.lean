import RcTunnel.Engine.Grant

/-!
# Registering and removing proxies

A client's proxies live in three places: the sockets it listens on, the tables
of the server, and the client's own registrations with the closers that undo
them.  This module translates what registering one proxy and running one closer
do to them.
-/

namespace RcTunnel
namespace Engine

/-- The types {lit}`register` knows; {lit}`http` and {lit}`https` are one. -/
inductive Kind where
  | tcp
  | udp
  | vhost
deriving DecidableEq, Repr

def ProxySpec.kind? (p : ProxySpec) : Option Kind :=
  if p.type = "tcp".toList then
    some Kind.tcp
  else if p.type = "udp".toList then
    some Kind.udp
  else if p.type = "http".toList ∨ p.type = "https".toList then
    some Kind.vhost
  else
    none

/-- The custom domains and the subdomain, in the order they are checked. -/
def ProxySpec.hosts (p : ProxySpec) : List Text :=
  p.customDomains ++ (if p.subdomain = [] then [] else [p.subdomain])

/-- {lit}`specKey`. -/
def specKey (p : ProxySpec) : Text :=
  p.type ++ ['|'] ++ itoa p.remotePort ++ ['|'] ++ p.subdomain ++ ['|'] ++
    ('[' :: List.intercalate [' '] p.customDomains ++ [']'])

/-- The length of a text in bytes. -/
def byteLength (t : Text) : Nat := t.foldl (fun n c => n + c.utf8Size) 0

/-- The message a client's registrations were made under. -/
structure Admission where
  grant : Text
  now : Int
deriving DecidableEq, Repr

structure ProxyRef where
  client : Nat
  spec : ProxySpec
  /-- history: the message it was registered under -/
  under : Admission
deriving DecidableEq, Repr

/-- An open public socket. -/
structure Socket where
  id : Nat
  kind : Kind
  port : Int
  client : Nat
  name : Text
  /-- history: the message it was opened under -/
  under : Admission
deriving DecidableEq, Repr

/-- What the clients of one server share. -/
structure Shared where
  vhosts : Text -> Option ProxyRef
  tcp : Int -> Option ProxyRef
  sockets : List Socket
  nextSocket : Nat

inductive Closer where
  /-- {lit}`ln.Close` or {lit}`uc.Close` -/
  | closeListener (socket : Nat)
  | deleteTcp (port : Int)
  /-- {lit}`closeAll`: drops the entry's active connections -/
  | closeAll
  /-- stops {lit}`udpServe` -/
  | closeStop
  | dropHosts (lowered : List Text)
deriving DecidableEq, Repr

structure RegEntry where
  spec : ProxySpec
  closers : List Closer
deriving DecidableEq, Repr

/-- A client's registrations, at most one for each name. -/
abbrev Regs := List RegEntry

def Regs.get? (regs : Regs) (name : Text) : Option RegEntry :=
  regs.find? fun e => e.spec.name = name

def Regs.delete (regs : Regs) (name : Text) : Regs :=
  regs.filter fun e => e.spec.name ≠ name

def Regs.set (regs : Regs) (e : RegEntry) : Regs :=
  e :: regs.delete e.spec.name

theorem Regs.get?_set (regs : Regs) (e : RegEntry) (name : Text) :
    (regs.set e).get? name = if name = e.spec.name then some e else regs.get? name := by
  unfold Regs.set Regs.get? Regs.delete
  by_cases hname : name = e.spec.name
  · simp [hname]
  · rw [if_neg hname, List.find?_cons_of_neg (by simpa using Ne.symm hname),
      List.find?_filter]
    congr 1
    funext e'
    by_cases he' : e'.spec.name = name
    · simp [he', hname]
    · simp [he']

theorem Regs.name_of_get? {regs : Regs} {name : Text} {e : RegEntry}
    (h : regs.get? name = some e) : e ∈ regs ∧ e.spec.name = name :=
  ⟨List.mem_of_find?_eq_some h, by simpa using List.find?_some h⟩

/-- No two entries have one name. -/
def Regs.Keyed (regs : Regs) : Prop := regs.Pairwise fun e e' => e.spec.name ≠ e'.spec.name

theorem Regs.Keyed.get? {regs : Regs} (h : regs.Keyed) {e : RegEntry} (he : e ∈ regs) :
    regs.get? e.spec.name = some e := by
  induction h with
  | nil => cases he
  | cons hfirst _ ih =>
      rcases List.mem_cons.mp he with rfl | hrest
      · exact List.find?_cons_of_pos (by simp)
      · have hne := hfirst e hrest
        exact (List.find?_cons_of_neg (by simpa using hne)).trans (ih hrest)

theorem Regs.Keyed.delete {regs : Regs} (h : regs.Keyed) (name : Text) :
    (regs.delete name).Keyed :=
  h.filter _

theorem Regs.Keyed.mem_delete {regs : Regs} (h : regs.Keyed) {e e' : RegEntry}
    (he : e ∈ regs) (he' : e' ∈ regs) (hne : e' ≠ e) : e' ∈ regs.delete e.spec.name := by
  refine List.mem_filter.mpr ⟨he', ?_⟩
  rw [decide_eq_true_eq]
  intro hname
  have hget := h.get? he'
  rw [hname, h.get? he] at hget
  exact hne (Option.some.inj hget).symm

theorem Regs.Keyed.set {regs : Regs} (h : regs.Keyed) (e : RegEntry) : (regs.set e).Keyed := by
  constructor
  · intro e' he'
    have hne := (List.mem_filter.mp he').right
    exact fun heq => by simp [heq] at hne
  · exact h.delete e.spec.name

/-- {lit}`c.regs` once {lit}`register` has returned. -/
def Regs.record (regs : Regs) : Option RegEntry -> Regs
  | none => regs
  | some e => regs.set e

theorem Regs.Keyed.record {regs : Regs} (h : regs.Keyed) (entry : Option RegEntry) :
    (regs.record entry).Keyed := by
  cases entry with
  | none => exact h
  | some e => exact h.set e

theorem Regs.mem_record {regs : Regs} {entry : Option RegEntry} {e : RegEntry}
    (h : e ∈ regs.record entry) : entry = some e ∨ e ∈ regs := by
  cases entry with
  | none => exact Or.inr h
  | some new =>
      rcases List.mem_cons.mp h with rfl | hold
      · exact Or.inl rfl
      · exact Or.inr (List.mem_filter.mp hold).left

theorem Regs.names_record {regs : Regs} {entry : Option RegEntry} {name : Text}
    (h : exists e, e ∈ regs ∧ e.spec.name = name) :
    exists e, e ∈ regs.record entry ∧ e.spec.name = name := by
  cases entry with
  | none => exact h
  | some new =>
      rcases h with ⟨e, he, rfl⟩
      by_cases hname : e.spec.name = new.spec.name
      · exact ⟨new, List.mem_cons_self, hname.symm⟩
      · exact ⟨e, List.mem_cons_of_mem _ (List.mem_filter.mpr ⟨he, by simpa using hname⟩), rfl⟩

/-- What registering reads of its client. -/
structure Registrar where
  client : Nat
  id : Text
  grant : Option Grant
  under : Admission

/-!
# Closers
-/

def removeHosts (c : Nat) (lowered : List Text) (vhosts : Text -> Option ProxyRef) :
    Text -> Option ProxyRef :=
  fun host =>
    if host ∈ lowered ∧ (vhosts host).map ProxyRef.client = some c then
      none
    else
      vhosts host

/-- One closer of a client's entry. -/
def Closer.run (c : Nat) (s : Shared) : Closer -> Shared
  | Closer.closeListener socket =>
      { s with sockets := s.sockets.filter fun k => k.id ≠ socket }
  | Closer.deleteTcp port =>
      { s with tcp := fun other => if other = port then none else s.tcp other }
  | Closer.closeAll => s
  | Closer.closeStop => s
  | Closer.dropHosts lowered => { s with vhosts := removeHosts c lowered s.vhosts }

/-!
# Registering
-/

/-- The ownership check: the error of a proxy outside the grant. -/
def ownershipError (rt : Runtime) (g : Grant) (p : ProxySpec) : Option Text :=
  match p.kind? with
  | some Kind.tcp | some Kind.udp =>
      if g.allowPort p.remotePort then
        none
      else
        some ("port ".toList ++ itoa p.remotePort ++ " not authorized".toList)
  | some Kind.vhost =>
      (p.hosts.find? fun h => ¬ g.allowHost rt h).map
        fun h => "host not authorized: ".toList ++ h
  | none => none

/-- The socket cannot be opened: one of its kind is open on the port, in this
process or, as {lit}`foreign` says, outside of it. -/
def Shared.portTaken (foreign : Kind -> Int -> Bool) (s : Shared) (kind : Kind)
    (port : Int) : Bool :=
  foreign kind port || s.sockets.any fun k => k.kind = kind ∧ k.port = port

def Shared.listen (s : Shared) (r : Registrar) (kind : Kind) (p : ProxySpec) :
    Shared :=
  { s with
    sockets :=
      { id := s.nextSocket
        kind := kind
        port := p.remotePort
        client := r.client
        name := p.name
        under := r.under } :: s.sockets
    nextSocket := s.nextSocket + 1 }

/-- The first of the hosts that another identity holds, lower-cased. -/
def claimedHost (rt : Runtime) (identity : Nat -> Option Text) (s : Shared)
    (id : Text) (hosts : List Text) : Option Text :=
  (hosts.map rt.toLower).find? fun host =>
    match s.vhosts host with
    | none => false
    | some ref => identity ref.client ≠ some id

def claimHosts (ref : ProxyRef) (lowered : List Text)
    (vhosts : Text -> Option ProxyRef) : Text -> Option ProxyRef :=
  fun host => if host ∈ lowered then some ref else vhosts host

def rejected (p : ProxySpec) (error : Text) : ProxyStatus := ⟨p.name, false, error⟩

def accepted (p : ProxySpec) : ProxyStatus := ⟨p.name, true, []⟩

/-- The checks of {lit}`register` that read no shared state. -/
def specError (rt : Runtime) (grant : Option Grant) (p : ProxySpec) : Option Text :=
  if p.name = [] ∨ 64 < byteLength p.name then
    some "invalid proxy name".toList
  else
    match grant.bind fun g => ownershipError rt g p with
    | some error => some error
    | none =>
        match p.kind? with
        | some Kind.tcp | some Kind.udp =>
            if p.remotePort ≤ 0 then some "remote port required".toList else none
        | some Kind.vhost => if p.hosts = [] then some "no domains".toList else none
        | none => some ("unknown type ".toList ++ p.type)

/--
{lit}`register`, past the checks of the proxy alone: the shared state after it,
the entry it records, and the status it reports.
-/
def acquire (rt : Runtime) (foreign : Kind -> Int -> Bool)
    (identity : Nat -> Option Text) (r : Registrar) (p : ProxySpec) (s : Shared) :
    Kind -> Shared × Option RegEntry × ProxyStatus
  | Kind.udp =>
      -- beyond the port range the address does not resolve
      if 65535 < p.remotePort then
        (s, none, rejected p rt.listenError)
      else if s.portTaken foreign Kind.udp p.remotePort then
        (s, none, rejected p
          ("udp port ".toList ++ itoa p.remotePort ++ ": ".toList ++ rt.listenError))
      else
        (s.listen r Kind.udp p,
          some ⟨p, [Closer.closeStop, Closer.closeListener s.nextSocket]⟩, accepted p)
  | Kind.tcp =>
      if s.portTaken foreign Kind.tcp p.remotePort then
        (s, none, rejected p
          ("port ".toList ++ itoa p.remotePort ++ ": ".toList ++ rt.listenError))
      else
        ({ s.listen r Kind.tcp p with
            tcp := fun port =>
              if port = p.remotePort then some ⟨r.client, p, r.under⟩ else s.tcp port },
          some ⟨p, [Closer.closeListener s.nextSocket, Closer.deleteTcp p.remotePort,
            Closer.closeAll]⟩, accepted p)
  | Kind.vhost =>
      match claimedHost rt identity s r.id p.hosts with
      | some host =>
          (s, none, rejected p ("host already claimed: ".toList ++ host))
      | none =>
          ({ s with
              vhosts :=
                claimHosts ⟨r.client, p, r.under⟩ (p.hosts.map rt.toLower) s.vhosts },
            some ⟨p, [Closer.dropHosts (p.hosts.map rt.toLower)]⟩, accepted p)

/-- {lit}`register`. -/
def register (rt : Runtime) (foreign : Kind -> Int -> Bool)
    (identity : Nat -> Option Text) (r : Registrar) (p : ProxySpec) (s : Shared) :
    Shared × Option RegEntry × ProxyStatus :=
  match specError rt r.grant p, p.kind? with
  | some error, _ => (s, none, rejected p error)
  | none, none => (s, none, rejected p ("unknown type ".toList ++ p.type))
  | none, some kind => acquire rt foreign identity r p s kind

/-!
# What registering does

A proxy is acceptable when it is well-formed, within the grant, and what it needs
is free.  Registering has three outcomes: a rejected proxy leaves everything as
it was, and an accepted one opens a socket or claims hosts.
-/

/-- What {lit}`register` checks of the proxy besides the grant. -/
def ProxySpec.WellFormed (p : ProxySpec) : Prop :=
  (p.name ≠ [] ∧ byteLength p.name ≤ 64) ∧
    match p.kind? with
    | some Kind.tcp => 0 < p.remotePort
    | some Kind.udp => 0 < p.remotePort ∧ p.remotePort ≤ 65535
    | some Kind.vhost => p.hosts ≠ []
    | none => False

instance (p : ProxySpec) : Decidable p.WellFormed :=
  match h : p.kind? with
  | some Kind.tcp =>
      decidable_of_iff ((p.name ≠ [] ∧ byteLength p.name ≤ 64) ∧ 0 < p.remotePort)
        (by simp [ProxySpec.WellFormed, h])
  | some Kind.udp =>
      decidable_of_iff ((p.name ≠ [] ∧ byteLength p.name ≤ 64) ∧
        0 < p.remotePort ∧ p.remotePort ≤ 65535) (by simp [ProxySpec.WellFormed, h])
  | some Kind.vhost =>
      decidable_of_iff ((p.name ≠ [] ∧ byteLength p.name ≤ 64) ∧ p.hosts ≠ [])
        (by simp [ProxySpec.WellFormed, h])
  | none => isFalse (by simp [ProxySpec.WellFormed, h])

def Granted (rt : Runtime) (grant : Option Grant) (p : ProxySpec) : Prop :=
  forall g, grant = some g -> ownershipError rt g p = none

instance (rt : Runtime) (grant : Option Grant) (p : ProxySpec) :
    Decidable (Granted rt grant p) :=
  inferInstanceAs (Decidable (forall g, g ∈ grant -> ownershipError rt g p = none))

/-- No socket of the proxy's kind is open on its port. -/
def Shared.PortFree (foreign : Kind -> Int -> Bool) (s : Shared) (p : ProxySpec) :
    Prop :=
  forall kind, p.kind? = some kind -> kind ≠ Kind.vhost ->
    s.portTaken foreign kind p.remotePort = false

instance (foreign : Kind -> Int -> Bool) (s : Shared) (p : ProxySpec) :
    Decidable (s.PortFree foreign p) :=
  match h : p.kind? with
  | none => isTrue (by simp [Shared.PortFree, h])
  | some kind =>
      decidable_of_iff
        (kind ≠ Kind.vhost -> s.portTaken foreign kind p.remotePort = false)
        (by simp [Shared.PortFree, h])

/-- None of the proxy's hosts is held by another identity. -/
def Shared.HostsFree (rt : Runtime) (identity : Nat -> Option Text) (s : Shared)
    (id : Text) (p : ProxySpec) : Prop :=
  p.kind? = some Kind.vhost -> forall host, host ∈ p.hosts ->
    forall ref, s.vhosts (rt.toLower host) = some ref -> identity ref.client = some id

instance (rt : Runtime) (identity : Nat -> Option Text) (s : Shared) (id : Text)
    (p : ProxySpec) : Decidable (s.HostsFree rt identity id p) :=
  inferInstanceAs (Decidable (p.kind? = some Kind.vhost -> forall host, host ∈ p.hosts ->
    forall ref, ref ∈ s.vhosts (rt.toLower host) -> identity ref.client = some id))

/-- The host is a key whose reference belongs to the client. -/
def Shared.HeldBy (s : Shared) (host : Text) (c : Nat) : Prop :=
  exists ref, s.vhosts host = some ref ∧ ref.client = c

section Register

variable {rt : Runtime} {foreign : Kind -> Int -> Bool}
  {identity : Nat -> Option Text} {r : Registrar} {p : ProxySpec} {s : Shared}

variable (rt foreign identity r p s) in
def Acceptable : Prop :=
  p.WellFormed ∧ Granted rt r.grant p ∧ s.PortFree foreign p ∧
    s.HostsFree rt identity r.id p

variable (rt foreign identity r p s) in
inductive Outcome : Shared × Option RegEntry × ProxyStatus -> Prop where
  | rejected {error : Text} :
      ¬ Acceptable rt foreign identity r p s ->
      Outcome (s, none, rejected p error)
  | opened {kind : Kind} {shared : Shared} {closers : List Closer} :
      Acceptable rt foreign identity r p s ->
      p.kind? = some kind -> kind ≠ Kind.vhost ->
      shared.vhosts = s.vhosts ->
      shared.sockets =
        ⟨s.nextSocket, kind, p.remotePort, r.client, p.name, r.under⟩ :: s.sockets ->
      shared.nextSocket = s.nextSocket + 1 ->
      (forall socket, Closer.closeListener socket ∈ closers -> socket = s.nextSocket) ->
      Outcome (shared, some ⟨p, closers⟩, accepted p)
  | claimed :
      Acceptable rt foreign identity r p s ->
      p.kind? = some Kind.vhost ->
      Outcome
        ({ s with
            vhosts := claimHosts ⟨r.client, p, r.under⟩ (p.hosts.map rt.toLower) s.vhosts },
          some ⟨p, [Closer.dropHosts (p.hosts.map rt.toLower)]⟩, accepted p)

theorem specError_eq_none_iff {grant : Option Grant} :
    specError rt grant p = none <->
      (p.name ≠ [] ∧ byteLength p.name ≤ 64) ∧ Granted rt grant p ∧
        match p.kind? with
        | some Kind.tcp | some Kind.udp => 0 < p.remotePort
        | some Kind.vhost => p.hosts ≠ []
        | none => False := by
  have hgranted : (grant.bind fun g => ownershipError rt g p) = none <->
      Granted rt grant p := by
    cases grant with
    | none => simp [Granted]
    | some g => simp [Granted]
  unfold specError
  split
  · rename_i hname
    constructor
    · intro h
      cases h
    · intro hcase
      rcases hcase with ⟨⟨hne, hlength⟩, _⟩
      rcases hname with heq | hlt
      · exact absurd heq hne
      · exact absurd hlt (Nat.not_lt.mpr hlength)
  · rename_i hname
    rw [not_or, Nat.not_lt] at hname
    split
    · rename_i error herror
      constructor
      · intro h
        cases h
      · intro hcase
        rcases hcase with ⟨_, howner, _⟩
        rw [hgranted.mpr howner] at herror
        cases herror
    · rename_i hnone
      have howner := hgranted.mp hnone
      have hready : (p.name ≠ [] ∧ byteLength p.name ≤ 64) ∧ Granted rt grant p :=
        ⟨hname, howner⟩
      rw [← and_assoc, and_iff_right hready]
      rcases p.kind? with _ | _ | _ | _ <;>
        simp only [ite_eq_right_iff, reduceCtorEq, imp_false, Int.not_le, ne_eq]

theorem claimedHost_eq_none (hkind : p.kind? = some Kind.vhost) :
    claimedHost rt identity s r.id p.hosts = none <-> s.HostsFree rt identity r.id p := by
  simp only [claimedHost, List.find?_eq_none, Shared.HostsFree, hkind, List.forall_mem_map,
    forall_const]
  refine forall_congr' fun host => imp_congr_right fun _ => ?_
  cases s.vhosts (rt.toLower host) with
  | none => simp
  | some ref => simp

/-- Registering once the checks of the proxy alone have passed. -/
theorem acquire_outcome {kind : Kind} (hkind : p.kind? = some kind)
    (hspec : specError rt r.grant p = none) :
    Outcome rt foreign identity r p s (acquire rt foreign identity r p s kind) := by
  rcases specError_eq_none_iff.mp hspec with ⟨hname, howner, hform⟩
  cases kind with
  | tcp =>
      simp only [hkind] at hform
      simp only [acquire]
      split
      · rename_i htaken
        refine Outcome.rejected fun h => ?_
        have hfree := h.right.right.left Kind.tcp hkind (by simp)
        simp [htaken] at hfree
      · rename_i hfree
        refine Outcome.opened ⟨⟨hname, by simpa [hkind] using hform⟩, howner, ?_, ?_⟩
          hkind (by simp) rfl rfl rfl ?_
        · simpa [Shared.PortFree, hkind] using hfree
        · simp [Shared.HostsFree, hkind]
        · intro socket hmem
          simpa using hmem
  | udp =>
      simp only [hkind] at hform
      simp only [acquire]
      split
      · rename_i hrange
        refine Outcome.rejected fun h => ?_
        have hwell := h.left.right
        simp only [hkind] at hwell
        exact Int.not_lt.mpr hwell.right hrange
      · rename_i hrange
        split
        · rename_i htaken
          refine Outcome.rejected fun h => ?_
          have hfree := h.right.right.left Kind.udp hkind (by simp)
          simp [htaken] at hfree
        · rename_i hfree
          refine Outcome.opened
            ⟨⟨hname, by simpa [hkind] using ⟨hform, Int.not_lt.mp hrange⟩⟩, howner, ?_, ?_⟩
            hkind (by simp) rfl rfl rfl ?_
          · simpa [Shared.PortFree, hkind] using hfree
          · simp [Shared.HostsFree, hkind]
          · intro socket hmem
            simpa using hmem
  | vhost =>
      simp only [hkind] at hform
      simp only [acquire]
      split
      · rename_i host hclaimed
        refine Outcome.rejected fun h => ?_
        rw [(claimedHost_eq_none hkind).mpr h.right.right.right] at hclaimed
        cases hclaimed
      · rename_i hclaimed
        refine Outcome.claimed
          ⟨⟨hname, by simpa [hkind] using hform⟩, howner, ?_,
            (claimedHost_eq_none hkind).mp hclaimed⟩ hkind
        simp [Shared.PortFree, hkind]

variable (rt foreign identity r p s) in
theorem register_outcome :
    Outcome rt foreign identity r p s (register rt foreign identity r p s) := by
  unfold register
  split
  · rename_i error hspec
    refine Outcome.rejected fun h => ?_
    have hnone : specError rt r.grant p = none := by
      refine specError_eq_none_iff.mpr ⟨h.left.left, h.right.left, ?_⟩
      have hform := h.left.right
      split at hform
      · rename_i hkind
        simpa [hkind] using hform
      · rename_i hkind
        simpa [hkind] using hform.left
      · rename_i hkind
        simpa [hkind] using hform
      · exact hform.elim
    rw [hnone] at hspec
    cases hspec
  · rename_i hkind
    refine Outcome.rejected fun h => ?_
    have hform := h.left.right
    simp only [hkind] at hform
  · rename_i kind hspec hkind
    exact acquire_outcome hkind hspec

/-!
The facts the later modules use, each by cases on the outcome.
-/

theorem register_ok :
    (register rt foreign identity r p s).2.2.ok = true <->
      Acceptable rt foreign identity r p s := by
  have houtcome := register_outcome rt foreign identity r p s
  generalize register rt foreign identity r p s = result at houtcome ⊢
  cases houtcome with
  | rejected hnot => simpa [rejected] using hnot
  | opened hok => simpa [accepted] using hok
  | claimed hok => simpa [accepted] using hok

theorem register_rejected (h : (register rt foreign identity r p s).2.2.ok = false) :
    (register rt foreign identity r p s).1 = s ∧
      (register rt foreign identity r p s).2.1 = none := by
  have houtcome := register_outcome rt foreign identity r p s
  generalize register rt foreign identity r p s = result at houtcome h ⊢
  cases houtcome with
  | rejected => exact ⟨rfl, rfl⟩
  | opened => cases h
  | claimed => cases h

variable (rt foreign identity r p s) in
/-- The status names the proxy, and is either of the two forms. -/
theorem register_status :
    (register rt foreign identity r p s).2.2 = accepted p ∨
      exists error, (register rt foreign identity r p s).2.2 = rejected p error := by
  have houtcome := register_outcome rt foreign identity r p s
  generalize register rt foreign identity r p s = result at houtcome ⊢
  cases houtcome with
  | rejected => exact Or.inr ⟨_, rfl⟩
  | opened => exact Or.inl rfl
  | claimed => exact Or.inl rfl

theorem register_accepted :
    (register rt foreign identity r p s).2.2 = accepted p <->
      Acceptable rt foreign identity r p s := by
  rw [← register_ok]
  constructor
  · intro h
    rw [h]
    rfl
  · intro hok
    rcases register_status rt foreign identity r p s with heq | ⟨error, heq⟩
    · exact heq
    · rw [heq] at hok
      cases hok

theorem ownershipError_port {g : Grant} (h : ownershipError rt g p = none)
    {kind : Kind} (hkind : p.kind? = some kind) (hne : kind ≠ Kind.vhost) :
    g.allowPort p.remotePort = true := by
  unfold ownershipError at h
  cases kind with
  | tcp =>
      simp only [hkind] at h
      by_contra hnot
      simp [hnot] at h
  | udp =>
      simp only [hkind] at h
      by_contra hnot
      simp [hnot] at h
  | vhost => exact absurd rfl hne

theorem ownershipError_hosts {g : Grant} (h : ownershipError rt g p = none)
    (hkind : p.kind? = some Kind.vhost) {host : Text} (hhost : host ∈ p.hosts) :
    g.allowHost rt host = true := by
  unfold ownershipError at h
  simp only [hkind, Option.map_eq_none_iff, List.find?_eq_none] at h
  simpa using h host hhost

/-- What registering adds to the hosts. -/
theorem register_vhosts {host : Text} {ref : ProxyRef}
    (h : (register rt foreign identity r p s).1.vhosts host = some ref) :
    s.vhosts host = some ref ∨
      (ref = ⟨r.client, p, r.under⟩ ∧ p.kind? = some Kind.vhost ∧
        (exists listed, listed ∈ p.hosts ∧ rt.toLower listed = host ∧
          forall g, r.grant = some g -> g.allowHost rt listed = true) ∧
        forall old, s.vhosts host = some old -> identity old.client = some r.id) := by
  have houtcome := register_outcome rt foreign identity r p s
  generalize register rt foreign identity r p s = result at houtcome h
  cases houtcome with
  | rejected => exact Or.inl h
  | opened _ _ _ hvhosts => exact Or.inl (hvhosts ▸ h)
  | claimed hok hkind =>
      simp only [claimHosts] at h
      split at h
      · rename_i hmem
        cases h
        rcases List.mem_map.mp hmem with ⟨listed, hlisted, rfl⟩
        refine Or.inr ⟨rfl, hkind, ⟨listed, hlisted, rfl, ?_⟩, ?_⟩
        · intro g hg
          exact ownershipError_hosts (hok.right.left g hg) hkind hlisted
        · exact hok.right.right.right hkind listed hlisted
      · exact Or.inl h

/-- What registering adds to the open sockets. -/
theorem register_sockets {k : Socket}
    (h : k ∈ (register rt foreign identity r p s).1.sockets) :
    k ∈ s.sockets ∨
      (k.client = r.client ∧ k.under = r.under ∧ k.port = p.remotePort ∧
        p.kind? = some k.kind ∧
        forall g, r.grant = some g -> g.allowPort k.port = true) := by
  have houtcome := register_outcome rt foreign identity r p s
  generalize register rt foreign identity r p s = result at houtcome h
  cases houtcome with
  | rejected => exact Or.inl h
  | opened hok hkind hne _ hsockets =>
      rw [hsockets] at h
      rcases List.mem_cons.mp h with rfl | h
      · exact Or.inr ⟨rfl, rfl, rfl, hkind,
          fun g hg => ownershipError_port (hok.right.left g hg) hkind hne⟩
      · exact Or.inl h
  | claimed => exact Or.inl h

variable (rt foreign identity r p s) in
/-- A host stays with its client, or goes to a registering one of its identity. -/
theorem register_heldBy {host : Text} {c : Nat} (h : s.HeldBy host c) :
    (register rt foreign identity r p s).1.HeldBy host c ∨
      ((register rt foreign identity r p s).1.HeldBy host r.client ∧
        p.kind? = some Kind.vhost ∧ host ∈ p.hosts.map rt.toLower ∧
        identity c = some r.id) := by
  rcases h with ⟨ref, href, rfl⟩
  have houtcome := register_outcome rt foreign identity r p s
  generalize register rt foreign identity r p s = result at houtcome ⊢
  cases houtcome with
  | rejected => exact Or.inl ⟨ref, href, rfl⟩
  | opened _ _ _ hvhosts => exact Or.inl ⟨ref, by rw [hvhosts]; exact href, rfl⟩
  | claimed hok hkind =>
      by_cases hmem : host ∈ p.hosts.map rt.toLower
      · rcases List.mem_map.mp hmem with ⟨listed, hlisted, heq⟩
        refine Or.inr ⟨⟨⟨r.client, p, r.under⟩, if_pos hmem, rfl⟩, hkind, hmem, ?_⟩
        exact hok.right.right.right hkind listed hlisted ref (heq ▸ href)
      · exact Or.inl ⟨ref, (if_neg hmem).trans href, rfl⟩

/-- The entry of an accepted proxy, and the hosts it holds. -/
theorem register_entry {e : RegEntry}
    (h : (register rt foreign identity r p s).2.1 = some e) :
    e.spec = p ∧ Acceptable rt foreign identity r p s ∧
      (p.kind? = some Kind.vhost -> forall host, host ∈ p.hosts ->
        (register rt foreign identity r p s).1.HeldBy (rt.toLower host) r.client) := by
  have houtcome := register_outcome rt foreign identity r p s
  generalize register rt foreign identity r p s = result at houtcome h ⊢
  cases houtcome with
  | rejected => cases h
  | opened hok hkind hne =>
      cases h
      refine ⟨rfl, hok, fun hvhost => ?_⟩
      rw [hkind] at hvhost
      exact absurd (Option.some.inj hvhost) hne
  | claimed hok =>
      cases h
      refine ⟨rfl, hok, fun _ host hhost => ?_⟩
      exact ⟨⟨r.client, p, r.under⟩, if_pos (List.mem_map.mpr ⟨host, hhost, rfl⟩), rfl⟩

/-- An accepted proxy has an entry, and if it listens, its socket is open. -/
theorem register_opens (h : Acceptable rt foreign identity r p s) :
    (exists e, (register rt foreign identity r p s).2.1 = some e ∧ e.spec = p) ∧
      forall kind, p.kind? = some kind -> kind ≠ Kind.vhost ->
        ⟨s.nextSocket, kind, p.remotePort, r.client, p.name, r.under⟩ ∈
          (register rt foreign identity r p s).1.sockets := by
  have houtcome := register_outcome rt foreign identity r p s
  generalize register rt foreign identity r p s = result at houtcome ⊢
  cases houtcome with
  | rejected hnot => exact absurd h hnot
  | opened _ hkind _ _ hsockets =>
      refine ⟨⟨_, rfl, rfl⟩, fun k hk _ => ?_⟩
      rw [hkind] at hk
      cases hk
      rw [hsockets]
      exact List.mem_cons_self
  | claimed _ hkind =>
      refine ⟨⟨_, rfl, rfl⟩, fun k hk hne => ?_⟩
      rw [hkind] at hk
      cases hk
      exact absurd rfl hne

variable (rt foreign identity r p s) in
/-- Registering opens at most one socket, which alone the entry closes. -/
theorem register_numbers :
    s.nextSocket ≤ (register rt foreign identity r p s).1.nextSocket ∧
      (forall k, k ∈ s.sockets -> k ∈ (register rt foreign identity r p s).1.sockets) ∧
      (forall k, k ∈ (register rt foreign identity r p s).1.sockets -> k ∈ s.sockets ∨
        (k.id = s.nextSocket ∧ k.client = r.client ∧
          s.nextSocket < (register rt foreign identity r p s).1.nextSocket)) ∧
      forall e socket, (register rt foreign identity r p s).2.1 = some e ->
        Closer.closeListener socket ∈ e.closers -> socket = s.nextSocket ∧
          s.nextSocket < (register rt foreign identity r p s).1.nextSocket := by
  have houtcome := register_outcome rt foreign identity r p s
  generalize register rt foreign identity r p s = result at houtcome ⊢
  cases houtcome with
  | rejected =>
      exact ⟨Nat.le_refl _, fun _ hk => hk, fun _ hk => Or.inl hk,
        fun e _ he => by cases he⟩
  | opened _ _ _ _ hsockets hnext hclosers =>
      rw [hsockets, hnext]
      refine ⟨Nat.le_succ _, fun _ hk => List.mem_cons_of_mem _ hk, ?_, ?_⟩
      · intro k hk
        rcases List.mem_cons.mp hk with rfl | hk
        · exact Or.inr ⟨rfl, rfl, Nat.lt_succ_self _⟩
        · exact Or.inl hk
      · intro e socket he hmem
        cases he
        exact ⟨hclosers socket hmem, Nat.lt_succ_self _⟩
  | claimed =>
      refine ⟨Nat.le_refl _, fun _ hk => hk, fun _ hk => Or.inl hk, ?_⟩
      intro e socket he hmem
      cases he
      simp at hmem

end Register

/-!
# What a closer does
-/

theorem Closer.run_vhosts {c : Nat} {s : Shared} {closer : Closer} {host : Text}
    {ref : ProxyRef} (h : (closer.run c s).vhosts host = some ref) :
    s.vhosts host = some ref := by
  cases closer with
  | dropHosts lowered =>
      simp only [Closer.run, removeHosts] at h
      split at h
      · cases h
      · exact h
  | closeListener socket => exact h
  | deleteTcp port => exact h
  | closeAll => exact h
  | closeStop => exact h

/-- A closer only drops hosts of its own client. -/
theorem Closer.run_heldBy {c owner : Nat} {s : Shared} {closer : Closer} {host : Text}
    (h : s.HeldBy host c)
    (hkept : c = owner -> forall lowered, closer = Closer.dropHosts lowered ->
      host ∉ lowered) :
    (closer.run owner s).HeldBy host c := by
  rcases h with ⟨ref, href, rfl⟩
  cases closer with
  | dropHosts lowered =>
      refine ⟨ref, ?_, rfl⟩
      have hnot : ¬ (host ∈ lowered ∧
          (s.vhosts host).map ProxyRef.client = some owner) := by
        intro hcase
        rcases hcase with ⟨hmem, howner⟩
        rw [href] at howner
        exact hkept (Option.some.inj howner) lowered rfl hmem
      simp only [Closer.run, removeHosts, if_neg hnot]
      exact href
  | closeListener socket => exact ⟨ref, href, rfl⟩
  | deleteTcp port => exact ⟨ref, href, rfl⟩
  | closeAll => exact ⟨ref, href, rfl⟩
  | closeStop => exact ⟨ref, href, rfl⟩

theorem Closer.run_nextSocket (c : Nat) (s : Shared) (closer : Closer) :
    (closer.run c s).nextSocket = s.nextSocket := by
  cases closer with
  | closeListener socket => rfl
  | deleteTcp port => rfl
  | closeAll => rfl
  | closeStop => rfl
  | dropHosts lowered => rfl

theorem Closer.run_sockets {c : Nat} {s : Shared} {closer : Closer} {k : Socket}
    (h : k ∈ (closer.run c s).sockets) : k ∈ s.sockets := by
  cases closer with
  | closeListener socket => exact (List.mem_filter.mp h).left
  | deleteTcp port => exact h
  | closeAll => exact h
  | closeStop => exact h
  | dropHosts lowered => exact h

end Engine
end RcTunnel
