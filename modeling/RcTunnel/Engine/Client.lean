import RcTunnel.Foundation.Machine
import RcTunnel.Engine.Proto

/-!
# The client and its reloads

The client connects, sends a hello with its proxies and its grant, and publishes
the control connection once the server has answered.  A reload swaps the proxies
and the grant and sends an update over the published connection, if there is
one.  The two activities interleave between their reads and writes.

The hello takes the grant from the field a reload swaps, but the proxies from
the configuration the process started with.  The main result names what a run
has to avoid for the server to end up with the pair of the last reload.
-/

namespace RcTunnel
namespace Engine

open Foundation

namespace Client

/-- What a hello or an update tells the server. -/
structure Desired where
  proxies : List ProxySpec
  grant : Text
deriving DecidableEq, Repr

structure Config where
  token : Text
  grant : Text
  clientID : Text
  proxies : List ProxySpec
deriving DecidableEq, Repr

/-- How far {lit}`session` has got. -/
inductive Phase where
  | dialed
  /-- {lit}`currentGrant` was read for the hello -/
  | prepared (grant : Text)
  /-- the hello is written, the connection not yet published -/
  | greeted (grant : Text)
  | live (grant : Text)
deriving DecidableEq, Repr

def Phase.grant? : Phase -> Option Text
  | Phase.dialed => none
  | Phase.prepared grant => some grant
  | Phase.greeted grant => some grant
  | Phase.live grant => some grant

structure Session where
  conn : Nat
  phase : Phase
  /-- the connection has not been dropped -/
  up : Bool
  /-- history: the pair last sent on the connection -/
  sent : Option Desired
deriving DecidableEq, Repr

/-- How far {lit}`Reload` has got. -/
inductive Reload where
  | idle
  /-- {lit}`setProxies` is done -/
  | swapping (desired : Desired)
  /-- the grant is swapped -/
  | swapped (desired : Desired)
  /-- {lit}`writeMsg` found this connection published -/
  | writing (desired : Desired) (conn : Nat)
deriving DecidableEq, Repr

def Reload.desired? : Reload -> Option Desired
  | Reload.idle => none
  | Reload.swapping desired => some desired
  | Reload.swapped desired => some desired
  | Reload.writing desired _ => some desired

/-- The connection an update is being written on. -/
def Reload.conn? : Reload -> Option Nat
  | Reload.writing _ conn => some conn
  | _ => none

structure State where
  cfg : Config
  /-- proxy name to local address -/
  locals : List (Text × Text)
  /-- proxy name to type -/
  ptype : List (Text × Text)
  grant : Text
  ctrl : Option Nat
  session : Option Session
  /-- connections dialed so far -/
  dials : Nat
  reload : Reload
  /-- history: the pair of the last reload, or of the configuration -/
  latest : Desired
deriving DecidableEq, Repr

inductive Action where
  | dial
  | readGrant
  | writeHello (ok : Bool)
  /-- the answer to the hello is read -/
  | publish
  /-- the network drops the connection -/
  | drop
  /-- {lit}`session` returns -/
  | endSession
  | reload (desired : Desired)
  | swapGrant
  | readCtrl
  | writeUpdate (ok : Bool)
deriving DecidableEq, Repr

/-- {lit}`setProxies`; a later entry of one name replaces an earlier one. -/
def State.setProxies (s : State) (proxies : List ProxySpec) : State :=
  { s with
    locals := (proxies.map fun p => (p.name, p.localAddr)).reverse
    ptype := (proxies.map fun p => (p.name, p.type)).reverse }

/-- {lit}`New`. -/
def new (cfg : Config) : State :=
  State.setProxies
    { cfg := cfg
      locals := []
      ptype := []
      grant := cfg.grant
      ctrl := none
      session := none
      dials := 0
      reload := Reload.idle
      latest := ⟨cfg.proxies, cfg.grant⟩ }
    cfg.proxies

section Runs

variable (marshal : Msg -> Bytes)

/-- The hello of a session that read this grant. -/
def State.hello (s : State) (grant : Text) : Msg :=
  Msg.hello s.cfg.token grant s.cfg.clientID s.cfg.proxies

/-- An update that is written on the session's connection, or fails: {lit}`Reload` logs the
error and the session goes on. -/
def Session.written (se : Session) (ok : Bool) (desired : Desired) : Session :=
  if ok then { se with sent := some desired } else se

def step (s : State) : Action -> Option State
  | Action.dial =>
      match s.session with
      | some _ => none
      | none =>
          some { s with
            session := some ⟨s.dials, Phase.dialed, true, none⟩
            dials := s.dials + 1 }
  | Action.readGrant =>
      match s.session with
      | some ⟨conn, Phase.dialed, up, sent⟩ =>
          some { s with session := some ⟨conn, Phase.prepared s.grant, up, sent⟩ }
      | _ => none
  | Action.writeHello ok =>
      match s.session with
      | some ⟨conn, Phase.prepared grant, up, _⟩ =>
          if writeMsg marshal (s.hello grant) = none ∨ ok = false then
            some { s with session := none }
          else
            some { s with
              session := some
                ⟨conn, Phase.greeted grant, up, some ⟨s.cfg.proxies, grant⟩⟩ }
      | _ => none
  | Action.publish =>
      match s.session with
      | some ⟨conn, Phase.greeted grant, up, sent⟩ =>
          some { s with
            session := some ⟨conn, Phase.live grant, up, sent⟩
            ctrl := some conn }
      | _ => none
  | Action.drop =>
      match s.session with
      | none => none
      | some se => some { s with session := some { se with up := false } }
  | Action.endSession =>
      match s.session with
      | none => none
      | some ⟨_, Phase.live _, _, _⟩ => some { s with session := none, ctrl := none }
      | some _ => some { s with session := none }
  | Action.reload desired =>
      match s.reload with
      | Reload.idle =>
          some { s.setProxies desired.proxies with
            reload := Reload.swapping desired
            latest := desired }
      | _ => none
  | Action.swapGrant =>
      match s.reload with
      | Reload.swapping desired =>
          some { s with
            grant := desired.grant
            reload := Reload.swapped desired }
      | _ => none
  | Action.readCtrl =>
      match s.reload with
      | Reload.swapped desired =>
          match s.ctrl with
          | none => some { s with reload := Reload.idle }
          | some conn => some { s with reload := Reload.writing desired conn }
      | _ => none
  | Action.writeUpdate ok =>
      match s.reload with
      | Reload.writing desired conn =>
          if writeMsg marshal (Msg.update desired.grant desired.proxies) = none then
            some { s with reload := Reload.idle }
          else
            match s.session with
            | some se =>
                if se.conn = conn then
                  some { s with
                    session := some (se.written ok desired)
                    reload := Reload.idle }
                else
                  some { s with reload := Reload.idle }
            | none => some { s with reload := Reload.idle }
      | _ => none

def machine : Machine State Action where
  init s := exists cfg, s = new cfg
  step := step marshal

/-!
# What a step can do
-/

inductive Moves (s : State) : Action -> State -> Prop where
  | dial (hnone : s.session = none) :
      Moves s Action.dial { s with
        session := some ⟨s.dials, Phase.dialed, true, none⟩
        dials := s.dials + 1 }
  | readGrant {conn : Nat} {up : Bool} {sent : Option Desired}
      (hse : s.session = some ⟨conn, Phase.dialed, up, sent⟩) :
      Moves s Action.readGrant
        { s with session := some ⟨conn, Phase.prepared s.grant, up, sent⟩ }
  | failHello {conn : Nat} {grant : Text} {up : Bool} {sent : Option Desired} {ok : Bool}
      (hse : s.session = some ⟨conn, Phase.prepared grant, up, sent⟩) :
      Moves s (Action.writeHello ok) { s with session := none }
  | writeHello {conn : Nat} {grant : Text} {up : Bool} {sent : Option Desired} {ok : Bool}
      (hse : s.session = some ⟨conn, Phase.prepared grant, up, sent⟩) :
      Moves s (Action.writeHello ok) { s with
        session := some ⟨conn, Phase.greeted grant, up, some ⟨s.cfg.proxies, grant⟩⟩ }
  | publish {conn : Nat} {grant : Text} {up : Bool} {sent : Option Desired}
      (hse : s.session = some ⟨conn, Phase.greeted grant, up, sent⟩) :
      Moves s Action.publish { s with
        session := some ⟨conn, Phase.live grant, up, sent⟩
        ctrl := some conn }
  | drop {se : Session} (hse : s.session = some se) :
      Moves s Action.drop { s with session := some { se with up := false } }
  | endLive : Moves s Action.endSession { s with session := none, ctrl := none }
  | endSession {se : Session} (hse : s.session = some se)
      (hphase : forall grant, se.phase ≠ Phase.live grant) :
      Moves s Action.endSession { s with session := none }
  | reload {desired : Desired} (hidle : s.reload = Reload.idle) :
      Moves s (Action.reload desired) { s.setProxies desired.proxies with
        reload := Reload.swapping desired
        latest := desired }
  | swapGrant {desired : Desired} (hreload : s.reload = Reload.swapping desired) :
      Moves s Action.swapGrant
        { s with grant := desired.grant, reload := Reload.swapped desired }
  | missCtrl {desired : Desired} (hreload : s.reload = Reload.swapped desired)
      (hctrl : s.ctrl = none) : Moves s Action.readCtrl { s with reload := Reload.idle }
  | findCtrl {desired : Desired} {conn : Nat} (hreload : s.reload = Reload.swapped desired)
      (hctrl : s.ctrl = some conn) :
      Moves s Action.readCtrl { s with reload := Reload.writing desired conn }
  | largeUpdate {desired : Desired} {conn : Nat} {ok : Bool}
      (hreload : s.reload = Reload.writing desired conn)
      (hlarge : writeMsg marshal (Msg.update desired.grant desired.proxies) = none) :
      Moves s (Action.writeUpdate ok) { s with reload := Reload.idle }
  | updateElsewhere {desired : Desired} {conn : Nat} {ok : Bool}
      (hreload : s.reload = Reload.writing desired conn)
      (hne : forall se, s.session = some se -> se.conn ≠ conn) :
      Moves s (Action.writeUpdate ok) { s with reload := Reload.idle }
  | writeUpdate {desired : Desired} {se : Session} {ok : Bool}
      (hreload : s.reload = Reload.writing desired se.conn) (hse : s.session = some se) :
      Moves s (Action.writeUpdate ok) { s with
        session := some (se.written ok desired)
        reload := Reload.idle }

variable {marshal}

theorem step_moves {s t : State} {a : Action} (h : step marshal s a = some t) :
    Moves marshal s a t := by
  cases a with
  | dial =>
      simp only [step] at h
      split at h
      · cases h
      · rename_i hnone
        cases h
        exact Moves.dial hnone
  | readGrant =>
      simp only [step] at h
      split at h
      · rename_i hse
        cases h
        exact Moves.readGrant hse
      · cases h
  | writeHello ok =>
      simp only [step] at h
      split at h
      · rename_i hse
        split at h
        · cases h
          exact Moves.failHello hse
        · cases h
          exact Moves.writeHello hse
      · cases h
  | publish =>
      simp only [step] at h
      split at h
      · rename_i hse
        cases h
        exact Moves.publish hse
      · cases h
  | drop =>
      simp only [step] at h
      split at h
      · cases h
      · rename_i hse
        cases h
        exact Moves.drop hse
  | endSession =>
      simp only [step] at h
      split at h
      · cases h
      · cases h
        exact Moves.endLive
      · rename_i se hnot hse
        cases h
        apply Moves.endSession hse
        intro grant hlive
        exact hnot se.conn grant se.up se.sent (by rw [← hlive])
  | reload desired =>
      simp only [step] at h
      split at h
      · rename_i hidle
        cases h
        exact Moves.reload hidle
      · cases h
  | swapGrant =>
      simp only [step] at h
      split at h
      · rename_i hreload
        cases h
        exact Moves.swapGrant hreload
      · cases h
  | readCtrl =>
      simp only [step] at h
      split at h
      · rename_i hreload
        split at h
        · rename_i hctrl
          cases h
          exact Moves.missCtrl hreload hctrl
        · rename_i hctrl
          cases h
          exact Moves.findCtrl hreload hctrl
      · cases h
  | writeUpdate ok =>
      simp only [step] at h
      split at h
      · rename_i desired conn hreload
        split at h
        · rename_i hlarge
          cases h
          exact Moves.largeUpdate hreload hlarge
        · split at h
          · rename_i se hse
            split at h
            · rename_i hconn
              cases h
              exact Moves.writeUpdate (hconn ▸ hreload) hse
            · rename_i hne
              cases h
              apply Moves.updateElsewhere hreload
              intro other hother
              rw [hse] at hother
              cases hother
              exact hne
          · rename_i hnone
            cases h
            apply Moves.updateElsewhere hreload
            intro se hse
            rw [hnone] at hse
            cases hse
      · cases h

end Runs

/-- With a control session established and no reload in progress, the server
was last sent the pair of the last reload. -/
def Converged (s : State) : Prop :=
  forall conn grant sent,
    s.session = some ⟨conn, Phase.live grant, true, sent⟩ ->
    s.reload = Reload.idle -> sent = some s.latest

/-- The session has not read its grant yet, or its hello carries the pair. -/
def State.Greets (s : State) (desired : Desired) : Prop :=
  forall se grant, s.session = some se -> se.phase.grant? = some grant ->
    Desired.mk s.cfg.proxies grant = desired

/-- The running session is not the one the update is for, or has its pair already. -/
def State.Needless (s : State) : Prop :=
  forall se, s.session = some se -> s.reload.conn? = some se.conn -> se.up = true ->
    se.sent = some s.latest

/--
The moments at which a reload can get lost: a hello is prepared from a
configuration whose proxies are outdated, a reload finds no control connection
while a hello is under way, its update fails, or is written on a connection that is not the
running session's any more.
-/
def NotMissed (marshal : Msg -> Bytes) (s : State) : Action -> Prop
  | Action.readGrant =>
      s.reload = Reload.idle -> s.cfg.proxies = s.latest.proxies
  | Action.readCtrl =>
      s.ctrl = none -> s.Greets s.latest
  | Action.writeUpdate ok =>
      (writeMsg marshal (Msg.update s.latest.grant s.latest.proxies) = none ∨ ok = false ->
        s.Needless) ∧
        (s.session.map Session.conn ≠ s.reload.conn? -> s.Greets s.latest)
  | _ => True

instance (s : State) (desired : Desired) : Decidable (s.Greets desired) :=
  match hse : s.session with
  | none => isTrue fun se _ h => by simp [hse] at h
  | some se =>
      match hgrant : se.phase.grant? with
      | none =>
          isTrue fun other _ hother h => by
            rw [hse] at hother
            cases hother
            simp [hgrant] at h
      | some grant =>
          decidable_of_iff (Desired.mk s.cfg.proxies grant = desired)
            ⟨fun h other g hother hg => by
              rw [hse] at hother
              cases hother
              rw [hgrant] at hg
              cases hg
              exact h, fun h => h se grant hse hgrant⟩

instance (s : State) : Decidable s.Needless :=
  match hse : s.session with
  | none => isTrue fun se h => by simp [hse] at h
  | some se =>
      decidable_of_iff
        (s.reload.conn? = some se.conn -> se.up = true -> se.sent = some s.latest)
        ⟨fun h other hother => by
          rw [hse] at hother
          cases hother
          exact h, fun h => h se hse⟩

instance (marshal : Msg -> Bytes) (s : State) :
    forall a, Decidable (NotMissed marshal s a)
  | Action.readGrant => inferInstanceAs (Decidable (_ -> _))
  | Action.readCtrl => inferInstanceAs (Decidable (_ -> _))
  | Action.writeUpdate _ => inferInstanceAs (Decidable ((_ -> _) ∧ (_ -> _)))
  | Action.dial | Action.writeHello _ | Action.publish | Action.drop
  | Action.endSession | Action.reload _ | Action.swapGrant =>
      inferInstanceAs (Decidable True)

/-!
# The invariant of runs that miss no reload
-/

/-- The published connection is the live session's. -/
def Session.published (se : Session) : Option Nat :=
  match se.phase with
  | Phase.live _ => some se.conn
  | _ => none

structure SessionInv (s : State) (se : Session) : Prop where
  conn : se.conn < s.dials
  ctrl : s.ctrl = se.published
  pending : s.reload = Reload.idle -> forall grant,
    se.phase = Phase.prepared grant ∨ se.phase = Phase.greeted grant ->
    Desired.mk s.cfg.proxies grant = s.latest
  greeted : forall grant, se.phase = Phase.greeted grant ->
    se.sent = some ⟨s.cfg.proxies, grant⟩
  live : forall grant, se.phase = Phase.live grant -> s.reload = Reload.idle ->
    se.up = true -> se.sent = some s.latest
  target : forall desired, s.reload = Reload.writing desired se.conn ->
    exists grant, se.phase = Phase.live grant
  /-- an update written elsewhere leaves the session with its hello -/
  stale : forall grant desired conn, se.phase = Phase.live grant ->
    s.reload = Reload.writing desired conn -> se.conn ≠ conn ->
    se.sent = some ⟨s.cfg.proxies, grant⟩

theorem SessionInv.unpublished_target {s : State} {se : Session}
    (h : SessionInv s se) (hphase : forall grant, se.phase ≠ Phase.live grant)
    {phase : Phase} (desired : Desired)
    (hw : s.reload = Reload.writing desired se.conn) :
    exists grant, phase = Phase.live grant := by
  rcases h.target desired hw with ⟨grant, hlive⟩
  exact absurd hlive (hphase grant)

structure Inv (s : State) : Prop where
  reload : forall desired, s.reload.desired? = some desired -> desired = s.latest
  grant : (forall desired, s.reload ≠ Reload.swapping desired) ->
    s.grant = s.latest.grant
  writing : forall desired conn, s.reload = Reload.writing desired conn ->
    conn < s.dials
  session : forall se, s.session = some se -> SessionInv s se
  unpublished : s.session = none -> s.ctrl = none

theorem Inv.converged {s : State} (h : Inv s) : Converged s := by
  intro conn grant sent hse hidle
  exact (h.session _ hse).live grant rfl hidle rfl

theorem inv_new (cfg : Config) : Inv (new cfg) :=
  { reload := by simp [new, State.setProxies, Reload.desired?]
    grant := fun _ => rfl
    writing := by simp [new, State.setProxies]
    session := by simp [new, State.setProxies]
    unpublished := fun _ => rfl }

/-- Replacing the session, while the reload stands still. -/
theorem Inv.withSession {s : State} (h : Inv s) {se : Session} {dials : Nat}
    (ctrl : Option Nat) (hdials : s.dials ≤ dials)
    (hse : SessionInv { s with session := some se, dials := dials, ctrl := ctrl } se) :
    Inv { s with session := some se, dials := dials, ctrl := ctrl } :=
  { reload := h.reload
    grant := h.grant
    writing := fun desired conn hw =>
      Nat.lt_of_lt_of_le (h.writing desired conn hw) hdials
    session := fun other hother => by
      cases hother
      exact hse
    unpublished := fun hnone => by cases hnone }

theorem Inv.closeSession {s : State} (h : Inv s) :
    Inv { s with session := none, ctrl := none } :=
  { reload := h.reload
    grant := h.grant
    writing := h.writing
    session := fun _ hse => by cases hse
    unpublished := fun _ => rfl }

theorem Inv.dial {s : State} (h : Inv s) (hnone : s.session = none) :
    Inv { s with
      session := some ⟨s.dials, Phase.dialed, true, none⟩
      dials := s.dials + 1 } := by
  apply h.withSession s.ctrl (Nat.le_succ s.dials)
  exact
    { conn := Nat.lt_succ_self s.dials
      ctrl := h.unpublished hnone
      pending := fun _ grant hphase => by
        rcases hphase with hphase | hphase <;> cases hphase
      greeted := fun grant hphase => by cases hphase
      live := fun grant hphase => by cases hphase
      target := fun desired hw => absurd (h.writing desired _ hw) (Nat.lt_irrefl _)
      stale := fun grant desired conn hphase => by cases hphase }

theorem Inv.readGrant {s : State} (h : Inv s) {conn : Nat} {up : Bool}
    {sent : Option Desired} (hse : s.session = some ⟨conn, Phase.dialed, up, sent⟩)
    (hfresh : s.reload = Reload.idle -> s.cfg.proxies = s.latest.proxies) :
    Inv { s with session := some ⟨conn, Phase.prepared s.grant, up, sent⟩ } := by
  have hold := h.session _ hse
  apply h.withSession s.ctrl (Nat.le_refl s.dials)
  refine
    { conn := hold.conn
      ctrl := hold.ctrl
      pending := ?_
      greeted := fun grant hphase => by cases hphase
      live := fun grant hphase => by cases hphase
      target := hold.unpublished_target (fun grant => by simp)
      stale := fun grant desired conn hphase => by cases hphase }
  intro hidle grant hphase
  have hgrant : s.grant = s.latest.grant :=
    h.grant fun desired hne => Reload.noConfusion (hidle.symm.trans hne)
  rcases hphase with hphase | hphase
  · cases hphase
    rw [hfresh hidle, hgrant]
  · cases hphase

theorem Inv.writeHello {s : State} (h : Inv s) {conn : Nat} {up : Bool}
    {grant : Text} {sent : Option Desired}
    (hse : s.session = some ⟨conn, Phase.prepared grant, up, sent⟩) :
    Inv { s with
      session := some ⟨conn, Phase.greeted grant, up, some ⟨s.cfg.proxies, grant⟩⟩ } := by
  have hold := h.session _ hse
  apply h.withSession s.ctrl (Nat.le_refl s.dials)
  refine
    { conn := hold.conn
      ctrl := hold.ctrl
      pending := ?_
      greeted := fun grant hphase => by
        cases hphase
        rfl
      live := fun grant hphase => by cases hphase
      target := hold.unpublished_target (fun grant => by simp)
      stale := fun grant desired conn hphase => by cases hphase }
  intro hidle other hphase
  rcases hphase with hphase | hphase
  · cases hphase
  · cases hphase
    exact hold.pending hidle grant (Or.inl rfl)

theorem Inv.publish {s : State} (h : Inv s) {conn : Nat} {up : Bool}
    {grant : Text} {sent : Option Desired}
    (hse : s.session = some ⟨conn, Phase.greeted grant, up, sent⟩) :
    Inv { s with
      session := some ⟨conn, Phase.live grant, up, sent⟩
      ctrl := some conn } := by
  have hold := h.session _ hse
  have hsent : sent = some ⟨s.cfg.proxies, grant⟩ := hold.greeted grant rfl
  apply h.withSession _ (Nat.le_refl s.dials)
  refine
    { conn := hold.conn
      ctrl := rfl
      pending := fun _ grant hphase => by
        rcases hphase with hphase | hphase <;> cases hphase
      greeted := fun grant hphase => by cases hphase
      live := ?_
      target := fun _ _ => ⟨grant, rfl⟩
      stale := ?_ }
  · intro other hphase hidle _
    cases hphase
    have hpair := hold.pending hidle grant (Or.inr rfl)
    exact hsent.trans (congrArg some hpair)
  · intro other desired c hphase _ _
    cases hphase
    exact hsent

theorem Inv.drop {s : State} (h : Inv s) {se : Session} (hse : s.session = some se) :
    Inv { s with session := some { se with up := false } } := by
  have hold := h.session se hse
  apply h.withSession s.ctrl (Nat.le_refl s.dials)
  exact
    { conn := hold.conn
      ctrl := hold.ctrl
      pending := hold.pending
      greeted := hold.greeted
      live := fun grant _ _ hup => by cases hup
      target := hold.target
      stale := hold.stale }

/-- A session that is not live ends with no connection published. -/
theorem Inv.endSession {s : State} (h : Inv s) {se : Session}
    (hse : s.session = some se) (hphase : forall grant, se.phase ≠ Phase.live grant) :
    Inv { s with session := none } := by
  have hctrl : s.ctrl = none := by
    rw [(h.session se hse).ctrl]
    unfold Session.published
    split
    · rename_i grant hlive
      exact absurd hlive (hphase grant)
    · rfl
  have hclosed := h.closeSession
  rwa [← hctrl] at hclosed

/-!
The reload side.  While a reload runs nothing is required of the session but
what {lit}`stale` says; when it ends, the session must carry its pair.
-/

theorem Inv.startReload {s : State} (h : Inv s) (desired : Desired) :
    Inv { s.setProxies desired.proxies with
      reload := Reload.swapping desired
      latest := desired } := by
  refine
    { reload := fun other hother => (Option.some.inj hother).symm
      grant := fun hnot => absurd rfl (hnot desired)
      writing := fun _ _ hw => by cases hw
      session := ?_
      unpublished := h.unpublished }
  intro se hse
  have hold := h.session se hse
  exact
    { conn := hold.conn
      ctrl := hold.ctrl
      pending := fun hidle => by cases hidle
      greeted := hold.greeted
      live := fun _ _ hidle => by cases hidle
      target := fun _ hw => by cases hw
      stale := fun _ _ _ _ hw => by cases hw }

theorem Inv.swapGrant {s : State} (h : Inv s) {desired : Desired}
    (hreload : s.reload = Reload.swapping desired) :
    Inv { s with grant := desired.grant, reload := Reload.swapped desired } := by
  have hlatest : desired = s.latest := h.reload desired (by simp [hreload, Reload.desired?])
  refine
    { reload := fun other hother => (Option.some.inj hother).symm.trans hlatest
      grant := fun _ => congrArg Desired.grant hlatest
      writing := fun _ _ hw => by cases hw
      session := ?_
      unpublished := h.unpublished }
  intro se hse
  have hold := h.session se hse
  exact
    { conn := hold.conn
      ctrl := hold.ctrl
      pending := fun hidle => by cases hidle
      greeted := hold.greeted
      live := fun _ _ hidle => by cases hidle
      target := fun _ hw => by cases hw
      stale := fun _ _ _ _ hw => by cases hw }

theorem Inv.foundCtrl {s : State} (h : Inv s) {desired : Desired} {conn : Nat}
    (hreload : s.reload = Reload.swapped desired) (hctrl : s.ctrl = some conn) :
    Inv { s with reload := Reload.writing desired conn } := by
  have hlatest : desired = s.latest := h.reload desired (by simp [hreload, Reload.desired?])
  -- the published connection is the running session's
  have hrunning : forall se, s.session = some se ->
      se.conn = conn ∧ exists grant, se.phase = Phase.live grant := by
    intro se hse
    have hpub := (h.session se hse).ctrl
    rw [hctrl] at hpub
    unfold Session.published at hpub
    split at hpub
    · rename_i grant hlive
      exact ⟨(Option.some.inj hpub).symm, grant, hlive⟩
    · cases hpub
  refine
    { reload := fun other hother => (Option.some.inj hother).symm.trans hlatest
      grant := fun _ => h.grant (by simp [hreload])
      writing := ?_
      session := ?_
      unpublished := h.unpublished }
  · intro other c hw
    cases hw
    cases hse : s.session with
    | none => simp [h.unpublished hse] at hctrl
    | some se => exact (hrunning se hse).left ▸ (h.session se hse).conn
  · intro se hse
    have hold := h.session se hse
    exact
      { conn := hold.conn
        ctrl := hold.ctrl
        pending := fun hidle => by cases hidle
        greeted := hold.greeted
        live := fun _ _ hidle => by cases hidle
        target := fun _ _ => (hrunning se hse).right
        stale := fun _ _ c _ hw hne => by
          cases hw
          exact absurd (hrunning se hse).left hne }

/-- A reload ends and leaves the session as it is. -/
theorem Inv.leaveReload {s : State} (h : Inv s)
    (hreload : forall desired, s.reload ≠ Reload.swapping desired)
    (hpending : forall se grant, s.session = some se ->
      se.phase = Phase.prepared grant ∨ se.phase = Phase.greeted grant ->
        Desired.mk s.cfg.proxies grant = s.latest)
    (hlive : forall se grant, s.session = some se -> se.phase = Phase.live grant ->
      se.up = true -> se.sent = some s.latest) :
    Inv { s with reload := Reload.idle } := by
  refine
    { reload := fun _ hnone => by cases hnone
      grant := fun _ => h.grant hreload
      writing := fun _ _ hw => by cases hw
      session := ?_
      unpublished := h.unpublished }
  intro se hse
  have hold := h.session se hse
  exact
    { conn := hold.conn
      ctrl := hold.ctrl
      pending := fun _ grant hphase => hpending se grant hse hphase
      greeted := hold.greeted
      live := fun grant hphase _ hup => hlive se grant hse hphase hup
      target := fun _ hw => by cases hw
      stale := fun _ _ _ _ hw => by cases hw }

/-- A reload ends without writing on the session that is running. -/
theorem Inv.endReload {s : State} (h : Inv s)
    (hreload : forall desired, s.reload ≠ Reload.swapping desired)
    (hgreets : s.Greets s.latest)
    (hlive : forall se grant, s.session = some se -> se.phase = Phase.live grant ->
      se.sent = some ⟨s.cfg.proxies, grant⟩) :
    Inv { s with reload := Reload.idle } := by
  apply h.leaveReload hreload
  · intro se grant hse hphase
    apply hgreets se grant hse
    rcases hphase with hphase | hphase <;> simp [hphase, Phase.grant?]
  · intro se grant hse hphase _
    have hpair := hgreets se grant hse (by simp [hphase, Phase.grant?])
    rw [hlive se grant hse hphase]
    exact congrArg some hpair

/-- The update of a reload fails on the running session. -/
theorem Inv.failUpdate {s : State} (h : Inv s) {desired : Desired} {se : Session}
    (hreload : s.reload = Reload.writing desired se.conn) (hse : s.session = some se)
    (hneedless : s.Needless) : Inv { s with reload := Reload.idle } := by
  rcases (h.session se hse).target desired hreload with ⟨live, hlive⟩
  apply h.leaveReload (by simp [hreload])
  · intro other grant hother hphase
    rw [hse] at hother
    cases hother
    simp [hlive] at hphase
  · intro other grant hother _ hup
    rw [hse] at hother
    cases hother
    exact hneedless se hse (by simp [hreload, Reload.conn?]) hup

/-- The update is for a connection that is not the running session's any more. -/
theorem Inv.updateElsewhere {s : State} (h : Inv s) {desired : Desired} {conn : Nat}
    (hreload : s.reload = Reload.writing desired conn)
    (hgreets : s.session.map Session.conn ≠ s.reload.conn? -> s.Greets s.latest)
    (hne : forall se, s.session = some se -> se.conn ≠ conn) :
    Inv { s with reload := Reload.idle } := by
  apply h.endReload (by simp [hreload])
  · apply hgreets
    rw [hreload]
    intro hconn
    rcases Option.map_eq_some_iff.mp hconn with ⟨se, hse, hsame⟩
    exact hne se hse hsame
  · intro se grant hse hlive
    exact (h.session se hse).stale grant desired conn hlive hreload (hne se hse)

/-- Nothing is written of the update. -/
theorem Inv.unwritten {s : State} (h : Inv s) {desired : Desired} {conn : Nat}
    (hreload : s.reload = Reload.writing desired conn) (hneedless : s.Needless)
    (hgreets : s.session.map Session.conn ≠ s.reload.conn? -> s.Greets s.latest) :
    Inv { s with reload := Reload.idle } := by
  by_cases htarget : exists se, s.session = some se ∧ se.conn = conn
  · rcases htarget with ⟨se, hse, rfl⟩
    exact h.failUpdate hreload hse hneedless
  · exact h.updateElsewhere hreload hgreets fun se hse hconn => htarget ⟨se, hse, hconn⟩

/-- The update is written on the running session. -/
theorem Inv.writeUpdate {s : State} (h : Inv s) {desired : Desired} {se : Session}
    (hreload : s.reload = Reload.writing desired se.conn) (hse : s.session = some se) :
    Inv { s with
      session := some { se with sent := some desired }
      reload := Reload.idle } := by
  have hlatest : desired = s.latest := h.reload desired (by simp [hreload, Reload.desired?])
  have hold := h.session se hse
  rcases hold.target desired hreload with ⟨grant, hphase⟩
  refine
    { reload := fun _ hnone => by cases hnone
      grant := fun _ => h.grant (by simp [hreload])
      writing := fun _ _ hw => by cases hw
      session := ?_
      unpublished := fun hnone => by cases hnone }
  intro other hother
  cases hother
  refine
    { conn := hold.conn
      ctrl := hold.ctrl
      pending := ?_
      greeted := ?_
      live := fun _ _ _ _ => congrArg some hlatest
      target := fun _ hw => by cases hw
      stale := fun _ _ _ _ hw => by cases hw }
  · intro _ g hg
    simp [hphase] at hg
  · intro g hg
    simp [hphase] at hg

/-!
# Runs
-/

theorem inv_step {marshal : Msg -> Bytes} {s t : State} {a : Action} (h : Inv s)
    (hG : NotMissed marshal s a) (hstep : step marshal s a = some t) : Inv t := by
  cases step_moves hstep with
  | dial hnone => exact h.dial hnone
  | readGrant hse => exact h.readGrant hse hG
  | failHello hse => exact h.endSession hse fun grant => by simp
  | writeHello hse => exact h.writeHello hse
  | publish hse => exact h.publish hse
  | drop hse => exact h.drop hse
  | endLive => exact h.closeSession
  | endSession hse hphase => exact h.endSession hse hphase
  | reload _ => exact h.startReload _
  | swapGrant hreload => exact h.swapGrant hreload
  | missCtrl hreload hctrl =>
      apply h.endReload (by simp [hreload]) (hG hctrl)
      intro se grant hse hlive
      have hpub := (h.session se hse).ctrl
      simp [hctrl, Session.published, hlive] at hpub
  | findCtrl hreload hctrl => exact h.foundCtrl hreload hctrl
  | @largeUpdate desired conn ok hreload hlarge =>
      have hlatest : desired = s.latest :=
        h.reload desired (by simp [hreload, Reload.desired?])
      exact h.unwritten hreload (hG.left (Or.inl (hlatest ▸ hlarge))) hG.right
  | updateElsewhere hreload hne => exact h.updateElsewhere hreload hG.right hne
  | @writeUpdate desired se ok hreload hse =>
      cases ok with
      | true => exact h.writeUpdate hreload hse
      | false =>
          have hsame : s.session = some (se.written false desired) := hse
          rw [← hsame]
          exact h.unwritten hreload (hG.left (Or.inr rfl)) hG.right

/--
In a run that misses no reload, the server has been sent the pair of the last
reload whenever a session is established and no reload is in progress.
-/
theorem converged_of_notMissed (marshal : Msg -> Bytes) {s : State}
    {actions : List Action} (hinit : (machine marshal).init s)
    (hobeys : (machine marshal).Obeys (NotMissed marshal) s actions) :
    (machine marshal).Always Converged s actions := by
  rcases hinit with ⟨cfg, rfl⟩
  have hinv := Machine.always_of_obeys (I := Inv)
    (fun _ _ _ h hG hstep => inv_step h hG hstep) (inv_new cfg) hobeys
  exact hinv.imp fun _ h => h.converged

def webProxy : ProxySpec where
  name := "t1".toList
  type := "http".toList
  localAddr := "127.0.0.1:80".toList
  remotePort := 0
  subdomain := []
  customDomains := ["a.example".toList]

def sshProxy : ProxySpec where
  name := "t2".toList
  type := "tcp".toList
  localAddr := "127.0.0.1:22".toList
  remotePort := 2222
  subdomain := []
  customDomains := []

def webConfig : Config where
  token := []
  grant := "g0".toList
  clientID := []
  proxies := [webProxy]

/-- A proxy is added and removed again before the session drops. -/
theorem converged_of_reloads_undone :
    (machine fun m => ascii m.json).Always Converged (new webConfig)
      [Action.dial, Action.readGrant, Action.writeHello true, Action.publish,
        Action.reload ⟨[webProxy, sshProxy], "g1".toList⟩, Action.swapGrant,
        Action.readCtrl, Action.writeUpdate true,
        Action.reload ⟨[webProxy], "g2".toList⟩, Action.swapGrant,
        Action.readCtrl, Action.writeUpdate true, Action.drop, Action.endSession,
        Action.dial, Action.readGrant, Action.writeHello true, Action.publish] :=
  converged_of_notMissed (fun m => ascii m.json) ⟨webConfig, rfl⟩ (by decide +kernel)

set_option maxRecDepth 4000 in
/-- A reload succeeds, the session drops, and the next hello undoes it. -/
theorem reconnect_sends_initial_proxies :
    (machine fun m => ascii m.json).init (new webConfig) ∧
      exists t, (machine fun m => ascii m.json).exec (new webConfig)
        [Action.dial, Action.readGrant, Action.writeHello true, Action.publish,
          Action.reload ⟨[webProxy, sshProxy], "g1".toList⟩, Action.swapGrant,
          Action.readCtrl, Action.writeUpdate true, Action.drop, Action.endSession,
          Action.dial, Action.readGrant, Action.writeHello true,
          Action.publish] = some t ∧
        ¬ Converged t ∧ t.reload = Reload.idle ∧
        t.session = some ⟨1, Phase.live "g1".toList, true,
          some ⟨[webProxy], "g1".toList⟩⟩ ∧
        t.latest = ⟨[webProxy, sshProxy], "g1".toList⟩ := by
  refine ⟨⟨webConfig, rfl⟩, _, rfl, ?_, rfl, rfl, rfl⟩
  intro h
  have hsent := h 1 "g1".toList (some ⟨[webProxy], "g1".toList⟩) rfl rfl
  exact absurd hsent (by decide)

end Client

end Engine
end RcTunnel
