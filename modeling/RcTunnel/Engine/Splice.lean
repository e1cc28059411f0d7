import RcTunnel.Foundation.Machine
import RcTunnel.Engine.Proto

/-!
# A tunnelled connection

A public connection reaches the local service over two calls of {lit}`pipe`, one in
{lit}`rctd` between the public and the work connection, one in {lit}`rctc` between the
work connection and the local one.  Each runs {lit}`io.Copy` in both directions, closes
both its connections when the first of them returns, and waits for the second.

Over http {lit}`rctd` first takes a request from the public connection, as {lit}`net/http`
reads it, and writes it to the work connection, as {lit}`net/http` writes it again; only then
does it pipe.  What it has read and written so is the opening; a tcp connection has none.
-/

namespace RcTunnel
namespace Engine

open Foundation

namespace Splice

inductive Way where
  | toLocal
  | toPublic
deriving DecidableEq, Repr

inductive Pipe where
  | server
  | client
deriving DecidableEq, Repr

inductive Conn where
  | pub
  | work
  | service
deriving DecidableEq, Repr

/-- What a pipe reads from, and what it writes to, in each direction. -/
def source : Pipe -> Way -> Conn
  | Pipe.server, Way.toLocal => Conn.pub
  | Pipe.server, Way.toPublic => Conn.work
  | Pipe.client, Way.toLocal => Conn.work
  | Pipe.client, Way.toPublic => Conn.service

def target : Pipe -> Way -> Conn
  | Pipe.server, Way.toLocal => Conn.work
  | Pipe.server, Way.toPublic => Conn.pub
  | Pipe.client, Way.toLocal => Conn.service
  | Pipe.client, Way.toPublic => Conn.work

/-- One direction of a connection. -/
abbrev Hop := Conn × Way

def origin (p : Pipe) (w : Way) : Hop := (source p w, w)

def goal (p : Pipe) (w : Way) : Hop := (target p w, w)

/-- The hops the two ends write to, and those they read from. -/
def entry : Way -> Hop
  | Way.toLocal => (Conn.pub, Way.toLocal)
  | Way.toPublic => (Conn.service, Way.toPublic)

def exit : Way -> Hop
  | Way.toLocal => (Conn.service, Way.toLocal)
  | Way.toPublic => (Conn.pub, Way.toPublic)

/-- What was written to a direction of a connection, and what of it has been read. -/
structure Stream where
  sent : Bytes
  received : Bytes
  /-- its writer has closed the connection, or this direction of it -/
  fin : Bool
  arrives : received <+: sent

namespace Stream

def write (x : Stream) (bytes : Bytes) : Stream :=
  ⟨x.sent ++ bytes, x.received, x.fin, x.arrives.trans (List.prefix_append _ _)⟩

def shut (x : Stream) : Stream := ⟨x.sent, x.received, true, x.arrives⟩

def read (x : Stream) (bytes : Bytes) (h : x.received ++ bytes <+: x.sent) : Stream :=
  ⟨x.sent, x.received ++ bytes, x.fin, h⟩

end Stream

/--
What {lit}`net/http` does with the request that a connection starts with: while
{lit}`ReadRequest` and the body it returns take bytes, {lit}`req.Write` writes others.
-/
structure Http where
  /-- it may have written the second bytes by the time it has taken the first -/
  reaches : Bytes -> Bytes -> Bool
  /-- the first are a whole request, and the second what is written for it -/
  rewrites : Bytes -> Bytes -> Bool
  reaches_nil : reaches [] [] = true

/-- What {lit}`handleVhost` has read and written before it pipes. -/
structure Opening where
  consumed : Bytes
  written : Bytes
deriving DecidableEq, Repr

def Opening.read (o : Opening) : Pipe -> Way -> Bytes
  | Pipe.server, Way.toLocal => o.consumed
  | _, _ => []

def Opening.wrote (o : Opening) : Pipe -> Way -> Bytes
  | Pipe.server, Way.toLocal => o.written
  | _, _ => []

inductive Phase where
  | copying
  /-- {lit}`io.Copy` has returned; what it wrote is to be counted -/
  | counting
  /-- it has sent on {lit}`done` -/
  | done
deriving DecidableEq, Repr

/-- A goroutine with {lit}`io.Copy`. -/
structure Copier where
  phase : Phase
  /-- read, and not yet written -/
  pending : Bytes
  written : Nat
  /-- it has returned at the end of its source, without an error -/
  clean : Bool
deriving DecidableEq, Repr

inductive Main where
  /-- {lit}`handleVhost` is not piping yet -/
  | opening
  | waiting
  | closingFirst
  | closingSecond
  | draining
  | returned
deriving DecidableEq, Repr

/-- A call of {lit}`pipe`. -/
structure Call where
  copiers : Way -> Copier
  main : Main
  /-- it has closed the connection -/
  closed : Conn -> Bool

structure State where
  opening : Opening
  hops : Hop -> Stream
  calls : Pipe -> Call
  /-- {lit}`cnt.out` and {lit}`cnt.in` of {lit}`rctd` -/
  counted : Way -> Nat

inductive Action where
  /-- an end of the tunnel writes -/
  | send (w : Way) (bytes : Bytes)
  | finish (w : Way)
  | receive (w : Way) (bytes : Bytes)
  /-- {lit}`ReadRequest` reads, or the body does -/
  | takeRequest (bytes : Bytes)
  | writeRequest (bytes : Bytes)
  /-- {lit}`req.Write` has returned, without an error or with one -/
  | openPipe
  | giveUp
  /-- {lit}`io.Copy` reads -/
  | read (p : Pipe) (w : Way) (bytes : Bytes)
  | eof (p : Pipe) (w : Way)
  | write (p : Pipe) (w : Way)
  /-- its read fails, or its write does after some of the bytes -/
  | fail (p : Pipe) (w : Way) (k : Nat)
  | count (p : Pipe) (w : Way)
  /-- {lit}`pipe` receives from {lit}`done` for the first time -/
  | wake (p : Pipe)
  | close (p : Pipe)
  | finishPipe (p : Pipe)
deriving DecidableEq, Repr

/-- The connections of a pipe in the order it closes them. -/
def first : Pipe -> Conn
  | Pipe.server => Conn.pub
  | Pipe.client => Conn.work

def second : Pipe -> Conn
  | Pipe.server => Conn.work
  | Pipe.client => Conn.service

/-- What the pipe writes to on the connection. -/
def outgoing (p : Pipe) (c : Conn) : Hop :=
  if target p Way.toLocal = c then (c, Way.toLocal) else (c, Way.toPublic)

def State.setHop (s : State) (h : Hop) (x : Stream) : State :=
  { s with hops := Function.update s.hops h x }

def State.setCall (s : State) (p : Pipe) (x : Call) : State :=
  { s with calls := Function.update s.calls p x }

def Call.setCopier (x : Call) (w : Way) (c : Copier) : Call :=
  { x with copiers := Function.update x.copiers w c }

def State.copier (s : State) (p : Pipe) (w : Way) : Copier := (s.calls p).copiers w

def State.setCopier (s : State) (p : Pipe) (w : Way) (c : Copier) : State :=
  s.setCall p ((s.calls p).setCopier w c)

/-- {lit}`Close()` by the pipe, which goes on in {lit}`main`. -/
def State.closeConn (s : State) (p : Pipe) (c : Conn) (main : Main) : State :=
  (s.setHop (outgoing p c) (s.hops (outgoing p c)).shut).setCall p
    { s.calls p with closed := Function.update (s.calls p).closed c true, main := main }

/-- The copier goes on after it has written some of what was pending. -/
def Copier.emit (c : Copier) (bytes : Bytes) (phase : Phase) : Copier :=
  { c with
    phase := phase
    pending := c.pending.drop bytes.length
    written := c.written + bytes.length }

def Copier.new : Copier where
  phase := Phase.copying
  pending := []
  written := 0
  clean := false

/-- A copier that is not started any more. -/
def Copier.unused : Copier := { Copier.new with phase := Phase.done }

section Steps

variable (http : Option Http)

/-- A step of {lit}`handleVhost` before it pipes. -/
def State.mayReach (s : State) (opening : Opening) : Bool :=
  (s.calls Pipe.server).main = Main.opening ∧
    http.any fun http => http.reaches opening.consumed opening.written

def step (s : State) : Action -> Option State
  | Action.send w bytes =>
      if (s.hops (entry w)).fin = false then
        some (s.setHop (entry w) ((s.hops (entry w)).write bytes))
      else
        none
  | Action.finish w => some (s.setHop (entry w) (s.hops (entry w)).shut)
  | Action.receive w bytes =>
      if h : (s.hops (exit w)).received ++ bytes <+: (s.hops (exit w)).sent then
        some (s.setHop (exit w) ((s.hops (exit w)).read bytes h))
      else
        none
  | Action.takeRequest bytes =>
      if s.mayReach http { s.opening with consumed := s.opening.consumed ++ bytes } then
        if h : (s.hops (entry Way.toLocal)).received ++ bytes <+:
            (s.hops (entry Way.toLocal)).sent then
          some { s.setHop (entry Way.toLocal) ((s.hops (entry Way.toLocal)).read bytes h) with
            opening := { s.opening with consumed := s.opening.consumed ++ bytes } }
        else
          none
      else
        none
  | Action.writeRequest bytes =>
      if s.mayReach http { s.opening with written := s.opening.written ++ bytes } then
        some { s.setHop (goal Pipe.server Way.toLocal)
            ((s.hops (goal Pipe.server Way.toLocal)).write bytes) with
          opening := { s.opening with written := s.opening.written ++ bytes } }
      else
        none
  | Action.openPipe =>
      if (s.calls Pipe.server).main = Main.opening ∧
          http.any fun http => http.rewrites s.opening.consumed s.opening.written then
        some (s.setCall Pipe.server { s.calls Pipe.server with main := Main.waiting })
      else
        none
  | Action.giveUp =>
      if (s.calls Pipe.server).main = Main.opening then
        some (s.setCall Pipe.server { s.calls Pipe.server with
          copiers := fun _ => Copier.unused
          main := Main.closingFirst })
      else
        none
  | Action.read p w bytes =>
      if (s.calls p).main ≠ Main.opening ∧ (s.copier p w).phase = Phase.copying ∧
          (s.copier p w).pending = [] ∧ (s.calls p).closed (source p w) = false then
        if h : (s.hops (origin p w)).received ++ bytes <+: (s.hops (origin p w)).sent then
          some ((s.setHop (origin p w) ((s.hops (origin p w)).read bytes h)).setCopier p w
            { s.copier p w with pending := bytes })
        else
          none
      else
        none
  | Action.eof p w =>
      if (s.calls p).main ≠ Main.opening ∧ (s.copier p w).phase = Phase.copying ∧
          (s.copier p w).pending = [] ∧ (s.calls p).closed (source p w) = false ∧
          (s.hops (origin p w)).fin = true ∧
          (s.hops (origin p w)).received = (s.hops (origin p w)).sent then
        some (s.setCopier p w { s.copier p w with phase := Phase.counting, clean := true })
      else
        none
  | Action.write p w =>
      if (s.calls p).main ≠ Main.opening ∧ (s.copier p w).phase = Phase.copying ∧
          (s.hops (goal p w)).fin = false then
        some ((s.setHop (goal p w)
          ((s.hops (goal p w)).write (s.copier p w).pending)).setCopier p w
            ((s.copier p w).emit (s.copier p w).pending Phase.copying))
      else
        none
  | Action.fail p w k =>
      if (s.calls p).main ≠ Main.opening ∧ (s.copier p w).phase = Phase.copying then
        if (s.hops (goal p w)).fin then
          some (s.setCopier p w { s.copier p w with phase := Phase.counting })
        else
          some ((s.setHop (goal p w)
            ((s.hops (goal p w)).write ((s.copier p w).pending.take k))).setCopier p w
              ((s.copier p w).emit ((s.copier p w).pending.take k) Phase.counting))
      else
        none
  | Action.count p w =>
      if (s.copier p w).phase = Phase.counting then
        some { s.setCopier p w { s.copier p w with phase := Phase.done } with
          counted :=
            if p = Pipe.server then
              Function.update s.counted w (s.counted w + (s.copier p w).written)
            else s.counted }
      else
        none
  | Action.wake p =>
      if (s.calls p).main = Main.waiting ∧ ((s.copier p Way.toLocal).phase = Phase.done ∨
          (s.copier p Way.toPublic).phase = Phase.done) then
        some (s.setCall p { s.calls p with main := Main.closingFirst })
      else
        none
  | Action.close p =>
      match (s.calls p).main with
      | Main.closingFirst => some (s.closeConn p (first p) Main.closingSecond)
      | Main.closingSecond => some (s.closeConn p (second p) Main.draining)
      | _ => none
  | Action.finishPipe p =>
      if (s.calls p).main = Main.draining ∧ (s.copier p Way.toLocal).phase = Phase.done ∧
          (s.copier p Way.toPublic).phase = Phase.done then
        some (s.setCall p { s.calls p with main := Main.returned })
      else
        none

def Call.new (main : Main) : Call where
  copiers := fun _ => Copier.new
  main := main
  closed := fun _ => false

/-- The work connection is there; over http, nothing has been read yet. -/
def initial : State where
  opening := ⟨[], []⟩
  hops := fun _ => ⟨[], [], false, List.prefix_rfl⟩
  calls := fun p =>
    Call.new (if p = Pipe.server ∧ http.isSome = true then Main.opening else Main.waiting)
  counted := fun _ => 0

def machine : Machine State Action where
  init s := s = initial http
  step := step http

/-!
# What a step can do
-/

inductive Moves (s : State) : Action -> State -> Prop where
  | send {w : Way} {bytes : Bytes} (hfin : (s.hops (entry w)).fin = false) :
      Moves s (Action.send w bytes) (s.setHop (entry w) ((s.hops (entry w)).write bytes))
  | finish {w : Way} : Moves s (Action.finish w) (s.setHop (entry w) (s.hops (entry w)).shut)
  | receive {w : Way} {bytes : Bytes}
      (harrives : (s.hops (exit w)).received ++ bytes <+: (s.hops (exit w)).sent) :
      Moves s (Action.receive w bytes)
        (s.setHop (exit w) ((s.hops (exit w)).read bytes harrives))
  | takeRequest {bytes : Bytes}
      (hreach : s.mayReach http { s.opening with
        consumed := s.opening.consumed ++ bytes } = true)
      (harrives : (s.hops (entry Way.toLocal)).received ++ bytes <+:
        (s.hops (entry Way.toLocal)).sent) :
      Moves s (Action.takeRequest bytes)
        { s.setHop (entry Way.toLocal)
            ((s.hops (entry Way.toLocal)).read bytes harrives) with
          opening := { s.opening with consumed := s.opening.consumed ++ bytes } }
  | writeRequest {bytes : Bytes}
      (hreach : s.mayReach http { s.opening with
        written := s.opening.written ++ bytes } = true) :
      Moves s (Action.writeRequest bytes)
        { s.setHop (goal Pipe.server Way.toLocal)
            ((s.hops (goal Pipe.server Way.toLocal)).write bytes) with
          opening := { s.opening with written := s.opening.written ++ bytes } }
  | openPipe (hmain : (s.calls Pipe.server).main = Main.opening)
      (hrewrites : http.any (fun http => http.rewrites s.opening.consumed s.opening.written) =
        true) :
      Moves s Action.openPipe
        (s.setCall Pipe.server { s.calls Pipe.server with main := Main.waiting })
  | giveUp (hmain : (s.calls Pipe.server).main = Main.opening) :
      Moves s Action.giveUp (s.setCall Pipe.server { s.calls Pipe.server with
        copiers := fun _ => Copier.unused
        main := Main.closingFirst })
  | read {p : Pipe} {w : Way} {bytes : Bytes} (hmain : (s.calls p).main ≠ Main.opening)
      (hphase : (s.copier p w).phase = Phase.copying) (hpending : (s.copier p w).pending = [])
      (harrives : (s.hops (origin p w)).received ++ bytes <+: (s.hops (origin p w)).sent) :
      Moves s (Action.read p w bytes)
        ((s.setHop (origin p w) ((s.hops (origin p w)).read bytes harrives)).setCopier p w
          { s.copier p w with pending := bytes })
  | eof {p : Pipe} {w : Way} (hmain : (s.calls p).main ≠ Main.opening)
      (hphase : (s.copier p w).phase = Phase.copying) (hpending : (s.copier p w).pending = [])
      (hfin : (s.hops (origin p w)).fin = true)
      (hall : (s.hops (origin p w)).received = (s.hops (origin p w)).sent) :
      Moves s (Action.eof p w)
        (s.setCopier p w { s.copier p w with phase := Phase.counting, clean := true })
  | write {p : Pipe} {w : Way} (hmain : (s.calls p).main ≠ Main.opening)
      (hphase : (s.copier p w).phase = Phase.copying)
      (hfin : (s.hops (goal p w)).fin = false) :
      Moves s (Action.write p w) ((s.setHop (goal p w)
        ((s.hops (goal p w)).write (s.copier p w).pending)).setCopier p w
          ((s.copier p w).emit (s.copier p w).pending Phase.copying))
  | failShut {p : Pipe} {w : Way} {k : Nat} (hmain : (s.calls p).main ≠ Main.opening)
      (hphase : (s.copier p w).phase = Phase.copying) :
      Moves s (Action.fail p w k)
        (s.setCopier p w { s.copier p w with phase := Phase.counting })
  | fail {p : Pipe} {w : Way} {k : Nat} (hmain : (s.calls p).main ≠ Main.opening)
      (hphase : (s.copier p w).phase = Phase.copying)
      (hfin : (s.hops (goal p w)).fin = false) :
      Moves s (Action.fail p w k) ((s.setHop (goal p w)
        ((s.hops (goal p w)).write ((s.copier p w).pending.take k))).setCopier p w
          ((s.copier p w).emit ((s.copier p w).pending.take k) Phase.counting))
  | count {p : Pipe} {w : Way} (hphase : (s.copier p w).phase = Phase.counting) :
      Moves s (Action.count p w)
        { s.setCopier p w { s.copier p w with phase := Phase.done } with
          counted :=
            if p = Pipe.server then
              Function.update s.counted w (s.counted w + (s.copier p w).written)
            else s.counted }
  | wake {p : Pipe} (hmain : (s.calls p).main = Main.waiting)
      (hdone : exists w, (s.copier p w).phase = Phase.done) :
      Moves s (Action.wake p) (s.setCall p { s.calls p with main := Main.closingFirst })
  | closeFirst {p : Pipe} (hmain : (s.calls p).main = Main.closingFirst) :
      Moves s (Action.close p) (s.closeConn p (first p) Main.closingSecond)
  | closeSecond {p : Pipe} (hmain : (s.calls p).main = Main.closingSecond) :
      Moves s (Action.close p) (s.closeConn p (second p) Main.draining)
  | finishPipe {p : Pipe} (hmain : (s.calls p).main = Main.draining)
      (hdone : forall w, (s.copier p w).phase = Phase.done) :
      Moves s (Action.finishPipe p) (s.setCall p { s.calls p with main := Main.returned })

variable {http}

theorem step_moves {s t : State} {a : Action} (h : step http s a = some t) :
    Moves http s a t := by
  cases a with
  | send w bytes =>
      simp only [step, Option.ite_none_right_eq_some] at h
      rcases h with ⟨hfin, h⟩
      cases h
      exact Moves.send hfin
  | finish w =>
      cases h
      exact Moves.finish
  | receive w bytes =>
      simp only [step, Option.dite_none_right_eq_some] at h
      rcases h with ⟨harrives, h⟩
      cases h
      exact Moves.receive harrives
  | takeRequest bytes =>
      simp only [step, Option.ite_none_right_eq_some, Option.dite_none_right_eq_some] at h
      rcases h with ⟨hreach, harrives, h⟩
      cases h
      exact Moves.takeRequest hreach harrives
  | writeRequest bytes =>
      simp only [step, Option.ite_none_right_eq_some] at h
      rcases h with ⟨hreach, h⟩
      cases h
      exact Moves.writeRequest hreach
  | openPipe =>
      simp only [step, Option.ite_none_right_eq_some] at h
      rcases h with ⟨⟨hmain, hrewrites⟩, h⟩
      cases h
      exact Moves.openPipe hmain hrewrites
  | giveUp =>
      simp only [step, Option.ite_none_right_eq_some] at h
      rcases h with ⟨hmain, h⟩
      cases h
      exact Moves.giveUp hmain
  | read p w bytes =>
      simp only [step, Option.ite_none_right_eq_some, Option.dite_none_right_eq_some] at h
      rcases h with ⟨⟨hmain, hphase, hpending, -⟩, harrives, h⟩
      cases h
      exact Moves.read hmain hphase hpending harrives
  | eof p w =>
      simp only [step, Option.ite_none_right_eq_some] at h
      rcases h with ⟨⟨hmain, hphase, hpending, -, hfin, hall⟩, h⟩
      cases h
      exact Moves.eof hmain hphase hpending hfin hall
  | write p w =>
      simp only [step, Option.ite_none_right_eq_some] at h
      rcases h with ⟨⟨hmain, hphase, hfin⟩, h⟩
      cases h
      exact Moves.write hmain hphase hfin
  | fail p w k =>
      simp only [step, Option.ite_none_right_eq_some] at h
      rcases h with ⟨⟨hmain, hphase⟩, h⟩
      split at h
      · cases h
        exact Moves.failShut hmain hphase
      · rename_i hfin
        cases h
        exact Moves.fail hmain hphase (Bool.eq_false_iff.mpr hfin)
  | count p w =>
      simp only [step, Option.ite_none_right_eq_some] at h
      rcases h with ⟨hphase, h⟩
      cases h
      exact Moves.count hphase
  | wake p =>
      simp only [step, Option.ite_none_right_eq_some] at h
      rcases h with ⟨⟨hmain, hdone⟩, h⟩
      cases h
      rcases hdone with hdone | hdone
      · exact Moves.wake hmain ⟨_, hdone⟩
      · exact Moves.wake hmain ⟨_, hdone⟩
  | close p =>
      simp only [step] at h
      split at h
      · rename_i hmain
        cases h
        exact Moves.closeFirst hmain
      · rename_i hmain
        cases h
        exact Moves.closeSecond hmain
      · cases h
  | finishPipe p =>
      simp only [step, Option.ite_none_right_eq_some] at h
      rcases h with ⟨⟨hmain, hlocal, hpublic⟩, h⟩
      cases h
      apply Moves.finishPipe hmain
      intro w
      cases w with
      | toLocal => exact hlocal
      | toPublic => exact hpublic

end Steps

/-!
# One copier
-/

/-- What a copier has read from its source, behind the opening, it has written, or it is
pending; one that returned at the end of its source has read all of it. -/
structure Copier.Links (c : Copier) (read wrote : Bytes) (src dst : Stream) : Prop where
  linked : exists bytes, src.received = read ++ bytes ∧ wrote ++ bytes = dst.sent ++ c.pending
  written : dst.sent.length = wrote.length + c.written
  clean : c.clean = true -> c.phase ≠ Phase.copying ∧ c.pending = [] ∧ src.fin = true ∧
    src.received = src.sent

namespace Copier.Links

variable {c c' : Copier} {read wrote : Bytes} {src src' dst dst' : Stream}

/-- The copier does not see what others do to its source and its target. -/
theorem frame (h : c.Links read wrote src dst) (hreceived : src'.received = src.received)
    (hfin : src.fin = true -> src'.fin = true ∧ src'.sent = src.sent)
    (hsent : dst'.sent = dst.sent) : c.Links read wrote src' dst' where
  linked := by
    rw [hreceived, hsent]
    exact h.linked
  written := by
    rw [hsent]
    exact h.written
  clean := by
    intro hclean
    rcases h.clean hclean with ⟨hphase, hpending, hend, hall⟩
    rcases hfin hend with ⟨hend', hsame⟩
    exact ⟨hphase, hpending, hend', by rw [hreceived, hsame, hall]⟩

theorem not_clean (h : c.Links read wrote src dst) (hphase : c.phase = Phase.copying) :
    c.clean = false := by
  cases hclean : c.clean with
  | false => rfl
  | true => exact absurd hphase (h.clean hclean).left

theorem take (h : c.Links read wrote src dst) (hphase : c.phase = Phase.copying)
    (hpending : c.pending = []) {bytes : Bytes} (harrives : src.received ++ bytes <+: src.sent) :
    { c with pending := bytes }.Links read wrote (src.read bytes harrives) dst where
  linked := by
    rcases h.linked with ⟨before, hread, hwrote⟩
    rw [hpending, List.append_nil] at hwrote
    refine ⟨before ++ bytes, ?_, ?_⟩
    · change src.received ++ bytes = _
      rw [hread, List.append_assoc]
    · rw [← hwrote, List.append_assoc]
  written := h.written
  clean := by
    intro hclean
    rw [h.not_clean hphase] at hclean
    cases hclean

theorem emit (h : c.Links read wrote src dst) (hphase : c.phase = Phase.copying)
    {bytes : Bytes} (hbytes : bytes <+: c.pending) (phase : Phase) :
    (c.emit bytes phase).Links read wrote src (dst.write bytes) where
  linked := by
    rcases h.linked with ⟨before, hread, hwrote⟩
    rcases hbytes with ⟨rest, hrest⟩
    refine ⟨before, hread, ?_⟩
    rw [hwrote, Stream.write, Copier.emit, ← hrest, List.drop_left, List.append_assoc]
  written := by
    rw [Stream.write, List.length_append, h.written, Copier.emit, Nat.add_assoc]
  clean := by
    intro hclean
    rw [Copier.emit, h.not_clean hphase] at hclean
    cases hclean

theorem unwritten (h : c.Links read wrote src dst) (hwritten : c.written = 0) :
    dst.sent = wrote := by
  rcases h.linked with ⟨bytes, -, hwrote⟩
  have hlength : wrote.length = dst.sent.length := by
    rw [h.written, hwritten, Nat.add_zero]
  exact (List.append_inj_left hwrote hlength).symm

theorem new (hread : src.received = read) (hwrote : dst.sent = wrote) :
    Copier.new.Links read wrote src dst where
  linked := ⟨[], by rw [hread, List.append_nil], by rw [hwrote]; rfl⟩
  written := congrArg List.length hwrote
  clean := by
    intro hclean
    cases hclean

theorem of_new (h : Copier.new.Links read wrote src dst) :
    src.received = read ∧ dst.sent = wrote := by
  have hsent := h.unwritten rfl
  rcases h.linked with ⟨bytes, hread, hwrote⟩
  have hnone : bytes = [] := by
    rw [hsent] at hwrote
    exact List.append_cancel_left hwrote
  rw [hnone, List.append_nil] at hread
  exact ⟨hread, hsent⟩

/-- What has arrived at the target is what was sent to the source, as far as it goes. -/
theorem delivered (h : c.Links read wrote src dst) :
    dst.sent <+: wrote ++ src.received.drop read.length := by
  rcases h.linked with ⟨bytes, hread, hwrote⟩
  rw [hread, List.drop_left, hwrote]
  exact List.prefix_append _ _

theorem complete (h : c.Links read wrote src dst) (hclean : c.clean = true) :
    dst.sent = wrote ++ src.sent.drop read.length := by
  rcases h.clean hclean with ⟨-, hpending, -, hall⟩
  rcases h.linked with ⟨bytes, hread, hwrote⟩
  rw [hpending, List.append_nil] at hwrote
  rw [← hall, hread, List.drop_left, hwrote]

end Copier.Links

/-!
# All copiers
-/

theorem origin_inj {p q : Pipe} {w v : Way} (h : origin p w = origin q v) : p = q ∧ w = v := by
  cases p <;> cases q <;> cases w <;> cases v <;> simp_all [origin, source]

theorem goal_inj {p q : Pipe} {w v : Way} (h : goal p w = goal q v) : p = q ∧ w = v := by
  cases p <;> cases q <;> cases w <;> cases v <;> simp_all [goal, target]

theorem goal_ne_entry (p : Pipe) (w v : Way) : goal p w ≠ entry v := by
  cases p <;> cases w <;> cases v <;> simp [goal, target, entry]

theorem origin_ne_exit (p : Pipe) (w v : Way) : origin p w ≠ exit v := by
  cases p <;> cases w <;> cases v <;> simp [origin, source, exit]

theorem origin_ne_goal (p : Pipe) (w : Way) : origin p w ≠ goal p w := by
  cases p <;> cases w <;> simp [origin, source, goal, target]

theorem goal_eq_outgoing {p q : Pipe} {w : Way} {c : Conn} (hc : c = first p ∨ c = second p) :
    goal q w = outgoing p c <-> q = p ∧ target q w = c := by
  cases p <;> rcases hc with rfl | rfl <;> cases q <;> cases w <;>
    simp [goal, target, outgoing, first, second]

/-- Every copier links its source to its target. -/
def AllLinked (o : Opening) (hops : Hop -> Stream) (calls : Pipe -> Call) : Prop :=
  forall p w, ((calls p).copiers w).Links (o.read p w) (o.wrote p w) (hops (origin p w))
    (hops (goal p w))

namespace AllLinked

variable {o : Opening} {hops : Hop -> Stream} {calls : Pipe -> Call}
variable {p : Pipe} {w : Way} {h : Hop} {y : Stream}

theorem start (http : Option Http) :
    AllLinked (initial http).opening (initial http).hops (initial http).calls := by
  intro p w
  apply Copier.Links.new
  · cases p <;> cases w <;> rfl
  · cases p <;> cases w <;> rfl

/-- The opening and the directions change, for the copier that goes on from the opening. -/
theorem of_opening {o' : Opening} {hops' : Hop -> Stream}
    (hmine : ((calls Pipe.server).copiers Way.toLocal).Links o'.consumed o'.written
      (hops' (origin Pipe.server Way.toLocal)) (hops' (goal Pipe.server Way.toLocal)))
    (hother : forall q v, (q, v) ≠ (Pipe.server, Way.toLocal) ->
      ((calls q).copiers v).Links (o.read q v) (o.wrote q v) (hops' (origin q v))
        (hops' (goal q v))) :
    AllLinked o' hops' calls := by
  intro q v
  by_cases hqv : (q, v) = (Pipe.server, Way.toLocal)
  · cases hqv
    exact hmine
  · have hread : o'.read q v = o.read q v := by
      cases q <;> cases v <;> first | rfl | exact absurd rfl hqv
    have hwrote : o'.wrote q v = o.wrote q v := by
      cases q <;> cases v <;> first | rfl | exact absurd rfl hqv
    rw [hread, hwrote]
    exact hother q v hqv

/-- The handler takes some of the request. -/
theorem takeRequest (hl : AllLinked o hops calls)
    (hnew : (calls Pipe.server).copiers Way.toLocal = Copier.new) {bytes : Bytes}
    (harrives : (hops (entry Way.toLocal)).received ++ bytes <+: (hops (entry Way.toLocal)).sent) :
    AllLinked { o with consumed := o.consumed ++ bytes }
      (Function.update hops (entry Way.toLocal) ((hops (entry Way.toLocal)).read bytes harrives))
      calls := by
  have hmine := hl Pipe.server Way.toLocal
  rw [hnew] at hmine
  rcases hmine.of_new with ⟨hread, hwrote⟩
  apply of_opening
  · rw [hnew]
    apply Copier.Links.new
    · change (Function.update hops (entry Way.toLocal) _ (entry Way.toLocal)).received = _
      rw [Function.update_self]
      exact congrArg (· ++ bytes) hread
    · rw [Function.update_of_ne (goal_ne_entry _ _ _)]
      exact hwrote
  · intro q v hqv
    have hne : origin q v ≠ entry Way.toLocal := by
      intro horigin
      rcases origin_inj (q := Pipe.server) (v := Way.toLocal) horigin with ⟨rfl, rfl⟩
      exact hqv rfl
    rw [Function.update_of_ne hne, Function.update_of_ne (goal_ne_entry _ _ _)]
    exact hl q v

/-- The handler writes some of it again. -/
theorem writeRequest (hl : AllLinked o hops calls)
    (hnew : (calls Pipe.server).copiers Way.toLocal = Copier.new)
    (hfin : (hops (goal Pipe.server Way.toLocal)).fin = false) (bytes : Bytes) :
    AllLinked { o with written := o.written ++ bytes }
      (Function.update hops (goal Pipe.server Way.toLocal)
        ((hops (goal Pipe.server Way.toLocal)).write bytes)) calls := by
  have hmine := hl Pipe.server Way.toLocal
  rw [hnew] at hmine
  rcases hmine.of_new with ⟨hread, hwrote⟩
  apply of_opening
  · rw [hnew]
    apply Copier.Links.new
    · rw [Function.update_of_ne (origin_ne_goal _ _)]
      exact hread
    · rw [Function.update_self]
      exact congrArg (· ++ bytes) hwrote
  · intro q v hqv
    have hne : goal q v ≠ goal Pipe.server Way.toLocal := by
      intro hgoal
      rcases goal_inj hgoal with ⟨rfl, rfl⟩
      exact hqv rfl
    rw [Function.update_of_ne hne]
    have hother := hl q v
    by_cases horigin : origin q v = goal Pipe.server Way.toLocal
    · rw [horigin, Function.update_self]
      rw [horigin] at hother
      apply hother.frame
      · rfl
      · intro hend
        rw [hfin] at hend
        cases hend
      · rfl
    · rw [Function.update_of_ne horigin]
      exact hother

/-- Someone else changes a direction. -/
theorem setHop (hl : AllLinked o hops calls)
    (hsource : forall q v, origin q v = h -> y.received = (hops h).received ∧
      ((hops h).fin = true -> y.fin = true ∧ y.sent = (hops h).sent))
    (hgoal : forall q v, goal q v = h -> y.sent = (hops h).sent) :
    AllLinked o (Function.update hops h y) calls := by
  intro q v
  have hsrc : (Function.update hops h y (origin q v)).received = (hops (origin q v)).received ∧
      ((hops (origin q v)).fin = true -> (Function.update hops h y (origin q v)).fin = true ∧
        (Function.update hops h y (origin q v)).sent = (hops (origin q v)).sent) := by
    by_cases horigin : origin q v = h
    · rw [horigin, Function.update_self]
      exact hsource q v horigin
    · rw [Function.update_of_ne horigin]
      exact ⟨rfl, fun hfin => ⟨hfin, rfl⟩⟩
  have hdst : (Function.update hops h y (goal q v)).sent = (hops (goal q v)).sent := by
    by_cases hg : goal q v = h
    · rw [hg, Function.update_self]
      exact hgoal q v hg
    · rw [Function.update_of_ne hg]
  exact (hl q v).frame hsrc.left hsrc.right hdst

theorem shut (hl : AllLinked o hops calls) (h : Hop) :
    AllLinked o (Function.update hops h (hops h).shut) calls :=
  hl.setHop (fun _ _ _ => ⟨rfl, fun _ => ⟨rfl, rfl⟩⟩) (fun _ _ _ => rfl)

/-- A call changes, but not its copiers. -/
theorem setCall (hl : AllLinked o hops calls) {x : Call} (hx : x.copiers = (calls p).copiers) :
    AllLinked o hops (Function.update calls p x) := by
  intro q v
  by_cases hq : q = p
  · rw [hq, Function.update_self, hx]
    exact hl p v
  · rw [Function.update_of_ne hq]
    exact hl q v

/-- A copier changes, and with it perhaps directions that the others see as before. -/
theorem of_copier {hops' : Hop -> Stream} {c : Copier}
    (hc : c.Links (o.read p w) (o.wrote p w) (hops' (origin p w)) (hops' (goal p w)))
    (hother : forall q v, (q, v) ≠ (p, w) ->
      ((calls q).copiers v).Links (o.read q v) (o.wrote q v) (hops' (origin q v))
        (hops' (goal q v))) :
    AllLinked o hops' (Function.update calls p ((calls p).setCopier w c)) := by
  intro q v
  by_cases hq : q = p
  · rw [hq, Function.update_self, Call.setCopier]
    by_cases hv : v = w
    · rw [hv]
      simpa using hc
    · simpa [Function.update_of_ne hv] using hother p v (by simp [hv])
  · rw [Function.update_of_ne hq]
    exact hother q v (by simp [hq])

/-- A copier reads. -/
theorem take (hl : AllLinked o hops calls)
    (hphase : ((calls p).copiers w).phase = Phase.copying)
    (hpending : ((calls p).copiers w).pending = []) {bytes : Bytes}
    (harrives : (hops (origin p w)).received ++ bytes <+: (hops (origin p w)).sent) :
    AllLinked o
      (Function.update hops (origin p w) ((hops (origin p w)).read bytes harrives))
      (Function.update calls p
        ((calls p).setCopier w { (calls p).copiers w with pending := bytes })) := by
  apply of_copier
  · rw [Function.update_self, Function.update_of_ne (origin_ne_goal p w).symm]
    exact (hl p w).take hphase hpending harrives
  · intro q v hqv
    have hne : origin q v ≠ origin p w := by
      intro horigin
      rcases origin_inj horigin with ⟨rfl, rfl⟩
      exact hqv rfl
    rw [Function.update_of_ne hne]
    apply (hl q v).frame rfl (fun hfin => ⟨hfin, rfl⟩)
    by_cases hgoal : goal q v = origin p w
    · rw [hgoal, Function.update_self]
      rfl
    · rw [Function.update_of_ne hgoal]

/-- A copier writes to a direction that is not closed. -/
theorem emit (hl : AllLinked o hops calls)
    (hphase : ((calls p).copiers w).phase = Phase.copying)
    (hfin : (hops (goal p w)).fin = false) {bytes : Bytes}
    (hbytes : bytes <+: ((calls p).copiers w).pending) (phase : Phase) :
    AllLinked o
      (Function.update hops (goal p w) ((hops (goal p w)).write bytes))
      (Function.update calls p
        ((calls p).setCopier w (((calls p).copiers w).emit bytes phase))) := by
  apply of_copier
  · rw [Function.update_self, Function.update_of_ne (origin_ne_goal p w)]
    exact (hl p w).emit hphase hbytes phase
  · intro q v hqv
    have hne : goal q v ≠ goal p w := by
      intro hgoal
      rcases goal_inj hgoal with ⟨rfl, rfl⟩
      exact hqv rfl
    rw [Function.update_of_ne hne]
    have hother := hl q v
    by_cases horigin : origin q v = goal p w
    · rw [horigin, Function.update_self]
      rw [horigin] at hother
      apply hother.frame
      · rfl
      · intro hend
        rw [hfin] at hend
        cases hend
      · rfl
    · rw [Function.update_of_ne horigin]
      exact hother

end AllLinked

/-!
# One call
-/

/-- What a call of {lit}`pipe` has done, as far as it has come. -/
structure Call.Orderly (p : Pipe) (x : Call) : Prop where
  opening : x.main = Main.opening -> p = Pipe.server ∧ forall w, x.copiers w = Copier.new
  untouched : x.main = Main.opening ∨ x.main = Main.waiting ∨ x.main = Main.closingFirst ->
    forall c, x.closed c = false
  closing : x.main ≠ Main.opening -> x.main ≠ Main.waiting ->
    exists w, (x.copiers w).phase = Phase.done
  closedFirst : x.main = Main.closingSecond ∨ x.main = Main.draining ∨ x.main = Main.returned ->
    x.closed (first p) = true
  closedSecond : x.main = Main.draining ∨ x.main = Main.returned -> x.closed (second p) = true
  returned : x.main = Main.returned -> forall w, (x.copiers w).phase = Phase.done

namespace Call.Orderly

variable {p : Pipe} {x : Call} {w : Way} {c : Copier}

theorem waiting (p : Pipe) : (Call.new Main.waiting).Orderly p := by
  constructor
  · intro h
    cases h
  · exact fun _ _ => rfl
  · exact fun _ h => absurd rfl h
  · rintro (h | h | h) <;> cases h
  · rintro (h | h) <;> cases h
  · intro h
    cases h

theorem start (http : Option Http) (p : Pipe) : ((initial http).calls p).Orderly p := by
  change (Call.new _).Orderly p
  split
  · rename_i hserver
    constructor
    · exact fun _ => ⟨hserver.left, fun _ => rfl⟩
    · exact fun _ _ => rfl
    · exact fun h => absurd rfl h
    · rintro (h | h | h) <;> cases h
    · rintro (h | h) <;> cases h
    · intro h
      cases h
  · exact waiting p

/-- A copier that is not done goes on. -/
theorem setCopier (hx : x.Orderly p) (hmain : x.main ≠ Main.opening)
    (hbefore : (x.copiers w).phase ≠ Phase.done) : (x.setCopier w c).Orderly p := by
  constructor
  · exact fun h => absurd h hmain
  · exact hx.untouched
  · intro hopening hwaiting
    rcases hx.closing hopening hwaiting with ⟨v, hv⟩
    have hne : v ≠ w := by
      rintro rfl
      exact hbefore hv
    exact ⟨v, (congrArg Copier.phase (Function.update_of_ne hne ..)).trans hv⟩
  · exact hx.closedFirst
  · exact hx.closedSecond
  · intro h
    exact absurd (hx.returned h w) hbefore

/-- {lit}`handleVhost` starts to pipe. -/
theorem openPipe (hx : x.Orderly p) (hmain : x.main = Main.opening) :
    { x with main := Main.waiting }.Orderly p := by
  constructor
  · intro h
    cases h
  · exact fun _ => hx.untouched (Or.inl hmain)
  · exact fun _ h => absurd rfl h
  · rintro (h | h | h) <;> cases h
  · rintro (h | h) <;> cases h
  · intro h
    cases h

theorem closeNext {copiers : Way -> Copier} (hclosed : forall c, x.closed c = false)
    (hdone : exists w, (copiers w).phase = Phase.done) :
    { x with copiers := copiers, main := Main.closingFirst }.Orderly p := by
  constructor
  · intro h
    cases h
  · exact fun _ => hclosed
  · exact fun _ _ => hdone
  · rintro (h | h | h) <;> cases h
  · rintro (h | h) <;> cases h
  · intro h
    cases h

theorem closeFirst (hx : x.Orderly p) (hmain : x.main = Main.closingFirst) :
    { x with
      closed := Function.update x.closed (first p) true
      main := Main.closingSecond }.Orderly p := by
  constructor
  · intro h
    cases h
  · rintro (h | h | h) <;> cases h
  · intro _ _
    exact hx.closing (by simp [hmain]) (by simp [hmain])
  · intro _
    exact Function.update_self ..
  · rintro (h | h) <;> cases h
  · intro h
    cases h

theorem closeSecond (hx : x.Orderly p) (hmain : x.main = Main.closingSecond) :
    { x with
      closed := Function.update x.closed (second p) true
      main := Main.draining }.Orderly p := by
  have hne : first p ≠ second p := by
    cases p <;> simp [first, second]
  constructor
  · intro h
    cases h
  · rintro (h | h | h) <;> cases h
  · intro _ _
    exact hx.closing (by simp [hmain]) (by simp [hmain])
  · intro _
    exact (Function.update_of_ne hne ..).trans (hx.closedFirst (Or.inl hmain))
  · intro _
    exact Function.update_self ..
  · intro h
    cases h

theorem finish (hx : x.Orderly p) (hmain : x.main = Main.draining)
    (hdone : forall w, (x.copiers w).phase = Phase.done) :
    { x with main := Main.returned }.Orderly p := by
  constructor
  · intro h
    cases h
  · rintro (h | h | h) <;> cases h
  · exact fun _ _ => ⟨Way.toLocal, hdone Way.toLocal⟩
  · exact fun _ => hx.closedFirst (Or.inr (Or.inl hmain))
  · exact fun _ => hx.closedSecond (Or.inl hmain)
  · exact fun _ => hdone

end Call.Orderly

/-- What a pipe writes to has ended when the pipe has closed the connection. -/
def AllShut (hops : Hop -> Stream) (calls : Pipe -> Call) : Prop :=
  forall p w, (hops (goal p w)).fin = (calls p).closed (target p w)

namespace AllShut

variable {hops : Hop -> Stream} {calls : Pipe -> Call} {p : Pipe}

theorem setHop (h : AllShut hops calls) {j : Hop} {y : Stream}
    (hfin : y.fin = (hops j).fin ∨ forall q v, goal q v ≠ j) :
    AllShut (Function.update hops j y) calls := by
  intro q v
  by_cases hj : goal q v = j
  · rw [hj, Function.update_self]
    rcases hfin with hfin | hfin
    · rw [hfin, ← hj]
      exact h q v
    · exact absurd hj (hfin q v)
  · rw [Function.update_of_ne hj]
    exact h q v

theorem setCall (h : AllShut hops calls) {x : Call} (hx : x.closed = (calls p).closed) :
    AllShut hops (Function.update calls p x) := by
  intro q v
  by_cases hq : q = p
  · rw [hq, Function.update_self, hx]
    exact h p v
  · rw [Function.update_of_ne hq]
    exact h q v

theorem closeConn (h : AllShut hops calls) {c : Conn} (hc : c = first p ∨ c = second p)
    {x : Call} (hx : x.closed = Function.update (calls p).closed c true) :
    AllShut (Function.update hops (outgoing p c) (hops (outgoing p c)).shut)
      (Function.update calls p x) := by
  intro q v
  by_cases hmine : goal q v = outgoing p c
  · rw [hmine, Function.update_self]
    rcases (goal_eq_outgoing hc).mp hmine with ⟨rfl, htarget⟩
    rw [Function.update_self, hx, htarget, Function.update_self]
    rfl
  · rw [Function.update_of_ne hmine, h q v]
    by_cases hq : q = p
    · subst hq
      have htarget : target q v ≠ c := fun hsame => hmine ((goal_eq_outgoing hc).mpr ⟨rfl, hsame⟩)
      rw [Function.update_self, hx, Function.update_of_ne htarget]
    · rw [Function.update_of_ne hq]

end AllShut

/-!
# Runs
-/

/-- The pipe of {lit}`rctd` has not started, or it will not. -/
def State.Held (s : State) : Prop :=
  (s.calls Pipe.server).main = Main.opening ∨
    s.copier Pipe.server Way.toLocal = Copier.unused

/-- What has been read and written before a pipe is a request, or the start of one. -/
def Requested (http : Option Http) (o : Opening) (held : Prop) : Prop :=
  match http with
  | none => o = ⟨[], []⟩
  | some http =>
      http.rewrites o.consumed o.written = true ∨
        (http.reaches o.consumed o.written = true ∧ held)

theorem Requested.imp {http : Option Http} {o : Opening} {held held' : Prop}
    (h : Requested http o held) (hheld : held -> held') : Requested http o held' := by
  cases http with
  | none => exact h
  | some http => exact Or.imp_right (And.imp_right hheld) h

structure State.Sound (http : Option Http) (s : State) : Prop where
  linked : AllLinked s.opening s.hops s.calls
  orderly : forall p, (s.calls p).Orderly p
  shut : AllShut s.hops s.calls
  counted : forall w, s.counted w =
    if (s.copier Pipe.server w).phase = Phase.done then (s.copier Pipe.server w).written else 0
  request : Requested http s.opening s.Held

namespace State.Sound

variable {http : Option Http} {s t : State} {p : Pipe} {w : Way} {c : Copier}

theorem start (http : Option Http) : (initial http).Sound http where
  linked := AllLinked.start http
  orderly := Call.Orderly.start http
  shut := fun _ _ => rfl
  counted := fun _ => rfl
  request := by
    cases http with
    | none => rfl
    | some http => exact Or.inr ⟨http.reaches_nil, Or.inl rfl⟩

theorem orderly_setCall (hs : s.Sound http) {x : Call} (hx : x.Orderly p) (q : Pipe) :
    (Function.update s.calls p x q).Orderly q := by
  by_cases hq : q = p
  · rw [hq, Function.update_self]
    exact hx
  · rw [Function.update_of_ne hq]
    exact hs.orderly q

theorem copier_setCopier (s : State) (p q : Pipe) (w v : Way) (c : Copier) :
    (s.setCopier p w c).copier q v = if q = p ∧ v = w then c else s.copier q v := by
  unfold State.copier State.setCopier State.setCall Call.setCopier
  by_cases hq : q = p
  · by_cases hv : v = w
    · simp [hq, hv]
    · simp [hq, hv]
  · simp [hq]

theorem main_setCopier (s : State) (p q : Pipe) (w : Way) (c : Copier) :
    ((s.setCopier p w c).calls q).main = (s.calls q).main := by
  unfold State.setCopier State.setCall Call.setCopier
  by_cases hq : q = p
  · rw [hq]
    simp
  · simp [hq]

/-- A pipe that is held back has no copier that goes on. -/
theorem held_setCopier (h : s.Held) (hmain : (s.calls p).main ≠ Main.opening)
    (hphase : (s.copier p w).phase ≠ Phase.done) (c : Copier) : (s.setCopier p w c).Held := by
  rcases h with hopening | hunused
  · exact Or.inl ((main_setCopier s p Pipe.server w c).trans hopening)
  · apply Or.inr
    rw [copier_setCopier, if_neg, hunused]
    rintro ⟨rfl, rfl⟩
    rw [hunused] at hphase
    exact hphase rfl

/-- A direction changes for others than its copiers. -/
theorem setHop (hs : s.Sound http) {h : Hop} {y : Stream}
    (hlinked : AllLinked s.opening (Function.update s.hops h y) s.calls)
    (hfin : y.fin = (s.hops h).fin ∨ forall q v, goal q v ≠ h) : (s.setHop h y).Sound http :=
  ⟨hlinked, hs.orderly, hs.shut.setHop hfin, hs.counted, hs.request⟩

theorem copier_setCall {x : Call} (hcopiers : x.copiers = (s.calls p).copiers) (w : Way) :
    (s.setCall p x).copier Pipe.server w = s.copier Pipe.server w := by
  change (Function.update s.calls p x Pipe.server).copiers w = (s.calls Pipe.server).copiers w
  by_cases hp : Pipe.server = p
  · rw [hp, Function.update_self, hcopiers]
  · rw [Function.update_of_ne hp]

/-- A call goes on, but not its copiers. -/
theorem setCall (hs : s.Sound http) {hops : Hop -> Stream} {x : Call}
    (hlinked : AllLinked s.opening hops s.calls)
    (hshut : AllShut hops (Function.update s.calls p x))
    (hcopiers : x.copiers = (s.calls p).copiers) (hx : x.Orderly p)
    (hopening : (s.calls p).main = Main.opening -> Requested http s.opening False) :
    { s.setCall p x with hops := hops }.Sound http where
  linked := hlinked.setCall hcopiers
  orderly := hs.orderly_setCall hx
  shut := hshut
  counted := by
    intro w
    have hsame := copier_setCall hcopiers w
    change s.counted w = if ((s.setCall p x).copier Pipe.server w).phase = Phase.done then
      ((s.setCall p x).copier Pipe.server w).written else 0
    rw [hsame]
    exact hs.counted w
  request := by
    by_cases hreq : Requested http s.opening False
    · exact hreq.imp False.elim
    · apply hs.request.imp
      rintro (hmain | hunused)
      · apply Or.inl
        change (Function.update s.calls p x Pipe.server).main = _
        by_cases hp : Pipe.server = p
        · subst hp
          exact absurd (hopening hmain) hreq
        · rw [Function.update_of_ne hp]
          exact hmain
      · exact Or.inr ((copier_setCall hcopiers Way.toLocal).trans hunused)

theorem setMain (hs : s.Sound http) {main : Main}
    (hx : { s.calls p with main := main }.Orderly p)
    (hopening : (s.calls p).main = Main.opening -> Requested http s.opening False) :
    (s.setCall p { s.calls p with main := main }).Sound http :=
  hs.setCall hs.linked (hs.shut.setCall rfl) rfl hx hopening

/-- A copier that copies goes on. -/
theorem setCopier (hs : s.Sound http) {hops : Hop -> Stream}
    (hmain : (s.calls p).main ≠ Main.opening)
    (hphase : (s.copier p w).phase = Phase.copying) (hc : c.phase ≠ Phase.done)
    (hlinked : AllLinked s.opening hops (Function.update s.calls p ((s.calls p).setCopier w c)))
    (hshut : AllShut hops s.calls) : { s.setCopier p w c with hops := hops }.Sound http where
  linked := hlinked
  orderly := by
    apply hs.orderly_setCall
    apply (hs.orderly p).setCopier hmain
    change (s.copier p w).phase ≠ _
    simp [hphase]
  shut := hshut.setCall rfl
  counted := by
    intro v
    change s.counted v = if ((s.setCopier p w c).copier Pipe.server v).phase = Phase.done then
      ((s.setCopier p w c).copier Pipe.server v).written else 0
    rw [copier_setCopier, hs.counted v]
    by_cases hpv : Pipe.server = p ∧ v = w
    · rw [if_pos hpv, hpv.left, hpv.right, hphase]
      simp [hc]
    · rw [if_neg hpv]
  request := hs.request.imp fun h => held_setCopier h hmain (by simp [hphase]) c

/-- What a copier has written is counted. -/
theorem count (hs : s.Sound http) (hphase : (s.copier p w).phase = Phase.counting) :
    { s.setCopier p w { s.copier p w with phase := Phase.done } with
      counted := if p = Pipe.server then
        Function.update s.counted w (s.counted w + (s.copier p w).written)
        else s.counted }.Sound http := by
  have hmain : (s.calls p).main ≠ Main.opening := by
    intro hopening
    have hnew : s.copier p w = Copier.new := ((hs.orderly p).opening hopening).right w
    rw [hnew] at hphase
    cases hphase
  have hbefore : (s.copier p w).phase ≠ Phase.done := by
    rw [hphase]
    exact Phase.noConfusion
  constructor
  · apply AllLinked.of_copier
    · have hlinks := hs.linked p w
      refine ⟨hlinks.linked, hlinks.written, ?_⟩
      intro hclean
      rcases hlinks.clean hclean with ⟨-, hrest⟩
      exact ⟨by simp, hrest⟩
    · exact fun q v _ => hs.linked q v
  · apply hs.orderly_setCall
    exact (hs.orderly p).setCopier hmain hbefore
  · exact hs.shut.setCall rfl
  · intro v
    change (if p = Pipe.server then
        Function.update s.counted w (s.counted w + (s.copier p w).written)
        else s.counted) v =
      if ((s.setCopier p w { s.copier p w with phase := Phase.done }).copier Pipe.server v).phase =
        Phase.done then
        ((s.setCopier p w { s.copier p w with phase := Phase.done }).copier Pipe.server v).written
      else 0
    rw [copier_setCopier]
    have hcounted := hs.counted v
    by_cases hp : p = Pipe.server
    · rw [if_pos hp]
      by_cases hv : v = w
      · rw [← hp, hv, hphase] at hcounted
        simp [hp, hv, show s.counted w = 0 by simpa using hcounted]
      · simp [hp, hv, hcounted]
    · have hne : ¬ (Pipe.server = p ∧ v = w) := fun h => hp h.left.symm
      rw [if_neg hp, if_neg hne, hcounted]
  · exact hs.request.imp fun h => held_setCopier h hmain hbefore _

/-!
## The opening
-/

/-- What the handler may read and write goes on being the start of a request. -/
theorem reached (h : s.mayReach http o = true) (held : Prop) (hheld : held) :
    Requested http o held := by
  cases http with
  | none => simp [State.mayReach] at h
  | some http =>
      simp only [State.mayReach, Option.any_some, decide_eq_true_eq] at h
      exact Or.inr ⟨h.right, hheld⟩

theorem opening_of_mayReach (h : s.mayReach http o = true) :
    (s.calls Pipe.server).main = Main.opening := by
  simp only [State.mayReach, decide_eq_true_eq] at h
  exact h.left

theorem takeRequest (hs : s.Sound http) {bytes : Bytes}
    (hreach : s.mayReach http { s.opening with consumed := s.opening.consumed ++ bytes } = true)
    (harrives : (s.hops (entry Way.toLocal)).received ++ bytes <+:
      (s.hops (entry Way.toLocal)).sent) :
    { s.setHop (entry Way.toLocal) ((s.hops (entry Way.toLocal)).read bytes harrives) with
      opening := { s.opening with consumed := s.opening.consumed ++ bytes } }.Sound http where
  linked := by
    apply hs.linked.takeRequest
    exact ((hs.orderly _).opening (opening_of_mayReach hreach)).right _
  orderly := hs.orderly
  shut := hs.shut.setHop (Or.inl rfl)
  counted := hs.counted
  request := reached hreach _ (Or.inl (opening_of_mayReach hreach))

theorem writeRequest (hs : s.Sound http) {bytes : Bytes}
    (hreach : s.mayReach http { s.opening with written := s.opening.written ++ bytes } = true) :
    { s.setHop (goal Pipe.server Way.toLocal)
        ((s.hops (goal Pipe.server Way.toLocal)).write bytes) with
      opening := { s.opening with written := s.opening.written ++ bytes } }.Sound http where
  linked := by
    have hmain := opening_of_mayReach hreach
    apply hs.linked.writeRequest
    · exact ((hs.orderly _).opening hmain).right _
    · exact (hs.shut _ _).trans ((hs.orderly _).untouched (Or.inl hmain) _)
  orderly := hs.orderly
  shut := hs.shut.setHop (Or.inl rfl)
  counted := hs.counted
  request := reached hreach _ (Or.inl (opening_of_mayReach hreach))

theorem giveUp (hs : s.Sound http) (hmain : (s.calls Pipe.server).main = Main.opening) :
    (s.setCall Pipe.server { s.calls Pipe.server with
      copiers := fun _ => Copier.unused
      main := Main.closingFirst }).Sound http := by
  have hnew := ((hs.orderly Pipe.server).opening hmain).right
  have hcopier : forall w, (s.setCall Pipe.server { s.calls Pipe.server with
      copiers := fun _ => Copier.unused
      main := Main.closingFirst }).copier Pipe.server w = Copier.unused := by
    intro w
    simp [State.copier, State.setCall]
  constructor
  · intro q v
    change ((Function.update s.calls Pipe.server _ q).copiers v).Links _ _ _ _
    by_cases hq : q = Pipe.server
    · subst hq
      have hlinks := hs.linked Pipe.server v
      rw [hnew v] at hlinks
      rw [Function.update_self]
      exact ⟨hlinks.linked, hlinks.written, fun hclean => Bool.noConfusion hclean⟩
    · rw [Function.update_of_ne hq]
      exact hs.linked q v
  · apply hs.orderly_setCall
    apply Call.Orderly.closeNext
    · exact (hs.orderly _).untouched (Or.inl hmain)
    · exact ⟨Way.toLocal, rfl⟩
  · exact hs.shut.setCall rfl
  · intro w
    rw [hcopier w]
    have hcounted := hs.counted w
    rw [show s.copier Pipe.server w = Copier.new from hnew w] at hcounted
    exact hcounted
  · exact hs.request.imp fun _ => Or.inr (hcopier _)

/-!
## Steps
-/

theorem send (hs : s.Sound http) {bytes : Bytes} (hfin : (s.hops (entry w)).fin = false) :
    (s.setHop (entry w) ((s.hops (entry w)).write bytes)).Sound http := by
  apply hs.setHop
  · apply hs.linked.setHop
    · intro q v _
      refine ⟨rfl, fun hend => ?_⟩
      rw [hfin] at hend
      cases hend
    · exact fun q v hgoal => absurd hgoal (goal_ne_entry q v w)
  · exact Or.inl rfl

theorem receive (hs : s.Sound http) {bytes : Bytes}
    (harrives : (s.hops (exit w)).received ++ bytes <+: (s.hops (exit w)).sent) :
    (s.setHop (exit w) ((s.hops (exit w)).read bytes harrives)).Sound http := by
  apply hs.setHop
  · apply hs.linked.setHop
    · exact fun q v horigin => absurd horigin (origin_ne_exit q v w)
    · exact fun _ _ _ => rfl
  · exact Or.inl rfl

theorem openPipe (hs : s.Sound http) (hmain : (s.calls Pipe.server).main = Main.opening)
    (hrewrites : http.any (fun http => http.rewrites s.opening.consumed s.opening.written) =
      true) :
    (s.setCall Pipe.server { s.calls Pipe.server with main := Main.waiting }).Sound http := by
  apply hs.setMain
  · exact (hs.orderly _).openPipe hmain
  · intro _
    cases http with
    | none => cases hrewrites
    | some x => exact Or.inl hrewrites

/-- A copier goes on, or ends, and what was written stays. -/
theorem endCopier (hs : s.Sound http) (hmain : (s.calls p).main ≠ Main.opening)
    (hphase : (s.copier p w).phase = Phase.copying) {clean : Bool}
    (hclean : clean = true -> (s.copier p w).pending = [] ∧
      (s.hops (origin p w)).fin = true ∧
      (s.hops (origin p w)).received = (s.hops (origin p w)).sent) :
    (s.setCopier p w { s.copier p w with
      phase := Phase.counting, clean := clean }).Sound http := by
  apply hs.setCopier hmain hphase
  · simp
  · apply AllLinked.of_copier
    · have hlinks := hs.linked p w
      exact ⟨hlinks.linked, hlinks.written, fun h => ⟨by simp, hclean h⟩⟩
    · exact fun q v _ => hs.linked q v
  · exact hs.shut

theorem emit (hs : s.Sound http) (hmain : (s.calls p).main ≠ Main.opening)
    (hphase : (s.copier p w).phase = Phase.copying) (hfin : (s.hops (goal p w)).fin = false)
    {bytes : Bytes} (hbytes : bytes <+: (s.copier p w).pending) {phase : Phase}
    (hdone : phase ≠ Phase.done) :
    ((s.setHop (goal p w) ((s.hops (goal p w)).write bytes)).setCopier p w
      ((s.copier p w).emit bytes phase)).Sound http := by
  apply hs.setCopier hmain hphase
  · exact hdone
  · exact hs.linked.emit hphase hfin hbytes phase
  · exact hs.shut.setHop (Or.inl rfl)

theorem wake (hs : s.Sound http) (hmain : (s.calls p).main = Main.waiting)
    (hdone : exists w, (s.copier p w).phase = Phase.done) :
    (s.setCall p { s.calls p with main := Main.closingFirst }).Sound http := by
  apply hs.setMain
  · apply Call.Orderly.closeNext
    · exact (hs.orderly p).untouched (Or.inr (Or.inl hmain))
    · exact hdone
  · intro hopening
    rw [hmain] at hopening
    cases hopening

theorem closeConn (hs : s.Sound http) {c : Conn} (hc : c = first p ∨ c = second p)
    {main : Main} (hmain : (s.calls p).main ≠ Main.opening)
    (horderly : Call.Orderly p { s.calls p with
      closed := Function.update (s.calls p).closed c true, main := main }) :
    (s.closeConn p c main).Sound http := by
  apply hs.setCall (hs.linked.shut (outgoing p c))
  · exact hs.shut.closeConn hc rfl
  · rfl
  · exact horderly
  · exact fun hopening => absurd hopening hmain

theorem finishPipe (hs : s.Sound http) (hmain : (s.calls p).main = Main.draining)
    (hdone : forall w, (s.copier p w).phase = Phase.done) :
    (s.setCall p { s.calls p with main := Main.returned }).Sound http := by
  apply hs.setMain
  · exact (hs.orderly p).finish hmain hdone
  · intro hopening
    rw [hmain] at hopening
    cases hopening

theorem step (hs : s.Sound http) {a : Action} (hstep : Splice.step http s a = some t) :
    t.Sound http := by
  cases step_moves hstep with
  | send hfin => exact hs.send hfin
  | finish => exact hs.setHop (hs.linked.shut _) (Or.inr fun q v => goal_ne_entry q v _)
  | receive harrives => exact hs.receive harrives
  | takeRequest hreach harrives => exact hs.takeRequest hreach harrives
  | writeRequest hreach => exact hs.writeRequest hreach
  | openPipe hmain hrewrites => exact hs.openPipe hmain hrewrites
  | giveUp hmain => exact hs.giveUp hmain
  | read hmain hphase hpending harrives =>
      apply hs.setCopier hmain hphase
      · exact fun hdone => absurd (hphase.symm.trans hdone) (by simp)
      · exact hs.linked.take hphase hpending harrives
      · exact hs.shut.setHop (Or.inl rfl)
  | eof hmain hphase hpending hfin hall =>
      exact hs.endCopier hmain hphase fun _ => ⟨hpending, hfin, hall⟩
  | write hmain hphase hfin => exact hs.emit hmain hphase hfin List.prefix_rfl (by simp)
  | @failShut p w _ hmain hphase =>
      apply hs.endCopier hmain hphase
      intro hclean
      exact absurd hphase ((hs.linked p w).clean hclean).left
  | fail hmain hphase hfin => exact hs.emit hmain hphase hfin (List.take_prefix _ _) (by simp)
  | count hphase => exact hs.count hphase
  | wake hmain hdone => exact hs.wake hmain hdone
  | @closeFirst p hmain =>
      apply hs.closeConn (Or.inl rfl)
      · rw [hmain]
        exact Main.noConfusion
      · exact (hs.orderly p).closeFirst hmain
  | @closeSecond p hmain =>
      apply hs.closeConn (Or.inr rfl)
      · rw [hmain]
        exact Main.noConfusion
      · exact (hs.orderly p).closeSecond hmain
  | finishPipe hmain hdone => exact hs.finishPipe hmain hdone

theorem of_reachable (h : (machine http).Reachable s) : s.Sound http := by
  apply h.invariant (I := fun s => s.Sound http)
  · rintro s rfl
    exact start http
  · intro s a t hs hstep
    exact hs.step hstep

end State.Sound

/-!
# What the ends receive
-/

theorem prefix_drop {xs ys : Bytes} (h : xs <+: ys) (n : Nat) : xs.drop n <+: ys.drop n := by
  rcases h with ⟨rest, rfl⟩
  rw [List.drop_append]
  exact List.prefix_append _ _

/-- What {lit}`rctd` passes on of the bytes that the visitor has sent: all of them over tcp,
and over http the request as it is written again, and all that is behind it. -/
inductive Passes : Option Http -> Bytes -> Bytes -> Prop where
  | raw (sent : Bytes) : Passes none sent sent
  | request {http : Http} {consumed written : Bytes} (rest : Bytes)
      (h : http.rewrites consumed written = true) :
      Passes (some http) (consumed ++ rest) (written ++ rest)

/-- As long as the request has not been written again, and if it never is, no more than that. -/
def Starts (http : Option Http) (sent bytes : Bytes) : Prop :=
  exists x consumed, http = some x ∧ consumed <+: sent ∧ x.reaches consumed bytes = true

/-- The tunnel carries bytes, and neither loses, repeats nor mixes any before it ends. -/
structure State.Faithful (http : Option Http) (s : State) : Prop where
  toLocal : exists bytes, (Passes http (s.hops (entry Way.toLocal)).sent bytes ∨
      Starts http (s.hops (entry Way.toLocal)).sent bytes) ∧
    (s.hops (exit Way.toLocal)).received <+: bytes
  toPublic : (s.hops (exit Way.toPublic)).received <+: (s.hops (entry Way.toPublic)).sent
  /-- a direction in which both pipes have come to the end of their source is carried whole -/
  wholeToLocal : (forall p, (s.copier p Way.toLocal).clean = true) ->
    Passes http (s.hops (entry Way.toLocal)).sent (s.hops (exit Way.toLocal)).sent
  wholeToPublic : (forall p, (s.copier p Way.toPublic).clean = true) ->
    (s.hops (exit Way.toPublic)).sent = (s.hops (entry Way.toPublic)).sent

section Ends

variable {http : Option Http} {s : State}

/-- What has been read for the opening is what the visitor sent first. -/
theorem consumed_isPrefix (hs : s.Sound http) :
    s.opening.consumed <+: (s.hops (entry Way.toLocal)).sent := by
  rcases (hs.linked Pipe.server Way.toLocal).linked with ⟨bytes, hread, -⟩
  apply List.IsPrefix.trans _ (s.hops (entry Way.toLocal)).arrives
  exact ⟨bytes, hread.symm⟩

/-- The bytes behind the opening are passed on as they are. -/
theorem passes_of_requested {o : Opening} {sent : Bytes} (h : Requested http o False)
    (hconsumed : o.consumed <+: sent) :
    Passes http sent (o.written ++ sent.drop o.consumed.length) := by
  rcases hconsumed with ⟨rest, rfl⟩
  rw [List.drop_left]
  cases http with
  | none =>
      cases h
      exact Passes.raw rest
  | some http => exact Passes.request rest (h.resolve_right fun hheld => hheld.right)

theorem requested_or_starts (hs : s.Sound http) : Requested http s.opening False ∨
    (Starts http (s.hops (entry Way.toLocal)).sent s.opening.written ∧ s.Held) := by
  have hrequest := hs.request
  cases http with
  | none => exact Or.inl hrequest
  | some x =>
      rcases hrequest with hwhole | ⟨hreach, hheld⟩
      · exact Or.inl (Or.inl hwhole)
      · exact Or.inr ⟨⟨x, s.opening.consumed, rfl, consumed_isPrefix hs, hreach⟩, hheld⟩

theorem held_copier (hs : s.Sound http) (hheld : s.Held) :
    (s.copier Pipe.server Way.toLocal).written = 0 ∧
      (s.copier Pipe.server Way.toLocal).clean = false := by
  rcases hheld with hmain | hunused
  · have hnew : s.copier Pipe.server Way.toLocal = Copier.new :=
      ((hs.orderly _).opening hmain).right _
    rw [hnew]
    exact ⟨rfl, rfl⟩
  · rw [hunused]
    exact ⟨rfl, rfl⟩

theorem tunnel_faithful (h : (machine http).Reachable s) : s.Faithful http := by
  have hs := State.Sound.of_reachable h
  have hlinked := hs.linked
  have arrives : forall j, (s.hops j).received <+: (s.hops j).sent := fun j => (s.hops j).arrives
  have hclient : (s.hops (exit Way.toLocal)).received <+:
      (s.hops (goal Pipe.server Way.toLocal)).sent :=
    ((arrives _).trans (hlinked Pipe.client Way.toLocal).delivered).trans (arrives _)
  constructor
  · rcases requested_or_starts hs with hwhole | ⟨hstarts, hheld⟩
    · refine ⟨_, Or.inl (passes_of_requested hwhole (consumed_isPrefix hs)), ?_⟩
      have hserver : (s.hops (goal Pipe.server Way.toLocal)).sent <+: s.opening.written ++
          (s.hops (entry Way.toLocal)).received.drop s.opening.consumed.length :=
        (hlinked Pipe.server Way.toLocal).delivered
      have hentry : s.opening.written ++
          (s.hops (entry Way.toLocal)).received.drop s.opening.consumed.length <+:
          s.opening.written ++ (s.hops (entry Way.toLocal)).sent.drop s.opening.consumed.length :=
        (List.prefix_append_right_inj _).mpr (prefix_drop (arrives _) _)
      exact (hclient.trans hserver).trans hentry
    · refine ⟨s.opening.written, Or.inr hstarts, ?_⟩
      have hserver : (s.hops (goal Pipe.server Way.toLocal)).sent = s.opening.written :=
        (hlinked Pipe.server Way.toLocal).unwritten (held_copier hs hheld).left
      rw [hserver] at hclient
      exact hclient
  · have hserver : (s.hops (exit Way.toPublic)).received <+:
        (s.hops (goal Pipe.client Way.toPublic)).sent :=
      ((arrives _).trans (hlinked Pipe.server Way.toPublic).delivered).trans (arrives _)
    have hback : (s.hops (goal Pipe.client Way.toPublic)).sent <+:
        (s.hops (entry Way.toPublic)).sent :=
      (hlinked Pipe.client Way.toPublic).delivered.trans (arrives _)
    exact hserver.trans hback
  · intro hclean
    have hwhole : Requested http s.opening False := by
      rcases requested_or_starts hs with hwhole | ⟨-, hheld⟩
      · exact hwhole
      · have hmine := hclean Pipe.server
        rw [(held_copier hs hheld).right] at hmine
        cases hmine
    have hsent : (s.hops (exit Way.toLocal)).sent =
        s.opening.written ++ (s.hops (entry Way.toLocal)).sent.drop s.opening.consumed.length :=
      calc
        (s.hops (exit Way.toLocal)).sent = (s.hops (goal Pipe.server Way.toLocal)).sent :=
          (hlinked Pipe.client Way.toLocal).complete (hclean Pipe.client)
        _ = _ := (hlinked Pipe.server Way.toLocal).complete (hclean Pipe.server)
    rw [hsent]
    exact passes_of_requested hwhole (consumed_isPrefix hs)
  · intro hclean
    calc
      (s.hops (exit Way.toPublic)).sent = (s.hops (goal Pipe.client Way.toPublic)).sent :=
        (hlinked Pipe.server Way.toPublic).complete (hclean Pipe.server)
      _ = (s.hops (entry Way.toPublic)).sent :=
        (hlinked Pipe.client Way.toPublic).complete (hclean Pipe.client)

end Ends

def ofAscii (text : String) : Bytes := text.toList.map fun c => UInt8.ofNat c.toNat

/-- A request, and how it is written again. -/
def plainRequest : Bytes := ofAscii "GET / HTTP/1.1\r\nuser-agent: a\r\nhost: b\r\n\r\n"

def plainRewritten : Bytes := ofAscii "GET / HTTP/1.1\r\nHost: b\r\nUser-Agent: a\r\n\r\n"

/-- {lit}`net/http`, for this request. -/
def Http.plain : Http where
  reaches consumed written :=
    if written = [] then consumed.isPrefixOf plainRequest
    else consumed = plainRequest ∧ written.isPrefixOf plainRewritten
  rewrites consumed written := consumed = plainRequest ∧ written = plainRewritten
  reaches_nil := rfl

/-- The request, and a byte behind it that the visitor ends with. -/
def requestActions : List Action :=
  [Action.send Way.toLocal (plainRequest ++ [3]), Action.takeRequest plainRequest,
    Action.writeRequest (plainRewritten.take 9), Action.writeRequest (plainRewritten.drop 9),
    Action.openPipe, Action.finish Way.toLocal, Action.read Pipe.server Way.toLocal [3],
    Action.write Pipe.server Way.toLocal, Action.eof Pipe.server Way.toLocal,
    Action.read Pipe.client Way.toLocal (plainRewritten ++ [3]),
    Action.write Pipe.client Way.toLocal, Action.receive Way.toLocal (plainRewritten ++ [3])]

theorem requestActions_exec :
    exists s, (machine (some Http.plain)).exec (initial (some Http.plain)) requestActions = some s ∧
      (s.hops (exit Way.toLocal)).received = plainRewritten ++ [3] ∧
      (s.calls Pipe.server).main = Main.waiting ∧ (s.hops (entry Way.toLocal)).fin = true := by
  have hseen : ((machine (some Http.plain)).exec (initial (some Http.plain)) requestActions).map
      (fun s => ((s.hops (exit Way.toLocal)).received, (s.calls Pipe.server).main,
        (s.hops (entry Way.toLocal)).fin)) =
      some (plainRewritten ++ [3], Main.waiting, true) := by
    decide +kernel
  rcases Option.map_eq_some_iff.mp hseen with ⟨s, hs, hvalue⟩
  rw [Prod.mk.injEq, Prod.mk.injEq] at hvalue
  exact ⟨s, hs, hvalue⟩

theorem tunnel_faithful_request :
    exists s, (machine (some Http.plain)).exec (initial (some Http.plain)) requestActions = some s ∧
      (s.hops (exit Way.toLocal)).received = plainRewritten ++ [3] ∧
      s.Faithful (some Http.plain) := by
  rcases requestActions_exec with ⟨s, hs, hreceived, -⟩
  exact ⟨s, hs, hreceived, tunnel_faithful ⟨initial _, requestActions, rfl, hs⟩⟩

end Splice

end Engine
end RcTunnel
