import RcTunnel.Foundation.Machine
import RcTunnel.Foundation.Table
import RcTunnel.Engine.Datagram

/-!
# The two ends of a udp proxy

{lit}`udpServe` reads the datagrams of a public socket and writes them, each with the
address it came from, to the current work connection; its loop sends what comes back to
the address that stands in front of it.  At the other end {lit}`udpClient` keeps a socket
to the local service for each address, and a goroutine that takes the replies of that
socket back.  All of them interleave, and work connections break and are replaced.
-/

namespace RcTunnel
namespace Engine

open Foundation

/-!
# One direction of a work connection
-/

namespace Datagram

/--
The bytes under way are the frames of a queue of datagrams, and behind them, once a
write has failed, the start of a frame.
-/
structure Carries (queue : List Datagram) (broken : Bool) (bytes : Bytes) : Prop where
  fits : forall d : Datagram, d ∈ queue -> exists frame, d.write = some frame
  split : exists rest, bytes = frames queue ++ rest ∧
    (rest = [] ∨ (broken = true ∧ exists (d : Datagram) (frame : Bytes),
      d.write = some frame ∧ rest <+: frame ∧ rest ≠ frame))

namespace Carries

variable {queue : List Datagram} {bytes frame : Bytes} {broken : Bool} {d : Datagram}

theorem nil : Carries [] false [] :=
  ⟨fun _ h => absurd h List.not_mem_nil, [], rfl, Or.inl rfl⟩

theorem rest_of_whole (h : Carries queue false bytes) : bytes = frames queue := by
  rcases h.split with ⟨rest, hbytes, rfl | ⟨hbroken, -⟩⟩
  · rw [hbytes, List.append_nil]
  · cases hbroken

theorem frames_snoc (hwrite : d.write = some frame) :
    frames (queue ++ [d]) = frames queue ++ frame := by
  simp [frames, hwrite]

theorem write (h : Carries queue false bytes) (hwrite : d.write = some frame)
    (broken : Bool) : Carries (queue ++ [d]) broken (bytes ++ frame) := by
  constructor
  · intro e he
    rcases List.mem_append.mp he with he | he
    · exact h.fits e he
    · rw [List.mem_singleton.mp he]
      exact ⟨frame, hwrite⟩
  · exists []
    constructor
    · rw [h.rest_of_whole, frames_snoc hwrite, List.append_nil]
    · exact Or.inl rfl

theorem cut (h : Carries queue false bytes) (hwrite : d.write = some frame) {k : Nat}
    (hk : k < frame.length) : Carries queue true (bytes ++ frame.take k) := by
  constructor
  · exact h.fits
  · exists frame.take k
    constructor
    · rw [h.rest_of_whole]
    · refine Or.inr ⟨rfl, d, frame, hwrite, List.take_prefix k frame, ?_⟩
      intro hwhole
      have hlength := congrArg List.length hwhole
      rw [List.length_take] at hlength
      omega

/-- The start of a frame is no datagram. -/
theorem read_unfinished {r rest : Chunks UInt8} {e : Datagram} (hwrite : d.write = some frame)
    (hstart : r.bytes <+: frame) (hne : r.bytes ≠ frame) :
    Datagram.read r ≠ Except.ok (e, rest) := by
  intro hread
  rcases hstart with ⟨more, hmore⟩
  rcases write_of_read hread with ⟨frame', hwrite', hbytes⟩
  have hshort : Chunks.bytes [frame] = frame' ++ (rest.bytes ++ more) := by
    rw [← List.append_assoc, ← hbytes, hmore]
    simp
  have hwhole : Chunks.bytes [frame] = frame ++ [] := by simp
  rcases read_write hwrite' hshort with ⟨left, hleft, hleftBytes⟩
  rcases read_write hwrite hwhole with ⟨right, hright, hrightBytes⟩
  rw [hleft] at hright
  cases hright
  rw [hleftBytes] at hrightBytes
  have hnone : more = [] := (List.append_eq_nil_iff.mp hrightBytes).right
  rw [hnone, List.append_nil] at hmore
  exact hne hmore

/-- {lit}`ReadDatagram` reads the head of the queue, whatever the chunks are. -/
theorem read {r rest : Chunks UInt8} (h : Carries queue broken bytes)
    (hbytes : r.bytes = bytes) (hread : Datagram.read r = Except.ok (d, rest)) :
    exists queue', queue = d :: queue' ∧ Carries queue' broken rest.bytes := by
  rcases h.split with ⟨tail, hsplit, htail⟩
  cases queue with
  | nil =>
      have hr : r.bytes = tail := by rw [hbytes, hsplit, frames, List.flatMap_nil, List.nil_append]
      rcases htail with rfl | ⟨-, e, frame, hwrite, hstart, hne⟩
      · rw [read_eof hr] at hread
        cases hread
      · rw [← hr] at hstart hne
        exact absurd hread (read_unfinished hwrite hstart hne)
  | cons e queue' =>
      rcases h.fits e List.mem_cons_self with ⟨frame, hwrite⟩
      have hhead : r.bytes = frame ++ (frames queue' ++ tail) := by
        rw [hbytes, hsplit, frames, List.flatMap_cons, hwrite, List.append_assoc]
        rfl
      rcases read_write hwrite hhead with ⟨rest', hread', hrest⟩
      rw [hread'] at hread
      cases hread
      refine ⟨queue', rfl, ?_, tail, hrest, htail⟩
      intro e' he'
      exact h.fits e' (List.mem_cons_of_mem _ he')

end Carries

end Datagram

namespace UdpTunnel

/--
One direction of a work connection.  The queue, which no code reads, has the datagrams
whose frames are under way, each with a mark that says which one it is.
-/
structure Line (Mark : Type u) where
  bytes : Bytes
  /-- a write has failed, and so do all that follow -/
  broken : Bool
  queue : List (Mark × Datagram)
  carries : Datagram.Carries (queue.map Prod.snd) broken bytes

/-- What becomes of a write: all bytes get through, or an error after some of them. -/
inductive Outcome where
  | whole
  | cut (k : Nat)
deriving DecidableEq, Repr

namespace Line

variable {Mark : Type u}

def empty : Line Mark := ⟨[], false, [], Datagram.Carries.nil⟩

/-- {lit}`WriteDatagram` on an open connection, and whether it returns without an error. -/
def write (l : Line Mark) (mark : Mark) (d : Datagram) (outcome : Outcome) :
    Line Mark × Bool :=
  match hwrite : d.write with
  | none => (l, false)
  | some frame =>
      if hbroken : l.broken = false then
        have carries : Datagram.Carries (l.queue.map Prod.snd) false l.bytes :=
          hbroken ▸ l.carries
        have written (broken : Bool) : Datagram.Carries
            ((l.queue ++ [(mark, d)]).map Prod.snd) broken (l.bytes ++ frame) := by
          rw [List.map_append]
          exact carries.write hwrite broken
        match outcome with
        | Outcome.whole =>
            (⟨l.bytes ++ frame, false, l.queue ++ [(mark, d)], written false⟩, true)
        | Outcome.cut k =>
            if hk : k < frame.length then
              (⟨l.bytes ++ frame.take k, true, l.queue, carries.cut hwrite hk⟩, false)
            else
              (⟨l.bytes ++ frame, true, l.queue ++ [(mark, d)], written true⟩, false)
      else
        (l, false)

/-- {lit}`ReadDatagram` of what is under way, as the connection delivers it. -/
def read (l : Line Mark) (r : Chunks UInt8) : Option ((Mark × Datagram) × Line Mark) :=
  if hbytes : r.bytes = l.bytes then
    match hread : Datagram.read r, hqueue : l.queue with
    | Except.ok (d, rest), (mark, _) :: queue =>
        have carries : Datagram.Carries (queue.map Prod.snd) l.broken rest.bytes := by
          rcases l.carries.read hbytes hread with ⟨queue', hhead, hcarries⟩
          rw [hqueue, List.map_cons] at hhead
          rw [(List.cons.inj hhead).right]
          exact hcarries
        some ((mark, d), ⟨rest.bytes, l.broken, queue, carries⟩)
    | _, _ => none
  else
    none

/-- A write leaves the queue, or adds the datagram behind it. -/
theorem write_queue (l : Line Mark) (mark : Mark) (d : Datagram) (outcome : Outcome) :
    (l.write mark d outcome).1.queue = l.queue ∨
      (l.write mark d outcome).1.queue = l.queue ++ [(mark, d)] := by
  unfold write
  split
  · exact Or.inl rfl
  · split
    · split
      · exact Or.inr rfl
      · split
        · exact Or.inl rfl
        · exact Or.inr rfl
    · exact Or.inl rfl

/-- What is read stands at the head of the queue. -/
theorem read_queue {l l' : Line Mark} {r : Chunks UInt8} {mark : Mark} {d : Datagram}
    (h : l.read r = some ((mark, d), l')) : l.queue = (mark, d) :: l'.queue := by
  unfold read at h
  split at h
  · rename_i hbytes
    split at h
    · rename_i d' rest mark' other queue hread hqueue
      cases h
      rcases l.carries.read hbytes hread with ⟨queue', hhead, -⟩
      rw [hqueue, List.map_cons] at hhead
      have hd : other = d := (List.cons.inj hhead).left
      rw [hd] at hqueue
      exact hqueue
    · cases h
  · cases h

/-- The queue stops no read: whenever {lit}`ReadDatagram` yields a datagram, so does this. -/
theorem read_of_ok {l : Line Mark} {r rest : Chunks UInt8} {d : Datagram}
    (hbytes : r.bytes = l.bytes) (hread : Datagram.read r = Except.ok (d, rest)) :
    exists mark l', l.read r = some ((mark, d), l') := by
  rcases l.carries.read hbytes hread with ⟨queue', hhead, -⟩
  rw [read, dif_pos hbytes]
  split
  · rename_i d' rest' mark other queue hread' hqueue
    rw [hread] at hread'
    cases hread'
    exact ⟨mark, _, rfl⟩
  · rename_i hnone
    cases hqueue : l.queue with
    | nil => simp [hqueue] at hhead
    | cons entry queue => exact absurd hqueue (hnone d rest entry.1 entry.2 queue hread)

end Line

/-!
# The state of both ends
-/

/-- Public addresses: {lit}`addr.String()`, and {lit}`net.ResolveUDPAddr` that reads it. -/
structure Net (Addr : Type u) where
  string : Addr -> Bytes
  resolve : Bytes -> Option Addr
  resolve_string : forall a, resolve (string a) = some a

/-- Where the goroutine of a local socket is. -/
inductive Reader where
  | reading
  /-- it writes the reply it has read to the work connection -/
  | relaying (data : Bytes)
  /-- it has closed the socket, and not yet deleted its session -/
  | closed
  | ended
deriving DecidableEq, Repr

/-- A socket of {lit}`udpClient` to the local service. -/
structure Socket where
  work : Nat
  addr : Bytes
  isOpen : Bool
  reader : Reader
  /-- history: what was written to it, with the number of the datagram it is from -/
  sent : List (Nat × Bytes)
  /-- history: what was read from it -/
  replies : List Bytes

/-- Where the loop of {lit}`udpClient` is. -/
inductive Pump where
  | reading
  | dialing (n : Nat) (d : Datagram)
  | writing (n : Nat) (lc : Nat) (data : Bytes)
  /-- it has closed the sockets, and not yet the work connection -/
  | leaving
  | returned

/-- The place of a reply among the replies of its socket. -/
abbrev Place := Nat × Nat

/-- A work connection, and the call of {lit}`udpClient` that holds its other end. -/
structure Conn where
  up : Line Nat
  down : Line Place
  /-- not closed by the server, and not by the client -/
  serverOpen : Bool
  clientOpen : Bool
  pump : Pump
  sessions : Bytes -> Option Nat
  /-- history: the numbers of the datagrams the loop has dealt with -/
  taken : List Nat

/-- Where the loop of {lit}`udpServe` is. -/
inductive Loop where
  | pairing
  | pumping (w : Nat)
  /-- it has cleared {lit}`cur`, and not yet closed the connection -/
  | leaving (w : Nat)
deriving DecidableEq, Repr

/-- What was sent to a public address. -/
structure Answer (Addr : Type u) where
  peer : Addr
  data : Bytes
  place : Place

structure State (Addr : Type u) where
  /-- history: what was read from the public socket -/
  received : List (Addr × Bytes)
  /-- the datagram that the reader writes, and the connection it found in {lit}`cur` -/
  holding : Option (Nat × Datagram)
  cur : Option Nat
  loop : Loop
  /-- the public socket is closed -/
  stopped : Bool
  countIn : Nat
  countOut : Nat
  conns : Nat -> Option Conn
  sockets : Nat -> Option Socket
  /-- history: what was written to the public socket -/
  answered : List (Answer Addr)

inductive Action (Addr : Type u) where
  /-- {lit}`ReadFromUDP`, and the reader's look at {lit}`cur` -/
  | receive (a : Addr) (data : Bytes)
  /-- the reader's {lit}`WriteDatagram` -/
  | forward (outcome : Outcome)
  /-- the loop has got a work connection; its {lit}`select` may take one after {lit}`stop` -/
  | pair (w : Nat)
  /-- the loop reads a datagram and sends it to its address -/
  | answer (r : Chunks UInt8)
  /-- its {lit}`ReadDatagram` fails -/
  | fail
  | hangUp
  | stop
  /-- {lit}`udpClient` reads a datagram and looks its address up -/
  | take (w : Nat) (r : Chunks UInt8)
  /-- {lit}`DialUDP` and {lit}`sessions.Store`, unless dialing fails -/
  | dial (w : Nat) (lc : Option Nat)
  /-- it writes the data to the socket, which may fail -/
  | deliver (w : Nat) (ok : Bool)
  /-- its {lit}`ReadDatagram` fails: it closes the sockets of all sessions -/
  | leave (w : Nat)
  | close (w : Nat)
  /-- a goroutine reads a reply -/
  | reply (lc : Nat) (data : Bytes)
  /-- its {lit}`WriteDatagram` -/
  | relay (lc : Nat) (outcome : Outcome)
  /-- its read fails, after a time-out among other things -/
  | expire (lc : Nat)
  /-- {lit}`sessions.Delete` -/
  | forget (lc : Nat)

variable {Addr : Type u}

def State.setConn (s : State Addr) (w : Nat) (c : Conn) : State Addr :=
  { s with conns := Function.update s.conns w (some c) }

def State.setSocket (s : State Addr) (lc : Nat) (k : Socket) : State Addr :=
  { s with sockets := Function.update s.sockets lc (some k) }

/-!
# Steps
-/

def Conn.new : Conn where
  up := Line.empty
  down := Line.empty
  serverOpen := true
  clientOpen := true
  pump := Pump.reading
  sessions := fun _ => none
  taken := []

/-- The server writes to the connection; on one it has closed the write fails. -/
def Conn.writeUp (c : Conn) (n : Nat) (d : Datagram) (outcome : Outcome) : Conn × Bool :=
  if c.serverOpen then
    ({ c with up := (c.up.write n d outcome).1 }, (c.up.write n d outcome).2)
  else
    (c, false)

def Conn.writeDown (c : Conn) (place : Place) (d : Datagram) (outcome : Outcome) :
    Conn × Bool :=
  if c.clientOpen then
    ({ c with down := (c.down.write place d outcome).1 }, (c.down.write place d outcome).2)
  else
    (c, false)

def Socket.new (w : Nat) (addr : Bytes) : Socket where
  work := w
  addr := addr
  isOpen := true
  reader := Reader.reading
  sent := []
  replies := []

def Socket.close (k : Socket) : Socket := { k with isOpen := false, reader := Reader.closed }

/-- Data of the datagram is written to the socket, if it is open. -/
def Socket.deliver (k : Socket) (n : Nat) (data : Bytes) (ok : Bool) : Socket :=
  if ok = true ∧ k.isOpen = true then { k with sent := k.sent ++ [(n, data)] } else k

/-- The goroutine goes on, or after a failed write closes the socket. -/
def Socket.relayed (k : Socket) (ok : Bool) : Socket :=
  if ok then { k with reader := Reader.reading } else k.close

/-- The number of the datagram that was read last. -/
def State.last (s : State Addr) : Nat := s.received.length - 1

section Steps

variable (net : Net Addr)

/-- {lit}`WriteToUDP` of what the loop has read, when its address can be resolved. -/
def State.send (s : State Addr) (place : Place) (d : Datagram) : State Addr :=
  match net.resolve d.addr with
  | none => s
  | some a =>
      { s with
        countIn := s.countIn + d.data.length
        answered := if s.stopped then s.answered else s.answered ++ [⟨a, d.data, place⟩] }

/-- The session of an address, or a new one is to be dialed. -/
def Conn.lookUp (c : Conn) (n : Nat) (d : Datagram) : Pump :=
  match c.sessions d.addr with
  | none => Pump.dialing n d
  | some lc => Pump.writing n lc d.data

/-- {lit}`sessions.Range` closes the sockets; their goroutines find out when they read. -/
def State.closeSessions (s : State Addr) (w : Nat) (c : Conn) (lc : Nat) : Option Socket :=
  (s.sockets lc).map fun k =>
    if k.work = w ∧ c.sessions k.addr = some lc then { k with isOpen := false } else k

def step (s : State Addr) : Action Addr -> Option (State Addr)
  | Action.receive a data =>
      if s.stopped = false ∧ s.holding = none then
        some { s with
          received := s.received ++ [(a, data)]
          holding := s.cur.map fun w => (w, ⟨net.string a, data⟩) }
      else
        none
  | Action.forward outcome =>
      match s.holding with
      | none => none
      | some (w, d) =>
          match s.conns w with
          | none => none
          | some c =>
              match c.writeUp s.last d outcome with
              | (c', ok) =>
                  some { s.setConn w c' with
                    holding := none
                    countOut := if ok then s.countOut + d.data.length else s.countOut }
  | Action.pair w =>
      match s.loop, s.conns w with
      | Loop.pairing, none =>
          some { s.setConn w Conn.new with cur := some w, loop := Loop.pumping w }
      | _, _ => none
  | Action.answer r =>
      match s.loop with
      | Loop.pumping w =>
          match s.conns w with
          | none => none
          | some c =>
              match c.down.read r with
              | none => none
              | some ((place, d), down) =>
                  some ((s.setConn w { c with down := down }).send net place d)
      | _ => none
  | Action.fail =>
      match s.loop with
      | Loop.pumping w => some { s with cur := none, loop := Loop.leaving w }
      | _ => none
  | Action.hangUp =>
      match s.loop with
      | Loop.leaving w =>
          match s.conns w with
          | none => none
          | some c => some { s.setConn w { c with serverOpen := false } with loop := Loop.pairing }
      | _ => none
  | Action.stop => some { s with stopped := true }
  | Action.take w r =>
      match s.conns w with
      | some c =>
          match c.pump, c.up.read r with
          | Pump.reading, some ((n, d), up) =>
              some (s.setConn w { c with up := up, pump := c.lookUp n d })
          | _, _ => none
      | none => none
  | Action.dial w lc =>
      match s.conns w with
      | some c =>
          match c.pump, lc with
          | Pump.dialing n _, none =>
              some (s.setConn w { c with pump := Pump.reading, taken := c.taken ++ [n] })
          | Pump.dialing n d, some lc =>
              match s.sockets lc with
              | none =>
                  some ((s.setConn w { c with
                    pump := Pump.writing n lc d.data
                    sessions := Function.update c.sessions d.addr (some lc) }).setSocket lc
                      (Socket.new w d.addr))
              | some _ => none
          | _, _ => none
      | none => none
  | Action.deliver w ok =>
      match s.conns w with
      | some c =>
          match c.pump with
          | Pump.writing n lc data =>
              match s.sockets lc with
              | none => none
              | some k =>
                  some ((s.setConn w { c with
                    pump := Pump.reading
                    taken := c.taken ++ [n] }).setSocket lc (k.deliver n data ok))
          | _ => none
      | none => none
  | Action.leave w =>
      match s.conns w with
      | some c =>
          match c.pump with
          | Pump.reading =>
              some { s.setConn w { c with pump := Pump.leaving } with
                sockets := s.closeSessions w c }
          | _ => none
      | none => none
  | Action.close w =>
      match s.conns w with
      | some c =>
          match c.pump with
          | Pump.leaving =>
              some (s.setConn w { c with pump := Pump.returned, clientOpen := false })
          | _ => none
      | none => none
  | Action.reply lc data =>
      match s.sockets lc with
      | some k =>
          if k.reader = Reader.reading ∧ k.isOpen = true then
            some (s.setSocket lc { k with
              reader := Reader.relaying data, replies := k.replies ++ [data] })
          else
            none
      | none => none
  | Action.relay lc outcome =>
      match s.sockets lc with
      | some k =>
          match k.reader, s.conns k.work with
          | Reader.relaying data, some c =>
              match c.writeDown (lc, k.replies.length - 1) ⟨k.addr, data⟩ outcome with
              | (c', ok) =>
                  some ((s.setConn k.work c').setSocket lc
                    (k.relayed ok))
          | _, _ => none
      | none => none
  | Action.expire lc =>
      match s.sockets lc with
      | some k => if k.reader = Reader.reading then some (s.setSocket lc k.close) else none
      | none => none
  | Action.forget lc =>
      match s.sockets lc with
      | some k =>
          match k.reader, s.conns k.work with
          | Reader.closed, some c =>
              some ((s.setConn k.work { c with
                sessions := Function.update c.sessions k.addr none }).setSocket lc
                  { k with reader := Reader.ended })
          | _, _ => none
      | none => none

def initial : State Addr where
  received := []
  holding := none
  cur := none
  loop := Loop.pairing
  stopped := false
  countIn := 0
  countOut := 0
  conns := fun _ => none
  sockets := fun _ => none
  answered := []

def machine : Machine (State Addr) (Action Addr) where
  init s := s = initial
  step := step net

/-!
# What a step can do
-/

inductive Moves (s : State Addr) : Action Addr -> State Addr -> Prop where
  | receive {a : Addr} {data : Bytes} (hstopped : s.stopped = false)
      (hholding : s.holding = none) :
      Moves s (Action.receive a data) { s with
        received := s.received ++ [(a, data)]
        holding := s.cur.map fun w => (w, ⟨net.string a, data⟩) }
  | forward {w : Nat} {d : Datagram} {c : Conn} {outcome : Outcome}
      (hholding : s.holding = some (w, d)) (hconn : s.conns w = some c) :
      Moves s (Action.forward outcome) { s.setConn w (c.writeUp s.last d outcome).1 with
        holding := none
        countOut := if (c.writeUp s.last d outcome).2 then s.countOut + d.data.length
          else s.countOut }
  | pair {w : Nat} (hloop : s.loop = Loop.pairing) (hconn : s.conns w = none) :
      Moves s (Action.pair w) { s.setConn w Conn.new with cur := some w, loop := Loop.pumping w }
  | answer {w : Nat} {c : Conn} {r : Chunks UInt8} {place : Place} {d : Datagram}
      {down : Line Place} (hloop : s.loop = Loop.pumping w) (hconn : s.conns w = some c)
      (hread : c.down.read r = some ((place, d), down)) :
      Moves s (Action.answer r) ((s.setConn w { c with down := down }).send net place d)
  | fail {w : Nat} (hloop : s.loop = Loop.pumping w) :
      Moves s Action.fail { s with cur := none, loop := Loop.leaving w }
  | hangUp {w : Nat} {c : Conn} (hloop : s.loop = Loop.leaving w) (hconn : s.conns w = some c) :
      Moves s Action.hangUp { s.setConn w { c with serverOpen := false } with
        loop := Loop.pairing }
  | stop : Moves s Action.stop { s with stopped := true }
  | take {w n : Nat} {c : Conn} {r : Chunks UInt8} {d : Datagram} {up : Line Nat}
      (hconn : s.conns w = some c) (hpump : c.pump = Pump.reading)
      (hread : c.up.read r = some ((n, d), up)) :
      Moves s (Action.take w r) (s.setConn w { c with up := up, pump := c.lookUp n d })
  | dialFail {w n : Nat} {c : Conn} {d : Datagram} (hconn : s.conns w = some c)
      (hpump : c.pump = Pump.dialing n d) :
      Moves s (Action.dial w none)
        (s.setConn w { c with pump := Pump.reading, taken := c.taken ++ [n] })
  | dial {w n lc : Nat} {c : Conn} {d : Datagram} (hconn : s.conns w = some c)
      (hpump : c.pump = Pump.dialing n d) (hsocket : s.sockets lc = none) :
      Moves s (Action.dial w (some lc)) ((s.setConn w { c with
        pump := Pump.writing n lc d.data
        sessions := Function.update c.sessions d.addr (some lc) }).setSocket lc
          (Socket.new w d.addr))
  | deliver {w n lc : Nat} {c : Conn} {k : Socket} {data : Bytes} {ok : Bool}
      (hconn : s.conns w = some c) (hpump : c.pump = Pump.writing n lc data)
      (hsocket : s.sockets lc = some k) :
      Moves s (Action.deliver w ok) ((s.setConn w { c with
        pump := Pump.reading
        taken := c.taken ++ [n] }).setSocket lc (k.deliver n data ok))
  | leave {w : Nat} {c : Conn} (hconn : s.conns w = some c) (hpump : c.pump = Pump.reading) :
      Moves s (Action.leave w) { s.setConn w { c with pump := Pump.leaving } with
        sockets := s.closeSessions w c }
  | close {w : Nat} {c : Conn} (hconn : s.conns w = some c) (hpump : c.pump = Pump.leaving) :
      Moves s (Action.close w)
        (s.setConn w { c with pump := Pump.returned, clientOpen := false })
  | reply {lc : Nat} {k : Socket} {data : Bytes} (hsocket : s.sockets lc = some k)
      (hreader : k.reader = Reader.reading) (hopen : k.isOpen = true) :
      Moves s (Action.reply lc data) (s.setSocket lc { k with
        reader := Reader.relaying data, replies := k.replies ++ [data] })
  | relay {lc : Nat} {k : Socket} {c : Conn} {data : Bytes} {outcome : Outcome}
      (hsocket : s.sockets lc = some k) (hreader : k.reader = Reader.relaying data)
      (hconn : s.conns k.work = some c) :
      Moves s (Action.relay lc outcome) ((s.setConn k.work
        (c.writeDown (lc, k.replies.length - 1) ⟨k.addr, data⟩ outcome).1).setSocket lc
          (k.relayed (c.writeDown (lc, k.replies.length - 1) ⟨k.addr, data⟩ outcome).2))
  | expire {lc : Nat} {k : Socket} (hsocket : s.sockets lc = some k)
      (hreader : k.reader = Reader.reading) :
      Moves s (Action.expire lc) (s.setSocket lc k.close)
  | forget {lc : Nat} {k : Socket} {c : Conn} (hsocket : s.sockets lc = some k)
      (hreader : k.reader = Reader.closed) (hconn : s.conns k.work = some c) :
      Moves s (Action.forget lc) ((s.setConn k.work { c with
        sessions := Function.update c.sessions k.addr none }).setSocket lc
          { k with reader := Reader.ended })

variable {net}

theorem step_moves {s t : State Addr} {a : Action Addr} (h : step net s a = some t) :
    Moves net s a t := by
  cases a with
  | receive a data =>
      simp only [step] at h
      split at h
      · rename_i hguard
        cases h
        exact Moves.receive hguard.left hguard.right
      · cases h
  | forward outcome =>
      simp only [step] at h
      split at h
      · cases h
      · rename_i w d hholding
        split at h
        · cases h
        · rename_i c hconn
          cases h
          exact Moves.forward hholding hconn
  | pair w =>
      simp only [step] at h
      split at h
      · rename_i hloop hconn
        cases h
        exact Moves.pair hloop hconn
      · cases h
  | answer r =>
      simp only [step] at h
      split at h
      · rename_i w hloop
        split at h
        · cases h
        · rename_i c hconn
          split at h
          · cases h
          · rename_i place d down hread
            cases h
            exact Moves.answer hloop hconn hread
      · cases h
  | fail =>
      simp only [step] at h
      split at h
      · rename_i w hloop
        cases h
        exact Moves.fail hloop
      · cases h
  | hangUp =>
      simp only [step] at h
      split at h
      · rename_i w hloop
        split at h
        · cases h
        · rename_i c hconn
          cases h
          exact Moves.hangUp hloop hconn
      · cases h
  | stop =>
      cases h
      exact Moves.stop
  | take w r =>
      simp only [step] at h
      split at h
      · rename_i c hconn
        split at h
        · rename_i n d up hpump hread
          cases h
          exact Moves.take hconn hpump hread
        · cases h
      · cases h
  | dial w lc =>
      simp only [step] at h
      split at h
      · rename_i c hconn
        split at h
        · rename_i n d hpump
          cases h
          exact Moves.dialFail hconn hpump
        · rename_i n d lc hpump
          split at h
          · rename_i hsocket
            cases h
            exact Moves.dial hconn hpump hsocket
          · cases h
        · cases h
      · cases h
  | deliver w ok =>
      simp only [step] at h
      split at h
      · rename_i c hconn
        split at h
        · rename_i n lc data hpump
          split at h
          · cases h
          · rename_i k hsocket
            cases h
            exact Moves.deliver hconn hpump hsocket
        · cases h
      · cases h
  | leave w =>
      simp only [step] at h
      split at h
      · rename_i c hconn
        split at h
        · rename_i hpump
          cases h
          exact Moves.leave hconn hpump
        · cases h
      · cases h
  | close w =>
      simp only [step] at h
      split at h
      · rename_i c hconn
        split at h
        · rename_i hpump
          cases h
          exact Moves.close hconn hpump
        · cases h
      · cases h
  | reply lc data =>
      simp only [step] at h
      split at h
      · rename_i k hsocket
        split at h
        · rename_i hguard
          cases h
          exact Moves.reply hsocket hguard.left hguard.right
        · cases h
      · cases h
  | relay lc outcome =>
      simp only [step] at h
      split at h
      · rename_i k hsocket
        split at h
        · rename_i data c hreader hconn
          cases h
          exact Moves.relay hsocket hreader hconn
        · cases h
      · cases h
  | expire lc =>
      simp only [step] at h
      split at h
      · rename_i k hsocket
        split at h
        · rename_i hreader
          cases h
          exact Moves.expire hsocket hreader
        · cases h
      · cases h
  | forget lc =>
      simp only [step] at h
      split at h
      · rename_i k hsocket
        split at h
        · rename_i c hreader hconn
          cases h
          exact Moves.forget hsocket hreader hconn
        · cases h
      · cases h

end Steps

/-!
# An exchange

Two clients send a datagram each, and each gets a reply, the second client first.
-/

/-- Addresses that are written as they are. -/
def Net.literal : Net Bytes where
  string := id
  resolve := some
  resolve_string _ := rfl

def Datagram.frame (a data : Bytes) : Bytes := ((Datagram.mk a data).write).getD []

def exchange : List (Action Bytes) :=
  [Action.pair 0, Action.receive [1] [10, 11], Action.forward Outcome.whole,
    Action.receive [2] [20], Action.forward Outcome.whole,
    Action.take 0 [Datagram.frame [1] [10, 11], Datagram.frame [2] [20]],
    Action.dial 0 (some 5), Action.deliver 0 true,
    Action.take 0 [Datagram.frame [2] [20]], Action.dial 0 (some 6), Action.deliver 0 true,
    Action.reply 6 [66], Action.reply 5 [55],
    Action.relay 6 Outcome.whole, Action.relay 5 Outcome.whole,
    Action.answer [Datagram.frame [2] [66] ++ Datagram.frame [1] [55]],
    Action.answer [Datagram.frame [1] [55]]]

theorem exchange_exec :
    exists s, (machine Net.literal).exec initial exchange = some s ∧
      s.answered.map (fun e => (e.peer, e.data)) = [([2], [66]), ([1], [55])] ∧
      (s.sockets 5).map Socket.sent = some [(0, [10, 11])] ∧
      (s.sockets 6).map Socket.sent = some [(1, [20])] := by
  have hrun : ((machine Net.literal).exec initial exchange).isSome = true := by decide +kernel
  rcases Option.isSome_iff_exists.mp hrun with ⟨s, hs⟩
  have hanswered : ((machine Net.literal).exec initial exchange).map (fun s =>
      s.answered.map (fun e => (e.peer, e.data))) = some [([2], [66]), ([1], [55])] := by
    decide +kernel
  have hfive : ((machine Net.literal).exec initial exchange).map (fun s =>
      (s.sockets 5).map Socket.sent) = some (some [(0, [10, 11])]) := by
    decide +kernel
  have hsix : ((machine Net.literal).exec initial exchange).map (fun s =>
      (s.sockets 6).map Socket.sent) = some (some [(1, [20])]) := by
    decide +kernel
  rw [hs, Option.map_some, Option.some.injEq] at hanswered hfive hsix
  exact ⟨s, hs, hanswered, hfive, hsix⟩

end UdpTunnel

end Engine
end RcTunnel
