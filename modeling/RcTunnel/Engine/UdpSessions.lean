import RcTunnel.Engine.UdpTunnel

/-!
# The local sockets of a udp proxy

{lit}`sessions` is shared by the loop of {lit}`udpClient`, which stores a socket for a new
address, and the goroutines of the sockets, each of which deletes the session of its
address when it ends.  No goroutine deletes the session of another, an address never has
two sockets on one work connection, and {lit}`udpClient` leaves none open.
-/

namespace RcTunnel
namespace Engine

open Foundation

namespace UdpTunnel

/-- The loop of {lit}`udpClient` has ended. -/
def Pump.Left (pump : Pump) : Prop := pump = Pump.leaving ∨ pump = Pump.returned

structure Sound (conns : Nat -> Option Conn) (sockets : Nat -> Option Socket) : Prop where
  session : forall w c x lc, conns w = some c -> c.sessions x = some lc ->
    exists k, sockets lc = some k ∧ k.work = w ∧ k.addr = x ∧ k.reader ≠ Reader.ended
  socket : forall lc k, sockets lc = some k -> exists c, conns k.work = some c ∧
    (k.reader ≠ Reader.ended -> c.sessions k.addr = some lc)
  live : forall lc k, sockets lc = some k -> k.isOpen = true ->
    k.reader ≠ Reader.closed ∧ k.reader ≠ Reader.ended
  left : forall lc k c, sockets lc = some k -> conns k.work = some c -> c.pump.Left ->
    k.isOpen = false
  dialing : forall w c n d, conns w = some c -> c.pump = Pump.dialing n d ->
    c.sessions d.addr = none
  writing : forall w c n lc data, conns w = some c -> c.pump = Pump.writing n lc data ->
    exists k, sockets lc = some k ∧ k.work = w

namespace Sound

variable {conns : Nat -> Option Conn} {sockets : Nat -> Option Socket}
variable {w lc : Nat} {c c' : Conn} {k k' : Socket}

/-!
# Changes of one connection or socket
-/

/-- A connection changes, but not its sessions. -/
theorem setConn (h : Sound conns sockets) (hconn : conns w = some c)
    (hsessions : c'.sessions = c.sessions)
    (hleft : c'.pump.Left -> forall lc k, sockets lc = some k -> k.work = w -> k.isOpen = false)
    (hdialing : forall n d, c'.pump = Pump.dialing n d -> c.sessions d.addr = none)
    (hwriting : forall n lc data, c'.pump = Pump.writing n lc data ->
      exists k, sockets lc = some k ∧ k.work = w) :
    Sound (Function.update conns w (some c')) sockets where
  session := by
    intro v e x lc he hx
    rcases lookup_started he with ⟨rfl, rfl⟩ | ⟨-, he⟩
    · rw [hsessions] at hx
      exact h.session v c x lc hconn hx
    · exact h.session v e x lc he hx
  socket := by
    intro lc k hk
    rcases h.socket lc k hk with ⟨e, he, hsession⟩
    by_cases hw : k.work = w
    · rw [hw, hconn] at he
      cases he
      refine ⟨c', by rw [hw, Function.update_self], ?_⟩
      rw [hsessions]
      exact hsession
    · exact ⟨e, by rw [Function.update_of_ne hw, he], hsession⟩
  live := h.live
  left := by
    intro lc k e hk he hpump
    rcases lookup_started he with ⟨hw, rfl⟩ | ⟨-, he⟩
    · exact hleft hpump lc k hk hw
    · exact h.left lc k e hk he hpump
  dialing := by
    intro v e n d he hpump
    rcases lookup_started he with ⟨rfl, rfl⟩ | ⟨-, he⟩
    · rw [hsessions]
      exact hdialing n d hpump
    · exact h.dialing v e n d he hpump
  writing := by
    intro v e n lc data he hpump
    rcases lookup_started he with ⟨rfl, rfl⟩ | ⟨-, he⟩
    · exact hwriting n lc data hpump
    · exact h.writing v e n lc data he hpump

/-- A connection changes, but neither its sessions nor its loop. -/
theorem setLine (h : Sound conns sockets) (hconn : conns w = some c)
    (hsessions : c'.sessions = c.sessions) (hpump : c'.pump = c.pump) :
    Sound (Function.update conns w (some c')) sockets := by
  apply h.setConn hconn hsessions
  · intro hleft lc k hk hw
    rw [hpump] at hleft
    exact h.left lc k c hk (hw ▸ hconn) hleft
  · intro n d hdialing
    rw [hpump] at hdialing
    exact h.dialing w c n d hconn hdialing
  · intro n lc data hwriting
    rw [hpump] at hwriting
    exact h.writing w c n lc data hconn hwriting

/-- Sockets change, but keep their addresses, and their goroutines go on. -/
theorem mapSockets (h : Sound conns sockets) {sockets' : Nat -> Option Socket}
    (hnew : forall lc k', sockets' lc = some k' -> exists k, sockets lc = some k ∧
      k'.work = k.work ∧ k'.addr = k.addr ∧ (k'.reader = Reader.ended <-> k.reader = Reader.ended) ∧
      (k'.isOpen = true -> k.isOpen = true ∧ k'.reader ≠ Reader.closed))
    (hold : forall lc k, sockets lc = some k -> exists k', sockets' lc = some k') :
    Sound conns sockets' where
  session := by
    intro w c x lc hc hx
    rcases h.session w c x lc hc hx with ⟨k, hk, hw, haddr, hreader⟩
    rcases hold lc k hk with ⟨k', hk'⟩
    rcases hnew lc k' hk' with ⟨k₀, hk₀, hwork', haddr', hended, -⟩
    rw [hk] at hk₀
    cases hk₀
    exact ⟨k', hk', hwork'.trans hw, haddr'.trans haddr, fun hr => hreader (hended.mp hr)⟩
  socket := by
    intro lc k' hk'
    rcases hnew lc k' hk' with ⟨k, hk, hwork, haddr, hended, -⟩
    rcases h.socket lc k hk with ⟨c, hc, hsession⟩
    refine ⟨c, by rw [hwork, hc], ?_⟩
    intro hr
    rw [haddr]
    exact hsession fun he => hr (hended.mpr he)
  live := by
    intro lc k' hk' hopen
    rcases hnew lc k' hk' with ⟨k, hk, -, -, hended, hopens⟩
    rcases hopens hopen with ⟨hopen', hclosed⟩
    exact ⟨hclosed, fun he => (h.live lc k hk hopen').right (hended.mp he)⟩
  left := by
    intro lc k' c hk' hc hpump
    rcases hnew lc k' hk' with ⟨k, hk, hwork, -, -, hopens⟩
    rw [hwork] at hc
    have hclosed := h.left lc k c hk hc hpump
    cases hopen : k'.isOpen with
    | false => rfl
    | true =>
        rw [(hopens hopen).left] at hclosed
        cases hclosed
  dialing := h.dialing
  writing := by
    intro w c n lc data hc hpump
    rcases h.writing w c n lc data hc hpump with ⟨k, hk, hw⟩
    rcases hold lc k hk with ⟨k', hk'⟩
    rcases hnew lc k' hk' with ⟨k₀, hk₀, hwork', -⟩
    rw [hk] at hk₀
    cases hk₀
    exact ⟨k', hk', hwork'.trans hw⟩

theorem setSocket (h : Sound conns sockets) (hsocket : sockets lc = some k)
    (hwork : k'.work = k.work) (haddr : k'.addr = k.addr)
    (hended : k'.reader = Reader.ended <-> k.reader = Reader.ended)
    (hopen : k'.isOpen = true -> k.isOpen = true ∧ k'.reader ≠ Reader.closed) :
    Sound conns (Function.update sockets lc (some k')) := by
  apply h.mapSockets
  · intro i e he
    rcases lookup_started he with ⟨rfl, rfl⟩ | ⟨-, he⟩
    · exact ⟨k, hsocket, hwork, haddr, hended, hopen⟩
    · exact ⟨e, he, rfl, rfl, Iff.rfl, fun hopens => ⟨hopens, (h.live i e he hopens).left⟩⟩
  · intro i e he
    by_cases hi : i = lc
    · exact ⟨k', by rw [hi, Function.update_self]⟩
    · exact ⟨e, by rw [Function.update_of_ne hi, he]⟩

/-- A socket that is not there is nobody's. -/
theorem ne_of_none (h : Sound conns sockets) (hsocket : sockets lc = none) {x : Bytes} {i : Nat}
    (hconn : conns w = some c) (hx : c.sessions x = some i) : i ≠ lc := by
  rintro rfl
  rcases h.session w c x i hconn hx with ⟨k, hk, -⟩
  rw [hsocket] at hk
  cases hk

/-- {lit}`sessions.Store` of a new socket. -/
theorem store (h : Sound conns sockets) (hconn : conns w = some c) {n : Nat} {d : Datagram}
    (hpump : c.pump = Pump.dialing n d) (hsocket : sockets lc = none)
    (hsessions : c'.sessions = Function.update c.sessions d.addr (some lc))
    (hpump' : c'.pump = Pump.writing n lc d.data) :
    Sound (Function.update conns w (some c'))
      (Function.update sockets lc (some (Socket.new w d.addr))) where
  session := by
    intro v e x i he hx
    rcases lookup_started he with ⟨rfl, rfl⟩ | ⟨-, he⟩
    · rw [hsessions] at hx
      rcases lookup_started hx with ⟨rfl, rfl⟩ | ⟨-, hx⟩
      · exact ⟨Socket.new v d.addr, Function.update_self .., rfl, rfl, by simp [Socket.new]⟩
      · rcases h.session v c x i hconn hx with ⟨k, hk, hrest⟩
        exact ⟨k, by rw [Function.update_of_ne (h.ne_of_none hsocket hconn hx), hk], hrest⟩
    · rcases h.session v e x i he hx with ⟨k, hk, hrest⟩
      exact ⟨k, by rw [Function.update_of_ne (h.ne_of_none hsocket he hx), hk], hrest⟩
  socket := by
    intro i k hk
    rcases lookup_started hk with ⟨rfl, rfl⟩ | ⟨-, hk⟩
    · refine ⟨c', Function.update_self .., fun _ => ?_⟩
      rw [hsessions]
      exact Function.update_self ..
    · rcases h.socket i k hk with ⟨e, he, hsession⟩
      by_cases hw : k.work = w
      · rw [hw, hconn] at he
        cases he
        refine ⟨c', by rw [hw, Function.update_self], fun hr => ?_⟩
        have hne : k.addr ≠ d.addr := by
          intro haddr
          have hnone := h.dialing w c n d hconn hpump
          rw [← haddr, hsession hr] at hnone
          cases hnone
        rw [hsessions, Function.update_of_ne hne]
        exact hsession hr
      · exact ⟨e, by rw [Function.update_of_ne hw, he], hsession⟩
  live := by
    intro i k hk hopen
    rcases lookup_started hk with ⟨rfl, rfl⟩ | ⟨-, hk⟩
    · simp [Socket.new]
    · exact h.live i k hk hopen
  left := by
    intro i k e hk he hleft
    rcases lookup_started he with ⟨hw, rfl⟩ | ⟨hw, he⟩
    · rw [hpump'] at hleft
      rcases hleft with hleft | hleft <;> cases hleft
    · rcases lookup_started hk with ⟨rfl, rfl⟩ | ⟨-, hk⟩
      · exact absurd rfl hw
      · exact h.left i k e hk he hleft
  dialing := by
    intro v e m d' he hdialing
    rcases lookup_started he with ⟨rfl, rfl⟩ | ⟨-, he⟩
    · rw [hpump'] at hdialing
      cases hdialing
    · exact h.dialing v e m d' he hdialing
  writing := by
    intro v e m i data he hwriting
    rcases lookup_started he with ⟨rfl, rfl⟩ | ⟨-, he⟩
    · rw [hpump'] at hwriting
      cases hwriting
      exact ⟨Socket.new v d.addr, Function.update_self .., rfl⟩
    · rcases h.writing v e m i data he hwriting with ⟨k, hk, hw⟩
      have hi : i ≠ lc := by
        rintro rfl
        rw [hsocket] at hk
        cases hk
      exact ⟨k, by rw [Function.update_of_ne hi, hk], hw⟩

/-- {lit}`sessions.Delete` by the goroutine of a closed socket. -/
theorem delete (h : Sound conns sockets) (hsocket : sockets lc = some k)
    (hreader : k.reader = Reader.closed) (hconn : conns k.work = some c)
    (hsessions : c'.sessions = Function.update c.sessions k.addr none)
    (hpump : c'.pump = c.pump) :
    Sound (Function.update conns k.work (some c'))
      (Function.update sockets lc (some { k with reader := Reader.ended })) := by
  have hown : c.sessions k.addr = some lc := by
    rcases h.socket lc k hsocket with ⟨e, he, hsession⟩
    rw [hconn] at he
    cases he
    apply hsession
    rw [hreader]
    simp
  have hshut : k.isOpen = false := by
    cases hopen : k.isOpen with
    | false => rfl
    | true => exact absurd hreader (h.live lc k hsocket hopen).left
  constructor
  · intro v e x i he hx
    have hother : exists c₀, conns v = some c₀ ∧ c₀.sessions x = some i ∧ i ≠ lc := by
      rcases lookup_started he with ⟨rfl, rfl⟩ | ⟨hv, he⟩
      · rw [hsessions] at hx
        rcases lookup_ended hx with ⟨hne, hx⟩
        refine ⟨c, hconn, hx, ?_⟩
        rintro rfl
        rcases h.session k.work c x i hconn hx with ⟨k₀, hk₀, -, haddr, -⟩
        rw [hsocket] at hk₀
        cases hk₀
        exact hne haddr.symm
      · refine ⟨e, he, hx, ?_⟩
        rintro rfl
        rcases h.session v e x i he hx with ⟨k₀, hk₀, hw, -⟩
        rw [hsocket] at hk₀
        cases hk₀
        exact hv hw.symm
    rcases hother with ⟨c₀, hc₀, hx₀, hne⟩
    rcases h.session v c₀ x i hc₀ hx₀ with ⟨k₀, hk₀, hrest⟩
    exact ⟨k₀, by rw [Function.update_of_ne hne, hk₀], hrest⟩
  · intro i e he
    rcases lookup_started he with ⟨rfl, rfl⟩ | ⟨hi, he⟩
    · exact ⟨c', Function.update_self .., fun hr => absurd rfl hr⟩
    · rcases h.socket i e he with ⟨c₀, hc₀, hsession⟩
      by_cases hw : e.work = k.work
      · rw [hw, hconn] at hc₀
        cases hc₀
        refine ⟨c', by rw [hw, Function.update_self], fun hr => ?_⟩
        have hne : e.addr ≠ k.addr := by
          intro haddr
          have hsame := hsession hr
          rw [haddr, hown] at hsame
          exact hi (Option.some.inj hsame).symm
        rw [hsessions, Function.update_of_ne hne]
        exact hsession hr
      · exact ⟨c₀, by rw [Function.update_of_ne hw, hc₀], hsession⟩
  · intro i e he hopen
    rcases lookup_started he with ⟨rfl, rfl⟩ | ⟨-, he⟩
    · rw [hshut] at hopen
      cases hopen
    · exact h.live i e he hopen
  · intro i e c₀ he hc₀ hleft
    rcases lookup_started he with ⟨rfl, rfl⟩ | ⟨-, he⟩
    · exact hshut
    · rcases lookup_started hc₀ with ⟨hw, rfl⟩ | ⟨-, hc₀⟩
      · rw [hpump] at hleft
        exact h.left i e c he (hw ▸ hconn) hleft
      · exact h.left i e c₀ he hc₀ hleft
  · intro v e n d he hdialing
    rcases lookup_started he with ⟨rfl, rfl⟩ | ⟨-, he⟩
    · rw [hpump] at hdialing
      rw [hsessions]
      by_cases haddr : d.addr = k.addr
      · rw [haddr, Function.update_self]
      · rw [Function.update_of_ne haddr]
        exact h.dialing k.work c n d hconn hdialing
    · exact h.dialing v e n d he hdialing
  · intro v e n i data he hwriting
    have hbefore : exists k₀, sockets i = some k₀ ∧ k₀.work = v := by
      rcases lookup_started he with ⟨rfl, rfl⟩ | ⟨-, he⟩
      · rw [hpump] at hwriting
        exact h.writing k.work c n i data hconn hwriting
      · exact h.writing v e n i data he hwriting
    rcases hbefore with ⟨k₀, hk₀, hw⟩
    by_cases hi : i = lc
    · rw [hi, hsocket] at hk₀
      cases hk₀
      exact ⟨{ k with reader := Reader.ended }, by rw [hi, Function.update_self], hw⟩
    · exact ⟨k₀, by rw [Function.update_of_ne hi, hk₀], hw⟩

/-!
# Runs
-/

variable {Addr : Type u} {net : Net Addr} {s t : State Addr} {a : Action Addr}

theorem closeSessions_some {i : Nat} (h : s.closeSessions w c i = some k') :
    exists k, s.sockets i = some k ∧ k'.work = k.work ∧ k'.addr = k.addr ∧
      k'.reader = k.reader ∧ (k'.isOpen = true -> k.isOpen = true ∧
        ¬ (k.work = w ∧ c.sessions k.addr = some i)) := by
  rcases Option.map_eq_some_iff.mp h with ⟨k, hk, rfl⟩
  refine ⟨k, hk, ?_⟩
  split
  · exact ⟨rfl, rfl, rfl, by simp⟩
  · rename_i hother
    exact ⟨rfl, rfl, rfl, fun hopen => ⟨hopen, hother⟩⟩

/-- After {lit}`sessions.Range` no socket of the connection is open. -/
theorem closed_of_closeSessions (h : Sound s.conns s.sockets) (hconn : s.conns w = some c)
    {i : Nat} (hsocket : s.closeSessions w c i = some k') (hwork : k'.work = w) :
    k'.isOpen = false := by
  rcases closeSessions_some hsocket with ⟨k, hk, hw, -, -, hopens⟩
  cases hopen : k'.isOpen with
  | false => rfl
  | true =>
      rcases hopens hopen with ⟨hopen', hother⟩
      rcases h.socket i k hk with ⟨e, he, hsession⟩
      rw [← hw, hwork, hconn] at he
      cases he
      exact absurd ⟨hw.symm.trans hwork, hsession (h.live i k hk hopen').right⟩ hother

theorem start : Sound (initial : State Addr).conns (initial : State Addr).sockets := by
  constructor <;> intros <;> contradiction

/-- No socket belongs to a work connection that is new. -/
theorem addConn (h : Sound conns sockets) (hconn : conns w = none) :
    Sound (Function.update conns w (some Conn.new)) sockets := by
  have hnone : forall i k, sockets i = some k -> k.work ≠ w := by
    rintro i k hk rfl
    rcases h.socket i k hk with ⟨c, hc, -⟩
    rw [hconn] at hc
    cases hc
  constructor
  · intro u e x i he hx
    rcases lookup_started he with ⟨rfl, rfl⟩ | ⟨-, he⟩
    · cases hx
    · exact h.session u e x i he hx
  · intro i k hk
    rcases h.socket i k hk with ⟨c, hc, hsession⟩
    refine ⟨c, ?_, hsession⟩
    rw [← hc]
    exact Function.update_of_ne (hnone i k hk) ..
  · exact h.live
  · intro i k e hk he hleft
    rcases lookup_started he with ⟨hw, -⟩ | ⟨-, he⟩
    · exact absurd hw (hnone i k hk)
    · exact h.left i k e hk he hleft
  · intro u e n d he hpump
    rcases lookup_started he with ⟨rfl, rfl⟩ | ⟨-, he⟩
    · cases hpump
    · exact h.dialing u e n d he hpump
  · intro u e n i data he hpump
    rcases lookup_started he with ⟨rfl, rfl⟩ | ⟨-, he⟩
    · cases hpump
    · exact h.writing u e n i data he hpump

/-- The loop goes back to reading. -/
theorem resume (h : Sound conns sockets) (hconn : conns w = some c)
    (hsessions : c'.sessions = c.sessions) (hpump : c'.pump = Pump.reading) :
    Sound (Function.update conns w (some c')) sockets := by
  apply h.setConn hconn hsessions
  · rw [hpump]
    rintro (hleft | hleft) <;> cases hleft
  · intro n d hdialing
    rw [hpump] at hdialing
    cases hdialing
  · intro n i data hwriting
    rw [hpump] at hwriting
    cases hwriting

/-- The loop has ended, and all sockets of the connection are closed. -/
theorem leave (h : Sound conns sockets) (hconn : conns w = some c)
    (hsessions : c'.sessions = c.sessions) (hpump : c'.pump.Left)
    (hclosed : forall i k, sockets i = some k -> k.work = w -> k.isOpen = false) :
    Sound (Function.update conns w (some c')) sockets := by
  apply h.setConn hconn hsessions
  · exact fun _ => hclosed
  · intro n d hdialing
    rw [hdialing] at hpump
    rcases hpump with hpump | hpump <;> cases hpump
  · intro n i data hwriting
    rw [hwriting] at hpump
    rcases hpump with hpump | hpump <;> cases hpump

theorem lookUp (h : Sound conns sockets) (hconn : conns w = some c)
    (hsessions : c'.sessions = c.sessions) {n : Nat} {d : Datagram}
    (hpump : c'.pump = c.lookUp n d) : Sound (Function.update conns w (some c')) sockets := by
  apply h.setConn hconn hsessions
  · rw [hpump]
    unfold Conn.lookUp
    split <;> rintro (hleft | hleft) <;> cases hleft
  · intro m d' hdialing
    rw [hpump] at hdialing
    unfold Conn.lookUp at hdialing
    split at hdialing
    · rename_i hnone
      cases hdialing
      exact hnone
    · cases hdialing
  · intro m i data hwriting
    rw [hpump] at hwriting
    unfold Conn.lookUp at hwriting
    split at hwriting
    · cases hwriting
    · rename_i hsession
      cases hwriting
      rcases h.session w c d.addr i hconn hsession with ⟨k, hk, hw, -⟩
      exact ⟨k, hk, hw⟩

/-- {lit}`deliver` leaves everything but what was sent. -/
theorem deliver (h : Sound conns sockets) (hsocket : sockets lc = some k) (n : Nat)
    (data : Bytes) (ok : Bool) :
    Sound conns (Function.update sockets lc (some (k.deliver n data ok))) := by
  have hsame : (k.deliver n data ok).work = k.work ∧ (k.deliver n data ok).addr = k.addr ∧
      (k.deliver n data ok).reader = k.reader ∧ (k.deliver n data ok).isOpen = k.isOpen := by
    unfold Socket.deliver
    split <;> exact ⟨rfl, rfl, rfl, rfl⟩
  rcases hsame with ⟨hw, haddr, hreader, hopen⟩
  apply h.setSocket hsocket hw haddr
  · rw [hreader]
  · intro hopens
    rw [hopen] at hopens
    rw [hreader]
    exact ⟨hopens, (h.live lc k hsocket hopens).left⟩

theorem relayed (h : Sound conns sockets) (hsocket : sockets lc = some k) {data : Bytes}
    (hreader : k.reader = Reader.relaying data) (ok : Bool) :
    Sound conns (Function.update sockets lc (some (k.relayed ok))) := by
  apply h.setSocket hsocket
  · unfold Socket.relayed
    split <;> rfl
  · unfold Socket.relayed
    split <;> rfl
  · unfold Socket.relayed
    split <;> simp [hreader, Socket.close]
  · unfold Socket.relayed
    split
    · intro hopens
      exact ⟨hopens, by simp⟩
    · intro hopens
      cases hopens

theorem closeSessions (h : Sound s.conns s.sockets) (w : Nat) (c : Conn) :
    Sound s.conns (s.closeSessions w c) := by
  apply h.mapSockets
  · intro i k' hk'
    rcases closeSessions_some hk' with ⟨k, hk, hw, haddr, hreader, hopens⟩
    refine ⟨k, hk, hw, haddr, by rw [hreader], fun hopen => ?_⟩
    rw [hreader]
    exact ⟨(hopens hopen).left, (h.live i k hk (hopens hopen).left).left⟩
  · intro i k hk
    exact ⟨_, congrArg (Option.map _) hk⟩

theorem step (h : Sound s.conns s.sockets) (hstep : UdpTunnel.step net s a = some t) :
    Sound t.conns t.sockets := by
  cases step_moves hstep with
  | receive hstopped hholding => exact h
  | forward hholding hconn =>
      apply h.setLine hconn
      · unfold Conn.writeUp
        split <;> rfl
      · unfold Conn.writeUp
        split <;> rfl
  | pair hloop hconn => exact h.addConn hconn
  | answer hloop hconn hread =>
      unfold State.send
      split
      · exact h.setLine hconn rfl rfl
      · exact h.setLine hconn rfl rfl
  | fail hloop => exact h
  | hangUp hloop hconn => exact h.setLine hconn rfl rfl
  | stop => exact h
  | take hconn hpump hread => exact h.lookUp hconn rfl rfl
  | dialFail hconn hpump => exact h.resume hconn rfl rfl
  | dial hconn hpump hsocket => exact h.store hconn hpump hsocket rfl rfl
  | deliver hconn hpump hsocket =>
      rename_i w n lc c k data ok
      have hconn' : Sound (Function.update s.conns w
          (some { c with pump := Pump.reading, taken := c.taken ++ [n] })) s.sockets :=
        h.resume hconn rfl rfl
      exact hconn'.deliver hsocket n data ok
  | leave hconn hpump =>
      apply (h.closeSessions _ _).leave hconn
      · rfl
      · exact Or.inl rfl
      · intro i k hk hw
        exact h.closed_of_closeSessions hconn hk hw
  | close hconn hpump =>
      apply h.leave hconn
      · rfl
      · exact Or.inr rfl
      · intro i k hk hw
        exact h.left i k _ hk (hw ▸ hconn) (Or.inl hpump)
  | reply hsocket hreader hopen =>
      apply h.setSocket hsocket
      · rfl
      · rfl
      · simp [hreader]
      · intro _
        exact ⟨hopen, by simp⟩
  | relay hsocket hreader hconn =>
      rename_i i k c data outcome
      have hline : Sound (Function.update s.conns k.work
          (some (c.writeDown (i, k.replies.length - 1) ⟨k.addr, data⟩ outcome).1)) s.sockets := by
        apply h.setLine hconn
        · unfold Conn.writeDown
          split <;> rfl
        · unfold Conn.writeDown
          split <;> rfl
      exact hline.relayed hsocket hreader _
  | expire hsocket hreader =>
      apply h.setSocket hsocket
      · rfl
      · rfl
      · simp [Socket.close, hreader]
      · intro hopens
        cases hopens
  | forget hsocket hreader hconn => exact h.delete hsocket hreader hconn rfl rfl

theorem of_reachable (h : (machine net).Reachable s) : Sound s.conns s.sockets := by
  apply h.invariant (I := fun s => Sound s.conns s.sockets)
  · rintro s rfl
    exact start
  · intro s a t hs hstep
    exact hs.step hstep

end Sound

/-!
# What a socket is for
-/

/-- A socket keeps its connection and its address, and does not come back. -/
structure Socket.Keeps (k k' : Socket) : Prop where
  work : k'.work = k.work
  addr : k'.addr = k.addr
  sent : k.sent <+: k'.sent
  shut : k.isOpen = false -> k'.isOpen = false
  ended : k.reader = Reader.ended -> k'.reader = Reader.ended

namespace Socket.Keeps

theorem rfl {k : Socket} : k.Keeps k :=
  ⟨Eq.refl _, Eq.refl _, List.prefix_refl _, id, id⟩

theorem trans {k k' k'' : Socket} (h : k.Keeps k') (h' : k'.Keeps k'') : k.Keeps k'' :=
  ⟨h'.work.trans h.work, h'.addr.trans h.addr, h.sent.trans h'.sent, fun hk => h'.shut (h.shut hk),
    fun hk => h'.ended (h.ended hk)⟩

theorem close {k : Socket} (hreader : k.reader ≠ Reader.ended) : k.Keeps k.close :=
  ⟨Eq.refl _, Eq.refl _, List.prefix_refl _, fun _ => Eq.refl _, fun hk => absurd hk hreader⟩

theorem deliver (k : Socket) (n : Nat) (data : Bytes) (ok : Bool) :
    k.Keeps (k.deliver n data ok) := by
  unfold Socket.deliver
  split
  · exact ⟨Eq.refl _, Eq.refl _, List.prefix_append _ _, id, id⟩
  · exact Keeps.rfl

theorem relayed {k : Socket} {data : Bytes} (hreader : k.reader = Reader.relaying data)
    (ok : Bool) : k.Keeps (k.relayed ok) := by
  have hended : k.reader ≠ Reader.ended := by
    rw [hreader]
    exact Reader.noConfusion
  unfold Socket.relayed
  split
  · exact ⟨Eq.refl _, Eq.refl _, List.prefix_refl _, id, fun hk => absurd hk hended⟩
  · exact close hended

end Socket.Keeps

section Keeps

variable {Addr : Type u} {net : Net Addr} {s t : State Addr} {a : Action Addr}

theorem keeps_setSocket {sockets : Nat -> Option Socket} {i lc : Nat} {k old new : Socket}
    (hold : sockets lc = some old) (hnew : old.Keeps new) (hk : sockets i = some k) :
    exists k', Function.update sockets lc (some new) i = some k' ∧ k.Keeps k' := by
  by_cases hi : i = lc
  · subst hi
    rw [hold] at hk
    cases hk
    exact ⟨new, Function.update_self .., hnew⟩
  · exact ⟨k, (Function.update_of_ne hi ..).trans hk, Socket.Keeps.rfl⟩

theorem keeps_closeSessions (w : Nat) (c : Conn) {i : Nat} {k : Socket}
    (hk : s.sockets i = some k) : exists k', s.closeSessions w c i = some k' ∧ k.Keeps k' := by
  unfold State.closeSessions
  rw [hk, Option.map_some]
  refine ⟨_, rfl, ?_⟩
  split
  · exact ⟨rfl, rfl, List.prefix_refl _, fun _ => rfl, id⟩
  · exact Socket.Keeps.rfl

theorem keeps_step {i : Nat} {k : Socket} (hk : s.sockets i = some k)
    (hstep : step net s a = some t) : exists k', t.sockets i = some k' ∧ k.Keeps k' := by
  cases step_moves hstep with
  | answer hloop hconn hread =>
      refine ⟨k, ?_, Socket.Keeps.rfl⟩
      unfold State.send
      split <;> exact hk
  | dial hconn hpump hsocket =>
      refine ⟨k, (Function.update_of_ne ?_ ..).trans hk, Socket.Keeps.rfl⟩
      rintro rfl
      rw [hsocket] at hk
      cases hk
  | deliver hconn hpump hsocket =>
      exact keeps_setSocket hsocket (Socket.Keeps.deliver _ _ _ _) hk
  | leave hconn hpump => exact keeps_closeSessions _ _ hk
  | reply hsocket hreader hopen =>
      apply keeps_setSocket hsocket _ hk
      refine ⟨rfl, rfl, List.prefix_refl _, id, fun hended => ?_⟩
      rw [hreader] at hended
      cases hended
  | relay hsocket hreader hconn =>
      exact keeps_setSocket hsocket (Socket.Keeps.relayed hreader _) hk
  | expire hsocket hreader =>
      apply keeps_setSocket hsocket _ hk
      apply Socket.Keeps.close
      rw [hreader]
      exact Reader.noConfusion
  | forget hsocket hreader hconn =>
      apply keeps_setSocket hsocket _ hk
      exact ⟨rfl, rfl, List.prefix_refl _, id, fun _ => rfl⟩
  | _ => exact ⟨k, hk, Socket.Keeps.rfl⟩

/-- In every continuation. -/
theorem keeps_exec {actions : List (Action Addr)} {i : Nat} {k : Socket}
    (hk : s.sockets i = some k) (hexec : (machine net).exec s actions = some t) :
    exists k', t.sockets i = some k' ∧ k.Keeps k' := by
  apply Machine.exec_preserves (A := fun _ => True)
    (I := fun u : State Addr => exists k', u.sockets i = some k' ∧ k.Keeps k') _
    (fun _ _ => trivial) ⟨k, hk, Socket.Keeps.rfl⟩ hexec
  rintro u b v - ⟨k', hk', hkeeps⟩ hstep
  rcases keeps_step hk' hstep with ⟨k'', hk'', hkeeps'⟩
  exact ⟨k'', hk'', hkeeps.trans hkeeps'⟩

end Keeps

/-!
# One socket for each address
-/

/-- The sockets of {lit}`udpClient` are told apart by their addresses. -/
structure State.Exclusive (net : Net Addr) (s : State Addr) : Prop where
  /-- of the sockets for an address on one work connection at most one is in use -/
  unique : forall i j k k', s.sockets i = some k -> s.sockets j = some k' ->
    k.work = k'.work -> k.addr = k'.addr -> k.reader ≠ Reader.ended ->
    k'.reader ≠ Reader.ended -> i = j
  /-- a goroutine about to delete the session of its address finds its own there -/
  own : forall i k c, s.sockets i = some k -> s.conns k.work = some c ->
    k.reader = Reader.closed -> c.sessions k.addr = some i
  /-- when the loop has ended, all sockets of the connection are closed -/
  closed : forall i k c, s.sockets i = some k -> s.conns k.work = some c -> c.pump.Left ->
    k.isOpen = false
  /-- however the run goes on, a socket is for the same address on the same connection -/
  keeps : forall i k actions t, s.sockets i = some k ->
    (machine net).exec s actions = some t -> exists k', t.sockets i = some k' ∧ k.Keeps k'

theorem sessions_exclusive {net : Net Addr} {s : State Addr} (h : (machine net).Reachable s) :
    s.Exclusive net := by
  have hsound := Sound.of_reachable h
  constructor
  · intro i j k k' hi hj hwork haddr hr hr'
    rcases hsound.socket i k hi with ⟨c, hc, hsession⟩
    rcases hsound.socket j k' hj with ⟨c', hc', hsession'⟩
    rw [← hwork, hc] at hc'
    cases hc'
    have hsame := hsession' hr'
    rw [← haddr, hsession hr] at hsame
    exact Option.some.inj hsame
  · intro i k c hi hc hr
    rcases hsound.socket i k hi with ⟨e, he, hsession⟩
    rw [hc] at he
    cases he
    apply hsession
    rw [hr]
    simp
  · exact hsound.left
  · intro i k actions t hi hexec
    exact keeps_exec hi hexec

theorem sessions_exclusive_exchange :
    exists s, (machine Net.literal).exec initial exchange = some s ∧
      (s.sockets 5).isSome = true ∧ (s.sockets 6).isSome = true ∧ s.Exclusive Net.literal := by
  rcases exchange_exec with ⟨s, hs, -, hfive, hsix⟩
  have hsockets : (s.sockets 5).isSome = true ∧ (s.sockets 6).isSome = true := by
    rw [← Option.isSome_map (f := Socket.sent), hfive, ← Option.isSome_map (f := Socket.sent), hsix]
    exact ⟨rfl, rfl⟩
  have hexclusive := sessions_exclusive ⟨initial, exchange, rfl, hs⟩
  exact ⟨s, hs, hsockets.left, hsockets.right, hexclusive⟩

end UdpTunnel

end Engine
end RcTunnel
