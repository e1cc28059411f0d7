import RcTunnel.Foundation.Indexed
import RcTunnel.Engine.UdpSessions

/-!
# From the public socket to the local service

Datagrams may be lost on the way, but none is delivered to the socket of another source,
out of the order of its socket, or twice, whatever work connections break meanwhile.
-/

namespace RcTunnel
namespace Engine

open Foundation

namespace UdpTunnel

variable {Addr : Type u} (net : Net Addr)

/-!
# What a work connection carries

The numbers of the datagrams that a work connection carries, or has carried, increase, and
no other connection carries the same.
-/

def Pump.numbers : Pump -> List Nat
  | Pump.dialing n _ => [n]
  | Pump.writing n _ _ => [n]
  | _ => []

def Conn.numbers (c : Conn) : List Nat :=
  c.taken ++ (c.pump.numbers ++ c.up.queue.map Prod.fst)

/-- The datagram of the number has the data, and came from the address. -/
def Origin (received : List (Addr × Bytes)) (n : Nat) (x data : Bytes) : Prop :=
  exists a, received[n]? = some (a, data) ∧ net.string a = x

/-- No connection carries a datagram of this number, or a higher one, yet. -/
def State.bound (s : State Addr) : Nat :=
  match s.holding with
  | none => s.received.length
  | some _ => s.last

structure Forwarded (received : List (Addr × Bytes)) (bound : Nat)
    (conns : Nat -> Option Conn) (sockets : Nat -> Option Socket) : Prop where
  order : forall w c, conns w = some c -> c.numbers.Pairwise (· < ·)
  bound : forall w c n, conns w = some c -> n ∈ c.numbers -> n < bound
  apart : forall v w c e n, conns v = some c -> conns w = some e -> n ∈ c.numbers ->
    n ∈ e.numbers -> v = w
  queued : forall w c n d, conns w = some c -> (n, d) ∈ c.up.queue ->
    Origin net received n d.addr d.data
  dialing : forall w c n d, conns w = some c -> c.pump = Pump.dialing n d ->
    Origin net received n d.addr d.data
  writing : forall w c n lc data, conns w = some c -> c.pump = Pump.writing n lc data ->
    exists k, sockets lc = some k ∧ Origin net received n k.addr data
  dialed : forall lc k, sockets lc = some k -> exists n data, Origin net received n k.addr data
  sent : forall lc k, sockets lc = some k -> exists c, conns k.work = some c ∧
    (k.sent.map Prod.fst).Sublist c.taken
  source : forall lc k n data, sockets lc = some k -> (n, data) ∈ k.sent ->
    Origin net received n k.addr data
  once : forall i j k k' n, sockets i = some k -> sockets j = some k' ->
    n ∈ k.sent.map Prod.fst -> n ∈ k'.sent.map Prod.fst -> i = j

namespace Forwarded

variable {net} {received : List (Addr × Bytes)} {top : Nat}
variable {conns : Nat -> Option Conn} {sockets : Nat -> Option Socket}
variable {w lc : Nat} {c c' : Conn} {k k' : Socket}

/-- One more datagram is read. -/
theorem receive (h : Forwarded net received top conns sockets) (entry : Addr × Bytes)
    {top' : Nat} (htop : top ≤ top') :
    Forwarded net (received ++ [entry]) top' conns sockets := by
  have hmono : forall n x data, Origin net received n x data ->
      Origin net (received ++ [entry]) n x data := by
    rintro n x data ⟨a, ha, hx⟩
    exact ⟨a, getElem?_snoc ha, hx⟩
  constructor
  · exact h.order
  · intro w c n hc hn
    exact Nat.lt_of_lt_of_le (h.bound w c n hc hn) htop
  · exact h.apart
  · intro w c n d hc hd
    exact hmono _ _ _ (h.queued w c n d hc hd)
  · intro w c n d hc hd
    exact hmono _ _ _ (h.dialing w c n d hc hd)
  · intro w c n lc data hc hd
    rcases h.writing w c n lc data hc hd with ⟨k, hk, horigin⟩
    exact ⟨k, hk, hmono _ _ _ horigin⟩
  · intro lc k hk
    rcases h.dialed lc k hk with ⟨n, data, horigin⟩
    exact ⟨n, data, hmono _ _ _ horigin⟩
  · exact h.sent
  · intro lc k n data hk hd
    exact hmono _ _ _ (h.source lc k n data hk hd)
  · exact h.once

/-- A connection changes; it carries what it carried, and perhaps the datagram that was
held back until now. -/
theorem setConn (h : Forwarded net received top conns sockets) (hconn : conns w = some c)
    {top' : Nat} (htop : top ≤ top')
    (hnumbers : c'.numbers = c.numbers ∨
      (c'.numbers = c.numbers ++ [top] ∧ top < top'))
    (htaken : c.taken.Sublist c'.taken)
    (hqueued : forall n d, (n, d) ∈ c'.up.queue -> Origin net received n d.addr d.data)
    (hdialing : forall n d, c'.pump = Pump.dialing n d -> Origin net received n d.addr d.data)
    (hwriting : forall n lc data, c'.pump = Pump.writing n lc data ->
      exists k, sockets lc = some k ∧ Origin net received n k.addr data) :
    Forwarded net received top' (Function.update conns w (some c')) sockets := by
  have hnumber : forall n, n ∈ c'.numbers -> n ∈ c.numbers ∨ (n = top ∧ top < top') := by
    intro n hn
    rcases hnumbers with hsame | ⟨hsnoc, hlt⟩
    · rw [hsame] at hn
      exact Or.inl hn
    · rw [hsnoc] at hn
      rcases List.mem_append.mp hn with hn | hn
      · exact Or.inl hn
      · exact Or.inr ⟨List.mem_singleton.mp hn, hlt⟩
  constructor
  · intro v e he
    rcases lookup_started he with ⟨rfl, rfl⟩ | ⟨-, he⟩
    · rcases hnumbers with hsame | ⟨hsnoc, -⟩
      · rw [hsame]
        exact h.order v c hconn
      · rw [hsnoc, List.pairwise_append]
        refine ⟨h.order v c hconn, List.pairwise_singleton _ _, ?_⟩
        intro n hn m hm
        rw [List.mem_singleton.mp hm]
        exact h.bound v c n hconn hn
    · exact h.order v e he
  · intro v e n he hn
    rcases lookup_started he with ⟨rfl, rfl⟩ | ⟨-, he⟩
    · rcases hnumber n hn with hn | ⟨rfl, hlt⟩
      · exact Nat.lt_of_lt_of_le (h.bound v c n hconn hn) htop
      · exact hlt
    · exact Nat.lt_of_lt_of_le (h.bound v e n he hn) htop
  · intro u v d e n hd he hn hn'
    rcases lookup_started hd with ⟨rfl, rfl⟩ | ⟨-, hd₀⟩
    · rcases lookup_started he with ⟨rfl, rfl⟩ | ⟨-, he⟩
      · rfl
      · rcases hnumber n hn with hn | ⟨rfl, -⟩
        · exact h.apart u v c e n hconn he hn hn'
        · exact absurd (h.bound v e n he hn') (Nat.lt_irrefl n)
    · rcases lookup_started he with ⟨rfl, rfl⟩ | ⟨-, he⟩
      · rcases hnumber n hn' with hn' | ⟨rfl, -⟩
        · exact h.apart u v d c n hd₀ hconn hn hn'
        · exact absurd (h.bound u d n hd₀ hn) (Nat.lt_irrefl n)
      · exact h.apart u v d e n hd₀ he hn hn'
  · intro v e n d he hd
    rcases lookup_started he with ⟨rfl, rfl⟩ | ⟨-, he⟩
    · exact hqueued n d hd
    · exact h.queued v e n d he hd
  · intro v e n d he hd
    rcases lookup_started he with ⟨rfl, rfl⟩ | ⟨-, he⟩
    · exact hdialing n d hd
    · exact h.dialing v e n d he hd
  · intro v e n lc data he hd
    rcases lookup_started he with ⟨rfl, rfl⟩ | ⟨-, he⟩
    · exact hwriting n lc data hd
    · exact h.writing v e n lc data he hd
  · exact h.dialed
  · intro lc k hk
    rcases h.sent lc k hk with ⟨e, he, hsub⟩
    by_cases hw : k.work = w
    · rw [hw, hconn] at he
      cases he
      exact ⟨c', by rw [hw, Function.update_self], hsub.trans htaken⟩
    · exact ⟨e, by rw [Function.update_of_ne hw, he], hsub⟩
  · exact h.source
  · exact h.once

/-- A connection changes, but not what it carries. -/
theorem setSame (h : Forwarded net received top conns sockets) (hconn : conns w = some c)
    (hup : c'.up = c.up) (hpump : c'.pump = c.pump) (htaken : c'.taken = c.taken) :
    Forwarded net received top (Function.update conns w (some c')) sockets := by
  apply h.setConn hconn (Nat.le_refl top)
  · apply Or.inl
    rw [Conn.numbers, Conn.numbers, hup, hpump, htaken]
  · rw [htaken]
  · rw [hup]
    exact fun n d => h.queued w c n d hconn
  · rw [hpump]
    exact fun n d => h.dialing w c n d hconn
  · rw [hpump]
    exact fun n lc data => h.writing w c n lc data hconn

/-- Sockets change, but not what they have been sent. -/
theorem mapSockets (h : Forwarded net received top conns sockets)
    {sockets' : Nat -> Option Socket}
    (hnew : forall lc k', sockets' lc = some k' -> exists k, sockets lc = some k ∧
      k'.work = k.work ∧ k'.addr = k.addr ∧ k'.sent = k.sent)
    (hold : forall lc k, sockets lc = some k -> exists k', sockets' lc = some k') :
    Forwarded net received top conns sockets' := by
  constructor
  · exact h.order
  · exact h.bound
  · exact h.apart
  · exact h.queued
  · exact h.dialing
  · intro w c n lc data hc hd
    rcases h.writing w c n lc data hc hd with ⟨k, hk, horigin⟩
    rcases hold lc k hk with ⟨k', hk'⟩
    rcases hnew lc k' hk' with ⟨k₀, hk₀, -, haddr, -⟩
    rw [hk] at hk₀
    cases hk₀
    exact ⟨k', hk', haddr ▸ horigin⟩
  · intro lc k' hk'
    rcases hnew lc k' hk' with ⟨k, hk, -, haddr, -⟩
    rw [haddr]
    exact h.dialed lc k hk
  · intro lc k' hk'
    rcases hnew lc k' hk' with ⟨k, hk, hwork, -, hsent⟩
    rw [hwork, hsent]
    exact h.sent lc k hk
  · intro lc k' n data hk' hd
    rcases hnew lc k' hk' with ⟨k, hk, -, haddr, hsent⟩
    rw [hsent] at hd
    rw [haddr]
    exact h.source lc k n data hk hd
  · intro i j k k' n hk hk' hn hn'
    rcases hnew i k hk with ⟨e, he, -, -, hsent⟩
    rcases hnew j k' hk' with ⟨e', he', -, -, hsent'⟩
    rw [hsent] at hn
    rw [hsent'] at hn'
    exact h.once i j e e' n he he' hn hn'

theorem setSocket (h : Forwarded net received top conns sockets) (hsocket : sockets lc = some k)
    (hwork : k'.work = k.work) (haddr : k'.addr = k.addr) (hsent : k'.sent = k.sent) :
    Forwarded net received top conns (Function.update sockets lc (some k')) := by
  apply h.mapSockets
  · intro i e he
    rcases lookup_started he with ⟨rfl, rfl⟩ | ⟨-, he⟩
    · exact ⟨k, hsocket, hwork, haddr, hsent⟩
    · exact ⟨e, he, rfl, rfl, rfl⟩
  · intro i e he
    by_cases hi : i = lc
    · exact ⟨k', by rw [hi, Function.update_self]⟩
    · exact ⟨e, by rw [Function.update_of_ne hi, he]⟩

/-- A new socket has been sent nothing. -/
theorem addSocket (h : Forwarded net received top conns sockets) (hsocket : sockets lc = none)
    (hconn : conns w = some c) {x : Bytes}
    (horigin : exists n data, Origin net received n x data) :
    Forwarded net received top conns (Function.update sockets lc (some (Socket.new w x))) := by
  constructor
  · exact h.order
  · exact h.bound
  · exact h.apart
  · exact h.queued
  · exact h.dialing
  · intro v e n i data he hd
    rcases h.writing v e n i data he hd with ⟨k, hk, hrest⟩
    have hi : i ≠ lc := by
      rintro rfl
      rw [hsocket] at hk
      cases hk
    exact ⟨k, by rw [Function.update_of_ne hi, hk], hrest⟩
  · intro i k hk
    rcases lookup_started hk with ⟨rfl, rfl⟩ | ⟨-, hk⟩
    · exact horigin
    · exact h.dialed i k hk
  · intro i k hk
    rcases lookup_started hk with ⟨rfl, rfl⟩ | ⟨-, hk⟩
    · exact ⟨c, hconn, List.nil_sublist _⟩
    · exact h.sent i k hk
  · intro i k n data hk hd
    rcases lookup_started hk with ⟨rfl, rfl⟩ | ⟨-, hk⟩
    · cases hd
    · exact h.source i k n data hk hd
  · intro i j k k' n hk hk' hn hn'
    rcases lookup_started hk with ⟨rfl, rfl⟩ | ⟨-, hk⟩
    · cases hn
    · rcases lookup_started hk' with ⟨rfl, rfl⟩ | ⟨-, hk'⟩
      · cases hn'
      · exact h.once i j k k' n hk hk' hn hn'

/-- The datagram that the loop has in hand was sent to no socket. -/
theorem not_sent (h : Forwarded net received top conns sockets) (hconn : conns w = some c)
    {n : Nat} (hpump : n ∈ c.pump.numbers) {i : Nat} {e : Socket} (he : sockets i = some e) :
    n ∉ e.sent.map Prod.fst := by
  intro hn
  rcases h.sent i e he with ⟨c₀, hc₀, hsub⟩
  have htaken := hsub.subset hn
  have hin : n ∈ c.numbers :=
    List.mem_append_right _ (List.mem_append_left _ hpump)
  have hin' : n ∈ c₀.numbers := List.mem_append_left _ htaken
  have hw := h.apart w e.work c c₀ n hconn hc₀ hin hin'
  rw [← hw, hconn] at hc₀
  cases hc₀
  have horder := (List.pairwise_append.mp (h.order w c hconn)).right.right n htaken n
    (List.mem_append_left _ hpump)
  exact Nat.lt_irrefl n horder

/-- The loop writes to a socket of its connection what it has in hand. -/
theorem write (h : Forwarded net received top conns sockets) (hconn : conns w = some c)
    {n : Nat} {data : Bytes} (hpump : c.pump = Pump.writing n lc data)
    (hsocket : sockets lc = some k) (hwork : k.work = w)
    (htaken : c'.taken = c.taken ++ [n])
    (hdone : Forwarded net received top (Function.update conns w (some c')) sockets) :
    Forwarded net received top (Function.update conns w (some c'))
      (Function.update sockets lc (some { k with sent := k.sent ++ [(n, data)] })) := by
  have hnumbers : n ∈ c.pump.numbers := by
    rw [hpump]
    exact List.mem_cons_self
  have horigin : Origin net received n k.addr data := by
    rcases h.writing w c n lc data hconn hpump with ⟨k₀, hk₀, horigin⟩
    rw [hsocket] at hk₀
    cases hk₀
    exact horigin
  have hmem : forall m, m ∈ (k.sent ++ [(n, data)]).map Prod.fst ->
      m ∈ k.sent.map Prod.fst ∨ m = n := by
    intro m hm
    rw [List.map_append, List.mem_append] at hm
    exact hm.imp_right List.mem_singleton.mp
  constructor
  · exact hdone.order
  · exact hdone.bound
  · exact hdone.apart
  · exact hdone.queued
  · exact hdone.dialing
  · intro v e m i data' he hd
    rcases hdone.writing v e m i data' he hd with ⟨k₀, hk₀, horigin'⟩
    by_cases hi : i = lc
    · rw [hi, hsocket] at hk₀
      cases hk₀
      exists { k with sent := k.sent ++ [(n, data)] }
      rw [hi, Function.update_self]
      exact ⟨rfl, horigin'⟩
    · exact ⟨k₀, by rw [Function.update_of_ne hi, hk₀], horigin'⟩
  · intro i e he
    rcases lookup_started he with ⟨rfl, rfl⟩ | ⟨-, he⟩
    · exact h.dialed i k hsocket
    · exact h.dialed i e he
  · intro i e he
    rcases lookup_started he with ⟨rfl, rfl⟩ | ⟨-, he⟩
    · rcases h.sent i k hsocket with ⟨c₀, hc₀, hsub⟩
      rw [hwork, hconn] at hc₀
      cases hc₀
      refine ⟨c', by rw [hwork, Function.update_self], ?_⟩
      rw [htaken, List.map_append]
      exact hsub.append (List.Sublist.refl [n])
    · exact hdone.sent i e he
  · intro i e m data' he hd
    rcases lookup_started he with ⟨rfl, rfl⟩ | ⟨-, he⟩
    · rcases List.mem_append.mp hd with hd | hd
      · exact h.source i k m data' hsocket hd
      · cases List.mem_singleton.mp hd
        exact horigin
    · exact h.source i e m data' he hd
  · intro i j e e' m he he' hm hm'
    rcases lookup_started he with ⟨rfl, rfl⟩ | ⟨-, hi⟩
    · rcases lookup_started he' with ⟨rfl, rfl⟩ | ⟨-, hj⟩
      · rfl
      · rcases hmem m hm with hm | rfl
        · exact h.once i j k e' m hsocket hj hm hm'
        · exact absurd hm' (h.not_sent hconn hnumbers hj)
    · rcases lookup_started he' with ⟨rfl, rfl⟩ | ⟨-, hj⟩
      · rcases hmem m hm' with hm' | rfl
        · exact h.once i j e k m hi hsocket hm hm'
        · exact absurd hm (h.not_sent hconn hnumbers hi)
      · exact h.once i j e e' m hi hj hm hm'

end Forwarded

/-- What the reader holds back is the datagram it has read last. -/
structure State.Upward (s : State Addr) : Prop where
  sound : Sound s.conns s.sockets
  forwarded : Forwarded net s.received s.bound s.conns s.sockets
  held : forall w d, s.holding = some (w, d) ->
    s.received.length = s.last + 1 ∧ Origin net s.received s.last d.addr d.data

namespace State.Upward

variable {net} {s t : State Addr} {a : Action Addr}

theorem bound_of_held {w : Nat} {d : Datagram} (h : s.holding = some (w, d)) :
    s.bound = s.last := by
  rw [State.bound, h]

theorem start : (initial : State Addr).Upward net where
  sound := Sound.start
  forwarded := by constructor <;> intros <;> contradiction
  held := by
    intro w d h
    cases h

theorem receive (h : s.Upward net) (hholding : s.holding = none) (a : Addr) (data : Bytes)
    (holding : Option (Nat × Datagram))
    (hheld : forall w d, holding = some (w, d) -> d = ⟨net.string a, data⟩) :
    { s with received := s.received ++ [(a, data)], holding := holding }.Upward net where
  sound := h.sound
  forwarded := by
    apply h.forwarded.receive
    cases holding with
    | none => simp [State.bound, hholding]
    | some e => simp [State.bound, State.last, hholding]
  held := by
    intro w d hd
    rw [hheld w d hd]
    constructor
    · simp [State.last]
    · exact ⟨a, getElem?_snoc_last s.received (a, data), rfl⟩

/-- The reader writes what it holds to the connection it found. -/
theorem forward (h : s.Upward net) {w : Nat} {d : Datagram} {c : Conn} (outcome : Outcome)
    (hholding : s.holding = some (w, d)) (hconn : s.conns w = some c) :
    Forwarded net s.received s.received.length
      (Function.update s.conns w (some (c.writeUp s.last d outcome).1)) s.sockets := by
  rcases h.held w d hholding with ⟨hlength, horigin⟩
  have hforwarded := h.forwarded
  rw [bound_of_held hholding] at hforwarded
  have hfields : (c.writeUp s.last d outcome).1.pump = c.pump ∧
      (c.writeUp s.last d outcome).1.taken = c.taken := by
    unfold Conn.writeUp
    split <;> exact ⟨rfl, rfl⟩
  have hqueue : (c.writeUp s.last d outcome).1.up.queue = c.up.queue ∨
      (c.writeUp s.last d outcome).1.up.queue = c.up.queue ++ [(s.last, d)] := by
    unfold Conn.writeUp
    split
    · exact Line.write_queue c.up s.last d outcome
    · exact Or.inl rfl
  apply hforwarded.setConn hconn
  · omega
  · rw [Conn.numbers, Conn.numbers, hfields.left, hfields.right]
    rcases hqueue with hqueue | hqueue
    · rw [hqueue]
      exact Or.inl rfl
    · rw [hqueue, List.map_append]
      refine Or.inr ⟨?_, by omega⟩
      simp only [List.map_cons, List.map_nil, List.append_assoc]
  · rw [hfields.right]
  · intro n e he
    rcases hqueue with hqueue | hqueue
    · rw [hqueue] at he
      exact hforwarded.queued w c n e hconn he
    · rw [hqueue] at he
      rcases List.mem_append.mp he with he | he
      · exact hforwarded.queued w c n e hconn he
      · cases List.mem_singleton.mp he
        exact horigin
  · intro n e he
    rw [hfields.left] at he
    exact hforwarded.dialing w c n e hconn he
  · intro n lc data he
    rw [hfields.left] at he
    exact hforwarded.writing w c n lc data hconn he

/-- A new work connection carries nothing. -/
theorem pair (h : s.Upward net) {w : Nat} (hconn : s.conns w = none) :
    Forwarded net s.received s.bound (Function.update s.conns w (some Conn.new)) s.sockets := by
  have hf := h.forwarded
  constructor
  · intro v e he
    rcases lookup_started he with ⟨rfl, rfl⟩ | ⟨-, he⟩
    · exact List.Pairwise.nil
    · exact hf.order v e he
  · intro v e n he hn
    rcases lookup_started he with ⟨rfl, rfl⟩ | ⟨-, he⟩
    · cases hn
    · exact hf.bound v e n he hn
  · intro u v d e n hd he hn hn'
    rcases lookup_started hd with ⟨rfl, rfl⟩ | ⟨-, hu⟩
    · cases hn
    · rcases lookup_started he with ⟨rfl, rfl⟩ | ⟨-, hv⟩
      · cases hn'
      · exact hf.apart u v d e n hu hv hn hn'
  · intro v e n d he hd
    rcases lookup_started he with ⟨rfl, rfl⟩ | ⟨-, he⟩
    · cases hd
    · exact hf.queued v e n d he hd
  · intro v e n d he hd
    rcases lookup_started he with ⟨rfl, rfl⟩ | ⟨-, he⟩
    · cases hd
    · exact hf.dialing v e n d he hd
  · intro v e n lc data he hd
    rcases lookup_started he with ⟨rfl, rfl⟩ | ⟨-, he⟩
    · cases hd
    · exact hf.writing v e n lc data he hd
  · exact hf.dialed
  · intro lc k hk
    rcases hf.sent lc k hk with ⟨c, hc, hsub⟩
    have hw : k.work ≠ w := by
      intro hw
      rw [hw, hconn] at hc
      cases hc
    exact ⟨c, by rw [Function.update_of_ne hw, hc], hsub⟩
  · exact hf.source
  · exact hf.once

/-- {lit}`udpClient` takes the head of what is under way. -/
theorem take (h : s.Upward net) {w n : Nat} {c : Conn} {d : Datagram} {up : Line Nat}
    (hconn : s.conns w = some c) (hpump : c.pump = Pump.reading)
    (hhead : c.up.queue = (n, d) :: up.queue) :
    Forwarded net s.received s.bound
      (Function.update s.conns w (some { c with up := up, pump := c.lookUp n d })) s.sockets := by
  have hf := h.forwarded
  have horigin := hf.queued w c n d hconn (hhead ▸ List.mem_cons_self)
  apply hf.setConn hconn (Nat.le_refl _)
  · have hnumber : (c.lookUp n d).numbers = [n] := by
      unfold Conn.lookUp
      split <;> rfl
    apply Or.inl
    rw [Conn.numbers, Conn.numbers, hpump, hhead]
    change c.taken ++ ((c.lookUp n d).numbers ++ up.queue.map Prod.fst) = _
    rw [hnumber]
    rfl
  · exact List.Sublist.refl _
  · intro m e he
    exact hf.queued w c m e hconn (hhead ▸ List.mem_cons_of_mem _ he)
  · intro m e he
    simp only [Conn.lookUp] at he
    split at he
    · cases he
      exact horigin
    · cases he
  · intro m lc data he
    simp only [Conn.lookUp] at he
    split at he
    · cases he
    · rename_i hsession
      cases he
      rcases h.sound.session w c d.addr lc hconn hsession with ⟨k, hk, -, haddr, -⟩
      exact ⟨k, hk, haddr ▸ horigin⟩

/-- The loop is done with what it had in hand. -/
theorem done (h : s.Upward net) {w n : Nat} {c : Conn} (hconn : s.conns w = some c)
    (hpump : c.pump.numbers = [n]) :
    Forwarded net s.received s.bound (Function.update s.conns w
      (some { c with pump := Pump.reading, taken := c.taken ++ [n] })) s.sockets := by
  have hf := h.forwarded
  apply hf.setConn hconn (Nat.le_refl _)
  · apply Or.inl
    rw [Conn.numbers, Conn.numbers, hpump]
    simp only [Pump.numbers, List.nil_append, List.append_assoc]
  · exact List.sublist_append_left _ _
  · exact fun m e he => hf.queued w c m e hconn he
  · intro m e he
    cases he
  · intro m lc data he
    cases he

theorem dial (h : s.Upward net) {w n lc : Nat} {c : Conn} {d : Datagram}
    (hconn : s.conns w = some c) (hpump : c.pump = Pump.dialing n d)
    (hsocket : s.sockets lc = none) :
    Forwarded net s.received s.bound
      (Function.update s.conns w (some { c with
        pump := Pump.writing n lc d.data
        sessions := Function.update c.sessions d.addr (some lc) }))
      (Function.update s.sockets lc (some (Socket.new w d.addr))) := by
  have horigin := h.forwarded.dialing w c n d hconn hpump
  have hf := h.forwarded.addSocket hsocket hconn ⟨n, d.data, horigin⟩
  apply hf.setConn hconn (Nat.le_refl _)
  · apply Or.inl
    rw [Conn.numbers, Conn.numbers, hpump]
    rfl
  · exact List.Sublist.refl _
  · exact fun m e he => hf.queued w c m e hconn he
  · intro m e he
    cases he
  · intro m i data he
    cases he
    exact ⟨Socket.new w d.addr, Function.update_self .., horigin⟩

theorem deliver (h : s.Upward net) {w n lc : Nat} {c : Conn} {k : Socket} {data : Bytes}
    (hconn : s.conns w = some c) (hpump : c.pump = Pump.writing n lc data)
    (hsocket : s.sockets lc = some k) (ok : Bool) :
    Forwarded net s.received s.bound
      (Function.update s.conns w (some { c with pump := Pump.reading, taken := c.taken ++ [n] }))
      (Function.update s.sockets lc (some (k.deliver n data ok))) := by
  have hnumber : c.pump.numbers = [n] := by
    rw [hpump]
    rfl
  have hdone := h.done hconn hnumber
  unfold Socket.deliver
  split
  · have hwork : k.work = w := by
      rcases h.sound.writing w c n lc data hconn hpump with ⟨k₀, hk₀, hw⟩
      rw [hsocket] at hk₀
      cases hk₀
      exact hw
    exact h.forwarded.write hconn hpump hsocket hwork rfl hdone
  · exact hdone.setSocket hsocket rfl rfl rfl

theorem step (h : s.Upward net) (hstep : UdpTunnel.step net s a = some t) : t.Upward net := by
  have hsound := h.sound.step hstep
  have hf := h.forwarded
  cases step_moves hstep with
  | receive hstopped hholding =>
      apply h.receive hholding
      intro w d hd
      rcases Option.map_eq_some_iff.mp hd with ⟨v, -, hv⟩
      cases hv
      rfl
  | forward hholding hconn =>
      refine ⟨hsound, h.forward _ hholding hconn, ?_⟩
      intro w d hd
      cases hd
  | pair hloop hconn => exact ⟨hsound, h.pair hconn, h.held⟩
  | answer hloop hconn hread =>
      rename_i v c r place d down
      have hline : Forwarded net s.received s.bound
          (Function.update s.conns v (some { c with down := down })) s.sockets :=
        hf.setSame hconn rfl rfl rfl
      unfold State.send at hsound ⊢
      split at hsound
      · exact ⟨hsound, hline, h.held⟩
      · exact ⟨hsound, hline, h.held⟩
  | fail hloop => exact ⟨hsound, hf, h.held⟩
  | hangUp hloop hconn => exact ⟨hsound, hf.setSame hconn rfl rfl rfl, h.held⟩
  | stop => exact ⟨hsound, hf, h.held⟩
  | take hconn hpump hread =>
      exact ⟨hsound, h.take hconn hpump (Line.read_queue hread), h.held⟩
  | dialFail hconn hpump =>
      refine ⟨hsound, h.done hconn ?_, h.held⟩
      rw [hpump]
      rfl
  | dial hconn hpump hsocket => exact ⟨hsound, h.dial hconn hpump hsocket, h.held⟩
  | deliver hconn hpump hsocket => exact ⟨hsound, h.deliver hconn hpump hsocket _, h.held⟩
  | leave hconn hpump =>
      rename_i v c
      have hclosed : Forwarded net s.received s.bound s.conns (s.closeSessions v c) := by
        apply hf.mapSockets
        · intro lc k' hk'
          rcases Option.map_eq_some_iff.mp hk' with ⟨k, hk, rfl⟩
          refine ⟨k, hk, ?_⟩
          split <;> exact ⟨rfl, rfl, rfl⟩
        · intro lc k hk
          exact ⟨_, congrArg (Option.map _) hk⟩
      refine ⟨hsound, ?_, h.held⟩
      apply hclosed.setConn hconn (Nat.le_refl _)
      · apply Or.inl
        rw [Conn.numbers, Conn.numbers, hpump]
        rfl
      · exact List.Sublist.refl _
      · exact fun m e he => hf.queued v c m e hconn he
      · intro m e he
        cases he
      · intro m lc data he
        cases he
  | close hconn hpump =>
      rename_i v c
      refine ⟨hsound, ?_, h.held⟩
      apply hf.setConn hconn (Nat.le_refl _)
      · apply Or.inl
        rw [Conn.numbers, Conn.numbers, hpump]
        rfl
      · exact List.Sublist.refl _
      · exact fun m e he => hf.queued v c m e hconn he
      · intro m e he
        cases he
      · intro m lc data he
        cases he
  | reply hsocket hreader hopen => exact ⟨hsound, hf.setSocket hsocket rfl rfl rfl, h.held⟩
  | relay hsocket hreader hconn =>
      rename_i i k c data outcome
      refine ⟨hsound, ?_, h.held⟩
      have hline : Forwarded net s.received s.bound (Function.update s.conns k.work
          (some (c.writeDown (i, k.replies.length - 1) ⟨k.addr, data⟩ outcome).1)) s.sockets := by
        apply hf.setSame hconn <;>
        · unfold Conn.writeDown
          split <;> rfl
      apply hline.setSocket hsocket <;>
      · unfold Socket.relayed
        split <;> rfl
  | expire hsocket hreader => exact ⟨hsound, hf.setSocket hsocket rfl rfl rfl, h.held⟩
  | forget hsocket hreader hconn =>
      rename_i i k c
      have hline : Forwarded net s.received s.bound (Function.update s.conns k.work
          (some { c with sessions := Function.update c.sessions k.addr none })) s.sockets :=
        hf.setSame hconn rfl rfl rfl
      exact ⟨hsound, hline.setSocket hsocket rfl rfl rfl, h.held⟩

theorem of_reachable (h : (machine net).Reachable s) : s.Upward net := by
  apply h.invariant (I := fun s => s.Upward net)
  · rintro s rfl
    exact start
  · intro s a t hs hstep
    exact hs.step hstep

end State.Upward

/-!
# Delivery
-/

/-- The datagrams of an address among those that were read from the public socket. -/
def State.receivedFrom (s : State Addr) (x : Bytes) : List Bytes :=
  (s.received.filter fun e => net.string e.1 = x).map Prod.snd

/-- What the local service is sent. -/
structure State.RequestsDelivered (s : State Addr) : Prop where
  /-- a socket is sent datagrams of its own source, in order -/
  order : forall lc k, s.sockets lc = some k ->
    (k.sent.map Prod.snd).Sublist (s.receivedFrom net k.addr)
  /-- the datagram of a number is sent once, to one socket -/
  once : forall lc k, s.sockets lc = some k -> (k.sent.map Prod.fst).Nodup ∧
    forall i e, s.sockets i = some e -> i ≠ lc ->
      List.Disjoint (k.sent.map Prod.fst) (e.sent.map Prod.fst)

theorem requests_delivered {s : State Addr} (h : (machine net).Reachable s) :
    s.RequestsDelivered net := by
  have hf := (State.Upward.of_reachable h).forwarded
  constructor
  · intro lc k hk
    rcases hf.sent lc k hk with ⟨c, hc, hsub⟩
    have htaken := (List.pairwise_append.mp (hf.order k.work c hc)).left
    apply sublist_of_numbers (htaken.sublist hsub)
    intro n data hmem
    rcases hf.source lc k n data hk hmem with ⟨a, ha, haddr⟩
    exact ⟨Nat.zero_le n, (a, data), ha, decide_eq_true haddr, rfl⟩
  · intro lc k hk
    rcases hf.sent lc k hk with ⟨c, hc, hsub⟩
    have htaken := (List.pairwise_append.mp (hf.order k.work c hc)).left
    constructor
    · exact ((htaken.sublist hsub).imp Nat.ne_of_lt)
    · intro i e he hi n hn hn'
      exact hi (hf.once i lc e k n he hk hn' hn)

theorem requests_delivered_exchange :
    exists s, (machine Net.literal).exec initial exchange = some s ∧
      (s.sockets 5).map Socket.sent = some [(0, [10, 11])] ∧
      s.RequestsDelivered Net.literal := by
  rcases exchange_exec with ⟨s, hs, -, hfive, -⟩
  exact ⟨s, hs, hfive, requests_delivered Net.literal ⟨initial, exchange, rfl, hs⟩⟩

end UdpTunnel

end Engine
end RcTunnel
