import RcTunnel.Engine.UdpRequests

/-!
# From the local service to the public socket

No reply is sent to another source than the one whose socket it was read from, and the
replies of a socket are answered in their order, each once at most.
-/

namespace RcTunnel
namespace Engine

open Foundation

namespace UdpTunnel

variable {Addr : Type u} (net : Net Addr)

/-!
# What a work connection carries back

The places of the replies of a socket, in the answers that were sent and behind them in
what is under way, increase.
-/

/-- The places of the socket's replies. -/
def indexes (lc : Nat) (places : List Place) : List Nat :=
  places.filterMap fun place => if place.1 = lc then some place.2 else none

theorem indexes_append (lc : Nat) (xs ys : List Place) :
    indexes lc (xs ++ ys) = indexes lc xs ++ indexes lc ys := List.filterMap_append

theorem mem_indexes {lc m : Nat} {places : List Place} :
    m ∈ indexes lc places <-> (lc, m) ∈ places := by
  rw [indexes, List.mem_filterMap]
  constructor
  · rintro ⟨⟨i, j⟩, hmem, hplace⟩
    split at hplace
    · rename_i hi
      cases hplace
      cases hi
      exact hmem
    · cases hplace
  · intro hmem
    exact ⟨(lc, m), hmem, if_pos rfl⟩

/-- The places before this one have been handed on. -/
def Socket.handed (k : Socket) : Nat :=
  match k.reader with
  | Reader.relaying _ => k.replies.length - 1
  | _ => k.replies.length

/-- The places of replies that were answered, and of those a connection carries. -/
def Conn.places (c : Conn) (answered : List (Answer Addr)) : List Place :=
  answered.map Answer.place ++ c.down.queue.map Prod.fst

structure Returned (conns : Nat -> Option Conn) (sockets : Nat -> Option Socket)
    (answered : List (Answer Addr)) : Prop where
  queued : forall w c place d, conns w = some c -> (place, d) ∈ c.down.queue ->
    exists k, sockets place.1 = some k ∧ k.work = w ∧ d.addr = k.addr ∧
      k.replies[place.2]? = some d.data
  answer : forall e, e ∈ answered -> exists k, sockets e.place.1 = some k ∧
    net.resolve k.addr = some e.peer ∧ k.replies[e.place.2]? = some e.data
  order : forall lc k c, sockets lc = some k -> conns k.work = some c ->
    (indexes lc (c.places answered)).Pairwise (· < ·)
  bound : forall lc k c m, sockets lc = some k -> conns k.work = some c ->
    (lc, m) ∈ c.places answered -> m < k.handed
  relaying : forall lc k data, sockets lc = some k -> k.reader = Reader.relaying data ->
    k.replies[k.replies.length - 1]? = some data

namespace Returned

variable {net} {conns : Nat -> Option Conn} {sockets : Nat -> Option Socket}
variable {answered : List (Answer Addr)} {w lc : Nat} {c c' : Conn} {k k' : Socket}

/-- A connection changes, but not what it carries back. -/
theorem setConn (h : Returned net conns sockets answered) (hconn : conns w = some c)
    (hdown : c'.down.queue = c.down.queue) :
    Returned net (Function.update conns w (some c')) sockets answered := by
  have hplaces : c'.places answered = c.places answered := by
    rw [Conn.places, Conn.places, hdown]
  have hbefore : forall v e, Function.update conns w (some c') v = some e ->
      exists e₀, conns v = some e₀ ∧ e.down.queue = e₀.down.queue ∧
        e.places answered = e₀.places answered := by
    intro v e he
    rcases lookup_started he with ⟨rfl, rfl⟩ | ⟨-, he⟩
    · exact ⟨c, hconn, hdown, hplaces⟩
    · exact ⟨e, he, rfl, rfl⟩
  constructor
  · intro v e place d he hd
    rcases hbefore v e he with ⟨e₀, he₀, hsame, -⟩
    exact h.queued v e₀ place d he₀ (hsame ▸ hd)
  · exact h.answer
  · intro i k e hk he
    rcases hbefore _ e he with ⟨e₀, he₀, -, hsame⟩
    rw [hsame]
    exact h.order i k e₀ hk he₀
  · intro i k e m hk he hm
    rcases hbefore _ e he with ⟨e₀, he₀, -, hsame⟩
    rw [hsame] at hm
    exact h.bound i k e₀ m hk he₀ hm
  · exact h.relaying

/-- Sockets change: more replies are read, and more handed on. -/
theorem mapSockets (h : Returned net conns sockets answered)
    {sockets' : Nat -> Option Socket}
    (hnew : forall lc k', sockets' lc = some k' -> exists k, sockets lc = some k ∧
      k'.work = k.work ∧ k'.addr = k.addr ∧ k.handed ≤ k'.handed ∧
      (forall (m : Nat) (x : Bytes), k.replies[m]? = some x -> k'.replies[m]? = some x) ∧
      (forall data, k'.reader = Reader.relaying data ->
        k'.replies[k'.replies.length - 1]? = some data))
    (hold : forall lc k, sockets lc = some k -> exists k', sockets' lc = some k') :
    Returned net conns sockets' answered := by
  have hafter : forall i k, sockets i = some k -> exists k', sockets' i = some k' ∧
      k'.work = k.work ∧ k'.addr = k.addr ∧
      (forall (m : Nat) (x : Bytes), k.replies[m]? = some x -> k'.replies[m]? = some x) := by
    intro i k hk
    rcases hold i k hk with ⟨k', hk'⟩
    rcases hnew i k' hk' with ⟨k₀, hk₀, hwork, haddr, -, hreplies, -⟩
    rw [hk] at hk₀
    cases hk₀
    exact ⟨k', hk', hwork, haddr, hreplies⟩
  constructor
  · intro v e place d he hd
    rcases h.queued v e place d he hd with ⟨k, hk, hw, haddr, hreply⟩
    rcases hafter place.1 k hk with ⟨k', hk', hw', haddr', hreplies⟩
    exact ⟨k', hk', hw'.trans hw, haddr.trans haddr'.symm, hreplies _ _ hreply⟩
  · intro e he
    rcases h.answer e he with ⟨k, hk, hpeer, hreply⟩
    rcases hafter e.place.1 k hk with ⟨k', hk', -, haddr', hreplies⟩
    exact ⟨k', hk', haddr' ▸ hpeer, hreplies _ _ hreply⟩
  · intro i k' e hk' he
    rcases hnew i k' hk' with ⟨k, hk, hwork, -⟩
    exact h.order i k e hk (hwork ▸ he)
  · intro i k' e m hk' he hm
    rcases hnew i k' hk' with ⟨k, hk, hwork, -, hhanded, -⟩
    exact Nat.lt_of_lt_of_le (h.bound i k e m hk (hwork ▸ he) hm) hhanded
  · intro i k' data hk' hdata
    rcases hnew i k' hk' with ⟨k, -, -, -, -, -, hrelaying⟩
    exact hrelaying data hdata

theorem setSocket (h : Returned net conns sockets answered) (hsocket : sockets lc = some k)
    (hwork : k'.work = k.work) (haddr : k'.addr = k.addr) (hhanded : k.handed ≤ k'.handed)
    (hreplies : forall (m : Nat) (x : Bytes),
      k.replies[m]? = some x -> k'.replies[m]? = some x)
    (hrelaying : forall data, k'.reader = Reader.relaying data ->
      k'.replies[k'.replies.length - 1]? = some data) :
    Returned net conns (Function.update sockets lc (some k')) answered := by
  apply h.mapSockets
  · intro i e he
    rcases lookup_started he with ⟨rfl, rfl⟩ | ⟨-, he⟩
    · exact ⟨k, hsocket, hwork, haddr, hhanded, hreplies, hrelaying⟩
    · exact ⟨e, he, rfl, rfl, Nat.le_refl _, fun _ _ hm => hm, fun data => h.relaying i e data he⟩
  · intro i e he
    by_cases hi : i = lc
    · exact ⟨k', by rw [hi, Function.update_self]⟩
    · exact ⟨e, by rw [Function.update_of_ne hi, he]⟩

/-- No place is of a socket that is not there. -/
theorem no_place (h : Returned net conns sockets answered) (hsocket : sockets lc = none)
    (hconn : conns w = some c) (m : Nat) : (lc, m) ∉ c.places answered := by
  intro hm
  rcases List.mem_append.mp hm with hm | hm
  · rcases List.mem_map.mp hm with ⟨e, he, hplace⟩
    rcases h.answer e he with ⟨k, hk, -⟩
    rw [hplace, hsocket] at hk
    cases hk
  · rcases List.mem_map.mp hm with ⟨⟨place, d⟩, hd, rfl⟩
    rcases h.queued w c (lc, m) d hconn hd with ⟨k, hk, -⟩
    rw [hsocket] at hk
    cases hk

theorem addSocket (h : Returned net conns sockets answered) (hsocket : sockets lc = none)
    (w : Nat) (x : Bytes) :
    Returned net conns (Function.update sockets lc (some (Socket.new w x))) answered := by
  have hother : forall i k, sockets i = some k -> i ≠ lc := by
    rintro i k hk rfl
    rw [hsocket] at hk
    cases hk
  constructor
  · intro v e place d he hd
    rcases h.queued v e place d he hd with ⟨k, hk, hrest⟩
    exact ⟨k, by rw [Function.update_of_ne (hother _ k hk), hk], hrest⟩
  · intro e he
    rcases h.answer e he with ⟨k, hk, hrest⟩
    exact ⟨k, by rw [Function.update_of_ne (hother _ k hk), hk], hrest⟩
  · intro i k e hk he
    rcases lookup_started hk with ⟨rfl, rfl⟩ | ⟨-, hk⟩
    · have hnone : indexes i (e.places answered) = [] := by
        apply List.eq_nil_iff_forall_not_mem.mpr
        intro m hm
        exact h.no_place hsocket he m (mem_indexes.mp hm)
      rw [hnone]
      exact List.Pairwise.nil
    · exact h.order i k e hk he
  · intro i k e m hk he hm
    rcases lookup_started hk with ⟨rfl, rfl⟩ | ⟨-, hk⟩
    · exact absurd hm (h.no_place hsocket he m)
    · exact h.bound i k e m hk he hm
  · intro i k data hk hdata
    rcases lookup_started hk with ⟨rfl, rfl⟩ | ⟨-, hk⟩
    · cases hdata
    · exact h.relaying i k data hk hdata

/-- A new work connection; no socket belongs to it. -/
theorem addConn (h : Returned net conns sockets answered) (hsound : Sound conns sockets)
    (hconn : conns w = none) :
    Returned net (Function.update conns w (some Conn.new)) sockets answered := by
  have hwork : forall i k, sockets i = some k -> k.work ≠ w := by
    rintro i k hk rfl
    rcases hsound.socket i k hk with ⟨e, he, -⟩
    rw [hconn] at he
    cases he
  constructor
  · intro v e place d he hd
    rcases lookup_started he with ⟨rfl, rfl⟩ | ⟨-, he⟩
    · cases hd
    · exact h.queued v e place d he hd
  · exact h.answer
  · intro i k e hk he
    rw [Function.update_of_ne (hwork i k hk)] at he
    exact h.order i k e hk he
  · intro i k e m hk he hm
    rw [Function.update_of_ne (hwork i k hk)] at he
    exact h.bound i k e m hk he hm
  · exact h.relaying

/-- A goroutine hands on the reply it has read. -/
theorem push (h : Returned net conns sockets answered) (hsocket : sockets lc = some k)
    {data : Bytes} (hreader : k.reader = Reader.relaying data) (hconn : conns k.work = some c)
    (hqueue : c'.down.queue = c.down.queue ++ [((lc, k.replies.length - 1), ⟨k.addr, data⟩)])
    (hwork : k'.work = k.work) (haddr : k'.addr = k.addr) (hreplies : k'.replies = k.replies)
    (hidle : k'.handed = k.replies.length)
    (hrelaying : forall data, k'.reader ≠ Reader.relaying data) :
    Returned net (Function.update conns k.work (some c'))
      (Function.update sockets lc (some k')) answered := by
  have hlast := h.relaying lc k data hsocket hreader
  have hlength : k.replies.length - 1 < k.replies.length := by
    exact (List.getElem?_eq_some_iff.mp hlast).choose
  have hhanded : k.handed = k.replies.length - 1 := by
    rw [Socket.handed, hreader]
  have hsocket' : Returned net conns (Function.update sockets lc (some k')) answered := by
    apply h.setSocket hsocket hwork haddr
    · omega
    · rw [hreplies]
      exact fun _ _ hm => hm
    · intro data hdata
      exact absurd hdata (hrelaying data)
  have hplaces : c'.places answered = c.places answered ++ [(lc, k.replies.length - 1)] := by
    rw [Conn.places, Conn.places, hqueue, List.map_append, List.append_assoc]
    rfl
  have hself : Function.update sockets lc (some k') lc = some k' := Function.update_self ..
  constructor
  · intro v e place d he hd
    rcases lookup_started he with ⟨rfl, rfl⟩ | ⟨-, he⟩
    · rw [hqueue] at hd
      rcases List.mem_append.mp hd with hd | hd
      · exact hsocket'.queued _ c place d hconn hd
      · cases List.mem_singleton.mp hd
        exact ⟨k', hself, hwork, haddr.symm, hreplies ▸ hlast⟩
    · exact hsocket'.queued v e place d he hd
  · exact hsocket'.answer
  · intro i e e₀ he he₀
    rcases lookup_started he₀ with ⟨hw, rfl⟩ | ⟨-, he₀⟩
    · have horder := hsocket'.order i e c he (hw ▸ hconn)
      rw [hplaces, indexes_append, List.pairwise_append]
      refine ⟨horder, ?_, ?_⟩
      · rw [indexes]
        simp only [List.filterMap_cons]
        split
        · exact List.Pairwise.nil
        · exact List.pairwise_singleton _ _
      · intro m hm m' hm'
        rcases lookup_started he with ⟨rfl, rfl⟩ | ⟨hi, he⟩
        · have hlt := h.bound i k c m hsocket hconn (mem_indexes.mp hm)
          cases List.mem_singleton.mp (mem_indexes.mp hm')
          rwa [hhanded] at hlt
        · cases List.mem_singleton.mp (mem_indexes.mp hm')
          exact absurd rfl hi
    · exact hsocket'.order i e e₀ he he₀
  · intro i e e₀ m he he₀ hm
    rcases lookup_started he₀ with ⟨hw, rfl⟩ | ⟨-, he₀⟩
    · rw [hplaces] at hm
      rcases List.mem_append.mp hm with hm | hm
      · exact hsocket'.bound i e c m he (hw ▸ hconn) hm
      · cases List.mem_singleton.mp hm
        rw [hself] at he
        cases he
        omega
    · exact hsocket'.bound i e e₀ m he he₀ hm
  · exact hsocket'.relaying

/-- The loop of {lit}`udpServe` takes the head of what is under way, and sends it, or
drops it. -/
theorem pop (h : Returned net conns sockets answered) (hconn : conns w = some c)
    {place : Place} {d : Datagram}
    (hqueue : c.down.queue = (place, d) :: c'.down.queue) {answered' : List (Answer Addr)}
    (hanswered : answered' = answered ∨ exists a, net.resolve d.addr = some a ∧
      answered' = answered ++ [⟨a, d.data, place⟩]) :
    Returned net (Function.update conns w (some c')) sockets answered' := by
  rcases h.queued w c place d hconn (hqueue ▸ List.mem_cons_self) with
    ⟨k, hk, hwork, haddr, hreply⟩
  -- the places of a connection lose the head, or keep it among the answers
  have hsub : (c'.places answered').Sublist (c.places answered) := by
    rw [Conn.places, Conn.places, hqueue, List.map_cons]
    rcases hanswered with rfl | ⟨a, -, rfl⟩
    · exact List.Sublist.append (List.Sublist.refl _) (List.sublist_cons_self ..)
    · rw [List.map_append, List.append_assoc]
      exact List.Sublist.refl _
  have hother : forall i v e, i ≠ place.1 -> conns v = some e ->
      indexes i (e.places answered') = indexes i (e.places answered) := by
    intro i v e hi he
    rcases hanswered with rfl | ⟨a, -, rfl⟩
    · rfl
    · rw [Conn.places, Conn.places, List.map_append, indexes_append, indexes_append,
        indexes_append]
      have hnone : indexes i [place] = [] := by
        apply List.eq_nil_iff_forall_not_mem.mpr
        intro m hm
        exact hi (congrArg Prod.fst (List.mem_singleton.mp (mem_indexes.mp hm)))
      rw [List.map_cons, List.map_nil, hnone, List.append_nil]
  constructor
  · intro v e place' d' he hd
    rcases lookup_started he with ⟨rfl, rfl⟩ | ⟨-, he⟩
    · exact h.queued v c place' d' hconn (hqueue ▸ List.mem_cons_of_mem _ hd)
    · exact h.queued v e place' d' he hd
  · intro e he
    rcases hanswered with rfl | ⟨a, ha, rfl⟩
    · exact h.answer e he
    · rcases List.mem_append.mp he with he | he
      · exact h.answer e he
      · cases List.mem_singleton.mp he
        exact ⟨k, hk, haddr ▸ ha, hreply⟩
  · intro i e e₀ he he₀
    rcases lookup_started he₀ with ⟨hw, rfl⟩ | ⟨hw, he₀⟩
    · exact (h.order i e c he (hw ▸ hconn)).sublist (hsub.filterMap _)
    · have hi : i ≠ place.1 := by
        rintro rfl
        rw [hk] at he
        cases he
        exact hw hwork
      rw [hother i _ e₀ hi he₀]
      exact h.order i e e₀ he he₀
  · intro i e e₀ m he he₀ hm
    rcases lookup_started he₀ with ⟨hw, rfl⟩ | ⟨hw, he₀⟩
    · exact h.bound i e c m he (hw ▸ hconn) (hsub.subset hm)
    · have hi : i ≠ place.1 := by
        rintro rfl
        rw [hk] at he
        cases he
        exact hw hwork
      rw [← mem_indexes, hother i _ e₀ hi he₀, mem_indexes] at hm
      exact h.bound i e e₀ m he he₀ hm
  · exact h.relaying

end Returned

structure State.Downward (s : State Addr) : Prop where
  sound : Sound s.conns s.sockets
  returned : Returned net s.conns s.sockets s.answered

namespace State.Downward

variable {net} {s t : State Addr} {a : Action Addr}

theorem start : (initial : State Addr).Downward net where
  sound := Sound.start
  returned := by constructor <;> intros <;> contradiction

theorem relay (h : s.Downward net) {lc : Nat} {k : Socket} {c : Conn} {data : Bytes}
    (hsocket : s.sockets lc = some k) (hreader : k.reader = Reader.relaying data)
    (hconn : s.conns k.work = some c) (outcome : Outcome) {ok : Bool} :
    Returned net
      (Function.update s.conns k.work
        (some (c.writeDown (lc, k.replies.length - 1) ⟨k.addr, data⟩ outcome).1))
      (Function.update s.sockets lc (some (k.relayed ok))) s.answered := by
  have hfields : (k.relayed ok).work = k.work ∧ (k.relayed ok).addr = k.addr ∧
      (k.relayed ok).replies = k.replies ∧ (k.relayed ok).handed = k.replies.length ∧
      forall data, (k.relayed ok).reader ≠ Reader.relaying data := by
    unfold Socket.relayed
    split
    · exact ⟨rfl, rfl, rfl, rfl, fun _ => by simp⟩
    · exact ⟨rfl, rfl, rfl, rfl, fun _ => by simp [Socket.close]⟩
  rcases hfields with ⟨hwork, haddr, hreplies, hhanded, hidle⟩
  have hlost : Returned net s.conns (Function.update s.sockets lc (some (k.relayed ok)))
      s.answered := by
    apply h.returned.setSocket hsocket hwork haddr
    · have hle : k.handed ≤ k.replies.length := by
        rw [Socket.handed, hreader]
        exact Nat.sub_le _ _
      exact hhanded ▸ hle
    · rw [hreplies]
      exact fun _ _ hm => hm
    · intro data hdata
      exact absurd hdata (hidle data)
  have hwritten : forall down : Line Place,
      down.queue = c.down.queue ++ [((lc, k.replies.length - 1), ⟨k.addr, data⟩)] ->
      Returned net (Function.update s.conns k.work (some { c with down := down }))
        (Function.update s.sockets lc (some (k.relayed ok))) s.answered := by
    intro down hqueue
    exact h.returned.push hsocket hreader hconn hqueue hwork haddr hreplies hhanded hidle
  unfold Conn.writeDown
  split
  · rcases Line.write_queue c.down (lc, k.replies.length - 1) ⟨k.addr, data⟩ outcome with
      hqueue | hqueue
    · exact hlost.setConn hconn hqueue
    · exact hwritten _ hqueue
  · exact hlost.setConn hconn rfl

theorem step (h : s.Downward net) (hstep : UdpTunnel.step net s a = some t) :
    t.Downward net := by
  have hsound := h.sound.step hstep
  have hr := h.returned
  cases step_moves hstep with
  | receive hstopped hholding => exact ⟨hsound, hr⟩
  | forward hholding hconn =>
      refine ⟨hsound, hr.setConn hconn ?_⟩
      unfold Conn.writeUp
      split <;> rfl
  | pair hloop hconn => exact ⟨hsound, hr.addConn h.sound hconn⟩
  | answer hloop hconn hread =>
      have hqueue := Line.read_queue hread
      unfold State.send at hsound ⊢
      split at hsound
      · exact ⟨hsound, hr.pop hconn hqueue (Or.inl rfl)⟩
      · rename_i a ha
        refine ⟨hsound, hr.pop hconn hqueue ?_⟩
        cases hstopped : s.stopped with
        | true => exact Or.inl (by simp [State.setConn, hstopped])
        | false => exact Or.inr ⟨a, ha, by simp [State.setConn, hstopped]⟩
  | fail hloop => exact ⟨hsound, hr⟩
  | hangUp hloop hconn => exact ⟨hsound, hr.setConn hconn rfl⟩
  | stop => exact ⟨hsound, hr⟩
  | take hconn hpump hread => exact ⟨hsound, hr.setConn hconn rfl⟩
  | dialFail hconn hpump => exact ⟨hsound, hr.setConn hconn rfl⟩
  | dial hconn hpump hsocket =>
      exact ⟨hsound, (hr.addSocket hsocket _ _).setConn hconn rfl⟩
  | deliver hconn hpump hsocket =>
      rename_i v n i c k data ok
      have hsame : Returned net s.conns
          (Function.update s.sockets i (some (k.deliver n data ok))) s.answered := by
        unfold Socket.deliver
        split
        · exact hr.setSocket hsocket rfl rfl (Nat.le_refl _) (fun _ _ hm => hm)
            (fun data => hr.relaying i k data hsocket)
        · exact hr.setSocket hsocket rfl rfl (Nat.le_refl _) (fun _ _ hm => hm)
            (fun data => hr.relaying i k data hsocket)
      exact ⟨hsound, hsame.setConn hconn rfl⟩
  | leave hconn hpump =>
      rename_i v c
      have hclosed : Returned net s.conns (s.closeSessions v c) s.answered := by
        apply hr.mapSockets
        · intro lc k' hk'
          rcases Option.map_eq_some_iff.mp hk' with ⟨k, hk, rfl⟩
          refine ⟨k, hk, ?_⟩
          split
          · exact ⟨rfl, rfl, Nat.le_refl _, fun _ _ hm => hm,
              fun data => hr.relaying lc k data hk⟩
          · exact ⟨rfl, rfl, Nat.le_refl _, fun _ _ hm => hm,
              fun data => hr.relaying lc k data hk⟩
        · intro lc k hk
          exact ⟨_, congrArg (Option.map _) hk⟩
      exact ⟨hsound, hclosed.setConn hconn rfl⟩
  | close hconn hpump => exact ⟨hsound, hr.setConn hconn rfl⟩
  | reply hsocket hreader hopen =>
      rename_i i k data
      refine ⟨hsound, hr.setSocket hsocket rfl rfl ?_ (fun _ _ => getElem?_snoc) ?_⟩
      · simp [Socket.handed, hreader]
      · intro data' hdata
        cases hdata
        exact getElem?_snoc_last k.replies data
  | relay hsocket hreader hconn => exact ⟨hsound, h.relay hsocket hreader hconn _⟩
  | expire hsocket hreader =>
      refine ⟨hsound, hr.setSocket hsocket rfl rfl ?_ (fun _ _ hm => hm) ?_⟩
      · simp [Socket.handed, hreader, Socket.close]
      · intro data hdata
        cases hdata
  | forget hsocket hreader hconn =>
      rename_i i k c
      have hended : Returned net s.conns
          (Function.update s.sockets i (some { k with reader := Reader.ended })) s.answered := by
        apply hr.setSocket hsocket
        · rfl
        · rfl
        · simp [Socket.handed, hreader]
        · exact fun _ _ hm => hm
        · intro data hdata
          cases hdata
      exact ⟨hsound, hended.setConn hconn rfl⟩

theorem of_reachable (h : (machine net).Reachable s) : s.Downward net := by
  apply h.invariant (I := fun s => s.Downward net)
  · rintro s rfl
    exact start
  · intro s a t hs hstep
    exact hs.step hstep

end State.Downward

/-!
# Answers
-/

/-- The answers that were read from the socket. -/
def State.answersOf (s : State Addr) (lc : Nat) : List Bytes :=
  (s.answered.filter fun e => e.place.1 = lc).map Answer.data

theorem answers_data (lc : Nat) (answered : List (Answer Addr)) :
    (answered.filter fun e => e.place.1 = lc).map Answer.data =
      ((answered.filter fun e => e.place.1 = lc).map fun e => (e.place.2, e.data)).map Prod.snd := by
  rw [List.map_map]
  rfl

theorem answers_numbers (lc : Nat) (answered : List (Answer Addr)) :
    ((answered.filter fun e => e.place.1 = lc).map fun e => (e.place.2, e.data)).map Prod.fst =
      indexes lc (answered.map Answer.place) := by
  induction answered with
  | nil => rfl
  | cons e rest ih =>
      rw [indexes] at ih ⊢
      by_cases he : e.place.1 = lc
      · simp [he, ← ih]
      · simp [he, ← ih]

/-- What the sources are sent. -/
structure State.RepliesReturned (s : State Addr) : Prop where
  /-- an answer goes to the source of the socket it was read from, which has sent a
  datagram before -/
  source : forall e, e ∈ s.answered -> exists k, s.sockets e.place.1 = some k ∧
    k.addr = net.string e.peer ∧ e.peer ∈ s.received.map Prod.fst
  /-- the answers of a socket are replies that were read from it, in order and once -/
  order : forall lc k, s.sockets lc = some k -> (s.answersOf lc).Sublist k.replies

theorem replies_returned {s : State Addr} (h : (machine net).Reachable s) :
    s.RepliesReturned net := by
  have hf := (State.Upward.of_reachable h).forwarded
  have hr := (State.Downward.of_reachable h).returned
  constructor
  · intro e he
    rcases hr.answer e he with ⟨k, hk, hpeer, -⟩
    rcases hf.dialed e.place.1 k hk with ⟨n, data, a, ha, haddr⟩
    rw [← haddr, net.resolve_string, Option.some.injEq] at hpeer
    refine ⟨k, hk, by rw [← hpeer, haddr], ?_⟩
    rw [← hpeer]
    exact List.mem_map_of_mem (List.mem_of_getElem? ha)
  · intro lc k hk
    rcases hf.sent lc k hk with ⟨c, hc, -⟩
    have horder := hr.order lc k c hk hc
    rw [Conn.places, indexes_append] at horder
    rw [State.answersOf, answers_data]
    have hall : k.replies = (k.replies.filter fun _ => true).map id := by simp
    rw [hall]
    apply sublist_of_numbers
    · rw [answers_numbers]
      exact (List.pairwise_append.mp horder).left
    · intro m data hmem
      rcases List.mem_map.mp hmem with ⟨e, he, heq⟩
      cases heq
      rcases hr.answer e (List.mem_filter.mp he).left with ⟨k₀, hk₀, -, hreply⟩
      rw [of_decide_eq_true (List.mem_filter.mp he).right, hk] at hk₀
      cases hk₀
      exact ⟨Nat.zero_le _, e.data, hreply, rfl, rfl⟩

theorem replies_returned_exchange :
    exists s, (machine Net.literal).exec initial exchange = some s ∧
      s.answered.map (fun e => (e.peer, e.data)) = [([2], [66]), ([1], [55])] ∧
      s.RepliesReturned Net.literal := by
  rcases exchange_exec with ⟨s, hs, hanswered, -⟩
  exact ⟨s, hs, hanswered, replies_returned Net.literal ⟨initial, exchange, rfl, hs⟩⟩

end UdpTunnel

end Engine
end RcTunnel
