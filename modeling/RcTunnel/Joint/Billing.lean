import RcTunnel.Joint.Counters
import RcTunnel.Panel.Generation

/-!
# Billing

A tunnel is never billed for more than the relays of its proxy have counted: whatever is
read late, restarts, is deleted and counted anew, or is still counted where nothing reads
it, and however the polls fail.  The one way to bill another's traffic is a number of a
tunnel that is given again between the two statements of a poll.
-/

namespace RcTunnel

open Foundation

namespace Joint

open Engine
open Panel.Api
open Panel (Platform)

namespace Billing

open Counting (Counters Direction)

/-!
# The requests
-/

/-- The number of a row tells which it is. -/
def Numbered (rows : List Tunnel) : Prop :=
  forall t u, t ∈ rows -> u ∈ rows -> t.id = u.id -> t = u

/-- The rows are of before, and have been billed the same. -/
structure RowsKept (rows rows' : List Tunnel) : Prop where
  same : forall u, u ∈ rows' -> exists t, t ∈ rows ∧ SameCounts t u
  numbered : Numbered rows -> Numbered rows'

/-- A tunnel's row, with what the first of the counted rows of its number says. -/
def recount (rows : List (Tunnel × Tunnel)) (t : Tunnel) : Tunnel :=
  match rows.find? fun row => row.1.id = t.id with
  | none => t
  | some row => Operations.Tunnel.recounted row t

/-- The phase is one of a poll's, before its first commit. -/
def Polls : Operations.Phase -> Prop
  | Operations.Phase.tunnels _ | Operations.Phase.count _ => True
  | _ => False

/-- What a step of the requests does to the rows of the tunnels, and to a poll. -/
inductive Moved (s : Operations.State) : Operations.Action -> Operations.State -> Prop where
  | request {action : Interleaved.Action} {t : Operations.State} :
      t.jobs = s.jobs -> RowsKept s.db.tunnels t.db.tunnels ->
      Moved s (Operations.Action.tunnel action) t
  | added {r : Nat} {u : Tunnel} {t : Operations.State} :
      t.jobs = s.jobs -> t.db.tunnels = s.db.tunnels ++ [u] -> s.db.tunnel? u.id = none ->
      Zero u ->
      Moved s (Operations.Action.tunnel (Interleaved.Action.commit r u.id)) t
  | phase {a : Operations.Action} {r : Nat} {phase : Operations.Phase} {t : Operations.State} :
      t.jobs = Function.update s.jobs r (some phase) -> ¬ Polls phase ->
      RowsKept s.db.tunnels t.db.tunnels -> Moved s a t
  | loaded {r : Nat} {answer : Option (List StatsEntry)} {t : Operations.State} :
      s.jobs r = some (Operations.Phase.tunnels answer) ->
      t.jobs = Function.update s.jobs r (some (Operations.Phase.count
        (s.db.tunnels.map fun u => (u, u.counted (sampleOf answer))))) ->
      t.db.tunnels = s.db.tunnels -> Moved s (Operations.Action.read r) t
  | counted {r : Nat} {rows : List (Tunnel × Tunnel)} {t : Operations.State} :
      s.jobs r = some (Operations.Phase.count rows) ->
      t.jobs = Function.update s.jobs r (some Operations.Phase.teams) ->
      t.db.tunnels = s.db.tunnels.map (recount rows) ->
      Moved s (Operations.Action.commit r) t

section Requests

variable {pl : Platform} {st : Settings} {node : Nat -> Nat} {s t : Operations.State}
  {rows : List Tunnel}

theorem RowsKept.refl (rows : List Tunnel) : RowsKept rows rows where
  same u hu := ⟨u, hu, SameCounts.refl u⟩
  numbered h := h

theorem Numbered.map {f : Tunnel -> Tunnel} (h : Numbered rows)
    (hf : forall t, (f t).id = t.id) : Numbered (rows.map f) := by
  intro t' u' ht' hu' hid
  rcases List.mem_map.mp ht' with ⟨t, ht, rfl⟩
  rcases List.mem_map.mp hu' with ⟨u, hu, rfl⟩
  rw [hf t, hf u] at hid
  rw [h t u ht hu hid]

theorem RowsKept.of_map {f : Tunnel -> Tunnel} (hf : forall t, SameCounts t (f t)) :
    RowsKept rows (rows.map f) where
  same u hu := by
    rcases List.mem_map.mp hu with ⟨t, ht, rfl⟩
    exact ⟨t, ht, hf t⟩
  numbered h := h.map fun t => (hf t).id

theorem RowsKept.of_filter (p : Tunnel -> Bool) : RowsKept rows (rows.filter p) where
  same u hu := ⟨u, List.mem_of_mem_filter hu, SameCounts.refl u⟩
  numbered h t u ht hu := h t u (List.mem_of_mem_filter ht) (List.mem_of_mem_filter hu)

theorem RowsKept.of_rewrite {id : Nat} {f : Tunnel -> Tunnel} (hf : forall t, SameCounts t (f t)) :
    RowsKept rows (rewriteRow Tunnel.id id f rows) := by
  apply RowsKept.of_map
  intro t
  split
  · exact hf t
  · exact SameCounts.refl t

/-- What a tunnel request commits is a new tunnel that has carried nothing, or a change that
leaves the counts. -/
theorem moved_commitRequest {r fresh : Nat} {job : Interleaved.Job} {l : Interleaved.Loaded}
    {port : Option (Option Int)} {db : Db} (hfresh : s.db.tunnel? fresh = none)
    (hcommit : job.write.commit s.db fresh l port = Except.ok db) :
    Moved s (Operations.Action.tunnel (Interleaved.Action.commit r fresh)) { s with
      tunnels := { s.tunnels.setJob r { job with phase := Interleaved.Phase.finished } with
        db := db }
      past := s.past ++ [s.db] } := by
  cases hw : job.write with
  | create agentId body =>
      rw [hw] at hcommit
      simp only [Interleaved.Write.commit, bind_ok, pure_ok] at hcommit
      rcases hcommit with ⟨_, -, rfl⟩
      exact Moved.added (u := Interleaved.inserted fresh agentId body port.join) rfl rfl
        hfresh ⟨rfl, rfl, rfl, rfl⟩
  | update tunnelId fields =>
      rw [hw] at hcommit
      simp only [Interleaved.Write.commit, bind_ok, found_ok, pure_ok] at hcommit
      rcases hcommit with ⟨_, -, loaded, -, _, -, rfl⟩
      apply Moved.request
      · rfl
      · apply RowsKept.of_rewrite
        exact fun t => ⟨rfl, rfl, rfl, rfl, rfl, rfl⟩

/-- What is read next is a poll's only where a poll reads its tunnels. -/
theorem polls_read {db : Db} {phase next : Operations.Phase}
    (hread : phase.read pl db = Except.ok next) (hwrites : ¬ phase.writes = true) :
    ¬ Polls next ∨ exists answer, phase = Operations.Phase.tunnels answer ∧
      next = Operations.Phase.count
        (db.tunnels.map fun t => (t, t.counted (sampleOf answer))) := by
  cases phase with
  | tunnels answer =>
      simp only [Operations.Phase.read, pure_ok] at hread
      exact Or.inr ⟨answer, rfl, hread.symm⟩
  | count rows => exact absurd rfl hwrites
  | tunnel user tunnelId =>
      simp only [Operations.Phase.read, bind_ok, pure_ok] at hread
      rcases hread with ⟨_, -, rfl⟩
      exact Or.inl id
  | owner user t =>
      simp only [Operations.Phase.read, bind_ok, pure_ok] at hread
      rcases hread with ⟨_, -, _, -, rfl⟩
      exact Or.inl id
  | team user teamId fields =>
      simp only [Operations.Phase.read, bind_ok, pure_ok] at hread
      rcases hread with ⟨_, -, _, -, _, -, rfl⟩
      exact Or.inl id
  | name loaded fields =>
      simp only [Operations.Phase.read, bind_ok, pure_ok] at hread
      rcases hread with ⟨_, -, rfl⟩
      exact Or.inl id
  | label loaded name fields =>
      simp only [Operations.Phase.read, bind_ok, pure_ok] at hread
      rcases hread with ⟨_, -, rfl⟩
      exact Or.inl id
  | usage loaded change =>
      simp only [Operations.Phase.read] at hread
      split at hread
      · cases hread
        exact Or.inl id
      · cases hread
        exact Or.inl id
  | usages todo flipped =>
      cases todo with
      | nil =>
          cases hread
          exact Or.inl id
      | cons t rest =>
          cases hread
          exact Or.inl id
  | _ =>
      cases hread
      exact Or.inl id

theorem moved_commit {r : Nat} {phase next : Operations.Phase} {db : Db}
    (hjob : s.jobs r = some phase) (hcommit : phase.commit s.db = Except.ok (db, next)) :
    Moved s (Operations.Action.commit r) ((s.committed db).setJob r next) := by
  cases phase with
  | delete t a =>
      cases hcommit
      exact Moved.phase rfl id (RowsKept.of_filter _)
  | update loaded change suspended rows =>
      simp only [Operations.Phase.commit, bind_ok, pure_ok, Prod.mk.injEq] at hcommit
      rcases hcommit with ⟨_, -, _, -, _, -, rfl, rfl⟩
      exact Moved.phase rfl id (RowsKept.refl _)
  | count rows =>
      simp only [Operations.Phase.commit, bind_ok, pure_ok, Prod.mk.injEq] at hcommit
      rcases hcommit with ⟨_, -, rfl, rfl⟩
      exact Moved.counted hjob rfl rfl
  | flip flipped =>
      simp only [Operations.Phase.commit, bind_ok, pure_ok, Prod.mk.injEq] at hcommit
      rcases hcommit with ⟨_, -, rfl, rfl⟩
      exact Moved.phase rfl id (RowsKept.refl _)
  | _ => cases hcommit

theorem moved_step {a : Operations.Action} (hpolls : ¬ polls a = true)
    (hstep : Operations.step pl st node s a = some t) : Moved s a t := by
  cases Operations.step_moves hstep with
  | request | failRequest _ | readRequest _ _ | refuseRequest _ _ _ =>
      exact Moved.request rfl (RowsKept.refl _)
  | commitRequest _ _ hfresh hcommit => exact moved_commitRequest hfresh hcommit
  | deleteTunnel | updateTeam => exact Moved.phase rfl id (RowsKept.refl _)
  | poll => exact absurd rfl hpolls
  | fail _ => exact Moved.phase rfl id (RowsKept.refl _)
  | read hjob hwrites hread =>
      rcases polls_read hread hwrites with hother | ⟨answer, rfl, rfl⟩
      · exact Moved.phase rfl hother (RowsKept.refl _)
      · exact Moved.loaded hjob rfl rfl
  | refuse _ _ => exact Moved.phase rfl id (RowsKept.refl _)
  | commit hjob hcommit => exact moved_commit hjob hcommit

end Requests

/-!
# The poll
-/

/-- The row was billed readings that this one may follow. -/
def Follows (counters : List Counters) (t : Tunnel) (reading : Marks) : Prop :=
  exists marks, Marked counters t marks ∧
    forall d, (marks.toward d).Precedes (reading.toward d)

/-- The entry was read of counters with its names, after what their rows were billed. -/
def Told (counters : List Counters) (rows : List Tunnel) (e : StatsEntry) : Prop :=
  exists (reading : Marks) (n : Counters), counters[reading.number]? = some n ∧
    e.key = (n.cn, n.name) ∧
    e.bytes = ((reading.value Direction.inward : Int), (reading.value Direction.outward : Int)) ∧
    (forall d, reading.value d ≤ count n d) ∧
    forall t, t ∈ rows -> billingKey t = labelKey n -> Follows counters t reading

/-- The entry that is being made is of the last counters of its rows. -/
structure Taking (earlier : List Counters) (engine : Counting.State) (rows : List Tunnel)
    (reading : Reading) : Prop where
  object : reading.object < engine.next
  value : forall v, v ∈ reading.bytesIn -> v ≤ (engine.objects reading.object).inBytes
  rows : forall t, t ∈ rows -> billingKey t = labelKey (engine.objects reading.object) ->
    exists marks, Marked (earlier ++ made engine) t marks ∧
      marks.number ≤ earlier.length + reading.object ∧
      forall v, v ∈ reading.bytesIn -> marks.number = earlier.length + reading.object ->
        marks.value Direction.inward ≤ v

/-- The row that a poll has counted is what the row of its number is billed. -/
def Counted (counters : List Counters) (rows : List Tunnel) (row : Tunnel × Tunnel) : Prop :=
  row.2.id = row.1.id ∧ row.2.agentId = row.1.agentId ∧
    forall t, t ∈ rows -> t.id = row.1.id ->
      SameCounts row.1 t ∧ exists marks, Marked counters row.2 marks

/-- What a poll has been told, or counted. -/
def PhaseKnows (counters : List Counters) (rows : List Tunnel) : Operations.Phase -> Prop
  | Operations.Phase.tunnels answer => forall e, e ∈ answer.getD [] -> Told counters rows e
  | Operations.Phase.count todo => forall row, row ∈ todo -> Counted counters rows row
  | _ => True

def PollInv (s : State) : Prop :=
  match s.poller with
  | Poller.ranging _ _ entries current =>
      (forall e, e ∈ entries -> Told s.counters s.db.tunnels e) ∧
        forall reading, reading ∈ current ->
          Taking s.earlier s.engine s.db.tunnels reading
  | Poller.storing r _ =>
      forall phase, s.ops.jobs r = some phase -> PhaseKnows s.counters s.db.tunnels phase
  | _ => True

structure Inv (s : State) : Prop where
  engine : EngineInv s.engine
  totals : Totals s.counters s.relayed
  numbered : Numbered s.db.tunnels
  rows : forall t, t ∈ s.db.tunnels -> exists marks, Marked s.counters t marks
  poll : PollInv s
  /-- there is one poll -/
  jobs : forall r phase, s.ops.jobs r = some phase -> Polls phase ->
    exists answered, s.poller = Poller.storing r answered

section Polling

variable {counters counters' : List Counters} {rows rows' : List Tunnel}

theorem Follows.grow {t : Tunnel} {reading : Marks} (h : Follows counters t reading)
    (hgrown : Grown counters counters') : Follows counters' t reading := by
  rcases h with ⟨marks, hmarked, hprecedes⟩
  exact ⟨marks, hmarked.grow hgrown, hprecedes⟩

theorem Told.grow {e : StatsEntry} (h : Told counters rows e) (hgrown : Grown counters counters') :
    Told counters' rows e := by
  rcases h with ⟨reading, n, hn, hkey, hbytes, hvalue, hrows⟩
  rcases hgrown reading.number n hn with ⟨n', hn', hcn, hname, hcount⟩
  refine ⟨reading, n', hn', ?_, hbytes, fun d => Nat.le_trans (hvalue d) (hcount d), ?_⟩
  · rw [hkey, hcn, hname]
  · intro t ht hlabel
    rw [labelKey_congr hcn hname] at hlabel
    exact (hrows t ht hlabel).grow hgrown

/-- The rows are of before and billed the same, or new. -/
def Traced (rows rows' : List Tunnel) : Prop :=
  forall u, u ∈ rows' -> (exists t, t ∈ rows ∧ SameCounts t u) ∨ Zero u

theorem RowsKept.traced (h : RowsKept rows rows') : Traced rows rows' :=
  fun u hu => Or.inl (h.same u hu)

/-- A row that has not been billed precedes every reading. -/
theorem precedes_of_zero (reading : Marks) (d : Direction) :
    (Marks.toward ⟨0, fun _ => 0⟩ d).Precedes (reading.toward d) := by
  rcases Nat.eq_zero_or_pos reading.number with hzero | hpos
  · exact Or.inr ⟨hzero.symm, Nat.zero_le _⟩
  · exact Or.inl hpos

theorem Told.traced {e : StatsEntry} (h : Told counters rows e) (htraced : Traced rows rows') :
    Told counters rows' e := by
  rcases h with ⟨reading, n, hn, hkey, hbytes, hvalue, hrows⟩
  refine ⟨reading, n, hn, hkey, hbytes, hvalue, fun u hu hlabel => ?_⟩
  rcases htraced u hu with ⟨t, ht, hsame⟩ | hzero
  · rcases hrows t ht (hsame.key.symm.trans hlabel) with ⟨marks, hmarked, hprecedes⟩
    exact ⟨marks, hmarked.same hsame, hprecedes⟩
  · exact ⟨_, Marked.start counters hzero, precedes_of_zero reading⟩

theorem Taking.traced {earlier : List Counters} {engine : Counting.State} {reading : Reading}
    (h : Taking earlier engine rows reading) (htraced : Traced rows rows') :
    Taking earlier engine rows' reading where
  object := h.object
  value := h.value
  rows u hu hlabel := by
    rcases htraced u hu with ⟨t, ht, hsame⟩ | hzero
    · rcases h.rows t ht (hsame.key.symm.trans hlabel) with ⟨marks, hmarked, hlast, hvalue⟩
      exact ⟨marks, hmarked.same hsame, hlast, hvalue⟩
    · exact ⟨_, Marked.start _ hzero, Nat.zero_le _, fun _ _ _ => Nat.zero_le _⟩

/-- The last counters of the rows stay so while the engine counts. -/
theorem Taking.grow {earlier : List Counters} {engine engine' : Counting.State}
    {reading : Reading} (h : Taking earlier engine rows reading)
    (hnext : engine.next ≤ engine'.next)
    (hgrown : Grown (earlier ++ made engine) (earlier ++ made engine')) :
    Taking earlier engine' rows reading := by
  rcases hgrown _ _ (made_get earlier h.object) with ⟨n', hn', hcn, hname, hcount⟩
  have hobject : reading.object < engine'.next := Nat.lt_of_lt_of_le h.object hnext
  rw [made_get earlier hobject] at hn'
  cases hn'
  constructor
  · exact hobject
  · exact fun v hv => Nat.le_trans (h.value v hv) (hcount Direction.inward)
  · intro t ht hlabel
    rw [labelKey_congr hcn hname] at hlabel
    rcases h.rows t ht hlabel with ⟨marks, hmarked, hlast, hvalue⟩
    exact ⟨marks, hmarked.grow hgrown, hlast, hvalue⟩

theorem Counted.grow {row : Tunnel × Tunnel} (h : Counted counters rows row)
    (hgrown : Grown counters counters') : Counted counters' rows row := by
  rcases h with ⟨hid, hagent, hrows⟩
  refine ⟨hid, hagent, fun t ht hnumber => ?_⟩
  rcases hrows t ht hnumber with ⟨hsame, marks, hmarked⟩
  exact ⟨hsame, marks, hmarked.grow hgrown⟩

theorem Counted.kept {row : Tunnel × Tunnel} (h : Counted counters rows row)
    (hkept : RowsKept rows rows') : Counted counters rows' row := by
  rcases h with ⟨hid, hagent, hrows⟩
  refine ⟨hid, hagent, fun u hu hnumber => ?_⟩
  rcases hkept.same u hu with ⟨t, ht, hsame⟩
  rcases hrows t ht (hsame.id.symm.trans hnumber) with ⟨hcounted, hmarks⟩
  exact ⟨hcounted.trans hsame, hmarks⟩

theorem PhaseKnows.grow {phase : Operations.Phase} (h : PhaseKnows counters rows phase)
    (hgrown : Grown counters counters') : PhaseKnows counters' rows phase := by
  cases phase with
  | tunnels answer => exact fun e he => (h e he).grow hgrown
  | count todo => exact fun row hrow => (h row hrow).grow hgrown
  | _ => trivial

theorem PhaseKnows.kept {phase : Operations.Phase} (h : PhaseKnows counters rows phase)
    (hkept : RowsKept rows rows') : PhaseKnows counters rows' phase := by
  cases phase with
  | tunnels answer => exact fun e he => (h e he).traced hkept.traced
  | count todo => exact fun row hrow => (h row hrow).kept hkept
  | _ => trivial

theorem phaseKnows_of_not_polls {phase : Operations.Phase} (h : ¬ Polls phase) :
    PhaseKnows counters rows phase := by
  cases phase with
  | tunnels answer => exact absurd trivial h
  | count todo => exact absurd trivial h
  | _ => trivial

/-- A row is billed what the last entry of its key says. -/
theorem marked_sampled {t : Tunnel} {answer : Option (List StatsEntry)} (ht : t ∈ rows)
    (hmarked : exists marks, Marked counters t marks)
    (htold : forall e, e ∈ answer.getD [] -> Told counters rows e) :
    exists marks, Marked counters (t.counted (sampleOf answer)) marks := by
  cases hsample : sampleOf answer t.agentId t.id with
  | none =>
      rw [Metering.counted_missing hsample]
      exact hmarked
  | some sample =>
      unfold sampleOf fetchProxyTraffic at hsample
      rcases Option.map_eq_some_iff.mp hsample with ⟨⟨key, bytes⟩, hfound, rfl⟩
      have hkey : key = proxyKey t.agentId t.id := by simpa using List.find?_some hfound
      have hmem := List.mem_reverse.mp (List.mem_of_find?_eq_some hfound)
      rcases List.mem_map.mp hmem with ⟨e, he, hentry⟩
      cases hentry
      rcases htold e he with ⟨reading, n, hn, hnames, hbytes, hvalue, hrows⟩
      have hlabel : labelKey n = billingKey t := by
        unfold labelKey billingKey
        rw [← hkey, hnames]
      rcases hrows t ht hlabel.symm with ⟨marks, hold, hprecedes⟩
      refine ⟨reading, hold.counted hn hlabel hvalue hprecedes ?_⟩
      rw [← hbytes]
      unfold sampleOf fetchProxyTraffic
      exact hsample

/-- Where the row is as it was loaded, all its counts become those that were computed. -/
theorem sameCounts_recounted {row : Tunnel × Tunnel} {t : Tunnel} (hsame : SameCounts row.1 t)
    (hid : row.2.id = row.1.id) (hagent : row.2.agentId = row.1.agentId) :
    SameCounts row.2 (Operations.Tunnel.recounted row t) := by
  have hvalue : forall x y z : Int, z = y -> (Interleaved.changed (some x) y).getD z = x := by
    intro x y z hz
    by_cases hxy : x = y
    · rw [hxy, Operations.changed_loaded]
      exact hz
    · rw [Operations.changed_other hxy]
      rfl
  constructor
  · exact hsame.id.trans hid.symm
  · exact hsame.agentId.trans hagent.symm
  · exact hvalue _ _ _ hsame.bytesIn
  · exact hvalue _ _ _ hsame.bytesOut
  · exact hvalue _ _ _ hsame.lastTodayIn
  · exact hvalue _ _ _ hsame.lastTodayOut

end Polling

/-!
# Every step
-/

/-- The rows that a poll has counted, until it bills them. -/
def State.held (s : State) : List (Tunnel × Tunnel) :=
  match s.poller with
  | Poller.storing r _ =>
      match s.ops.jobs r with
      | some (Operations.Phase.count rows) => rows
      | _ => []
  | _ => []

/-- No number of a tunnel is given again while a poll has counted the tunnel that had it. -/
def NewNumber (s : State) : Action -> Prop
  | Action.operate (Operations.Action.tunnel (Interleaved.Action.commit _ fresh)) =>
      forall row, row ∈ s.held -> row.1.id ≠ fresh
  | _ => True

instance (s : State) (a : Action) : Decidable (NewNumber s a) := by
  unfold NewNumber
  split <;> infer_instance

section Steps

variable {cfg : Server.Config} {rt : Runtime} {foreign : Kind -> Int -> Bool}
  {pl : Platform} {st : Settings} {node : Nat -> Nat} {s t : State}

theorem le_next_step {e e' : Counting.State} {a : Counting.Action}
    (hstep : Counting.Step cfg rt foreign e a e') : e.next ≤ e'.next := by
  cases hstep with
  | @look r rel _ _ => exact le_look_next e r rel
  | server _ | deleted _ _ | spawned _ _ | pair _ _ _ _ | add _ _ | finish _ _ =>
      exact Nat.le_refl _

theorem inv_engine {a : Counting.Action} {engine : Counting.State} (h : Inv s)
    (hstep : Counting.Step cfg rt foreign s.engine a engine) :
    Inv { s with engine := engine, relayed := counted s a } := by
  have hgrown : Grown s.counters (s.earlier ++ made engine) := grown_step hstep
  constructor
  · exact engineInv_step h.engine hstep
  · exact totals_step h.engine h.totals hstep
  · exact h.numbered
  · intro t ht
    rcases h.rows t ht with ⟨marks, hmarked⟩
    exact ⟨marks, hmarked.grow hgrown⟩
  · have hpoll := h.poll
    unfold PollInv at hpoll ⊢
    cases hpoller : s.poller with
    | ranging since seen entries current =>
        simp only [hpoller] at hpoll ⊢
        constructor
        · exact fun e he => (hpoll.left e he).grow hgrown
        · exact fun reading hreading =>
            (hpoll.right reading hreading).grow (le_next_step hstep) hgrown
    | storing r answered =>
        simp only [hpoller] at hpoll ⊢
        exact fun phase hphase => (hpoll phase hphase).grow hgrown
    | _ => trivial
  · exact h.jobs

/-- The counters of the engine that is gone are history. -/
theorem counters_restart (s : State) :
    (s.earlier ++ made s.engine) ++ made Counting.initial = s.counters :=
  List.append_nil _

theorem inv_restart (h : Inv s) :
    Inv { s with
      engine := Counting.initial
      earlier := s.earlier ++ made s.engine
      poller :=
        match s.poller with
        | Poller.ranging _ _ _ _ => Poller.lost
        | poller => poller } := by
  constructor
  · exact engineInv_initial
  · have htotals := h.totals
    rw [← counters_restart s] at htotals
    exact htotals
  · exact h.numbered
  · intro t ht
    rw [State.counters, counters_restart]
    exact h.rows t ht
  · have hpoll := h.poll
    unfold PollInv at hpoll ⊢
    cases hpoller : s.poller with
    | storing r answered =>
        simp only [hpoller] at hpoll ⊢
        rw [State.counters, counters_restart]
        exact hpoll
    | _ => trivial
  · intro r phase hphase hpolls
    rcases h.jobs r phase hphase hpolls with ⟨answered, hpoller⟩
    simp only [hpoller]
    exact ⟨answered, rfl⟩

/-- The rows are kept, and so are the polls. -/
theorem inv_kept {ops : Operations.State} (h : Inv s)
    (hrows : RowsKept s.db.tunnels ops.db.tunnels)
    (hjobs : forall r phase, ops.jobs r = some phase -> Polls phase ->
      s.ops.jobs r = some phase) : Inv { s with ops := ops } := by
  constructor
  · exact h.engine
  · exact h.totals
  · exact hrows.numbered h.numbered
  · intro u hu
    rcases hrows.same u hu with ⟨t, ht, hsame⟩
    rcases h.rows t ht with ⟨marks, hmarked⟩
    exact ⟨marks, hmarked.same hsame⟩
  · have hpoll := h.poll
    unfold PollInv at hpoll ⊢
    cases hpoller : s.poller with
    | ranging since seen entries current =>
        simp only [hpoller] at hpoll ⊢
        constructor
        · exact fun e he => (hpoll.left e he).traced hrows.traced
        · exact fun reading hreading => (hpoll.right reading hreading).traced hrows.traced
    | storing r answered =>
        simp only [hpoller] at hpoll ⊢
        intro phase hphase
        by_cases hpolls : Polls phase
        · exact (hpoll phase (hjobs r phase hphase hpolls)).kept hrows
        · exact phaseKnows_of_not_polls hpolls
    | _ => trivial
  · exact fun r phase hphase hpolls => h.jobs r phase (hjobs r phase hphase hpolls) hpolls

theorem inv_added {ops : Operations.State} {r : Nat} {row : Tunnel} (h : Inv s)
    (hnew : NewNumber s (Action.operate
      (Operations.Action.tunnel (Interleaved.Action.commit r row.id))))
    (hjobs : ops.jobs = s.ops.jobs) (hrows : ops.db.tunnels = s.db.tunnels ++ [row])
    (hfresh : s.db.tunnel? row.id = none) (hzero : Zero row) : Inv { s with ops := ops } := by
  have htraced : Traced s.db.tunnels ops.db.tunnels := by
    intro u hu
    rw [hrows] at hu
    rcases List.mem_append.mp hu with hold | hlast
    · exact Or.inl ⟨u, hold, SameCounts.refl u⟩
    · cases List.mem_singleton.mp hlast
      exact Or.inr hzero
  have hother : forall u, u ∈ s.db.tunnels -> u.id ≠ row.id := by
    intro u hu
    have hnone := List.find?_eq_none.mp hfresh u hu
    simpa using hnone
  constructor
  · exact h.engine
  · exact h.totals
  · intro u v hu hv hid
    rw [State.db, hrows] at hu hv
    rcases List.mem_append.mp hu with hu | hu
    · rcases List.mem_append.mp hv with hv | hv
      · exact h.numbered u v hu hv hid
      · cases List.mem_singleton.mp hv
        exact absurd hid (hother u hu)
    · cases List.mem_singleton.mp hu
      rcases List.mem_append.mp hv with hv | hv
      · exact absurd hid.symm (hother v hv)
      · exact (List.mem_singleton.mp hv).symm
  · intro u hu
    rcases htraced u hu with ⟨t, ht, hsame⟩ | hzero
    · rcases h.rows t ht with ⟨marks, hmarked⟩
      exact ⟨marks, hmarked.same hsame⟩
    · exact ⟨_, Marked.start _ hzero⟩
  · have hpoll := h.poll
    unfold PollInv at hpoll ⊢
    cases hpoller : s.poller with
    | ranging since seen entries current =>
        simp only [hpoller] at hpoll ⊢
        constructor
        · exact fun e he => (hpoll.left e he).traced htraced
        · exact fun reading hreading => (hpoll.right reading hreading).traced htraced
    | storing r' answered =>
        simp only [hpoller, hjobs] at hpoll ⊢
        intro phase hphase
        have hknows := hpoll phase hphase
        cases phase with
        | tunnels answer => exact fun e he => (hknows e he).traced htraced
        | count todo =>
            simp only [NewNumber, State.held, hpoller, hphase] at hnew
            intro counted hcounted
            rcases hknows counted hcounted with ⟨hid, hagent, hold⟩
            refine ⟨hid, hagent, fun u hu hnumber => ?_⟩
            rw [State.db, hrows] at hu
            rcases List.mem_append.mp hu with hu | hu
            · exact hold u hu hnumber
            · cases List.mem_singleton.mp hu
              exact absurd hnumber.symm (hnew counted hcounted)
        | _ => trivial
    | _ => trivial
  · intro r' phase hphase hpolls
    exact h.jobs r' phase (by rwa [← hjobs]) hpolls

/-- The poll loads the rows, and computes what they are billed. -/
theorem inv_loaded {ops : Operations.State} {r : Nat} {answer : Option (List StatsEntry)}
    (h : Inv s) (hjob : s.ops.jobs r = some (Operations.Phase.tunnels answer))
    (hjobs : ops.jobs = Function.update s.ops.jobs r (some (Operations.Phase.count
      (s.db.tunnels.map fun u => (u, u.counted (sampleOf answer))))))
    (hrows : ops.db.tunnels = s.db.tunnels) : Inv { s with ops := ops } := by
  rcases h.jobs r _ hjob trivial with ⟨answered, hpoller⟩
  have htold : forall e, e ∈ answer.getD [] -> Told s.counters s.db.tunnels e := by
    have hpoll := h.poll
    unfold PollInv at hpoll
    simp only [hpoller] at hpoll
    exact hpoll _ hjob
  constructor
  · exact h.engine
  · exact h.totals
  · rw [State.db, hrows]
    exact h.numbered
  · rw [State.db, hrows]
    exact h.rows
  · unfold PollInv
    simp only [hpoller]
    intro phase hphase
    rw [hjobs, Function.update_self] at hphase
    cases hphase
    intro row hrow
    rcases List.mem_map.mp hrow with ⟨u, hu, rfl⟩
    refine ⟨Metering.counted_id _ u, Metering.counted_agentId _ u, fun v hv hid => ?_⟩
    rw [State.db, hrows] at hv
    cases h.numbered v u hv hu hid
    exact ⟨SameCounts.refl u, marked_sampled hv (h.rows u hv) htold⟩
  · intro r' phase hphase hpolls
    rw [hjobs] at hphase
    rcases lookup_started hphase with ⟨rfl, -⟩ | ⟨-, hold⟩
    · exact ⟨answered, hpoller⟩
    · exact h.jobs r' phase hold hpolls

theorem recount_id (todo : List (Tunnel × Tunnel)) (t : Tunnel) : (recount todo t).id = t.id := by
  unfold recount
  split <;> rfl

/-- The poll bills the rows. -/
theorem inv_counted {ops : Operations.State} {r : Nat} {todo : List (Tunnel × Tunnel)}
    (h : Inv s) (hjob : s.ops.jobs r = some (Operations.Phase.count todo))
    (hjobs : ops.jobs = Function.update s.ops.jobs r (some Operations.Phase.teams))
    (hrows : ops.db.tunnels = s.db.tunnels.map (recount todo)) : Inv { s with ops := ops } := by
  rcases h.jobs r _ hjob trivial with ⟨answered, hpoller⟩
  have hcounted : forall row, row ∈ todo -> Counted s.counters s.db.tunnels row := by
    have hpoll := h.poll
    unfold PollInv at hpoll
    simp only [hpoller] at hpoll
    exact hpoll _ hjob
  constructor
  · exact h.engine
  · exact h.totals
  · rw [State.db, hrows]
    exact h.numbered.map (recount_id todo)
  · intro u hu
    rw [State.db, hrows] at hu
    rcases List.mem_map.mp hu with ⟨t, ht, rfl⟩
    unfold recount
    split
    · exact h.rows t ht
    · rename_i row hfound
      rcases hcounted row (List.mem_of_find?_eq_some hfound) with ⟨hid, hagent, hbilled⟩
      have hnumber : row.1.id = t.id := by simpa using List.find?_some hfound
      rcases hbilled t ht hnumber.symm with ⟨hsame, marks, hmarked⟩
      exact ⟨marks, hmarked.same (sameCounts_recounted hsame hid hagent)⟩
  · unfold PollInv
    simp only [hpoller]
    intro phase hphase
    rw [hjobs, Function.update_self] at hphase
    cases hphase
    trivial
  · intro r' phase hphase hpolls
    rw [hjobs] at hphase
    rcases lookup_started hphase with ⟨rfl, rfl⟩ | ⟨-, hold⟩
    · exact hpolls.elim
    · exact h.jobs r' phase hold hpolls

theorem inv_operate {a : Operations.Action} {ops : Operations.State} (h : Inv s)
    (hnew : NewNumber s (Action.operate a)) (hmoved : Moved s.ops a ops) :
    Inv { s with ops := ops } := by
  cases hmoved with
  | request hjobs hrows =>
      apply inv_kept h hrows
      intro r phase hphase _
      rwa [hjobs] at hphase
  | added hjobs hrows hfresh hzero => exact inv_added h hnew hjobs hrows hfresh hzero
  | phase hjobs hpolls hrows =>
      apply inv_kept h hrows
      intro r phase hphase hpoll
      rw [hjobs] at hphase
      rcases lookup_started hphase with ⟨-, rfl⟩ | ⟨-, hold⟩
      · exact absurd hpoll hpolls
      · exact hold
  | loaded hjob hjobs hrows => exact inv_loaded h hjob hjobs hrows
  | counted hjob hjobs hrows => exact inv_counted h hjob hjobs hrows

/-- Between two polls no request is one. -/
theorem Inv.not_polls (h : Inv s) (hready : s.Ready) {r : Nat} {phase : Operations.Phase}
    (hphase : s.ops.jobs r = some phase) : ¬ Polls phase := by
  intro hpolls
  rcases h.jobs r phase hphase hpolls with ⟨answered, hpoller⟩
  simp only [State.Ready, hpoller] at hready
  rw [hready] at hphase
  cases hphase
  exact hpolls

theorem inv_ask (h : Inv s) (hready : s.Ready) :
    Inv { s with poller := Poller.ranging s.engine.next [] [] none, asked := s.relayed } where
  engine := h.engine
  totals := h.totals
  numbered := h.numbered
  rows := h.rows
  poll := by
    constructor
    · intro e he
      cases he
    · intro reading hreading
      cases hreading
  jobs r phase hphase hpolls := absurd hpolls (h.not_polls hready hphase)

/-- The engine makes an entry: no request is a poll. -/
theorem inv_ranging {since : Nat} {seen : List Text} {entries : List StatsEntry}
    {current : Option Reading} {poller : Poller} (h : Inv s)
    (hpoller : s.poller = Poller.ranging since seen entries current)
    (hpoll : PollInv { s with poller := poller }) : Inv { s with poller := poller } where
  engine := h.engine
  totals := h.totals
  numbered := h.numbered
  rows := h.rows
  poll := hpoll
  jobs r phase hphase hpolls := by
    rcases h.jobs r phase hphase hpolls with ⟨answered, hstoring⟩
    rw [hpoller] at hstoring
    cases hstoring

theorem PollInv.ranging {since : Nat} {seen : List Text} {entries : List StatsEntry}
    {current : Option Reading} (h : PollInv s)
    (hpoller : s.poller = Poller.ranging since seen entries current) :
    (forall e, e ∈ entries -> Told s.counters s.db.tunnels e) ∧
      forall reading, reading ∈ current -> Taking s.earlier s.engine s.db.tunnels reading := by
  unfold PollInv at h
  simp only [hpoller] at h
  exact h

/-- The marks of a row are not past the last counters of its key. -/
theorem Marked.le_stored {t : Tunnel} {marks : Marks} {key : Text} {object : Nat}
    (h : Marked s.counters t marks) (hengine : EngineInv s.engine)
    (hstored : s.engine.stats key = some object) (hkey : billingKey t = key) :
    marks.number ≤ s.earlier.length + object := by
  rcases h.own with hzero | ⟨n, hn, hlabel⟩
  · rw [hzero]
    exact Nat.zero_le _
  · rcases counters_cases hn with ⟨hlt, -⟩ | ⟨other, hnumber, hother, rfl⟩
    · exact Nat.le_add_right_of_le (Nat.le_of_lt hlt)
    · rw [hnumber]
      have hlast := (hengine.stored key object hstored).right.right other hother
        (hlabel.trans hkey)
      exact Nat.add_le_add_left hlast _

theorem inv_visit {since : Nat} {seen seen' : List Text} {entries : List StatsEntry} {key : Text}
    {object : Nat} (h : Inv s) (hpoller : s.poller = Poller.ranging since seen entries none)
    (hstored : s.engine.stats key = some object) :
    Inv { s with poller := Poller.ranging since seen' entries (some ⟨object, none⟩) } := by
  apply inv_ranging h hpoller
  constructor
  · exact (h.poll.ranging hpoller).left
  · intro reading hreading
    cases hreading
    rcases h.engine.stored key object hstored with ⟨hobject, hlabel, -⟩
    constructor
    · exact hobject
    · intro v hv
      cases hv
    · intro t ht hkey
      rcases h.rows t ht with ⟨marks, hmarked⟩
      refine ⟨marks, hmarked, hmarked.le_stored h.engine hstored (hkey.trans hlabel), ?_⟩
      intro v hv
      cases hv

/-- What was billed of the counters that are read, they still count. -/
theorem Marked.value_le {t : Tunnel} {marks : Marks} {n : Counters} (h : Marked counters t marks)
    (hn : counters[marks.number]? = some n) (hkey : labelKey n = billingKey t) (d : Direction) :
    marks.value d ≤ count n d := by
  have hread := (h.covered d).read
  rw [← hkey] at hread
  exact Nat.le_trans hread (Nat.le_of_eq (worth_of d hn))

theorem inv_load {since : Nat} {seen : List Text} {entries : List StatsEntry} {reading : Reading}
    (h : Inv s) (hpoller : s.poller = Poller.ranging since seen entries (some reading)) :
    Inv { s with poller := Poller.load s.engine since seen entries reading } := by
  rcases h.poll.ranging hpoller with ⟨htold, htaking⟩
  have hreading := htaking reading rfl
  have hn := made_get s.earlier hreading.object
  apply inv_ranging h hpoller
  unfold Poller.load
  cases hin : reading.bytesIn with
  | none =>
      constructor
      · exact htold
      · intro current hcurrent
        cases hcurrent
        constructor
        · exact hreading.object
        · intro v hv
          cases hv
          exact Nat.le_refl _
        · intro t ht hkey
          rcases hreading.rows t ht hkey with ⟨marks, hmarked, hlast, -⟩
          refine ⟨marks, hmarked, hlast, fun v hv hnumber => ?_⟩
          cases hv
          rw [← hnumber] at hn
          exact hmarked.value_le hn hkey.symm Direction.inward
  | some bytesIn =>
      refine ⟨fun e he => ?_, fun current hcurrent => by cases hcurrent⟩
      rcases List.mem_append.mp he with hold | hlast
      · exact htold e hold
      · cases List.mem_singleton.mp hlast
        have hvalue := hreading.value bytesIn hin
        refine ⟨⟨s.earlier.length + reading.object,
          both bytesIn (s.engine.objects reading.object).outBytes⟩,
          s.engine.objects reading.object, hn, rfl, rfl, ?_, ?_⟩
        · intro d
          cases d
          · exact hvalue
          · exact Nat.le_refl _
        · intro t ht hkey
          rcases hreading.rows t ht hkey with ⟨marks, hmarked, hplace, hread⟩
          refine ⟨marks, hmarked, fun d => ?_⟩
          rcases Nat.lt_or_eq_of_le hplace with hlt | heq
          · exact Or.inl hlt
          · refine Or.inr ⟨heq, ?_⟩
            cases d
            · exact hread bytesIn hin heq
            · rw [← heq] at hn
              exact hmarked.value_le hn hkey.symm Direction.outward

/-- The poll goes on with what it was told. -/
theorem inv_store {r : Nat} {answer : Option (List StatsEntry)} (h : Inv s)
    (hquiet : forall r phase, s.ops.jobs r = some phase -> ¬ Polls phase)
    (htold : forall e, e ∈ answer.getD [] -> Told s.counters s.db.tunnels e)
    (hstore : s.store pl st node r answer = some t) : Inv t := by
  unfold State.store at hstore
  simp only [Operations.step] at hstore
  split at hstore
  · cases hstore
  · rename_i ops hops
    rcases Option.ite_none_right_eq_some.mp hops with ⟨-, hset⟩
    cases hset
    cases hstore
    constructor
    · exact h.engine
    · exact h.totals
    · exact h.numbered
    · exact h.rows
    · intro phase hphase
      cases (Function.update_self ..).symm.trans hphase
      exact htold
    · intro r' phase hphase hpolls
      rcases lookup_started hphase with ⟨rfl, -⟩ | ⟨-, hold⟩
      · exact ⟨_, rfl⟩
      · exact absurd hpolls (hquiet r' phase hold)

theorem inv_abandon {r : Nat} {answered : Bool} (h : Inv s)
    (hpoller : s.poller = Poller.storing r answered) :
    Inv { s with
      poller := Poller.idle
      ops := s.ops.setJob r Operations.Phase.finished } where
  engine := h.engine
  totals := h.totals
  numbered := h.numbered
  rows := h.rows
  poll := trivial
  jobs r' phase hphase hpolls := by
    rcases lookup_started hphase with ⟨-, rfl⟩ | ⟨hother, hold⟩
    · exact hpolls.elim
    · rcases h.jobs r' phase hold hpolls with ⟨_, hstoring⟩
      rw [hpoller] at hstoring
      cases hstoring
      exact absurd rfl hother

theorem Inv.quiet (h : Inv s) (hpoller : forall r answered, s.poller ≠ Poller.storing r answered)
    (r : Nat) (phase : Operations.Phase) (hphase : s.ops.jobs r = some phase) : ¬ Polls phase := by
  intro hpolls
  rcases h.jobs r phase hphase hpolls with ⟨answered, hstoring⟩
  exact hpoller r answered hstoring

theorem inv_step {a : Action} (h : Inv s) (hnew : NewNumber s a)
    (hstep : step cfg rt foreign pl st node s a = some t) : Inv t := by
  cases a with
  | engine a =>
      simp only [step] at hstep
      split at hstep
      · cases hstep
      · rename_i engine hengine
        cases hstep
        exact inv_engine h (Counting.step_cases hengine)
  | restart =>
      cases hstep
      exact inv_restart h
  | operate a =>
      simp only [step, Option.ite_none_left_eq_some] at hstep
      rcases hstep with ⟨hpolls, hstep⟩
      split at hstep
      · cases hstep
      · rename_i ops hops
        cases hstep
        exact inv_operate h hnew (moved_step hpolls hops)
  | ask =>
      simp only [step, Option.ite_none_right_eq_some] at hstep
      rcases hstep with ⟨hready, hstep⟩
      cases hstep
      exact inv_ask h hready
  | visit key =>
      simp only [step] at hstep
      split at hstep
      · rename_i since seen entries object hpoller hstored
        simp only [Option.ite_none_left_eq_some] at hstep
        rcases hstep with ⟨-, hstep⟩
        cases hstep
        exact inv_visit h hpoller hstored
      · cases hstep
  | load =>
      simp only [step] at hstep
      split at hstep
      · rename_i since seen entries reading hpoller
        cases hstep
        exact inv_load h hpoller
      · cases hstep
  | answer r =>
      simp only [step] at hstep
      split at hstep
      · rename_i since seen entries hpoller
        rcases Option.ite_none_right_eq_some.mp hstep with ⟨-, hstore⟩
        have hquiet := h.quiet fun r answered hstoring => by
          rw [hpoller] at hstoring
          cases hstoring
        have htold : forall e, e ∈ Option.getD (some entries) [] ->
            Told s.counters s.db.tunnels e := (h.poll.ranging hpoller).left
        exact inv_store h hquiet htold hstore
      · cases hstep
  | lose r =>
      have hnothing : forall e, e ∈ Option.getD none [] ->
          Told s.counters s.db.tunnels e := fun e he => by cases he
      simp only [step] at hstep
      split at hstep
      · rename_i since seen entries current hpoller
        have hquiet := h.quiet fun r answered hstoring => by
          rw [hpoller] at hstoring
          cases hstoring
        exact inv_store h hquiet hnothing hstep
      · rename_i hpoller
        have hquiet := h.quiet fun r answered hstoring => by
          rw [hpoller] at hstoring
          cases hstoring
        exact inv_store h hquiet hnothing hstep
      · cases hstep
  | abandon =>
      simp only [step] at hstep
      split at hstep
      · rename_i r answered hpoller
        cases hstep
        exact inv_abandon h hpoller
      · cases hstep

theorem inv_of_unbilled (h : Unbilled s) : Inv s := by
  have hcounters : s.counters = [] := by
    unfold State.counters
    rw [h.engine, h.earlier]
    rfl
  constructor
  · rw [h.engine]
    exact engineInv_initial
  · rw [hcounters]
    exact h.relayed
  · exact h.numbered
  · exact fun t ht => ⟨_, Marked.start _ (h.rows t ht)⟩
  · unfold PollInv
    rw [h.poller]
    trivial
  · intro r phase hphase _
    rw [h.ops.jobs] at hphase
    cases hphase

end Steps

/-!
# Every run
-/

/-- What was counted for the tunnels of a team, as {lit}`poll_once` sums what they were
billed. -/
def State.relayedFor (s : State) (teamId : Nat) : Int :=
  (s.db.tunnels.filter fun t =>
    (s.db.agent? t.agentId).bind Agent.teamId = some teamId).foldl
      (fun total t => total + ((s.relayed (billingKey t) Direction.inward : Int) +
        (s.relayed (billingKey t) Direction.outward : Int))) 0

/-- No tunnel is billed for more than was counted for its proxy, no team for more than was
counted for its tunnels, and nothing that is counted is two tunnels'. -/
structure Fair (s : State) : Prop where
  tunnels : forall t, t ∈ s.db.tunnels ->
    t.bytesIn ≤ s.relayed (billingKey t) Direction.inward ∧
      t.bytesOut ≤ s.relayed (billingKey t) Direction.outward
  teams : forall teamId, s.db.usage teamId ≤ s.relayedFor teamId
  keys : forall t u, t ∈ s.db.tunnels -> u ∈ s.db.tunnels -> billingKey t = billingKey u -> t = u

section Runs

variable {cfg : Server.Config} {rt : Runtime} {foreign : Kind -> Int -> Bool}
  {pl : Platform} {st : Settings} {node : Nat -> Nat} {s : State}

theorem foldl_le {rows : List Tunnel} {f g : Tunnel -> Int} (h : forall t, t ∈ rows -> f t ≤ g t)
    {x y : Int} (hxy : x ≤ y) :
    rows.foldl (fun total t => total + f t) x ≤ rows.foldl (fun total t => total + g t) y := by
  induction rows generalizing x y with
  | nil => exact hxy
  | cons t rest ih =>
      have hhead := h t List.mem_cons_self
      exact ih (fun u hu => h u (List.mem_cons_of_mem t hu)) (Int.add_le_add hxy hhead)

theorem id_of_billingKey {t u : Tunnel} (h : billingKey t = billingKey u) : t.id = u.id := by
  have hmarker : forall n, Char.ofNat 0 ∉ "agent.".toList ++ Nat.toDigits 10 n := by
    intro n hmem
    rcases List.mem_append.mp hmem with hprefix | hdigits
    · exact absurd hprefix (by decide)
    · exact absurd (Nat.isDigit_of_mem_toDigits (by decide) (by decide) hdigits) (by decide)
  have hnames := (first_sep_inj h (hmarker _) (hmarker _)).right
  exact toDigits_inj (List.cons.inj hnames).right

theorem fair_of_inv (h : Inv s) : Fair s := by
  have htunnels : forall t, t ∈ s.db.tunnels ->
      forall d, (readerOf t d).total ≤ s.relayed (billingKey t) d := by
    intro t ht d
    rcases h.rows t ht with ⟨marks, hmarked⟩
    rw [h.totals]
    exact (hmarked.covered d).total_le fun g hg => worth_beyond hg
  constructor
  · exact fun t ht => ⟨htunnels t ht Direction.inward, htunnels t ht Direction.outward⟩
  · intro teamId
    unfold Db.usage State.relayedFor
    apply foldl_le
    · intro t ht
      have hmem := List.mem_of_mem_filter ht
      exact Int.add_le_add (htunnels t hmem Direction.inward) (htunnels t hmem Direction.outward)
    · exact Int.le_refl 0
  · exact fun t u ht hu hkey => h.numbered t u ht hu (id_of_billingKey hkey)

/--
Whatever the engine does between the reads of its counters, however it restarts and
however polls fail, all tunnels and teams are billed at most what was counted for them, in
every state of a run in which no number of a tunnel is given again while a poll has
counted the tunnel that had it.
-/
theorem never_overbilled {actions : List Action} (hs : Unbilled s)
    (hobeys : (machine cfg rt foreign pl st node).Obeys NewNumber s actions) :
    (machine cfg rt foreign pl st node).Always Fair s actions := by
  have halways := Machine.always_of_obeys (I := Inv)
    (fun _ _ _ h hnew hstep => inv_step h hnew hstep) (inv_of_unbilled hs) hobeys
  exact halways.imp fun _ => fair_of_inv

/-!
# An engine that restarts between two polls
-/

def deployment : Machine State Action :=
  machine ⟨[], []⟩ Server.plainRuntime (fun _ _ => false) asciiPlatform deployed fun _ => 1

/-- A tunnel of agent 7, that nobody has used. -/
def unused : State where
  engine := Counting.initial
  ops := Operations.oneTeam none [Operations.sshTunnel]
  poller := Poller.idle
  earlier := []
  relayed _ _ := 0
  asked _ _ := 0

/-- The agent registers its proxy, and a visitor's connection is relayed. -/
def relaying (bytesIn bytesOut : Nat) : List Action :=
  (Counting.served (Server.registerAll 0 "agent.7" [Server.site "t1" ["a.example"]]) ++
    Counting.served [Server.Action.traffic
        (Server.TrafficAction.vhost "a.example".toList "b1".toList),
      Server.Action.traffic
        (Server.TrafficAction.work 0 "agent.7".toList [] "b1".toList false),
      Server.Action.traffic (Server.TrafficAction.handoff 0)] ++
    [Counting.Action.pair 0 "b1".toList, Counting.Action.look 0,
      Counting.Action.add 0 Direction.outward bytesOut,
      Counting.Action.add 0 Direction.inward bytesIn]).map Action.engine

/-- The engine is asked about its only name. -/
def polling (r : Nat) : List Action :=
  [Action.ask, Action.visit (billingKey Operations.sshTunnel), Action.load, Action.load,
    Action.answer r] ++
    [Operations.Action.read r, Operations.Action.commit r, Operations.Action.read r,
      Operations.Action.read r, Operations.Action.read r, Operations.Action.commit r].map
        Action.operate

def restarting : List Action :=
  relaying 4096 512 ++ polling 0 ++ [Action.restart] ++ relaying 100 40 ++ polling 1

theorem unbilled_unused : Unbilled unused where
  engine := rfl
  ops := Operations.idle_oneTeam none [Operations.sshTunnel]
  poller := rfl
  earlier := rfl
  relayed _ _ := rfl
  asked _ _ := rfl
  rows t ht := by
    cases List.mem_singleton.mp ht
    exact ⟨rfl, rfl, rfl, rfl⟩
  numbered t u ht hu _ :=
    (List.mem_singleton.mp ht).trans (List.mem_singleton.mp hu).symm

theorem never_overbilled_restarting :
    (deployment.exec unused restarting).map
        (fun t => (t.db.tunnels.map Metering.readerIn, t.earlier.length)) =
      some ([⟨4196, 100⟩], 1) ∧
    deployment.Always Fair unused restarting := by
  constructor
  · decide +kernel
  · exact never_overbilled unbilled_unused (by decide +kernel)

end Runs

end Billing

end Joint
end RcTunnel
