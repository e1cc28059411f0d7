import RcTunnel.Joint.Billing

/-!
# Billing in full

While the counters of a tunnel's proxy are never taken away, its row always holds exactly
what was read last, and a poll that the engine has answered bills everything that had been
counted when the engine was asked.
-/

namespace RcTunnel

open Foundation

namespace Joint

open Engine
open Panel.Api
open Panel (Platform)

namespace Billing

open Counting (Counters Direction)

/-- The counters of the key are not taken away. -/
def Stays (key : Text) (s : State) : Action -> Prop
  | Action.restart => False
  | Action.engine (Counting.Action.server (Server.Action.handler c Server.HandlerAction.close) _) =>
      s.engine.visited c ≠ some key
  | _ => True

instance (key : Text) (s : State) (a : Action) : Decidable (Stays key s a) := by
  unfold Stays
  split <;> infer_instance

/-!
# One object for a key
-/

/-- All that was counted under the key, what is stored for it has counted. -/
structure Whole (key : Text) (e : Counting.State) (relayed : Text -> Direction -> Nat) :
    Prop where
  stored : forall object, e.stats key = some object ->
    forall d, count (e.objects object) d = relayed key d
  missing : e.stats key = none -> forall d, relayed key d = 0
  counting : forall r rel object, e.relays r = some rel ->
    rel.phase = Counting.Phase.counting object -> rel.key = key -> e.stats key = some object

section EngineSteps

variable {cfg : Server.Config} {rt : Runtime} {foreign : Kind -> Int -> Bool} {key : Text}
  {e e' : Counting.State} {relayed : Text -> Direction -> Nat}

theorem whole_initial (h : forall d, relayed key d = 0) :
    Whole key Counting.initial relayed where
  stored object hstored := by cases hstored
  missing _ := h
  counting r rel object hrel := by cases hrel

/-- A relay that is set, over the same counters. -/
theorem Whole.setRelay (h : Whole key e relayed) {r : Nat} {rel : Counting.Relay}
    (hrelays : e'.relays = Function.update e.relays r (some rel)) (hstats : e'.stats = e.stats)
    (hobjects : e'.objects = e.objects)
    (hrel : forall object, rel.phase = Counting.Phase.counting object -> rel.key = key ->
      e.stats key = some object) : Whole key e' relayed := by
  constructor
  · rw [hstats, hobjects]
    exact h.stored
  · rw [hstats]
    exact h.missing
  · intro r' rel' object hrel' hphase hkey
    rw [hstats]
    rw [hrelays] at hrel'
    rcases lookup_started hrel' with ⟨-, rfl⟩ | ⟨-, hold⟩
    · exact hrel object hphase hkey
    · exact h.counting r' rel' object hold hphase hkey

theorem Whole.delete (h : Whole key e relayed) {other : Text} (hother : other ≠ key) :
    Whole key (e.delete other) relayed := by
  have hstats : (e.delete other).stats key = e.stats key :=
    Function.update_of_ne hother.symm _ _
  constructor
  · rw [hstats]
    exact h.stored
  · rw [hstats]
    exact h.missing
  · intro r rel object hrel hphase hkey
    rw [hstats]
    rcases Option.map_eq_some_iff.mp hrel with ⟨old, hold, rfl⟩
    exact h.counting r old object hold hphase hkey

theorem Whole.look (h : Whole key e relayed) (hengine : EngineInv e) {r : Nat}
    {rel : Counting.Relay} : Whole key (e.look r rel) relayed := by
  unfold Counting.State.look
  split
  · rename_i object hstored
    refine h.setRelay rfl rfl rfl fun object' hphase hkey => ?_
    cases hphase
    rw [← hkey]
    exact hstored
  · rename_i hnone
    by_cases hkey : rel.key = key
    · -- the first counters of the key: nothing was counted before
      subst hkey
      have hzero := h.missing hnone
      have hself : Function.update e.stats rel.key (some e.next) rel.key = some e.next :=
        Function.update_self ..
      constructor
      · intro object hstored d
        cases hself.symm.trans hstored
        show count (Function.update e.objects e.next _ e.next) d = _
        rw [Function.update_self, hzero]
        cases d <;> rfl
      · intro hmissing
        cases hself.symm.trans hmissing
      · intro r' rel' object hrel' hphase hsame
        rcases lookup_started hrel' with ⟨-, rfl⟩ | ⟨-, hold⟩
        · cases hphase
          exact hself
        · have hstored := h.counting r' rel' object hold hphase hsame
          rw [hnone] at hstored
          cases hstored
    · have hstats : Function.update e.stats rel.key (some e.next) key = e.stats key :=
        Function.update_of_ne (Ne.symm hkey) _ _
      constructor
      · intro object hstored d
        have hold := hstats.symm.trans hstored
        have hobject := (hengine.stored key object hold).left
        show count (Function.update e.objects e.next _ object) d = _
        rw [Function.update_of_ne (Nat.ne_of_lt hobject)]
        exact h.stored object hold d
      · exact fun hmissing => h.missing (hstats.symm.trans hmissing)
      · intro r' rel' object hrel' hphase hsame
        rcases lookup_started hrel' with ⟨-, rfl⟩ | ⟨-, hold⟩
        · exact absurd hsame hkey
        · exact hstats.trans (h.counting r' rel' object hold hphase hsame)

theorem whole_step {s : State} {a : Counting.Action} (hengine : EngineInv s.engine)
    (h : Whole key s.engine s.relayed) (hstays : Stays key s (Action.engine a))
    (hstep : Counting.Step cfg rt foreign s.engine a e') : Whole key e' (counted s a) := by
  cases hstep with
  | server _ => exact ⟨h.stored, h.missing, h.counting⟩
  | @deleted c r server other _ hvisited =>
      have hother : other ≠ key := by
        rintro rfl
        exact hstays hvisited
      have hdeleted := h.delete hother
      exact ⟨hdeleted.stored, hdeleted.missing, hdeleted.counting⟩
  | spawned _ _ => exact h.setRelay rfl rfl rfl fun _ hphase => by cases hphase
  | pair _ _ _ _ => exact h.setRelay rfl rfl rfl fun _ hphase => by cases hphase
  | look _ _ => exact h.look hengine
  | finish _ _ => exact h.setRelay rfl rfl rfl fun _ hphase => by cases hphase
  | @add r direction bytes object rel hrel hphase =>
      have hlabel := (hengine.relays r rel object hrel hphase).right
      have hcounted : counted s (Counting.Action.add r direction bytes) = fun key d =>
          if key = rel.key ∧ d = direction then s.relayed key d + bytes
          else s.relayed key d := by
        simp only [counted, hrel]
      rw [hcounted]
      constructor
      · intro object' hstored d
        rw [add_objects]
        have hold := h.stored object' hstored d
        by_cases hkey : rel.key = key
        · cases (h.counting r rel object hrel hphase hkey).symm.trans hstored
          rw [if_pos rfl, count_add, hold]
          by_cases hd : d = direction
          · rw [if_pos hd, if_pos ⟨hkey.symm, hd⟩]
          · rw [if_neg hd, if_neg fun hboth => hd hboth.right]
        · have hother : object' ≠ object := by
            rintro rfl
            exact hkey (hlabel.symm.trans (hengine.stored key object' hstored).right.left)
          rw [if_neg hother, if_neg fun hboth => hkey hboth.left.symm, hold]
      · intro hmissing d
        have hkey : rel.key ≠ key := by
          intro hkey
          cases (h.counting r rel object hrel hphase hkey).symm.trans hmissing
        rw [if_neg fun hboth => hkey hboth.left.symm]
        exact h.missing hmissing d
      · intro r' rel' object' hrel' hphase' hkey
        rcases lookup_started hrel' with ⟨-, rfl⟩ | ⟨-, hold⟩
        · exact h.counting r rel object' hrel hphase' hkey
        · exact h.counting r' rel' object' hold hphase' hkey

/-- What is stored for the key stays. -/
theorem stored_step {s : State} {a : Counting.Action} (hstays : Stays key s (Action.engine a))
    (hstep : Counting.Step cfg rt foreign s.engine a e') {object : Nat}
    (hstored : s.engine.stats key = some object) : e'.stats key = some object := by
  cases hstep with
  | @deleted c r server other _ hvisited =>
      have hother : key ≠ other := by
        rintro rfl
        exact hstays hvisited
      exact (Function.update_of_ne hother _ _).trans hstored
  | @look r rel _ _ =>
      unfold Counting.State.look
      split
      · exact hstored
      · rename_i hnone
        have hother : key ≠ rel.key := by
          rintro rfl
          rw [hnone] at hstored
          cases hstored
        exact (Function.update_of_ne hother _ _).trans hstored
  | server _ | spawned _ _ | pair _ _ _ _ | add _ _ | finish _ _ => exact hstored

theorem le_counted (s : State) (a : Counting.Action) (key : Text) (d : Direction) :
    s.relayed key d ≤ counted s a key d := by
  cases a with
  | add r direction bytes =>
      simp only [counted]
      cases s.engine.relays r with
      | none => exact Nat.le_refl _
      | some rel =>
          simp only
          split
          · exact Nat.le_add_right _ _
          · exact Nat.le_refl _
  | _ => exact Nat.le_refl _

end EngineSteps

/-!
# What was read for the key
-/

def toldOf (e : StatsEntry) : Direction -> Int
  | Direction.inward => e.bytes.1
  | Direction.outward => e.bytes.2

def labelOf (e : StatsEntry) : Text := Counting.keyOf e.key.1 e.key.2

/-- The value was read after the engine was asked, and after what the rows hold. -/
structure Recent (key : Text) (s : State) (d : Direction) (v : Int) : Prop where
  asked : s.asked key d ≤ v
  relayed : v ≤ s.relayed key d
  rows : forall t, t ∈ s.db.tunnels -> billingKey t = key -> (readerOf t d).last ≤ v

/-- A row holds what was read last, and a poll that was answered read it after it asked. -/
structure Settled (key : Text) (s : State) (answered : Bool) (t : Tunnel) : Prop where
  full : forall d, (readerOf t d).total = (readerOf t d).last
  relayed : forall d, (readerOf t d).last ≤ s.relayed key d
  asked : answered = true -> forall d, s.asked key d ≤ (readerOf t d).last

/-- The key had been counted when the engine was asked. -/
def Due (key : Text) (s : State) : Prop := exists d, 0 < s.asked key d

/-- What a poll knows of the key. -/
def PhaseFull (key : Text) (s : State) (answered : Bool) : Operations.Phase -> Prop
  | Operations.Phase.tunnels answer =>
      (forall e, e ∈ answer.getD [] -> labelOf e = key -> forall d, Recent key s d (toldOf e d)) ∧
        (answered = true -> Due key s -> exists e, e ∈ answer.getD [] ∧ labelOf e = key)
  | Operations.Phase.count todo => forall row, row ∈ todo -> billingKey row.1 = key ->
      Settled key s answered row.2
  | _ => True

/-- What the engine has answered so far for the key. -/
structure RangeFull (key : Text) (s : State) (since : Nat) (seen : List Text)
    (entries : List StatsEntry) (current : Option Reading) : Prop where
  due : Due key s -> forall object, s.engine.stats key = some object -> object < since
  told : forall e, e ∈ entries -> labelOf e = key -> forall d, Recent key s d (toldOf e d)
  visited : key ∈ seen -> (exists e, e ∈ entries ∧ labelOf e = key) ∨
    exists reading, reading ∈ current ∧ labelKey (s.engine.objects reading.object) = key
  taking : forall reading, reading ∈ current ->
    labelKey (s.engine.objects reading.object) = key ->
      s.engine.stats key = some reading.object ∧
        forall v : Nat, v ∈ reading.bytesIn -> Recent key s Direction.inward v

def PollFull (key : Text) (s : State) : Prop :=
  match s.poller with
  | Poller.ranging since seen entries current => RangeFull key s since seen entries current
  | Poller.storing r answered =>
      forall phase, s.ops.jobs r = some phase -> PhaseFull key s answered phase
  | _ => True

structure FullInv (key : Text) (s : State) : Prop where
  inv : Inv s
  whole : Whole key s.engine s.relayed
  asked : forall d, s.asked key d ≤ s.relayed key d
  rows : forall t, t ∈ s.db.tunnels -> billingKey t = key -> Settled key s false t
  poll : PollFull key s

section Reads

variable {key : Text} {s t : State}

/-- The rows of the key are of before and billed the same, or new; more may have been
counted. -/
structure Later (key : Text) (s t : State) : Prop where
  asked : t.asked = s.asked
  relayed : forall d, s.relayed key d ≤ t.relayed key d
  rows : Traced s.db.tunnels t.db.tunnels

theorem Later.same (hasked : t.asked = s.asked) (hrelayed : t.relayed = s.relayed)
    (hrows : t.db.tunnels = s.db.tunnels) : Later key s t where
  asked := hasked
  relayed d := by rw [hrelayed]
  rows := by
    rw [hrows]
    exact (RowsKept.refl _).traced

theorem last_of_traced (h : Traced s.db.tunnels t.db.tunnels) {d : Direction} {v : Int}
    (hv : 0 ≤ v)
    (hold : forall u, u ∈ s.db.tunnels -> billingKey u = key -> (readerOf u d).last ≤ v) :
    forall u, u ∈ t.db.tunnels -> billingKey u = key -> (readerOf u d).last ≤ v := by
  intro u hu hkey
  rcases h u hu with ⟨t, ht, hsame⟩ | ⟨-, -, hin, hout⟩
  · rw [hsame.reader]
    exact hold t ht (hsame.key.symm.trans hkey)
  · cases d
    · exact le_of_eq_of_le hin hv
    · exact le_of_eq_of_le hout hv

theorem Recent.later {d : Direction} {v : Int} (h : Recent key s d v) (hlater : Later key s t) :
    Recent key t d v where
  asked := by
    rw [hlater.asked]
    exact h.asked
  relayed := Int.le_trans h.relayed (Int.ofNat_le.mpr (hlater.relayed d))
  rows := last_of_traced hlater.rows (Int.le_trans (Int.natCast_nonneg _) h.asked) h.rows

theorem Settled.later {answered : Bool} {u : Tunnel} (h : Settled key s answered u)
    (hlater : Later key s t) : Settled key t answered u where
  full := h.full
  relayed d := Int.le_trans (h.relayed d) (Int.ofNat_le.mpr (hlater.relayed d))
  asked := by
    rw [hlater.asked]
    exact h.asked

theorem Settled.same {answered : Bool} {u v : Tunnel} (h : Settled key s answered u)
    (hsame : SameCounts u v) : Settled key s answered v := by
  have hreader : readerOf v = readerOf u := funext fun d => hsame.reader d
  constructor
  · rw [hreader]
    exact h.full
  · rw [hreader]
    exact h.relayed
  · rw [hreader]
    exact h.asked

theorem settled_of_zero {u : Tunnel} (h : Zero u) : Settled key s false u := by
  rcases h with ⟨hin, hout, hlastIn, hlastOut⟩
  have hreader : forall d, readerOf u d = ⟨0, 0⟩ := by
    intro d
    cases d
    · simp [readerOf, Metering.readerIn, hin, hlastIn]
    · simp [readerOf, Metering.readerOut, hout, hlastOut]
  constructor
  · intro d
    rw [hreader]
  · intro d
    rw [hreader]
    exact Int.natCast_nonneg _
  · intro hfalse
    cases hfalse

theorem settled_of_traced {rows : List Tunnel} (h : Traced rows t.db.tunnels)
    (hold : forall u, u ∈ rows -> billingKey u = key -> Settled key t false u) :
    forall u, u ∈ t.db.tunnels -> billingKey u = key -> Settled key t false u := by
  intro u hu hkey
  rcases h u hu with ⟨v, hv, hsame⟩ | hzero
  · exact (hold v hv (hsame.key.symm.trans hkey)).same hsame
  · exact settled_of_zero hzero

theorem PhaseFull.later {answered : Bool} {phase : Operations.Phase}
    (h : PhaseFull key s answered phase) (hlater : Later key s t) :
    PhaseFull key t answered phase := by
  cases phase with
  | tunnels answer =>
      constructor
      · exact fun e he hlabel d => (h.left e he hlabel d).later hlater
      · rw [Due, hlater.asked]
        exact h.right
  | count todo => exact fun row hrow hkey => (h row hrow hkey).later hlater
  | _ => trivial

/-- The names of an entry of the key are those of the proxy. -/
theorem key_of_label {u : Tunnel} {cn name : Text}
    (h : Counting.keyOf cn name = billingKey u) : (cn, name) = proxyKey u.agentId u.id := by
  have hdigits : forall n, Char.ofNat 0 ∉ Nat.toDigits 10 n := fun n hmem =>
    absurd (Nat.isDigit_of_mem_toDigits (by decide) (by decide) hmem) (by decide)
  have hname : Char.ofNat 0 ∉ (proxyKey u.agentId u.id).2 := by
    intro hmem
    rcases List.mem_cons.mp hmem with hhead | hrest
    · exact absurd hhead (by decide)
    · exact hdigits _ hrest
  have hcn : Char.ofNat 0 ∉ (proxyKey u.agentId u.id).1 := by
    intro hmem
    rcases List.mem_append.mp hmem with hprefix | hrest
    · exact absurd hprefix (by decide)
    · exact hdigits _ hrest
  rcases first_sep_cases h.symm hcn with ⟨hsame, hrest⟩ | ⟨z, -, hrest⟩
  · exact Prod.ext hsame.symm hrest.symm
  · rw [hrest] at hname
    exact absurd (List.mem_append_right z List.mem_cons_self) hname

end Reads

/-!
# Every step
-/

section Steps

variable {cfg : Server.Config} {rt : Runtime} {foreign : Kind -> Int -> Bool}
  {pl : Platform} {st : Settings} {node : Nat -> Nat} {key : Text} {s t : State}

/-- What was counted is stored. -/
theorem stored_of_due (h : FullInv key s) (hdue : Due key s) :
    exists object, s.engine.stats key = some object := by
  rcases hdue with ⟨d, hd⟩
  cases hstored : s.engine.stats key with
  | none =>
      have hzero := h.whole.missing hstored d
      have hasked := h.asked d
      omega
  | some object => exact ⟨object, rfl⟩

theorem FullInv.range {since : Nat} {seen : List Text} {entries : List StatsEntry}
    {current : Option Reading} (h : FullInv key s)
    (hpoller : s.poller = Poller.ranging since seen entries current) :
    RangeFull key s since seen entries current := by
  have hpoll := h.poll
  unfold PollFull at hpoll
  simp only [hpoller] at hpoll
  exact hpoll

theorem FullInv.phase {r : Nat} {answered : Bool} {phase : Operations.Phase}
    (h : FullInv key s) (hpoller : s.poller = Poller.storing r answered)
    (hphase : s.ops.jobs r = some phase) : PhaseFull key s answered phase := by
  have hpoll := h.poll
  unfold PollFull at hpoll
  simp only [hpoller] at hpoll
  exact hpoll phase hphase

theorem pollFull_of_range {since : Nat} {seen : List Text} {entries : List StatsEntry}
    {current : Option Reading} (hpoller : t.poller = Poller.ranging since seen entries current)
    (h : RangeFull key t since seen entries current) : PollFull key t := by
  unfold PollFull
  simp only [hpoller]
  exact h

theorem pollFull_of_phase {r : Nat} {answered : Bool}
    (hpoller : t.poller = Poller.storing r answered)
    (h : forall phase, t.ops.jobs r = some phase -> PhaseFull key t answered phase) :
    PollFull key t := by
  unfold PollFull
  simp only [hpoller]
  exact h

theorem pollFull_of_rest (hrange : forall since seen entries current,
      t.poller ≠ Poller.ranging since seen entries current)
    (hstoring : forall r answered, t.poller ≠ Poller.storing r answered) : PollFull key t := by
  unfold PollFull
  split
  · rename_i hpoller
    exact absurd hpoller (hrange _ _ _ _)
  · rename_i hpoller
    exact absurd hpoller (hstoring _ _)
  · trivial

theorem label_step {e e' : Counting.State} {a : Counting.Action} {object : Nat}
    (hstep : Counting.Step cfg rt foreign e a e') (hobject : object < e.next) :
    labelKey (e'.objects object) = labelKey (e.objects object) := by
  have hgrown : Grown ([] ++ made e) ([] ++ made e') := grown_step hstep
  rcases hgrown _ _ (made_get [] hobject) with ⟨n', hn', hcn, hname, -⟩
  rw [made_get [] (Nat.lt_of_lt_of_le hobject (le_next_step hstep))] at hn'
  cases hn'
  exact labelKey_congr hcn hname

theorem full_engine {a : Counting.Action} {engine : Counting.State} (h : FullInv key s)
    (hstays : Stays key s (Action.engine a))
    (hstep : Counting.Step cfg rt foreign s.engine a engine) :
    FullInv key { s with engine := engine, relayed := counted s a } := by
  have hlater : Later key s { s with engine := engine, relayed := counted s a } :=
    ⟨rfl, le_counted s a key, (RowsKept.refl _).traced⟩
  constructor
  · exact inv_engine h.inv hstep
  · exact whole_step h.inv.engine h.whole hstays hstep
  · exact fun d => Nat.le_trans (h.asked d) (le_counted s a key d)
  · exact fun u hu hkey => (h.rows u hu hkey).later hlater
  · obtain ⟨poller, hpoller⟩ : exists poller, s.poller = poller := ⟨_, rfl⟩
    cases poller with
    | ranging since seen entries current =>
        have hrange := h.range hpoller
        have hlabel : forall reading, reading ∈ current ->
            labelKey (engine.objects reading.object) =
              labelKey (s.engine.objects reading.object) := fun reading hreading =>
          label_step hstep ((h.inv.poll.ranging hpoller).right reading hreading).object
        refine pollFull_of_range hpoller ?_
        constructor
        · intro hdue object hstored
          rcases stored_of_due h hdue with ⟨first, hfirst⟩
          have hkept := stored_step hstays hstep hfirst
          rw [hkept] at hstored
          cases hstored
          exact hrange.due hdue _ hfirst
        · exact fun e he hkey d => (hrange.told e he hkey d).later hlater
        · intro hseen
          rcases hrange.visited hseen with hentry | ⟨reading, hreading, hkey⟩
          · exact Or.inl hentry
          · exact Or.inr ⟨reading, hreading, (hlabel reading hreading).trans hkey⟩
        · intro reading hreading hkey
          rcases hrange.taking reading hreading ((hlabel reading hreading).symm.trans hkey) with
            ⟨hstored, hread⟩
          exact ⟨stored_step hstays hstep hstored, fun v hv => (hread v hv).later hlater⟩
    | storing r answered =>
        refine pollFull_of_phase hpoller ?_
        exact fun phase hphase => (h.phase hpoller hphase).later hlater
    | _ => exact pollFull_of_rest (by simp [hpoller]) (by simp [hpoller])

theorem phaseFull_of_not_polls {answered : Bool} {phase : Operations.Phase}
    (h : ¬ Polls phase) : PhaseFull key s answered phase := by
  cases phase with
  | tunnels answer => exact absurd trivial h
  | count todo => exact absurd trivial h
  | _ => trivial

/-- The rows are of before and billed the same, or new, and the polls are of before. -/
theorem full_kept {ops : Operations.State} (h : FullInv key s) (hinv : Inv { s with ops := ops })
    (hrows : Traced s.db.tunnels ops.db.tunnels)
    (hjobs : forall r phase, ops.jobs r = some phase -> Polls phase ->
      s.ops.jobs r = some phase) : FullInv key { s with ops := ops } := by
  have hlater : Later key s { s with ops := ops } := ⟨rfl, fun _ => Nat.le_refl _, hrows⟩
  constructor
  · exact hinv
  · exact h.whole
  · exact h.asked
  · exact settled_of_traced hrows fun u hu hkey => (h.rows u hu hkey).later hlater
  · obtain ⟨poller, hpoller⟩ : exists poller, s.poller = poller := ⟨_, rfl⟩
    cases poller with
    | ranging since seen entries current =>
        have hrange := h.range hpoller
        refine pollFull_of_range hpoller ?_
        constructor
        · exact hrange.due
        · exact fun e he hkey d => (hrange.told e he hkey d).later hlater
        · exact hrange.visited
        · intro reading hreading hkey
          rcases hrange.taking reading hreading hkey with ⟨hstored, hread⟩
          exact ⟨hstored, fun v hv => (hread v hv).later hlater⟩
    | storing r answered =>
        refine pollFull_of_phase hpoller ?_
        intro phase hphase
        by_cases hpolls : Polls phase
        · exact (h.phase hpoller (hjobs r phase hphase hpolls)).later hlater
        · exact phaseFull_of_not_polls hpolls
    | _ => exact pollFull_of_rest (by simp [hpoller]) (by simp [hpoller])

/-- A row of the key is counted. -/
theorem settled_sampled {u : Tunnel} {answer : Option (List StatsEntry)} {answered : Bool}
    (h : FullInv key s) (hphase : PhaseFull key s answered (Operations.Phase.tunnels answer))
    (hu : u ∈ s.db.tunnels) (hkey : billingKey u = key) :
    Settled key s answered (u.counted (sampleOf answer)) := by
  have hrow := h.rows u hu hkey
  cases hsample : sampleOf answer u.agentId u.id with
  | none =>
      rw [Metering.counted_missing hsample]
      refine ⟨hrow.full, hrow.relayed, fun hanswered d => ?_⟩
      -- nothing had been counted, or the answer would tell
      have hzero : s.asked key d = 0 := by
        by_contra hpos
        rcases hphase.right hanswered ⟨d, Nat.pos_of_ne_zero hpos⟩ with ⟨e, he, hlabel⟩
        have hentry : e.key = proxyKey u.agentId u.id := key_of_label (hlabel.trans hkey.symm)
        unfold sampleOf fetchProxyTraffic at hsample
        have hnone := List.find?_eq_none.mp (Option.map_eq_none_iff.mp hsample) (e.key, e.bytes)
          (List.mem_reverse.mpr (List.mem_map_of_mem he))
        simp [hentry] at hnone
      rcases h.inv.rows u hu with ⟨marks, hmarked⟩
      rw [hzero]
      exact (hmarked.covered d).last_nonneg
  | some sample =>
      have hfetched := hsample
      unfold sampleOf fetchProxyTraffic at hfetched
      rcases Option.map_eq_some_iff.mp hfetched with ⟨⟨names, bytes⟩, hfound, rfl⟩
      have hnames : names = proxyKey u.agentId u.id := by simpa using List.find?_some hfound
      have hmem := List.mem_reverse.mp (List.mem_of_find?_eq_some hfound)
      rcases List.mem_map.mp hmem with ⟨e, he, hentry⟩
      cases hentry
      have hlabel : labelOf e = key := by
        rw [← hkey]
        unfold labelOf billingKey
        rw [hnames]
      have hread := hphase.left e he hlabel
      have hreader : forall d, readerOf (u.counted (sampleOf answer)) d =
          ⟨advance (readerOf u d).total (readerOf u d).last (toldOf e d), toldOf e d⟩ := by
        intro d
        unfold Tunnel.counted
        rw [hsample]
        cases d <;> rfl
      constructor
      · intro d
        have hlast := (hread d).rows u hu hkey
        have hfull := hrow.full d
        rw [hreader]
        show advance _ _ _ = toldOf e d
        unfold advance
        rw [if_pos hlast]
        omega
      · intro d
        rw [hreader]
        exact (hread d).relayed
      · intro _ d
        rw [hreader]
        exact (hread d).asked

theorem full_loaded {ops : Operations.State} {r : Nat} {answer : Option (List StatsEntry)}
    (h : FullInv key s) (hinv : Inv { s with ops := ops })
    (hjob : s.ops.jobs r = some (Operations.Phase.tunnels answer))
    (hjobs : ops.jobs = Function.update s.ops.jobs r (some (Operations.Phase.count
      (s.db.tunnels.map fun u => (u, u.counted (sampleOf answer))))))
    (hrows : ops.db.tunnels = s.db.tunnels) : FullInv key { s with ops := ops } := by
  rcases h.inv.jobs r _ hjob trivial with ⟨answered, hpoller⟩
  have hlater : Later key s { s with ops := ops } := by
    refine ⟨rfl, fun _ => Nat.le_refl _, ?_⟩
    show Traced s.db.tunnels ops.db.tunnels
    rw [hrows]
    exact (RowsKept.refl _).traced
  constructor
  · exact hinv
  · exact h.whole
  · exact h.asked
  · exact settled_of_traced hlater.rows fun u hu hkey => (h.rows u hu hkey).later hlater
  · refine pollFull_of_phase hpoller ?_
    intro phase hphase
    rw [hjobs, Function.update_self] at hphase
    cases hphase
    intro row hrow hkey
    rcases List.mem_map.mp hrow with ⟨u, hu, rfl⟩
    exact (settled_sampled h (h.phase hpoller hjob) hu hkey).later hlater

/-- The row that a poll has counted says what the row of its number is billed. -/
theorem settled_recounted {r : Nat} {answered : Bool} {todo : List (Tunnel × Tunnel)}
    {u : Tunnel} (h : FullInv key s) (hpoller : s.poller = Poller.storing r answered)
    (hjob : s.ops.jobs r = some (Operations.Phase.count todo)) (hu : u ∈ s.db.tunnels)
    (hkey : billingKey u = key) (hfound : exists row, row ∈ todo ∧ row.1.id = u.id) :
    Settled key s answered (recount todo u) := by
  have hcounted : forall row, row ∈ todo -> Counted s.counters s.db.tunnels row := by
    have hpoll := h.inv.poll
    unfold PollInv at hpoll
    simp only [hpoller] at hpoll
    exact hpoll _ hjob
  unfold recount
  cases hfirst : todo.find? fun row => row.1.id = u.id with
  | none =>
      rcases hfound with ⟨row, hrow, hid⟩
      have hnone := List.find?_eq_none.mp hfirst row hrow
      simp [hid] at hnone
  | some row =>
      have hrow := List.mem_of_find?_eq_some hfirst
      have hid : row.1.id = u.id := by simpa using List.find?_some hfirst
      rcases hcounted row hrow with ⟨hsecond, hagent, hrows⟩
      have hsame := (hrows u hu hid.symm).left
      have hsettled := h.phase hpoller hjob row hrow (hsame.key.symm.trans hkey)
      exact hsettled.same (sameCounts_recounted hsame hsecond hagent)

theorem recount_agentId (todo : List (Tunnel × Tunnel)) (t : Tunnel) :
    (recount todo t).agentId = t.agentId := by
  unfold recount
  split <;> rfl

theorem full_counted {ops : Operations.State} {r : Nat} {todo : List (Tunnel × Tunnel)}
    (h : FullInv key s) (hinv : Inv { s with ops := ops })
    (hjob : s.ops.jobs r = some (Operations.Phase.count todo))
    (hjobs : ops.jobs = Function.update s.ops.jobs r (some Operations.Phase.teams))
    (hrows : ops.db.tunnels = s.db.tunnels.map (recount todo)) :
    FullInv key { s with ops := ops } := by
  rcases h.inv.jobs r _ hjob trivial with ⟨answered, hpoller⟩
  constructor
  · exact hinv
  · exact h.whole
  · exact h.asked
  · intro u hu hkey
    rw [State.db, hrows] at hu
    rcases List.mem_map.mp hu with ⟨v, hv, rfl⟩
    by_cases hfound : exists row, row ∈ todo ∧ row.1.id = v.id
    · have hvKey : billingKey v = key := by
        have hsame : billingKey (recount todo v) = billingKey v := by
          unfold billingKey
          rw [recount_id, recount_agentId]
        exact hsame.symm.trans hkey
      have hsettled := settled_recounted h hpoller hjob hv hvKey hfound
      exact ⟨hsettled.full, hsettled.relayed, fun hfalse => by cases hfalse⟩
    · have hsame : recount todo v = v := by
        have hnone : (todo.find? fun row => row.1.id = v.id) = none := by
          rw [List.find?_eq_none]
          intro row hrow
          simpa using fun hid => hfound ⟨row, hrow, hid⟩
        unfold recount
        rw [hnone]
      rw [hsame] at hkey ⊢
      have hsettled := h.rows v hv hkey
      exact ⟨hsettled.full, hsettled.relayed, hsettled.asked⟩
  · refine pollFull_of_phase hpoller ?_
    intro phase hphase
    rw [hjobs, Function.update_self] at hphase
    cases hphase
    trivial

theorem full_operate {a : Operations.Action} {ops : Operations.State} (h : FullInv key s)
    (hnew : NewNumber s (Action.operate a)) (hmoved : Moved s.ops a ops) :
    FullInv key { s with ops := ops } := by
  have hinv := inv_operate h.inv hnew hmoved
  cases hmoved with
  | request hjobs hrows =>
      apply full_kept h hinv hrows.traced
      intro r phase hphase _
      rwa [hjobs] at hphase
  | added hjobs hrows hfresh hzero =>
      apply full_kept h hinv
      · intro u hu
        rw [hrows] at hu
        rcases List.mem_append.mp hu with hold | hlast
        · exact Or.inl ⟨u, hold, SameCounts.refl u⟩
        · cases List.mem_singleton.mp hlast
          exact Or.inr hzero
      · intro r phase hphase _
        rwa [hjobs] at hphase
  | phase hjobs hpolls hrows =>
      apply full_kept h hinv hrows.traced
      intro r phase hphase hpoll
      rw [hjobs] at hphase
      rcases lookup_started hphase with ⟨-, rfl⟩ | ⟨-, hold⟩
      · exact absurd hpoll hpolls
      · exact hold
  | loaded hjob hjobs hrows => exact full_loaded h hinv hjob hjobs hrows
  | counted hjob hjobs hrows => exact full_counted h hinv hjob hjobs hrows

theorem full_ask (h : FullInv key s) (hready : s.Ready) :
    FullInv key
      { s with poller := Poller.ranging s.engine.next [] [] none, asked := s.relayed } where
  inv := inv_ask h.inv hready
  whole := h.whole
  asked _ := Nat.le_refl _
  rows u hu hkey := by
    have hsettled := h.rows u hu hkey
    exact ⟨hsettled.full, hsettled.relayed, fun hfalse => by cases hfalse⟩
  poll := by
    constructor
    · exact fun _ object hstored => (h.inv.engine.stored key object hstored).left
    · intro e he
      cases he
    · intro hseen
      cases hseen
    · intro reading hreading
      cases hreading

theorem full_visit {since : Nat} {seen : List Text} {entries : List StatsEntry} {name : Text}
    {object : Nat} (h : FullInv key s)
    (hpoller : s.poller = Poller.ranging since seen entries none)
    (hstored : s.engine.stats name = some object) :
    FullInv key { s with
      poller := Poller.ranging since (name :: seen) entries (some ⟨object, none⟩) } := by
  have hrange := h.range hpoller
  have hlabel := (h.inv.engine.stored name object hstored).right.left
  have hlater : Later key s { s with
      poller := Poller.ranging since (name :: seen) entries (some ⟨object, none⟩) } :=
    Later.same rfl rfl rfl
  constructor
  · exact inv_visit h.inv hpoller hstored
  · exact h.whole
  · exact h.asked
  · exact fun u hu hkey => (h.rows u hu hkey).later hlater
  · refine pollFull_of_range rfl ?_
    constructor
    · exact hrange.due
    · exact fun e he hkey d => (hrange.told e he hkey d).later hlater
    · intro hseen
      rcases List.mem_cons.mp hseen with rfl | hbefore
      · exact Or.inr ⟨_, rfl, hlabel⟩
      · rcases hrange.visited hbefore with hentry | ⟨reading, hreading, -⟩
        · exact Or.inl hentry
        · cases hreading
    · intro reading hreading hkey
      cases hreading
      cases hlabel.symm.trans hkey
      exact ⟨hstored, fun v hv => by cases hv⟩

/-- What is loaded now was counted after the engine was asked, and the rows were billed. -/
theorem recent_load (h : FullInv key s) {object : Nat}
    (hstored : s.engine.stats key = some object) (d : Direction) :
    Recent key s d (count (s.engine.objects object) d : Nat) := by
  rw [h.whole.stored object hstored d]
  constructor
  · exact Int.ofNat_le.mpr (h.asked d)
  · exact Int.le_refl _
  · exact fun t ht hkey => (h.rows t ht hkey).relayed d

theorem full_load {since : Nat} {seen : List Text} {entries : List StatsEntry}
    {reading : Reading} (h : FullInv key s)
    (hpoller : s.poller = Poller.ranging since seen entries (some reading)) :
    FullInv key { s with poller := Poller.load s.engine since seen entries reading } := by
  have hrange := h.range hpoller
  have htaking := hrange.taking reading rfl
  have hlater : Later key s
      { s with poller := Poller.load s.engine since seen entries reading } :=
    Later.same rfl rfl rfl
  constructor
  · exact inv_load h.inv hpoller
  · exact h.whole
  · exact h.asked
  · exact fun u hu hkey => (h.rows u hu hkey).later hlater
  · cases hin : reading.bytesIn with
    | none =>
        have hload : Poller.load s.engine since seen entries reading =
            Poller.ranging since seen entries (some ⟨reading.object,
              some (s.engine.objects reading.object).inBytes⟩) := by
          simp only [Poller.load, hin]
        refine pollFull_of_range hload ?_
        constructor
        · exact hrange.due
        · exact fun e he hkey d => (hrange.told e he hkey d).later hlater
        · intro hseen
          rcases hrange.visited hseen with hentry | ⟨current, hcurrent, hkey⟩
          · exact Or.inl hentry
          · cases hcurrent
            exact Or.inr ⟨_, rfl, hkey⟩
        · intro current hcurrent hkey
          cases hcurrent
          have hstored := (htaking hkey).left
          refine ⟨hstored, fun v hv => ?_⟩
          cases hv
          exact (recent_load h hstored Direction.inward).later hlater
    | some bytesIn =>
        have hload : Poller.load s.engine since seen entries reading =
            Poller.ranging since seen (entries ++
              [⟨some (s.engine.objects reading.object).cn,
                some (s.engine.objects reading.object).name, some (bytesIn : Int),
                some ((s.engine.objects reading.object).outBytes : Int)⟩]) none := by
          simp only [Poller.load, hin]
        refine pollFull_of_range hload ?_
        constructor
        · exact hrange.due
        · intro e he hkey d
          rcases List.mem_append.mp he with hold | hlast
          · exact (hrange.told e hold hkey d).later hlater
          · cases List.mem_singleton.mp hlast
            rcases htaking hkey with ⟨hstored, hread⟩
            cases d with
            | inward => exact (hread bytesIn hin).later hlater
            | outward => exact (recent_load h hstored Direction.outward).later hlater
        · intro hseen
          rcases hrange.visited hseen with ⟨e, he, hkey⟩ | ⟨current, hcurrent, hkey⟩
          · exact Or.inl ⟨e, List.mem_append_left _ he, hkey⟩
          · cases hcurrent
            exact Or.inl ⟨_, List.mem_append_right _ (List.mem_singleton_self _), hkey⟩
        · intro current hcurrent
          cases hcurrent

theorem full_store {r : Nat} {answer : Option (List StatsEntry)} (h : FullInv key s)
    (hinv : Inv t) (hphase : PhaseFull key s answer.isSome (Operations.Phase.tunnels answer))
    (hstore : s.store pl st node r answer = some t) : FullInv key t := by
  unfold State.store at hstore
  simp only [Operations.step] at hstore
  split at hstore
  · cases hstore
  · rename_i ops hops
    rcases Option.ite_none_right_eq_some.mp hops with ⟨-, hset⟩
    cases hset
    cases hstore
    have hlater : Later key s { s with
        ops := s.ops.setJob r (Operations.Phase.tunnels answer)
        poller := Poller.storing r answer.isSome } := Later.same rfl rfl rfl
    constructor
    · exact hinv
    · exact h.whole
    · exact h.asked
    · exact fun u hu hkey => (h.rows u hu hkey).later hlater
    · refine pollFull_of_phase rfl ?_
      intro phase hnew
      cases (Function.update_self ..).symm.trans hnew
      exact hphase.later hlater

/-- A complete answer has an entry for what was due. -/
theorem phaseFull_of_complete {since : Nat} {seen : List Text} {entries : List StatsEntry}
    (h : FullInv key s) (hpoller : s.poller = Poller.ranging since seen entries none)
    (hcomplete : Complete s.engine since seen) :
    PhaseFull key s true (Operations.Phase.tunnels (some entries)) := by
  have hrange := h.range hpoller
  constructor
  · exact hrange.told
  · intro _ hdue
    rcases stored_of_due h hdue with ⟨object, hstored⟩
    have hlabel := (h.inv.engine.stored key object hstored).right.left
    have hseen := hcomplete object (hrange.due hdue object hstored)
    rw [hlabel] at hseen
    rcases hrange.visited (hseen hstored) with hentry | ⟨reading, hreading, -⟩
    · exact hentry
    · cases hreading

theorem phaseFull_none : PhaseFull key s false (Operations.Phase.tunnels none) := by
  constructor
  · intro e he
    cases he
  · intro hfalse
    cases hfalse

theorem full_step {a : Action} (h : FullInv key s) (hguard : NewNumber s a ∧ Stays key s a)
    (hstep : step cfg rt foreign pl st node s a = some t) : FullInv key t := by
  have hinv := inv_step h.inv hguard.left hstep
  cases a with
  | engine a =>
      simp only [step] at hstep
      split at hstep
      · cases hstep
      · rename_i engine hengine
        cases hstep
        exact full_engine h hguard.right (Counting.step_cases hengine)
  | restart => exact hguard.right.elim
  | operate a =>
      simp only [step, Option.ite_none_left_eq_some] at hstep
      rcases hstep with ⟨hpolls, hstep⟩
      split at hstep
      · cases hstep
      · rename_i ops hops
        cases hstep
        exact full_operate h hguard.left (moved_step hpolls hops)
  | ask =>
      simp only [step, Option.ite_none_right_eq_some] at hstep
      rcases hstep with ⟨hready, hstep⟩
      cases hstep
      exact full_ask h hready
  | visit name =>
      simp only [step] at hstep
      split at hstep
      · rename_i since seen entries object hpoller hstored
        simp only [Option.ite_none_left_eq_some] at hstep
        rcases hstep with ⟨-, hstep⟩
        cases hstep
        exact full_visit h hpoller hstored
      · cases hstep
  | load =>
      simp only [step] at hstep
      split at hstep
      · rename_i since seen entries reading hpoller
        cases hstep
        exact full_load h hpoller
      · cases hstep
  | answer r =>
      simp only [step] at hstep
      split at hstep
      · rename_i since seen entries hpoller
        rcases Option.ite_none_right_eq_some.mp hstep with ⟨hcomplete, hstore⟩
        exact full_store h hinv (phaseFull_of_complete h hpoller hcomplete) hstore
      · cases hstep
  | lose r =>
      simp only [step] at hstep
      split at hstep
      · exact full_store h hinv phaseFull_none hstep
      · exact full_store h hinv phaseFull_none hstep
      · cases hstep
  | abandon =>
      simp only [step] at hstep
      split at hstep
      · cases hstep
        constructor
        · exact hinv
        · exact h.whole
        · exact h.asked
        · exact fun u hu hkey => (h.rows u hu hkey).later (Later.same rfl rfl rfl)
        · trivial
      · cases hstep

theorem full_of_unbilled (h : Unbilled s) : FullInv key s where
  inv := inv_of_unbilled h
  whole := by
    rw [h.engine]
    exact whole_initial (h.relayed key)
  asked d := by
    rw [h.asked]
    exact Nat.zero_le _
  rows u hu _ := settled_of_zero (h.rows u hu)
  poll := by
    refine pollFull_of_rest ?_ ?_
    · simp [h.poller]
    · simp [h.poller]

end Steps

/-!
# Every run
-/

section Runs

variable {cfg : Server.Config} {rt : Runtime} {foreign : Kind -> Int -> Bool}
  {pl : Platform} {st : Settings} {node : Nat -> Nat} {s t u : State}

/-- The tunnel was billed all that had been counted when the engine was asked, and nothing
that has not been counted. -/
structure InFull (s : State) (row : Tunnel) : Prop where
  inward : s.asked (billingKey row) Direction.inward ≤ row.bytesIn ∧
    row.bytesIn ≤ s.relayed (billingKey row) Direction.inward
  outward : s.asked (billingKey row) Direction.outward ≤ row.bytesOut ∧
    row.bytesOut ≤ s.relayed (billingKey row) Direction.outward

/--
Where the engine does not restart and the counters of a tunnel's proxy are not deleted, a
poll that was answered bills the tunnel for all that had been counted when it asked, if it
has loaded the tunnel and its commit succeeds.
-/
theorem billed_in_full {key : Text} {actions : List Action} {r : Nat}
    {todo : List (Tunnel × Tunnel)} (hs : Unbilled s)
    (hexec : (machine cfg rt foreign pl st node).exec s actions = some t)
    (hobeys : (machine cfg rt foreign pl st node).Obeys
      (fun s a => NewNumber s a ∧ Stays key s a) s actions)
    (hpoller : t.poller = Poller.storing r true)
    (hjob : t.ops.jobs r = some (Operations.Phase.count todo))
    (hcommit : (machine cfg rt foreign pl st node).step t
      (Action.operate (Operations.Action.commit r)) = some u)
    (hcommitted : u.ops.jobs r = some Operations.Phase.teams) :
    forall row, row ∈ u.db.tunnels -> billingKey row = key ->
      (exists pair, pair ∈ todo ∧ pair.1.id = row.id) -> InFull u row := by
  have hfull : FullInv key t := (Machine.always_of_obeys (I := FullInv key)
    (fun _ _ _ h hguard hstep => full_step h hguard hstep)
    (full_of_unbilled hs) hobeys).last hexec
  intro row hrow hkey hfound
  change step cfg rt foreign pl st node t (Action.operate (Operations.Action.commit r)) =
    some u at hcommit
  simp only [step, Option.ite_none_left_eq_some] at hcommit
  rcases hcommit with ⟨hpolls, hcommit⟩
  split at hcommit
  · cases hcommit
  · rename_i ops hops
    cases hcommit
    simp only [Operations.step, hjob, Operations.Phase.writes, if_true] at hops
    split at hops
    · cases hops
      cases (Function.update_self ..).symm.trans hcommitted
    · rename_i db next hdone
      cases hops
      simp only [Operations.Phase.commit, bind_ok, pure_ok, Prod.mk.injEq] at hdone
      rcases hdone with ⟨_, -, rfl, rfl⟩
      rcases List.mem_map.mp hrow with ⟨old, hold, rfl⟩
      have hsame : billingKey (recount todo old) = billingKey old := by
        unfold billingKey
        rw [recount_id, recount_agentId]
      have hsettled := settled_recounted hfull hpoller hjob hold (hsame.symm.trans hkey)
        (by rwa [← recount_id todo old])
      have hbounds : forall d,
          (t.asked (billingKey (recount todo old)) d : Int) ≤ (readerOf (recount todo old) d).total ∧
            (readerOf (recount todo old) d).total ≤ t.relayed (billingKey (recount todo old)) d := by
        intro d
        rw [hsame, hsame.symm.trans hkey, hsettled.full d]
        exact ⟨hsettled.asked rfl d, hsettled.relayed d⟩
      exact ⟨hbounds Direction.inward, hbounds Direction.outward⟩

/-- The poll has loaded the rows, and is about to bill them. -/
def billing : List Action := relaying 4096 512 ++ (polling 0).take 6

/-- What the poll has counted of the tunnel. -/
def billedRow : Tunnel :=
  { Operations.sshTunnel with
    bytesIn := 4096
    bytesOut := 512
    lastTodayIn := 4096
    lastTodayOut := 512 }

theorem billed_in_full_polling :
    exists t u, deployment.exec unused billing = some t ∧
      deployment.step t (Action.operate (Operations.Action.commit 0)) = some u ∧
      u.db.tunnels = [billedRow] ∧ forall row, row ∈ u.db.tunnels -> InFull u row := by
  have hends : ((deployment.exec unused billing).bind fun t =>
      deployment.step t (Action.operate (Operations.Action.commit 0))).map
        (fun u => (u.db.tunnels, u.ops.jobs 0)) =
      some ([billedRow], some Operations.Phase.teams) := by decide +kernel
  rcases Option.map_eq_some_iff.mp hends with ⟨u, hboth, hfinal⟩
  rcases Option.bind_eq_some_iff.mp hboth with ⟨t, hexec, hcommit⟩
  rw [Prod.mk.injEq] at hfinal
  have hpoller : (deployment.exec unused billing).map State.poller =
      some (Poller.storing 0 true) := by decide +kernel
  have hjob : (deployment.exec unused billing).map (fun t => t.ops.jobs 0) =
      some (some (Operations.Phase.count [(Operations.sshTunnel, billedRow)])) := by
    decide +kernel
  have hobeys : deployment.Obeys
      (fun s a => NewNumber s a ∧ Stays (billingKey Operations.sshTunnel) s a) unused billing := by
    decide +kernel
  rw [hexec] at hpoller hjob
  refine ⟨t, u, hexec, hcommit, hfinal.left, fun row hrow => ?_⟩
  have hbilled := hrow
  rw [hfinal.left] at hbilled
  cases List.mem_singleton.mp hbilled
  exact billed_in_full unbilled_unused hexec hobeys (Option.some.inj hpoller)
    (Option.some.inj hjob) hcommit hfinal.right _ hrow rfl ⟨_, List.mem_singleton_self _, rfl⟩

end Runs

end Billing

end Joint
end RcTunnel
