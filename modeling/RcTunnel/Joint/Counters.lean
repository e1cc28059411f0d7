import RcTunnel.Joint.Polling

/-!
# Counters that can be billed

What the engines have counted under a key is what all the counters that were made for the
key count, one after another: those that were deleted, and those of the engines before, may
still count or have been read.  A row of a tunnel is marked with the last counters that
were read for it.
-/

namespace RcTunnel

open Foundation

namespace Joint

open Engine
open Panel.Api
open Panel (Platform)

namespace Billing

open Counting (Counters Direction)

/-!
# What a row has been billed for
-/

def count (n : Counters) : Direction -> Nat
  | Direction.inward => n.inBytes
  | Direction.outward => n.outBytes

/-- A value for each direction. -/
def both (bytesIn bytesOut : Nat) : Direction -> Nat
  | Direction.inward => bytesIn
  | Direction.outward => bytesOut

/-- The counters of all the engines. -/
def State.counters (s : State) : List Counters := s.earlier ++ made s.engine

/-- What the counters with the number have counted under the key. -/
def worth (counters : List Counters) (key : Text) (d : Direction) (g : Nat) : Nat :=
  match counters[g]? with
  | none => 0
  | some n => if labelKey n = key then count n d else 0

/-- The key of the counters of a tunnel's proxy. -/
def billingKey (t : Tunnel) : Text :=
  Counting.keyOf (proxyKey t.agentId t.id).1 (proxyKey t.agentId t.id).2

def readerOf (t : Tunnel) : Direction -> Reader
  | Direction.inward => Metering.readerIn t
  | Direction.outward => Metering.readerOut t

/-- The counters that were read last, and what was read of them. -/
structure Marks where
  number : Nat
  value : Direction -> Nat

def Marks.toward (marks : Marks) (d : Direction) : Mark := ⟨marks.number, marks.value d⟩

/-- What the tunnel was billed is covered up to the marks. -/
structure Marked (counters : List Counters) (t : Tunnel) (marks : Marks) : Prop where
  covered : forall d, Covered (worth counters (billingKey t) d) (readerOf t d) (marks.toward d)
  own : marks.number = 0 ∨ exists n, counters[marks.number]? = some n ∧
    labelKey n = billingKey t

/-- The counters keep their names, and count up. -/
def Grown (counters counters' : List Counters) : Prop :=
  forall (g : Nat) n, counters[g]? = some n -> exists n', counters'[g]? = some n' ∧
    n'.cn = n.cn ∧ n'.name = n.name ∧ forall d, count n d ≤ count n' d

section Rows

variable {counters counters' : List Counters} {t u : Tunnel} {marks : Marks}

theorem labelKey_congr {n n' : Counters} (hcn : n'.cn = n.cn) (hname : n'.name = n.name) :
    labelKey n' = labelKey n := by
  unfold labelKey
  rw [hcn, hname]

theorem worth_of {n : Counters} {g : Nat} (d : Direction) (h : counters[g]? = some n) :
    worth counters (labelKey n) d g = count n d := by
  simp [worth, h]

theorem worth_beyond {key : Text} {d : Direction} {g : Nat} (h : counters.length ≤ g) :
    worth counters key d g = 0 := by
  simp [worth, List.getElem?_eq_none h]

theorem Grown.worth_le (h : Grown counters counters') (key : Text) (d : Direction) (g : Nat) :
    worth counters key d g ≤ worth counters' key d g := by
  cases hold : counters[g]? with
  | none => simp [worth, hold]
  | some n =>
      rcases h g n hold with ⟨n', hnew, hcn, hname, hcount⟩
      simp only [worth, hold, hnew, labelKey_congr hcn hname]
      split
      · exact hcount d
      · exact Nat.le_refl 0

theorem Grown.refl (counters : List Counters) : Grown counters counters :=
  fun _ n h => ⟨n, h, rfl, rfl, fun _ => Nat.le_refl _⟩

theorem Marked.grow (h : Marked counters t marks) (hgrown : Grown counters counters') :
    Marked counters' t marks where
  covered d := (h.covered d).grow (hgrown.worth_le _ d)
  own := by
    rcases h.own with hzero | ⟨n, hn, hkey⟩
    · exact Or.inl hzero
    · rcases hgrown _ n hn with ⟨n', hn', hcn, hname, -⟩
      exact Or.inr ⟨n', hn', (labelKey_congr hcn hname).trans hkey⟩

/-- A tunnel that has not been billed. -/
def Zero (t : Tunnel) : Prop :=
  t.bytesIn = 0 ∧ t.bytesOut = 0 ∧ t.lastTodayIn = 0 ∧ t.lastTodayOut = 0

theorem Marked.start (counters : List Counters) (h : Zero t) :
    Marked counters t ⟨0, fun _ => 0⟩ where
  covered d := by
    rcases h with ⟨hin, hout, hlastIn, hlastOut⟩
    have hreader : readerOf t d = ⟨0, 0⟩ := by
      cases d
      · simp [readerOf, Metering.readerIn, hin, hlastIn]
      · simp [readerOf, Metering.readerOut, hout, hlastOut]
    rw [hreader]
    exact Covered.start _
  own := Or.inl rfl

/-- The two rows are of one tunnel, and have been billed the same. -/
structure SameCounts (t u : Tunnel) : Prop where
  id : u.id = t.id
  agentId : u.agentId = t.agentId
  bytesIn : u.bytesIn = t.bytesIn
  bytesOut : u.bytesOut = t.bytesOut
  lastTodayIn : u.lastTodayIn = t.lastTodayIn
  lastTodayOut : u.lastTodayOut = t.lastTodayOut

theorem SameCounts.refl (t : Tunnel) : SameCounts t t := ⟨rfl, rfl, rfl, rfl, rfl, rfl⟩

theorem SameCounts.trans {v : Tunnel} (h : SameCounts t u) (h' : SameCounts u v) :
    SameCounts t v where
  id := h'.id.trans h.id
  agentId := h'.agentId.trans h.agentId
  bytesIn := h'.bytesIn.trans h.bytesIn
  bytesOut := h'.bytesOut.trans h.bytesOut
  lastTodayIn := h'.lastTodayIn.trans h.lastTodayIn
  lastTodayOut := h'.lastTodayOut.trans h.lastTodayOut

theorem SameCounts.key (h : SameCounts t u) : billingKey u = billingKey t := by
  unfold billingKey
  rw [h.id, h.agentId]

theorem SameCounts.reader (h : SameCounts t u) (d : Direction) : readerOf u d = readerOf t d := by
  cases d
  · simp [readerOf, Metering.readerIn, h.bytesIn, h.lastTodayIn]
  · simp [readerOf, Metering.readerOut, h.bytesOut, h.lastTodayOut]

theorem Marked.same (h : Marked counters t marks) (hsame : SameCounts t u) :
    Marked counters u marks where
  covered d := by
    rw [hsame.key, hsame.reader]
    exact h.covered d
  own := by
    rw [hsame.key]
    exact h.own

/-- A row is billed a reading that its marks precede. -/
theorem Marked.counted {n : Counters} {reading : Marks} {traffic : Traffic}
    (h : Marked counters t marks) (hn : counters[reading.number]? = some n)
    (hkey : labelKey n = billingKey t) (hle : forall d, reading.value d ≤ count n d)
    (hfollows : forall d, (marks.toward d).Precedes (reading.toward d))
    (htraffic : traffic t.agentId t.id =
      some ((reading.value Direction.inward : Int), (reading.value Direction.outward : Int))) :
    Marked counters (t.counted traffic) reading where
  covered d := by
    have hread : reading.value d ≤ worth counters (billingKey t) d reading.number := by
      rw [← hkey, worth_of d hn]
      exact hle d
    have hcovered := (h.covered d).advance (hfollows d) hread
    unfold Tunnel.counted
    rw [htraffic]
    cases d
    · exact hcovered
    · exact hcovered
  own := by
    have hsame : billingKey (t.counted traffic) = billingKey t := by
      simp [billingKey]
    exact Or.inr ⟨n, hn, hkey.trans hsame.symm⟩

end Rows

/-!
# The counters of the engine
-/

/-- What is stored under a key was made for it, and last; and a relay counts in counters of
its own names. -/
structure EngineInv (e : Counting.State) : Prop where
  stored : forall key object, e.stats key = some object -> object < e.next ∧
    labelKey (e.objects object) = key ∧ forall other, other < e.next ->
      labelKey (e.objects other) = key -> other ≤ object
  relays : forall r rel object, e.relays r = some rel ->
    rel.phase = Counting.Phase.counting object ->
      object < e.next ∧ labelKey (e.objects object) = rel.key

section EngineSteps

variable {cfg : Server.Config} {rt : Runtime} {foreign : Kind -> Int -> Bool}
  {e e' : Counting.State} {earlier : List Counters}

theorem engineInv_initial : EngineInv Counting.initial where
  stored key object h := by cases h
  relays r rel object h := by cases h

@[simp] theorem labelKey_add (n : Counters) (bytes : Nat) (d : Direction) :
    labelKey (n.add bytes d) = labelKey n := by
  cases d <;> rfl

theorem count_add (n : Counters) (bytes : Nat) (d d' : Direction) :
    count (n.add bytes d) d' = if d' = d then count n d' + bytes else count n d' := by
  cases d <;> cases d' <;> rfl

/-- A relay that is set, over counters that keep their names. -/
theorem EngineInv.setRelay (h : EngineInv e) {r : Nat} {rel : Counting.Relay}
    (hrelays : e'.relays = Function.update e.relays r (some rel)) (hstats : e'.stats = e.stats)
    (hnext : e'.next = e.next)
    (hobjects : forall object, labelKey (e'.objects object) = labelKey (e.objects object))
    (hrel : forall object, rel.phase = Counting.Phase.counting object ->
      object < e.next ∧ labelKey (e.objects object) = rel.key) : EngineInv e' := by
  constructor
  · intro key object hstored
    simp only [hobjects, hnext]
    rw [hstats] at hstored
    exact h.stored key object hstored
  · intro r' rel' object hrel' hphase
    rw [hobjects, hnext]
    rw [hrelays] at hrel'
    rcases lookup_started hrel' with ⟨-, rfl⟩ | ⟨-, hold⟩
    · exact hrel object hphase
    · exact h.relays r' rel' object hold hphase

theorem EngineInv.delete (h : EngineInv e) (key : Text) : EngineInv (e.delete key) := by
  constructor
  · intro key' object hstored
    rcases lookup_ended hstored with ⟨-, hold⟩
    exact h.stored key' object hold
  · intro r rel object hrel hphase
    rcases Option.map_eq_some_iff.mp hrel with ⟨old, hold, rfl⟩
    exact h.relays r old object hold hphase

/-- Counters that are made are the last ones of their key. -/
theorem EngineInv.look (h : EngineInv e) {r : Nat} {rel : Counting.Relay} :
    EngineInv (e.look r rel) := by
  unfold Counting.State.look
  split
  · rename_i object hstored
    have hkept := h.stored rel.key object hstored
    refine h.setRelay rfl rfl rfl (fun _ => rfl) fun object' hphase => ?_
    cases hphase
    exact ⟨hkept.left, hkept.right.left⟩
  · have hself : Function.update e.objects e.next ⟨rel.cn, rel.name, 0, 0⟩ e.next =
        ⟨rel.cn, rel.name, 0, 0⟩ := Function.update_self ..
    have hother : forall object, object < e.next ->
        Function.update e.objects e.next ⟨rel.cn, rel.name, 0, 0⟩ object = e.objects object :=
      fun object hobject => Function.update_of_ne (Nat.ne_of_lt hobject) _ _
    constructor
    · intro key object hstored
      rcases lookup_started hstored with ⟨rfl, rfl⟩ | ⟨hkey, hold⟩
      · refine ⟨Nat.lt_succ_self _, congrArg labelKey hself, fun other hlt _ => ?_⟩
        exact Nat.le_of_lt_succ hlt
      · rcases h.stored key object hold with ⟨hlt, hlabel, hlast⟩
        refine ⟨Nat.lt_succ_of_lt hlt, ?_, fun other hother' hsame => ?_⟩
        · exact (congrArg labelKey (hother object hlt)).trans hlabel
        · rcases Nat.lt_succ_iff_lt_or_eq.mp hother' with hbefore | rfl
          · exact hlast other hbefore ((congrArg labelKey (hother other hbefore)).symm.trans hsame)
          · exact absurd (hsame.symm.trans (congrArg labelKey hself)) hkey
    · intro r' rel' object hrel hphase
      rcases lookup_started hrel with ⟨-, rfl⟩ | ⟨-, hold⟩
      · cases hphase
        exact ⟨Nat.lt_succ_self _, congrArg labelKey hself⟩
      · rcases h.relays r' rel' object hold hphase with ⟨hlt, hlabel⟩
        exact ⟨Nat.lt_succ_of_lt hlt, (congrArg labelKey (hother object hlt)).trans hlabel⟩

theorem engineInv_step {a : Counting.Action} (h : EngineInv e)
    (hstep : Counting.Step cfg rt foreign e a e') : EngineInv e' := by
  cases hstep with
  | server _ => exact ⟨h.stored, h.relays⟩
  | @deleted c r server key _ _ =>
      have hdeleted := h.delete key
      exact ⟨hdeleted.stored, hdeleted.relays⟩
  | spawned _ _ => exact h.setRelay rfl rfl rfl (fun _ => rfl) fun _ hphase => by cases hphase
  | pair _ _ _ _ => exact h.setRelay rfl rfl rfl (fun _ => rfl) fun _ hphase => by cases hphase
  | look _ _ => exact h.look
  | @add r direction bytes object rel hrel hphase =>
      refine h.setRelay rfl rfl rfl ?_ ?_
      · intro other
        show labelKey (Function.update e.objects object _ other) = _
        by_cases hsame : other = object
        · rw [hsame, Function.update_self, labelKey_add]
        · rw [Function.update_of_ne hsame]
      · exact fun object' hphase' => h.relays r rel object' hrel hphase'
  | finish _ _ => exact h.setRelay rfl rfl rfl (fun _ => rfl) fun _ hphase => by cases hphase

/-- The counters of the running engine. -/
theorem made_get (earlier : List Counters) {object : Nat} (h : object < e.next) :
    (earlier ++ made e)[earlier.length + object]? = some (e.objects object) := by
  rw [List.getElem?_append_right (Nat.le_add_right _ _), Nat.add_sub_cancel_left]
  simp [made, h]

theorem length_made (earlier : List Counters) :
    (earlier ++ made e).length = earlier.length + e.next := by
  simp [made]

/-- Counters are of an engine before, or of the running one. -/
theorem counters_cases {g : Nat} {n : Counters} (h : (earlier ++ made e)[g]? = some n) :
    g < earlier.length ∧ earlier[g]? = some n ∨
      exists object, g = earlier.length + object ∧ object < e.next ∧ n = e.objects object := by
  rcases Nat.lt_or_ge g earlier.length with hlt | hge
  · rw [List.getElem?_append_left hlt] at h
    exact Or.inl ⟨hlt, h⟩
  · rw [List.getElem?_append_right hge] at h
    rcases List.getElem?_eq_some_iff.mp h with ⟨hbound, hget⟩
    have hobject : g - earlier.length < e.next := by simpa [made] using hbound
    refine Or.inr ⟨g - earlier.length, by omega, hobject, ?_⟩
    rw [← hget]
    simp [made]

/-- What grows in the running engine. -/
theorem grown_made (hnext : e.next ≤ e'.next)
    (hobjects : forall object, object < e.next ->
      (e'.objects object).cn = (e.objects object).cn ∧
        (e'.objects object).name = (e.objects object).name ∧
          forall d, count (e.objects object) d ≤ count (e'.objects object) d) :
    Grown (earlier ++ made e) (earlier ++ made e') := by
  intro g n hn
  rcases counters_cases hn with ⟨hlt, hold⟩ | ⟨object, rfl, hobject, rfl⟩
  · exact ⟨n, by rwa [List.getElem?_append_left hlt], rfl, rfl, fun _ => Nat.le_refl _⟩
  · rcases hobjects object hobject with ⟨hcn, hname, hcount⟩
    exact ⟨_, made_get earlier (Nat.lt_of_lt_of_le hobject hnext), hcn, hname, hcount⟩

theorem look_objects {r : Nat} {rel : Counting.Relay} {object : Nat} (h : object < e.next) :
    (e.look r rel).objects object = e.objects object := by
  unfold Counting.State.look
  split
  · rfl
  · exact Function.update_of_ne (Nat.ne_of_lt h) _ _

theorem le_look_next (e : Counting.State) (r : Nat) (rel : Counting.Relay) :
    e.next ≤ (e.look r rel).next := by
  unfold Counting.State.look
  split
  · exact Nat.le_refl _
  · exact Nat.le_succ _

theorem add_objects {r object bytes : Nat} {rel : Counting.Relay} {d : Direction} (other : Nat) :
    (e.add r rel object d bytes).objects other =
      if other = object then (e.objects object).add bytes d else e.objects other := by
  show Function.update e.objects object _ other = _
  split
  · rename_i hsame
    rw [hsame, Function.update_self]
  · rename_i hother
    exact Function.update_of_ne hother _ _

theorem add_names (n : Counters) (bytes : Nat) (d : Direction) :
    (n.add bytes d).cn = n.cn ∧ (n.add bytes d).name = n.name := by
  cases d <;> exact ⟨rfl, rfl⟩

theorem grown_step {a : Counting.Action} (hstep : Counting.Step cfg rt foreign e a e') :
    Grown (earlier ++ made e) (earlier ++ made e') := by
  cases hstep with
  | @look r rel _ _ =>
      apply grown_made (le_look_next e r rel)
      intro object hobject
      rw [look_objects hobject]
      exact ⟨rfl, rfl, fun _ => Nat.le_refl _⟩
  | @add r direction bytes object rel _ _ =>
      have hnext : e.next ≤ (e.add r rel object direction bytes).next := Nat.le_refl _
      apply grown_made hnext
      intro other _
      rw [add_objects]
      split
      · rename_i hsame
        rcases add_names (e.objects object) bytes direction with ⟨hcn, hname⟩
        rw [hsame]
        refine ⟨hcn, hname, fun d => ?_⟩
        rw [count_add]
        split
        · exact Nat.le_add_right _ _
        · exact Nat.le_refl _
      · exact ⟨rfl, rfl, fun _ => Nat.le_refl _⟩
  | server _ | deleted _ _ | spawned _ _ | pair _ _ _ _ | finish _ _ =>
      exact grown_made (Nat.le_refl _) fun _ _ => ⟨rfl, rfl, fun _ => Nat.le_refl _⟩

/-- The history says what the counters of a key have counted, together. -/
def Totals (counters : List Counters) (relayed : Text -> Direction -> Nat) : Prop :=
  forall key d, relayed key d = countedBefore (worth counters key d) counters.length

theorem totals_of_worth {counters counters' : List Counters}
    {relayed : Text -> Direction -> Nat} (h : Totals counters relayed)
    (hworth : forall key d g, worth counters' key d g = worth counters key d g)
    (hlength : counters.length ≤ counters'.length) : Totals counters' relayed := by
  intro key d
  have hsame : worth counters' key d = worth counters key d := funext (hworth key d)
  rw [h key d, hsame]
  apply Finset.sum_subset (Finset.range_mono hlength)
  intro g _ hg
  exact worth_beyond (Nat.le_of_not_lt fun hlt => hg (Finset.mem_range.mpr hlt))

/-- The worth of the counters of the running engine, and of those before. -/
theorem worth_made (earlier : List Counters) (key : Text) (d : Direction) {object : Nat}
    (h : object < e.next) :
    worth (earlier ++ made e) key d (earlier.length + object) =
      if labelKey (e.objects object) = key then count (e.objects object) d else 0 := by
  simp only [worth, made_get earlier h]

theorem worth_earlier {g : Nat} (h : g < earlier.length) (key : Text) (d : Direction)
    (e : Counting.State) : worth (earlier ++ made e) key d g = worth earlier key d g := by
  simp only [worth, List.getElem?_append_left h]

theorem worth_look (r : Nat) (rel : Counting.Relay) (key : Text) (d : Direction) (g : Nat) :
    worth (earlier ++ made (e.look r rel)) key d g = worth (earlier ++ made e) key d g := by
  rcases Nat.lt_or_ge g earlier.length with hlt | hge
  · rw [worth_earlier hlt, worth_earlier hlt]
  · obtain ⟨object, rfl⟩ := Nat.exists_eq_add_of_le hge
    rcases Nat.lt_or_ge object e.next with hobject | hnew
    · rw [worth_made earlier key d hobject,
        worth_made earlier key d (Nat.lt_of_lt_of_le hobject (le_look_next e r rel)),
        look_objects hobject]
    · have hnone : worth (earlier ++ made e) key d (earlier.length + object) = 0 := by
        apply worth_beyond
        rw [length_made]
        omega
      rw [hnone]
      unfold Counting.State.look
      split
      · exact hnone
      · rcases Nat.lt_or_ge object (e.next + 1) with hlast | hbeyond
        · have hobject : object = e.next := by omega
          have hself : Function.update e.objects e.next ⟨rel.cn, rel.name, 0, 0⟩ object =
              ⟨rel.cn, rel.name, 0, 0⟩ := by rw [hobject, Function.update_self]
          rw [worth_made earlier key d hlast]
          show (if labelKey (Function.update e.objects e.next _ object) = key then
            count (Function.update e.objects e.next _ object) d else 0) = 0
          rw [hself]
          cases d <;> simp [count]
        · apply worth_beyond
          rw [length_made]
          show earlier.length + (e.next + 1) ≤ _
          omega

theorem worth_add {r object bytes : Nat} {rel : Counting.Relay} {direction : Direction}
    {key : Text} {d : Direction} {g : Nat} (hg : g ≠ earlier.length + object) :
    worth (earlier ++ made (e.add r rel object direction bytes)) key d g =
      worth (earlier ++ made e) key d g := by
  rcases Nat.lt_or_ge g earlier.length with hlt | hge
  · rw [worth_earlier hlt, worth_earlier hlt]
  · obtain ⟨other, rfl⟩ := Nat.exists_eq_add_of_le hge
    have hother : other ≠ object := fun h => hg (by rw [h])
    rcases Nat.lt_or_ge other e.next with hin | hout
    · have hin' : other < (e.add r rel object direction bytes).next := hin
      rw [worth_made earlier key d hin', worth_made earlier key d hin, add_objects,
        if_neg hother]
    · have hend : (earlier ++ made e).length ≤ earlier.length + other := by
        rw [length_made]
        omega
      have hend' : (earlier ++ made (e.add r rel object direction bytes)).length ≤
          earlier.length + other := by
        rw [length_made]
        exact Nat.add_le_add_left hout _
      rw [worth_beyond hend', worth_beyond hend]

theorem totals_step {s : State} {a : Counting.Action} (hinv : EngineInv s.engine)
    (h : Totals s.counters s.relayed) (hstep : Counting.Step cfg rt foreign s.engine a e') :
    Totals (s.earlier ++ made e') (counted s a) := by
  cases hstep with
  | @look r rel _ _ =>
      apply totals_of_worth h
      · exact fun key d g => worth_look r rel key d g
      · have hnext := le_look_next s.engine r rel
        unfold State.counters
        rw [length_made, length_made]
        omega
  | @add r direction bytes object rel hrel hphase =>
      rcases hinv.relays r rel object hrel hphase with ⟨hobject, hlabel⟩
      have hlength : (s.earlier ++ made (s.engine.add r rel object direction bytes)).length =
          s.counters.length := by
        unfold State.counters
        rw [length_made, length_made]
        rfl
      have hobject' : object < (s.engine.add r rel object direction bytes).next := hobject
      intro key d
      simp only [counted, hrel]
      rw [hlength]
      by_cases hadded : key = rel.key ∧ d = direction
      · rcases hadded with ⟨rfl, rfl⟩
        rw [if_pos ⟨rfl, rfl⟩, h rel.key d]
        symm
        apply countedBefore_update (g := s.earlier.length + object)
        · unfold State.counters
          rw [length_made]
          omega
        · unfold State.counters
          rw [worth_made _ _ _ hobject', worth_made _ _ _ hobject, add_objects, if_pos rfl,
            labelKey_add, if_pos hlabel, if_pos hlabel, count_add, if_pos rfl]
        · exact fun i hi => worth_add hi
      · rw [if_neg hadded, h key d]
        refine congrArg (fun w => countedBefore w s.counters.length) (funext fun g => ?_)
        by_cases hg : g = s.earlier.length + object
        · rw [hg]
          unfold State.counters
          rw [worth_made _ _ _ hobject', worth_made _ _ _ hobject, add_objects, if_pos rfl,
            labelKey_add]
          split
          · rename_i hkey
            have hd : d ≠ direction := fun hd => hadded ⟨hkey.symm.trans hlabel, hd⟩
            rw [count_add, if_neg hd]
          · rfl
        · exact (worth_add hg).symm
  | server _ | deleted _ _ | spawned _ _ | pair _ _ _ _ | finish _ _ => exact h

end EngineSteps

end Billing

end Joint
end RcTunnel
