import RcTunnel.Joint.ServerCert

/-!
# The certificates of handshakes

Each handshake of the engine asks {lit}`certReloader.get`, which reads the two files when
the modification time of the certificate file is after the one that it has.  The panel may
write the files between these reads, so a handshake may have to go on with an older
certificate.

The main result is about all handshakes of a run.  One that no write overlaps presents the
pair on the disk, and no handshake presents an older certificate than one before it.
-/

namespace RcTunnel

open Foundation

namespace Joint

namespace ServerCert

/-!
# Certificates in their order

A certificate moves from the panel to the file, to the reads of a handshake, to the
reloader and to the answers, and each of these has an older one than the place before it.
-/

/-- The second is not newer than the first. -/
def Newer (x y : Option Cert) : Prop :=
  forall c d, x = some c -> y = some d -> d.key ≤ c.key

@[simp] theorem newer_none_left (y : Option Cert) : Newer none y := by
  intro c d hc
  cases hc

@[simp] theorem newer_none_right (x : Option Cert) : Newer x none := by
  intro c d _ hd
  cases hd

@[simp] theorem newer_refl (x : Option Cert) : Newer x x := by
  intro c d hc hd
  rw [hc] at hd
  cases hd
  exact Nat.le_refl c.key

/-- All of these certificates were made before, and they stand in their order. -/
structure Trail (keys : Nat) (certs : List (Option Cert)) : Prop where
  sorted : certs.Pairwise Newer
  known : forall c, some c ∈ certs -> c.key < keys

section Trail

variable {keys : Nat} {x y : Option Cert} {rest : List (Option Cert)} (front : List (Option Cert))

/-- A place is emptied. -/
theorem Trail.forget (h : Trail keys (front ++ x :: rest)) : Trail keys (front ++ none :: rest) where
  sorted := by
    have hsorted := h.sorted
    rw [List.pairwise_append, List.pairwise_cons] at hsorted ⊢
    rcases hsorted with ⟨hfront, ⟨-, hrest⟩, hcross⟩
    refine ⟨hfront, ⟨fun y _ => newer_none_left y, hrest⟩, ?_⟩
    intro z hz y hy
    rcases List.mem_cons.mp hy with rfl | hy
    · exact newer_none_right z
    · exact hcross z hz y (List.mem_cons_of_mem x hy)
  known := by
    intro c hc
    apply h.known c
    rw [List.mem_append, List.mem_cons] at hc ⊢
    rcases hc with hc | hc | hc
    · exact Or.inl hc
    · cases hc
    · exact Or.inr (Or.inr hc)

/-- A certificate comes to stand behind itself. -/
theorem Trail.copy (h : Trail keys (front ++ x :: rest)) : Trail keys (front ++ x :: x :: rest) where
  sorted := by
    have hsorted := h.sorted
    rw [List.pairwise_append, List.pairwise_cons] at hsorted ⊢
    rcases hsorted with ⟨hfront, ⟨hx, hrest⟩, hcross⟩
    refine ⟨hfront, ⟨?_, List.pairwise_cons.mpr ⟨hx, hrest⟩⟩, ?_⟩
    · intro y hy
      rcases List.mem_cons.mp hy with rfl | hy
      · exact newer_refl y
      · exact hx y hy
    · intro z hz y hy
      rcases List.mem_cons.mp hy with rfl | hy
      · exact hcross z hz y List.mem_cons_self
      · exact hcross z hz y hy
  known := by
    intro c hc
    apply h.known c
    rw [List.mem_append, List.mem_cons, List.mem_cons] at hc
    rw [List.mem_append, List.mem_cons]
    rcases hc with hc | hc | hc | hc
    · exact Or.inl hc
    · exact Or.inr (Or.inl hc)
    · exact Or.inr (Or.inl hc)
    · exact Or.inr (Or.inr hc)

/-- A place goes away. -/
theorem Trail.drop (h : Trail keys (front ++ x :: rest)) : Trail keys (front ++ rest) where
  sorted := h.sorted.sublist ((List.Sublist.refl front).append (List.sublist_cons_self x rest))
  known := by
    intro c hc
    apply h.known c
    rw [List.mem_append] at hc ⊢
    exact hc.imp_right (List.mem_cons_of_mem x)

/-- The newest certificate is made. -/
theorem Trail.issue {now : Int} (h : Trail keys (none :: rest)) :
    Trail (keys + 1) (some (issue now keys) :: rest) where
  sorted := by
    rw [List.pairwise_cons]
    refine ⟨?_, (List.pairwise_cons.mp h.sorted).right⟩
    intro y hy c d hc hd
    cases hc
    rw [hd] at hy
    exact Nat.le_of_lt (h.known d (List.mem_cons_of_mem none hy))
  known := by
    intro c hc
    rcases List.mem_cons.mp hc with hc | hc
    · cases hc
      exact Nat.lt_succ_self keys
    · exact Nat.lt_succ_of_lt (h.known c (List.mem_cons_of_mem none hc))

end Trail

/-!
# What the engine knows of the files
-/

/-- The certificate was read from the file after that modification time, and is still in it
if the time has not changed. -/
def Disk.Tracks (d : Disk) (mtime : Int) (c : Cert) : Prop :=
  exists f, d.crt = some f ∧ f.mtime ≥ mtime ∧ (f.mtime = mtime -> f.content = some c)

/-- Where a handshake stands. -/
def Rctd.Holds (d : Disk) : Rctd -> Prop
  | Rctd.stated mtime since =>
      since ≤ d.writes ∧ exists f, d.crt = some f ∧ mtime ≤ f.mtime
  | Rctd.reading mtime since crt =>
      since ≤ d.writes ∧ (since = d.writes -> crt = d.crtContent) ∧
        (forall c, crt = some c -> d.Tracks mtime c)
  | _ => True

/-- The certificate that the panel writes. -/
def Panel.pending : Panel -> Option Cert
  | Panel.writing _ cert _ _ => some cert
  | _ => none

/-- The certificate that a handshake has read. -/
def Rctd.fetched : Rctd -> Option Cert
  | Rctd.reading _ _ crt => crt
  | _ => none

def State.trail (s : State) : List (Option Cert) :=
  s.panel.pending :: s.disk.crtContent :: s.rctd.fetched :: s.reloader.cert ::
    s.answers.map Answer.cert

/--
A handshake that no write overlaps presents the pair on the disk, which lasts from the last
check that did not fail; there is such a pair unless the panel has begun to write since.
-/
def Answer.Current (a : Answer) : Prop :=
  a.quiet = true ->
    (forall c, a.pair = some c ->
      a.cert = some c ∧ forall time, a.returned = some time -> Lasts time c) ∧
    (forall time, a.checked = some time -> a.returned = some time ∧ a.pair ≠ none)

/-- The certificate that the panel writes need not be issued again at that time. -/
def Panel.InTime (time : Int) : Panel -> Prop
  | Panel.writing _ cert _ _ => Lasts time cert
  | Panel.down => True
  | Panel.loading _ => True
  | Panel.serving => True

instance (time : Int) : forall p : Panel, Decidable (p.InTime time)
  | Panel.writing _ cert _ _ => inferInstanceAs (Decidable (Lasts time cert))
  | Panel.down => inferInstanceAs (Decidable True)
  | Panel.loading _ => inferInstanceAs (Decidable True)
  | Panel.serving => inferInstanceAs (Decidable True)

structure Inv (s : State) : Prop where
  panel : PanelInv s
  past : forall f, s.disk.crt = some f -> f.mtime ≤ s.now
  /-- what was written at this very time still lasts -/
  written : forall f c, s.disk.crt = some f -> f.content = some c ->
    f.mtime < s.now ∨ Lasts f.mtime c
  inTime : s.panel.InTime s.now
  rctd : s.rctd.Holds s.disk
  held : forall c, s.reloader.cert = some c -> s.disk.Tracks s.reloader.mtime c
  trail : Trail s.keys s.trail
  answers : forall a, a ∈ s.answers -> a.Current

/-- A certificate is written before it has to be issued again. -/
def Prompt (s : State) : Action -> Prop
  | Action.tick d => s.panel.InTime (s.now + d)
  | _ => True

instance (s : State) (a : Action) : Decidable (Prompt s a) := by
  unfold Prompt
  split <;> infer_instance

/-!
# Writes and what was read before
-/

section Writes

variable {s t : State}

/-- What is written now has a modification time after all that were seen. -/
theorem Disk.Tracks.before {d : Disk} {f : CrtFile} {mtime : Int} {c : Cert}
    (h : d.Tracks mtime c) (hf : d.crt = some f)
    (hcontent : f.content = some c -> f.mtime < now) (hpast : f.mtime ≤ now) : mtime < now := by
  rcases h with ⟨g, hg, hle, hsame⟩
  rw [hf] at hg
  cases hg
  by_cases heq : f.mtime = mtime
  · rw [← heq]
    exact hcontent (hsame heq)
  · omega

/-- The certificate file is emptied or written when nothing in it lasts. -/
theorem Inv.tracks_before (h : Inv s) (hstale : s.disk.Stale s.now) {mtime : Int} {c : Cert}
    (htracks : s.disk.Tracks mtime c) : mtime < s.now := by
  rcases id htracks with ⟨f, hf, -, -⟩
  apply htracks.before hf _ (h.past f hf)
  intro hcontent
  rcases h.written f c hf hcontent with hless | hlasts
  · exact hless
  · rcases Int.lt_or_eq_of_le (h.past f hf) with hless | heq
    · exact hless
    · rw [heq] at hlasts
      refine absurd hlasts (hstale c ?_)
      rw [Disk.crtContent, hf]
      exact hcontent

/-- A file that is written now is tracked by all that was read before. -/
theorem tracks_written {d : Disk} {f : CrtFile} {mtime : Int} {c : Cert} (hf : d.crt = some f)
    (hless : mtime < f.mtime) : d.Tracks mtime c := by
  refine ⟨f, hf, Int.le_of_lt hless, ?_⟩
  intro heq
  omega

/-- The key file is emptied or written. -/
theorem Inv.wroteKey {key : Option (Option Nat)} {p : Panel} (h : Inv s)
    (ht : t = { s with
      disk := { s.disk with key := key, writes := s.disk.writes + 1 }
      panel := p })
    (hpanel : PanelInv t) (hpending : p.pending = s.panel.pending) (htime : p.InTime s.now) :
    Inv t := by
  cases ht
  constructor
  · exact hpanel
  · exact h.past
  · exact h.written
  · exact htime
  · have hholds := h.rctd
    obtain ⟨r, hr⟩ : exists r, s.rctd = r := ⟨_, rfl⟩
    rw [hr] at hholds ⊢
    cases r with
    | stated mtime since => exact ⟨Nat.le_succ_of_le hholds.left, hholds.right⟩
    | reading mtime since crt =>
        rcases hholds with ⟨hsince, -, htracks⟩
        refine ⟨Nat.le_succ_of_le hsince, ?_, htracks⟩
        intro hlast
        rw [hlast] at hsince
        exact absurd hsince (Nat.not_succ_le_self s.disk.writes)
    | down => trivial
    | validating crt => trivial
    | listening => trivial
  · exact h.held
  · have htrail := h.trail
    rw [State.trail, ← hpending] at htrail
    exact htrail
  · exact h.answers

/-- The certificate file is emptied or written. -/
theorem Inv.wroteCrt {content : Option Cert} {p : Panel} {returned checked : Option Int}
    (h : Inv s)
    (ht : t = { s with
      disk := { s.disk with
        crt := some { content := content, mtime := s.now }
        writes := s.disk.writes + 1 }
      panel := p
      returned := returned
      checked := checked })
    (hpanel : PanelInv t) (hstale : s.disk.Stale s.now) (htime : p.InTime s.now)
    (hlasts : forall c, content = some c -> Lasts s.now c)
    (htrail : Trail s.keys (p.pending :: content :: s.rctd.fetched :: s.reloader.cert ::
      s.answers.map Answer.cert)) : Inv t := by
  cases ht
  constructor
  · exact hpanel
  · intro f hf
    cases hf
    exact Int.le_refl s.now
  · intro f c hf hc
    cases hf
    exact Or.inr (hlasts c hc)
  · exact htime
  · have hholds := h.rctd
    obtain ⟨r, hr⟩ : exists r, s.rctd = r := ⟨_, rfl⟩
    rw [hr] at hholds ⊢
    cases r with
    | stated mtime since =>
        rcases hholds with ⟨hsince, f, hf, hle⟩
        exact ⟨Nat.le_succ_of_le hsince, _, rfl, Int.le_trans hle (h.past f hf)⟩
    | reading mtime since crt =>
        rcases hholds with ⟨hsince, -, htracks⟩
        refine ⟨Nat.le_succ_of_le hsince, ?_, ?_⟩
        · intro hlast
          rw [hlast] at hsince
          exact absurd hsince (Nat.not_succ_le_self s.disk.writes)
        · intro c hc
          exact tracks_written rfl (h.tracks_before hstale (htracks c hc))
    | down => trivial
    | validating crt => trivial
    | listening => trivial
  · intro c hc
    exact tracks_written rfl (h.tracks_before hstale (h.held c hc))
  · exact htrail
  · exact h.answers

theorem inv_write (h : Inv s) (hstep : step s Action.write = some t) : Inv t := by
  have hpanel := panelInv_write h.panel hstep
  have hholds := h.panel.panel
  have htime := h.inTime
  have htrail := h.trail
  rw [State.trail] at htrail
  cases step_moves hstep with
  | emptyKey hp =>
      rw [hp] at htime
      exact h.wroteKey rfl hpanel (by rw [hp]; rfl) htime
  | key hp =>
      rw [hp] at htime
      exact h.wroteKey rfl hpanel (by rw [hp]; rfl) htime
  | @emptyCrt first cert since hp =>
      rw [hp] at hholds htime htrail
      refine h.wroteCrt rfl hpanel hholds.right.left htime ?_ ?_
      · intro c hc
        cases hc
      · exact htrail.forget [some cert]
  | @crt first cert since hp =>
      rw [hp] at hholds htime htrail
      refine h.wroteCrt rfl hpanel hholds.right.left trivial ?_ ?_
      · intro c hc
        cases hc
        exact htime
      · have hcopied := (htrail.drop [some cert]).copy []
        exact hcopied.forget []

/-- The panel goes on without a certificate to write. -/
theorem Inv.leave {p : Panel} {context : Option Cert} {returned checked : Option Int} (h : Inv s)
    (ht : t = { s with
      panel := p
      context := context
      returned := returned
      checked := checked })
    (hpanel : PanelInv t) (hpending : p.pending = none) : Inv t := by
  cases ht
  constructor
  · exact hpanel
  · exact h.past
  · exact h.written
  · cases p with
    | writing first cert since next => cases hpending
    | down => trivial
    | loading first => trivial
    | serving => trivial
  · exact h.rctd
  · exact h.held
  · have htrail := h.trail.forget []
    rw [← hpending] at htrail
    exact htrail
  · exact h.answers

theorem inv_ensure {first : Bool} (h : Inv s) (hpanel : PanelInv (s.ensure first))
    (hpending : s.panel.pending = none) : Inv (s.ensure first) := by
  rw [State.ensure] at hpanel ⊢
  split
  · rename_i hfresh
    rw [if_pos hfresh] at hpanel
    exact h.leave rfl hpanel rfl
  · rename_i hnot
    rw [if_neg hnot] at hpanel
    constructor
    · exact hpanel
    · exact h.past
    · exact h.written
    · exact lasts_issue s.now s.keys
    · exact h.rctd
    · exact h.held
    · have htrail := h.trail
      rw [State.trail, hpending] at htrail
      exact htrail.issue
    · exact h.answers

end Writes

/-!
# Handshakes
-/

section Handshakes

variable {s t : State}

/-- The engine reads, or starts anew: its reloader and its handshake tell what it knows. -/
theorem Inv.read {r : Rctd} {reloader : Reloader} (h : Inv s)
    (ht : t = { s with rctd := r, reloader := reloader }) (hholds : r.Holds s.disk)
    (hheld : forall c, reloader.cert = some c -> s.disk.Tracks reloader.mtime c)
    (htrail : Trail s.keys (s.panel.pending :: s.disk.crtContent :: r.fetched ::
      reloader.cert :: s.answers.map Answer.cert)) : Inv t := by
  cases ht
  exact ⟨h.panel.frame rfl rfl rfl rfl rfl rfl, h.past, h.written, h.inTime, hholds, hheld, htrail,
    h.answers⟩

/-- A handshake ends. -/
theorem Inv.answer {since : Nat} (reloader : Reloader) (h : Inv s)
    (hheld : forall c, reloader.cert = some c -> s.disk.Tracks reloader.mtime c)
    (htrail : Trail s.keys (s.panel.pending :: s.disk.crtContent :: none ::
      reloader.cert :: s.answers.map Answer.cert))
    (hcurrent : s.disk.writes = since -> forall c, s.disk.pair = some c ->
      reloader.cert = some c) :
    Inv (State.answer { s with reloader := reloader } since reloader.cert) := by
  constructor
  · exact h.panel.frame rfl rfl rfl rfl rfl rfl
  · exact h.past
  · exact h.written
  · exact h.inTime
  · trivial
  · exact hheld
  · exact htrail.copy [s.panel.pending, s.disk.crtContent, none]
  · intro a ha
    rcases List.mem_cons.mp ha with rfl | ha
    · intro hquiet
      constructor
      · intro c hc
        refine ⟨hcurrent (eq_of_beq hquiet) c hc, fun time htime => ?_⟩
        exact h.panel.returned time c htime (Disk.pair_eq_some.mp hc).left
      · intro time htime
        rcases h.panel.checked time htime with ⟨hreturned, c, hc, -⟩
        refine ⟨hreturned, ?_⟩
        rw [hc]
        exact Option.some_ne_none c
    · exact h.answers a ha

theorem inv_hello (h : Inv s) (hstep : step s Action.hello = some t) : Inv t := by
  have htrail := h.trail.forget [s.panel.pending, s.disk.crtContent]
  cases step_moves hstep with
  | noFile hcrt =>
      apply h.answer s.reloader h.held htrail
      intro _ c hc
      have hcontent := (Disk.pair_eq_some.mp hc).left
      rw [Disk.crtContent, hcrt] at hcontent
      cases hcontent
  | @newer f hcrt =>
      exact h.read rfl ⟨Nat.le_refl _, f, hcrt, Int.le_refl _⟩ h.held htrail
  | @same f d hcrt hd hnewer =>
      apply h.answer s.reloader h.held htrail
      intro _ c hc
      -- the time has not changed, so the certificate is still the one in the file
      rcases h.held d hd with ⟨g, hg, hle, hsame⟩
      rw [hcrt] at hg
      cases hg
      have hcontent := (Disk.pair_eq_some.mp hc).left
      rw [Disk.crtContent, hcrt] at hcontent
      have hfound := hsame (Int.le_antisymm hnewer hle)
      rw [hd, ← hcontent]
      exact hfound.symm

/-- The engine has read the certificate file that it had the modification time of. -/
theorem inv_readCrt {mtime : Int} {since : Nat} (h : Inv s)
    (hr : s.rctd = Rctd.stated mtime since) :
    Inv { s with rctd := Rctd.reading mtime since s.disk.crtContent } := by
  have hholds := h.rctd
  have htrail := h.trail
  rw [State.trail] at htrail
  rw [hr] at hholds
  rcases hholds with ⟨hsince, f, hf, hle⟩
  refine h.read rfl ⟨hsince, fun _ => rfl, ?_⟩ h.held ?_
  · intro c hc
    refine ⟨f, hf, hle, ?_⟩
    intro _
    rw [Disk.crtContent, hf] at hc
    exact hc
  · exact (htrail.drop [s.panel.pending, s.disk.crtContent]).copy [s.panel.pending]

theorem inv_readKey (h : Inv s) (hstep : step s Action.readKey = some t) : Inv t := by
  have hholds := h.rctd
  have htrail := h.trail
  rw [State.trail] at htrail
  cases step_moves hstep with
  | @noPair mtime since crt hr hnone =>
      rw [hr] at hholds htrail
      rcases hholds with ⟨-, hquiet, -⟩
      apply h.answer s.reloader h.held (htrail.forget [s.panel.pending, s.disk.crtContent])
      intro hlast c hc
      rw [hquiet hlast.symm] at hnone
      rw [Disk.pair, hnone] at hc
      cases hc
  | @readKey mtime since crt c hr hpair =>
      rw [hr] at hholds htrail
      rcases hholds with ⟨-, hquiet, htracks⟩
      have hcrt := (loadKeyPair_eq_some.mp hpair).left
      have hdropped := htrail.drop [s.panel.pending, s.disk.crtContent, crt]
      have hcopied := hdropped.copy [s.panel.pending, s.disk.crtContent]
      have hforgot := hcopied.forget [s.panel.pending, s.disk.crtContent]
      rw [hcrt] at hforgot
      refine h.answer { cert := some c, mtime := mtime } ?_ hforgot ?_
      · intro d hd
        cases hd
        exact htracks c hcrt
      · intro hlast d hd
        rw [hquiet hlast.symm] at hpair
        rw [Disk.pair, hpair] at hd
        exact hd

/-- The engine starts anew, and has no certificate yet. -/
theorem Inv.restart {r : Rctd} (h : Inv s) (hholds : r.Holds s.disk) (hfetched : r.fetched = none) :
    Inv { s with rctd := r, reloader := { cert := none, mtime := 0 } } := by
  have hidle := h.trail.forget [s.panel.pending, s.disk.crtContent]
  refine h.read rfl hholds ?_ ?_
  · intro c hc
    cases hc
  · rw [hfetched]
    exact hidle.forget [s.panel.pending, s.disk.crtContent, none]

theorem inv_tick (d : Nat) (h : Inv s) (hprompt : Prompt s (Action.tick d))
    (hpanel : PanelInv { s with now := s.now + d }) : Inv { s with now := s.now + d } := by
  have hle : s.now ≤ s.now + d := by omega
  constructor
  · exact hpanel
  · exact fun f hf => Int.le_trans (h.past f hf) hle
  · intro f c hf hc
    exact (h.written f c hf hc).imp_left fun hless => Int.lt_of_lt_of_le hless hle
  · exact hprompt
  · exact h.rctd
  · exact h.held
  · exact h.trail
  · exact h.answers

theorem inv_of_installed (h : Installed s) : Inv s where
  panel := panelInv_of_installed h
  past := fun f hf => Int.le_of_lt (h.past f hf)
  written := fun f _ hf _ => Or.inl (h.past f hf)
  inTime := by
    rw [h.panel]
    trivial
  rctd := by
    rw [h.rctd]
    trivial
  held := by
    intro c hc
    rw [h.reloader] at hc
    cases hc
  trail := by
    rw [State.trail, h.panel, h.rctd, h.reloader, h.answers]
    constructor
    · simp [Panel.pending, Rctd.fetched]
    · simpa [Panel.pending, Rctd.fetched, eq_comm] using h.old
  answers := by
    intro a ha
    rw [h.answers] at ha
    cases ha

theorem inv_step {a : Action} (h : Inv s) (hprompt : Prompt s a) (hstep : step s a = some t) :
    Inv t := by
  have hpanel := panelInv_step h.panel hstep
  have hidle := h.trail.forget [s.panel.pending, s.disk.crtContent]
  cases step_moves hstep with
  | tick => exact inv_tick _ h hprompt hpanel
  | start hp => exact inv_ensure h hpanel (by rw [hp]; rfl)
  | wake hp => exact inv_ensure h hpanel (by rw [hp]; rfl)
  | emptyKey _ | key _ | emptyCrt _ | crt _ => exact inv_write h hstep
  | @writeFails first _ _ _ _ | @loadFails first _ _ =>
      cases first with
      | true => exact h.leave rfl hpanel rfl
      | false => exact h.leave rfl hpanel rfl
  | load _ _ => exact h.leave rfl hpanel rfl
  | crash => exact h.leave rfl hpanel rfl
  | launch _ => exact h.restart trivial rfl
  | invalid _ => exact h.read rfl trivial h.held hidle
  | validate _ => exact h.read rfl trivial h.held hidle
  | quit => exact h.restart trivial rfl
  | noFile _ | newer _ | same _ _ _ => exact inv_hello h hstep
  | readCrt hr => exact inv_readCrt h hr
  | noPair _ _ | readKey _ _ => exact inv_readKey h hstep

end Handshakes

/--
Wherever either process stopped and however their reads and writes were interleaved: a
handshake that no write overlaps presents the pair on the disk, if there is one, which lasts
for more than thirty days from the panel's last check that did not fail, and no handshake
presents an older certificate than one before it.
-/
theorem handshakes_current {s t : State} {actions : List Action} (hinit : Installed s)
    (hprompt : machine.Obeys Prompt s actions) (hexec : machine.exec s actions = some t) :
    (forall a, a ∈ t.answers -> a.Current) ∧ (t.answers.map Answer.cert).Pairwise Newer := by
  have hstep : forall u a v, Inv u -> Prompt u a -> machine.step u a = some v -> Inv v :=
    fun _ _ _ hu ha huv => inv_step hu ha huv
  have halways := Machine.always_of_obeys hstep (inv_of_installed hinit) hprompt
  have ht : Inv t := halways.last hexec
  refine ⟨ht.answers, ?_⟩
  have hsorted := ht.trail.sorted
  rw [State.trail] at hsorted
  exact hsorted.of_cons.of_cons.of_cons.of_cons

/-- The engine reads the certificate file while the panel renews the certificate: the
handshake goes on with the first certificate, and the next one presents the second. -/
def overlapped : List Action :=
  [Action.start, Action.write, Action.write, Action.write, Action.write, Action.load,
    Action.tick 1, Action.launch, Action.validate, Action.hello, Action.readCrt, Action.readKey,
    Action.tick 69120000000000, Action.wake, Action.write, Action.write, Action.write,
    Action.hello, Action.readCrt, Action.write, Action.readKey,
    Action.hello, Action.readCrt, Action.readKey]

theorem handshakes_current_overlapped :
    exists t, machine.exec empty overlapped = some t ∧
      t.answers.map (fun a => (a.cert.map Cert.key, a.quiet)) =
        [(some 1, true), (some 0, false), (some 0, true)] ∧
      forall a, a ∈ t.answers -> a.Current := by
  have hrun : (machine.exec empty overlapped).map
      (fun t => t.answers.map fun a => (a.cert.map Cert.key, a.quiet)) =
      some [(some 1, true), (some 0, false), (some 0, true)] := by
    decide +kernel
  rcases Option.map_eq_some_iff.mp hrun with ⟨t, hexec, heq⟩
  have hprompt : machine.Obeys Prompt empty overlapped := by decide +kernel
  exact ⟨t, hexec, heq, (handshakes_current installed_empty hprompt hexec).left⟩

end ServerCert

end Joint
end RcTunnel
