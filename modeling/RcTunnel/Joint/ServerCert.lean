import Mathlib.Data.Int.Basic
import RcTunnel.Foundation.Machine

/-!
# The certificate of the server

The panel issues the certificate that it and the engine serve, and issues it again when it
has at most thirty days left.  It writes the key and then the certificate, each file emptied
before it is written, while the engine may read them for a handshake.  Either process may
stop at any point.

The first result is about the panel: whatever run came before, what it loads is a
certificate with its own key, and a panel that is down gets there again by its own steps.
-/

namespace RcTunnel

open Foundation

namespace Joint

namespace ServerCert

/-!
# The files

Times are in microseconds.
-/

def second : Int := 1000000

def day : Int := 86400 * second

def serverValidDays : Int := 825

def renewBeforeDays : Int := 30

/-- A certificate: the number of the key it was made for, and {lit}`not_valid_after`. -/
structure Cert where
  key : Nat
  notAfter : Int
deriving DecidableEq, Repr

/-- What {lit}`server.crt` holds, and when it was last written; there is no certificate in
it between {lit}`open` and {lit}`write`. -/
structure CrtFile where
  content : Option Cert
  mtime : Int
deriving DecidableEq, Repr

structure Disk where
  crt : Option CrtFile
  key : Option (Option Nat)
  /-- history: how often the files were written -/
  writes : Nat
deriving DecidableEq, Repr

def Disk.crtContent (d : Disk) : Option Cert := d.crt.bind CrtFile.content

def Disk.keyContent (d : Disk) : Option Nat := d.key.join

/-- {lit}`tls.LoadX509KeyPair`, and {lit}`load_cert_chain`, of what was read: both refuse a
certificate with another's key. -/
def loadKeyPair (crt : Option Cert) (key : Option Nat) : Option Cert :=
  match crt with
  | none => none
  | some c => if key = some c.key then some c else none

def Disk.pair (d : Disk) : Option Cert := loadKeyPair d.crtContent d.keyContent

def certDaysLeft (now : Int) (d : Disk) : Option Int :=
  d.crtContent.map fun c => (c.notAfter - now) / day

/-- {lit}`ensure_server_cert` leaves the files as they are. -/
def StillFresh (now : Int) (d : Disk) : Prop :=
  d.crt ≠ none ∧ d.key ≠ none ∧ exists left, certDaysLeft now d = some left ∧ renewBeforeDays < left

instance (now : Int) (d : Disk) : Decidable (StillFresh now d) :=
  decidable_of_iff
    (d.crt ≠ none ∧ d.key ≠ none ∧ (certDaysLeft now d).any (fun left => renewBeforeDays < left)) (by
      simp [StillFresh, Option.any_eq_true])

/-- The validity ends on a whole second. -/
def issue (now : Int) (key : Nat) : Cert where
  key := key
  notAfter := (now + serverValidDays * day) / second * second

/-- The writes of {lit}`ensure_server_cert`, in their order. -/
inductive Write where
  | emptyKey
  | key
  | emptyCrt
  | crt
deriving DecidableEq, Repr

def Disk.write (d : Disk) (now : Int) (cert : Cert) : Write -> Disk
  | Write.emptyKey => { d with key := some none, writes := d.writes + 1 }
  | Write.key => { d with key := some (some cert.key), writes := d.writes + 1 }
  | Write.emptyCrt =>
      { d with crt := some { content := none, mtime := now }, writes := d.writes + 1 }
  | Write.crt =>
      { d with crt := some { content := some cert, mtime := now }, writes := d.writes + 1 }

/-!
# The two processes
-/

/-- {lit}`first` tells {lit}`build_ssl_context` from {lit}`_server_cert_renewal`. -/
inductive Panel where
  | down
  /-- {lit}`ensure_server_cert` writes the certificate that it issued at {lit}`since` -/
  | writing (first : Bool) (cert : Cert) (since : Int) (next : Write)
  /-- {lit}`ensure_server_cert` has returned -/
  | loading (first : Bool)
  | serving
deriving DecidableEq, Repr

inductive Rctd where
  | down
  /-- {lit}`main` has read the certificate file, to validate it -/
  | validating (crt : Option Cert)
  | listening
  /-- {lit}`get` has the modification time; {lit}`since` numbers the writes before -/
  | stated (mtime : Int) (since : Nat)
  /-- {lit}`get` has read the certificate file -/
  | reading (mtime : Int) (since : Nat) (crt : Option Cert)
deriving DecidableEq, Repr

/-- {lit}`certReloader` -/
structure Reloader where
  cert : Option Cert
  mtime : Int
deriving DecidableEq, Repr

/-- How a handshake ended: what {lit}`get` returned, whether nothing was written while it
ran, and what the files and the panel's records were at its end. -/
structure Answer where
  cert : Option Cert
  quiet : Bool
  pair : Option Cert
  returned : Option Int
  checked : Option Int
deriving DecidableEq, Repr

structure State where
  now : Int
  disk : Disk
  panel : Panel
  /-- what the context of the panel presents -/
  context : Option Cert
  rctd : Rctd
  reloader : Reloader
  /-- number of keys generated so far -/
  keys : Nat
  /-- history: the call of {lit}`ensure_server_cert` that was the last to return -/
  returned : Option Int
  /-- history: the same, if no other call has begun to write since -/
  checked : Option Int
  /-- history: the handshakes of the engine, the newest first -/
  answers : List Answer
deriving DecidableEq, Repr

inductive Action where
  | tick (d : Nat)
  /-- {lit}`build_ssl_context` calls {lit}`ensure_server_cert` -/
  | start
  /-- {lit}`_server_cert_renewal` calls it -/
  | wake
  | write
  /-- a write raises -/
  | writeFails
  | load
  | crash
  /-- {lit}`main` of the engine reads the certificate file -/
  | launch
  /-- it reads the key file -/
  | validate
  | quit
  /-- a handshake calls {lit}`get`, which stats the certificate file -/
  | hello
  | readCrt
  | readKey
deriving DecidableEq, Repr

/-- {lit}`ensure_server_cert`, up to its first write. -/
def State.ensure (s : State) (first : Bool) : State :=
  if StillFresh s.now s.disk then
    { s with panel := Panel.loading first, returned := some s.now, checked := some s.now }
  else
    { s with
      panel := Panel.writing first (issue s.now s.keys) s.now Write.emptyKey
      keys := s.keys + 1
      checked := none }

/-- An exception ends a panel that starts, and is logged by one that runs. -/
def State.raised (s : State) (first : Bool) : State :=
  match first with
  | true => { s with panel := Panel.down, context := none }
  | false => { s with panel := Panel.serving }

/-- The end of {lit}`get`. -/
def State.answer (s : State) (since : Nat) (cert : Option Cert) : State :=
  { s with
    rctd := Rctd.listening
    answers :=
      { cert := cert
        quiet := s.disk.writes == since
        pair := s.disk.pair
        returned := s.returned
        checked := s.checked } :: s.answers }

def step (s : State) : Action -> Option State
  | Action.tick d => some { s with now := s.now + d }
  | Action.start =>
      match s.panel with
      | Panel.down => some (s.ensure true)
      | _ => none
  | Action.wake =>
      match s.panel with
      | Panel.serving => some (s.ensure false)
      | _ => none
  | Action.write =>
      match s.panel with
      | Panel.writing first cert since Write.emptyKey =>
          some { s with
            disk := s.disk.write s.now cert Write.emptyKey
            panel := Panel.writing first cert since Write.key }
      | Panel.writing first cert since Write.key =>
          some { s with
            disk := s.disk.write s.now cert Write.key
            panel := Panel.writing first cert since Write.emptyCrt }
      | Panel.writing first cert since Write.emptyCrt =>
          some { s with
            disk := s.disk.write s.now cert Write.emptyCrt
            panel := Panel.writing first cert since Write.crt }
      | Panel.writing first cert since Write.crt =>
          some { s with
            disk := s.disk.write s.now cert Write.crt
            panel := Panel.loading first
            returned := some since
            checked := some since }
      | _ => none
  | Action.writeFails =>
      match s.panel with
      | Panel.writing first _ _ _ => some (s.raised first)
      | _ => none
  | Action.load =>
      match s.panel with
      | Panel.loading first =>
          match s.disk.pair with
          | none => some (s.raised first)
          | some c => some { s with panel := Panel.serving, context := some c }
      | _ => none
  | Action.crash =>
      match s.panel with
      | Panel.down => none
      | _ => some { s with panel := Panel.down, context := none }
  | Action.launch =>
      match s.rctd with
      | Rctd.down =>
          some { s with
            rctd := Rctd.validating s.disk.crtContent
            reloader := { cert := none, mtime := 0 } }
      | _ => none
  | Action.validate =>
      match s.rctd with
      | Rctd.validating crt =>
          match loadKeyPair crt s.disk.keyContent with
          | none => some { s with rctd := Rctd.down }
          | some _ => some { s with rctd := Rctd.listening }
      | _ => none
  | Action.quit =>
      match s.rctd with
      | Rctd.down => none
      | _ => some { s with rctd := Rctd.down, reloader := { cert := none, mtime := 0 } }
  | Action.hello =>
      match s.rctd with
      | Rctd.listening =>
          match s.disk.crt with
          | none => some (s.answer s.disk.writes s.reloader.cert)
          | some f =>
              if s.reloader.cert = none ∨ s.reloader.mtime < f.mtime then
                some { s with rctd := Rctd.stated f.mtime s.disk.writes }
              else
                some (s.answer s.disk.writes s.reloader.cert)
      | _ => none
  | Action.readCrt =>
      match s.rctd with
      | Rctd.stated mtime since =>
          some { s with rctd := Rctd.reading mtime since s.disk.crtContent }
      | _ => none
  | Action.readKey =>
      match s.rctd with
      | Rctd.reading mtime since crt =>
          match loadKeyPair crt s.disk.keyContent with
          | none => some (s.answer since s.reloader.cert)
          | some c =>
              some (State.answer { s with reloader := { cert := some c, mtime := mtime } }
                since (some c))
      | _ => none

/-!
# What a step can do
-/

inductive Moves (s : State) : Action -> State -> Prop where
  | tick {d : Nat} : Moves s (Action.tick d) { s with now := s.now + d }
  | start (hp : s.panel = Panel.down) : Moves s Action.start (s.ensure true)
  | wake (hp : s.panel = Panel.serving) : Moves s Action.wake (s.ensure false)
  | emptyKey {first : Bool} {cert : Cert} {since : Int}
      (hp : s.panel = Panel.writing first cert since Write.emptyKey) :
      Moves s Action.write { s with
        disk := s.disk.write s.now cert Write.emptyKey
        panel := Panel.writing first cert since Write.key }
  | key {first : Bool} {cert : Cert} {since : Int}
      (hp : s.panel = Panel.writing first cert since Write.key) :
      Moves s Action.write { s with
        disk := s.disk.write s.now cert Write.key
        panel := Panel.writing first cert since Write.emptyCrt }
  | emptyCrt {first : Bool} {cert : Cert} {since : Int}
      (hp : s.panel = Panel.writing first cert since Write.emptyCrt) :
      Moves s Action.write { s with
        disk := s.disk.write s.now cert Write.emptyCrt
        panel := Panel.writing first cert since Write.crt }
  | crt {first : Bool} {cert : Cert} {since : Int}
      (hp : s.panel = Panel.writing first cert since Write.crt) :
      Moves s Action.write { s with
        disk := s.disk.write s.now cert Write.crt
        panel := Panel.loading first
        returned := some since
        checked := some since }
  | writeFails {first : Bool} {cert : Cert} {since : Int} {next : Write}
      (hp : s.panel = Panel.writing first cert since next) :
      Moves s Action.writeFails (s.raised first)
  | loadFails {first : Bool} (hp : s.panel = Panel.loading first) (hpair : s.disk.pair = none) :
      Moves s Action.load (s.raised first)
  | load {first : Bool} {c : Cert} (hp : s.panel = Panel.loading first)
      (hpair : s.disk.pair = some c) :
      Moves s Action.load { s with panel := Panel.serving, context := some c }
  | crash : Moves s Action.crash { s with panel := Panel.down, context := none }
  | launch (hr : s.rctd = Rctd.down) :
      Moves s Action.launch { s with
        rctd := Rctd.validating s.disk.crtContent
        reloader := { cert := none, mtime := 0 } }
  | invalid {crt : Option Cert} (hr : s.rctd = Rctd.validating crt) :
      Moves s Action.validate { s with rctd := Rctd.down }
  | validate {crt : Option Cert} (hr : s.rctd = Rctd.validating crt) :
      Moves s Action.validate { s with rctd := Rctd.listening }
  | quit : Moves s Action.quit
      { s with rctd := Rctd.down, reloader := { cert := none, mtime := 0 } }
  | noFile (hcrt : s.disk.crt = none) :
      Moves s Action.hello (s.answer s.disk.writes s.reloader.cert)
  | newer {f : CrtFile} (hcrt : s.disk.crt = some f) :
      Moves s Action.hello { s with rctd := Rctd.stated f.mtime s.disk.writes }
  | same {f : CrtFile} {c : Cert} (hcrt : s.disk.crt = some f) (hc : s.reloader.cert = some c)
      (hle : f.mtime ≤ s.reloader.mtime) :
      Moves s Action.hello (s.answer s.disk.writes s.reloader.cert)
  | readCrt {mtime : Int} {since : Nat} (hr : s.rctd = Rctd.stated mtime since) :
      Moves s Action.readCrt { s with rctd := Rctd.reading mtime since s.disk.crtContent }
  | noPair {mtime : Int} {since : Nat} {crt : Option Cert}
      (hr : s.rctd = Rctd.reading mtime since crt)
      (hpair : loadKeyPair crt s.disk.keyContent = none) :
      Moves s Action.readKey (s.answer since s.reloader.cert)
  | readKey {mtime : Int} {since : Nat} {crt : Option Cert} {c : Cert}
      (hr : s.rctd = Rctd.reading mtime since crt)
      (hpair : loadKeyPair crt s.disk.keyContent = some c) :
      Moves s Action.readKey (State.answer { s with
        reloader := { cert := some c, mtime := mtime } } since (some c))

theorem step_moves {s t : State} {a : Action} (h : step s a = some t) : Moves s a t := by
  cases a with
  | tick d =>
      cases h
      exact Moves.tick
  | start =>
      simp only [step] at h
      split at h <;> cases h
      exact Moves.start (by assumption)
  | wake =>
      simp only [step] at h
      split at h <;> cases h
      exact Moves.wake (by assumption)
  | write =>
      simp only [step] at h
      split at h <;> cases h
      · exact Moves.emptyKey (by assumption)
      · exact Moves.key (by assumption)
      · exact Moves.emptyCrt (by assumption)
      · exact Moves.crt (by assumption)
  | writeFails =>
      simp only [step] at h
      split at h <;> cases h
      exact Moves.writeFails (by assumption)
  | load =>
      simp only [step] at h
      split at h
      · rename_i hp
        split at h <;> cases h
        · exact Moves.loadFails hp (by assumption)
        · exact Moves.load hp (by assumption)
      · cases h
  | crash =>
      simp only [step] at h
      split at h <;> cases h
      exact Moves.crash
  | launch =>
      simp only [step] at h
      split at h <;> cases h
      exact Moves.launch (by assumption)
  | validate =>
      simp only [step] at h
      split at h
      · rename_i hr
        split at h <;> cases h
        · exact Moves.invalid hr
        · exact Moves.validate hr
      · cases h
  | quit =>
      simp only [step] at h
      split at h <;> cases h
      exact Moves.quit
  | hello =>
      simp only [step] at h
      split at h
      · split at h
        · cases h
          exact Moves.noFile (by assumption)
        · rename_i hcrt
          split at h
          · cases h
            exact Moves.newer hcrt
          · rename_i hnot
            cases h
            rw [not_or, Int.not_lt] at hnot
            obtain ⟨c, hc⟩ := Option.ne_none_iff_exists'.mp hnot.left
            exact Moves.same hcrt hc hnot.right
      · cases h
  | readCrt =>
      simp only [step] at h
      split at h <;> cases h
      exact Moves.readCrt (by assumption)
  | readKey =>
      simp only [step] at h
      split at h
      · rename_i hr
        split at h <;> cases h
        · exact Moves.noPair hr (by assumption)
        · exact Moves.readKey hr (by assumption)
      · cases h

/-- At that time the certificate has more than thirty days left. -/
def Lasts (time : Int) (c : Cert) : Prop := time + (renewBeforeDays + 1) * day ≤ c.notAfter

instance (time : Int) (c : Cert) : Decidable (Lasts time c) := inferInstanceAs (Decidable (_ ≤ _))

/-- A certificate that need not be issued again has its key. -/
def Disk.Matching (now : Int) (d : Disk) : Prop :=
  forall c, d.crtContent = some c -> Lasts now c -> d.keyContent = some c.key

/-- Both processes are down, a certificate that need not be issued again has its key, and
the files were last written in the past. -/
structure Installed (s : State) : Prop where
  panel : s.panel = Panel.down
  rctd : s.rctd = Rctd.down
  context : s.context = none
  reloader : s.reloader.cert = none
  returned : s.returned = none
  checked : s.checked = none
  answers : s.answers = []
  matching : s.disk.Matching s.now
  past : forall f, s.disk.crt = some f -> f.mtime < s.now
  old : forall c, s.disk.crtContent = some c -> c.key < s.keys

def machine : Machine State Action where
  init := Installed
  step := step

/-!
# What the files hold
-/

theorem Lasts.mono {time later : Int} {c : Cert} (h : Lasts later c) (hle : time ≤ later) :
    Lasts time c := by
  unfold Lasts at h ⊢
  omega

theorem lasts_issue (now : Int) (key : Nat) : Lasts now (issue now key) := by
  unfold Lasts issue renewBeforeDays serverValidDays day second
  dsimp only
  omega

theorem stillFresh_iff {now : Int} {d : Disk} :
    StillFresh now d <-> exists c, d.crtContent = some c ∧ d.key ≠ none ∧ Lasts now c := by
  have hleft : forall c : Cert, renewBeforeDays < (c.notAfter - now) / day <-> Lasts now c := by
    intro c
    unfold Lasts renewBeforeDays day second
    omega
  constructor
  · rintro ⟨-, hkey, left, hsome, hless⟩
    rw [certDaysLeft, Option.map_eq_some_iff] at hsome
    rcases hsome with ⟨c, hc, rfl⟩
    exact ⟨c, hc, hkey, (hleft c).mp hless⟩
  · rintro ⟨c, hc, hkey, hlasts⟩
    have hcrt : d.crt ≠ none := by
      intro hnone
      rw [Disk.crtContent, hnone] at hc
      cases hc
    refine ⟨hcrt, hkey, (c.notAfter - now) / day, ?_, (hleft c).mpr hlasts⟩
    rw [certDaysLeft, hc]
    rfl

theorem loadKeyPair_eq_some {crt : Option Cert} {key : Option Nat} {c : Cert} :
    loadKeyPair crt key = some c <-> crt = some c ∧ key = some c.key := by
  cases crt with
  | none => simp [loadKeyPair]
  | some d =>
      rw [loadKeyPair]
      split
      · rename_i hkey
        constructor
        · intro h
          cases h
          exact ⟨rfl, hkey⟩
        · intro h
          exact h.left
      · rename_i hkey
        constructor
        · intro h
          cases h
        · rintro ⟨h, hkey'⟩
          cases h
          exact absurd hkey' hkey

theorem Disk.pair_eq_some {d : Disk} {c : Cert} :
    d.pair = some c <-> d.crtContent = some c ∧ d.keyContent = some c.key :=
  loadKeyPair_eq_some

/-- The certificate in the file has to be issued again. -/
def Disk.Stale (now : Int) (d : Disk) : Prop := forall c, d.crtContent = some c -> ¬ Lasts now c

theorem Disk.Matching.mono {now later : Int} {d : Disk} (h : d.Matching now) (hle : now ≤ later) :
    d.Matching later :=
  fun c hc hlasts => h c hc (hlasts.mono hle)

theorem Disk.Stale.mono {now later : Int} {d : Disk} (h : d.Stale now) (hle : now ≤ later) :
    d.Stale later :=
  fun c hc hlasts => h c hc (hlasts.mono hle)

theorem Disk.Stale.matching {now : Int} {d : Disk} (h : d.Stale now) : d.Matching now :=
  fun c hc hlasts => absurd hlasts (h c hc)

/-- {lit}`ensure_server_cert` leaves a matching pair, or finds nothing that still lasts. -/
theorem Disk.Matching.pair_or_stale {now : Int} {d : Disk} (h : d.Matching now) :
    StillFresh now d ∧ (exists c, d.pair = some c ∧ Lasts now c) ∨
      ¬ StillFresh now d ∧ d.Stale now := by
  by_cases hfresh : StillFresh now d
  · left
    rcases stillFresh_iff.mp hfresh with ⟨c, hc, -, hlasts⟩
    exact ⟨hfresh, c, Disk.pair_eq_some.mpr ⟨hc, h c hc hlasts⟩, hlasts⟩
  · right
    refine ⟨hfresh, ?_⟩
    intro c hc hlasts
    apply hfresh
    rw [stillFresh_iff]
    refine ⟨c, hc, ?_, hlasts⟩
    intro hnone
    have hkey := h c hc hlasts
    rw [Disk.keyContent, hnone] at hkey
    cases hkey

/-- What the files hold before a write. -/
def Write.Holds (d : Disk) (cert : Cert) : Write -> Prop
  | Write.emptyKey => True
  | Write.key => True
  | Write.emptyCrt => d.keyContent = some cert.key
  | Write.crt => d.keyContent = some cert.key ∧ d.crtContent = none

def Panel.Holds (now : Int) (d : Disk) : Panel -> Prop
  | Panel.down => True
  | Panel.writing _ cert since next => Lasts since cert ∧ d.Stale now ∧ next.Holds d cert
  | Panel.loading _ => d.pair ≠ none
  | Panel.serving => True

/-- The context has been loaded before. -/
def Panel.Runs : Panel -> Prop
  | Panel.down => False
  | Panel.writing first _ _ _ => first = false
  | Panel.loading first => first = false
  | Panel.serving => True

def Panel.Writes : Panel -> Prop
  | Panel.writing _ _ _ _ => True
  | _ => False

/-- The panel serves what it loaded when {lit}`ensure_server_cert` last returned. -/
def Panel.Presents : Panel -> Prop
  | Panel.down => False
  | Panel.writing first _ _ _ => first = false
  | Panel.loading _ => False
  | Panel.serving => True

/-- The certificate is presented, and lasts from that call. -/
def Presented (context : Option Cert) (returned : Option Int) : Prop :=
  exists c time, context = some c ∧ returned = some time ∧ Lasts time c

structure PanelInv (s : State) : Prop where
  matching : s.disk.Matching s.now
  panel : s.panel.Holds s.now s.disk
  returned : forall time c, s.returned = some time -> s.disk.crtContent = some c -> Lasts time c
  checked : forall time, s.checked = some time ->
    s.returned = some time ∧ exists c, s.disk.pair = some c ∧ Lasts time c
  loading : forall first, s.panel = Panel.loading first -> s.checked ≠ none
  presented : s.panel.Presents -> Presented s.context s.returned
  unchecked : s.panel.Writes -> s.checked = none
  loaded : s.panel.Runs -> s.context ≠ none
  current : s.panel = Panel.serving -> s.checked ≠ none -> s.context = s.disk.pair

/-!
# One step of the panel
-/

section Steps

variable {s t : State}

theorem panelInv_of_installed (h : Installed s) : PanelInv s where
  matching := h.matching
  panel := by
    rw [h.panel]
    trivial
  returned := by
    intro time c htime
    rw [h.returned] at htime
    cases htime
  checked := by
    intro time htime
    rw [h.checked] at htime
    cases htime
  loading := by
    intro first hloading
    rw [h.panel] at hloading
    cases hloading
  presented := by
    intro hpresents
    rw [h.panel] at hpresents
    cases hpresents
  unchecked := fun _ => h.checked
  loaded := by
    intro hruns
    rw [h.panel] at hruns
    cases hruns
  current := by
    intro hserving
    rw [h.panel] at hserving
    cases hserving

theorem panelInv_tick {d : Nat} (h : PanelInv s) : PanelInv { s with now := s.now + d } := by
  have hle : s.now ≤ s.now + d := by omega
  constructor
  · exact h.matching.mono hle
  · have hholds := h.panel
    obtain ⟨p, hp⟩ : exists p, s.panel = p := ⟨_, rfl⟩
    rw [hp] at hholds ⊢
    cases p with
    | down => trivial
    | writing first cert since next =>
        rcases hholds with ⟨hlasts, hstale, hnext⟩
        exact ⟨hlasts, hstale.mono hle, hnext⟩
    | loading first => exact hholds
    | serving => trivial
  · exact h.returned
  · exact h.checked
  · exact h.loading
  · exact h.presented
  · exact h.unchecked
  · exact h.loaded
  · exact h.current

theorem Presented.loaded {context : Option Cert} {returned : Option Int}
    (h : Presented context returned) : context ≠ none := by
  rcases h with ⟨c, -, hc, -⟩
  rw [hc]
  exact Option.some_ne_none c

/-- {lit}`ensure_server_cert` is called. -/
theorem panelInv_ensure {first : Bool} (h : PanelInv s)
    (hpresented : first = false -> Presented s.context s.returned) : PanelInv (s.ensure first) := by
  have hloaded : first = false -> s.context ≠ none := fun hfirst => (hpresented hfirst).loaded
  rcases h.matching.pair_or_stale with ⟨hfresh, c, hpair, hlasts⟩ | ⟨hnot, hstale⟩
  · rw [State.ensure, if_pos hfresh]
    constructor
    · exact h.matching
    · intro hnone
      rw [hpair] at hnone
      cases hnone
    · intro time d htime hd
      cases htime
      rw [show s.disk.crtContent = some c from (Disk.pair_eq_some.mp hpair).left] at hd
      cases hd
      exact hlasts
    · intro time htime
      cases htime
      exact ⟨rfl, c, hpair, hlasts⟩
    · intro _ _
      exact Option.some_ne_none s.now
    · intro hpresents
      cases hpresents
    · intro hwrites
      cases hwrites
    · exact hloaded
    · intro hserving
      cases hserving
  · rw [State.ensure, if_neg hnot]
    constructor
    · exact h.matching
    · exact ⟨lasts_issue s.now s.keys, hstale, trivial⟩
    · exact h.returned
    · intro time htime
      cases htime
    · intro other hloading
      cases hloading
    · exact hpresented
    · intro _
      rfl
    · exact hloaded
    · intro hserving
      cases hserving

/-- The panel goes down. -/
theorem PanelInv.down (h : PanelInv s) :
    PanelInv { s with panel := Panel.down, context := none } where
  matching := h.matching
  panel := trivial
  returned := h.returned
  checked := h.checked
  loading := by
    intro first hloading
    cases hloading
  presented := by
    intro hpresents
    cases hpresents
  unchecked := by
    intro hwrites
    cases hwrites
  loaded := by
    intro hruns
    cases hruns
  current := by
    intro hserving
    cases hserving

/-- A write raises. -/
theorem panelInv_raised {first : Bool} {cert : Cert} {since : Int} {next : Write}
    (h : PanelInv s) (hp : s.panel = Panel.writing first cert since next) :
    PanelInv (s.raised first) := by
  have hpresented : first = false -> Presented s.context s.returned := by
    intro hfirst
    apply h.presented
    rw [hp]
    exact hfirst
  have hnone : s.checked = none := by
    apply h.unchecked
    rw [hp]
    trivial
  cases first with
  | true => exact h.down
  | false =>
      constructor
      · exact h.matching
      · trivial
      · exact h.returned
      · exact h.checked
      · intro other hloading
        cases hloading
      · intro _
        exact hpresented rfl
      · intro _
        exact hnone
      · intro _
        exact (hpresented rfl).loaded
      · intro _ hsome
        exact absurd hnone hsome

/-- A write leaves the panel writing. -/
theorem PanelInv.wrote {d : Disk} {first : Bool} {cert : Cert} {since : Int} {now next : Write}
    (h : PanelInv s) (hp : s.panel = Panel.writing first cert since now)
    (hstale : d.Stale s.now) (hkept : forall c, d.crtContent = some c -> s.disk.crtContent = some c)
    (hnext : next.Holds d cert) :
    PanelInv { s with disk := d, panel := Panel.writing first cert since next } := by
  have hholds := h.panel
  have hruns := h.loaded
  have hnone := h.unchecked
  have hpresented := h.presented
  rw [hp] at hholds hruns hnone hpresented
  constructor
  · exact hstale.matching
  · exact ⟨hholds.left, hstale, hnext⟩
  · exact fun time c htime hc => h.returned time c htime (hkept c hc)
  · intro time htime
    rw [hnone trivial] at htime
    cases htime
  · intro other hloading
    cases hloading
  · exact hpresented
  · exact hnone
  · exact hruns
  · intro hserving
    cases hserving

/-- The last write leaves a pair that lasts. -/
theorem PanelInv.wroteCrt {first : Bool} {cert : Cert} {since : Int} (h : PanelInv s)
    (hp : s.panel = Panel.writing first cert since Write.crt) :
    PanelInv { s with
      disk := s.disk.write s.now cert Write.crt
      panel := Panel.loading first
      returned := some since
      checked := some since } := by
  have hholds := h.panel
  have hruns := h.loaded
  rw [hp] at hholds hruns
  rcases hholds with ⟨hlasts, -, hkey, -⟩
  have hpair : (s.disk.write s.now cert Write.crt).pair = some cert :=
    Disk.pair_eq_some.mpr ⟨rfl, hkey⟩
  constructor
  · intro c hc _
    cases hc
    exact hkey
  · intro hnone
    rw [hpair] at hnone
    cases hnone
  · intro time c htime hc
    cases htime
    cases hc
    exact hlasts
  · intro time htime
    cases htime
    exact ⟨rfl, cert, hpair, hlasts⟩
  · intro _ _
    exact Option.some_ne_none since
  · intro hpresents
    cases hpresents
  · intro hwrites
    cases hwrites
  · exact hruns
  · intro hserving
    cases hserving

theorem panelInv_write (h : PanelInv s) (hstep : step s Action.write = some t) : PanelInv t := by
  have hholds := h.panel
  cases step_moves hstep with
  | emptyKey hp =>
      rw [hp] at hholds
      exact h.wrote hp hholds.right.left (fun _ hc => hc) trivial
  | key hp =>
      rw [hp] at hholds
      exact h.wrote hp hholds.right.left (fun _ hc => hc) rfl
  | emptyCrt hp =>
      rw [hp] at hholds
      refine h.wrote hp ?_ ?_ ⟨hholds.right.right, rfl⟩
      · intro c hc
        cases hc
      · intro c hc
        cases hc
  | crt hp => exact h.wroteCrt hp

/-- What the panel does not do leaves what it knows. -/
theorem PanelInv.frame (h : PanelInv s) (hnow : t.now = s.now) (hdisk : t.disk = s.disk)
    (hpanel : t.panel = s.panel) (hcontext : t.context = s.context)
    (hreturned : t.returned = s.returned) (hchecked : t.checked = s.checked) : PanelInv t where
  matching := by
    rw [hdisk, hnow]
    exact h.matching
  panel := by
    rw [hpanel, hdisk, hnow]
    exact h.panel
  returned := by
    rw [hreturned, hdisk]
    exact h.returned
  checked := by
    rw [hchecked, hreturned, hdisk]
    exact h.checked
  loading := by
    rw [hpanel, hchecked]
    exact h.loading
  presented := by
    rw [hpanel, hcontext, hreturned]
    exact h.presented
  unchecked := by
    rw [hpanel, hchecked]
    exact h.unchecked
  loaded := by
    rw [hpanel, hcontext]
    exact h.loaded
  current := by
    rw [hpanel, hchecked, hcontext, hdisk]
    exact h.current

/-- What the engine does. -/
def Action.OfRctd : Action -> Prop
  | Action.launch => True
  | Action.validate => True
  | Action.quit => True
  | Action.hello => True
  | Action.readCrt => True
  | Action.readKey => True
  | _ => False

/-- The engine only reads the files. -/
theorem rctd_frame {a : Action} (ha : a.OfRctd) (hstep : step s a = some t) :
    t.now = s.now ∧ t.disk = s.disk ∧ t.panel = s.panel ∧ t.context = s.context ∧
      t.keys = s.keys ∧ t.returned = s.returned ∧ t.checked = s.checked := by
  cases step_moves hstep with
  | launch _ | invalid _ | validate _ | quit | noFile _ | newer _ | same _ _ _ | readCrt _
  | noPair _ _ | readKey _ _ => exact ⟨rfl, rfl, rfl, rfl, rfl, rfl, rfl⟩
  | tick | start _ | wake _ | emptyKey _ | key _ | emptyCrt _ | crt _ | writeFails _
  | loadFails _ _ | load _ _ | crash => cases ha

theorem panelInv_of_rctd {a : Action} (h : PanelInv s) (ha : a.OfRctd)
    (hstep : step s a = some t) : PanelInv t := by
  rcases rctd_frame ha hstep with ⟨hnow, hdisk, hpanel, hcontext, -, hreturned, hchecked⟩
  exact h.frame hnow hdisk hpanel hcontext hreturned hchecked

/-- What the panel loads is a certificate with its key. -/
theorem panelInv_load (h : PanelInv s) (hstep : step s Action.load = some t) :
    PanelInv t ∧ t.panel = Panel.serving := by
  have hholds := h.panel
  cases step_moves hstep with
  | loadFails hp hnone =>
      rw [hp] at hholds
      exact absurd hnone hholds
  | @load first c hp hpair =>
      refine ⟨⟨h.matching, trivial, h.returned, h.checked, ?_, ?_, ?_, ?_, ?_⟩, rfl⟩
      · intro other hloading
        cases hloading
      · intro _
        obtain ⟨time, htime⟩ := Option.ne_none_iff_exists'.mp (h.loading first hp)
        rcases h.checked time htime with ⟨hreturned, d, hd, hlasts⟩
        rw [hpair] at hd
        cases hd
        exact ⟨c, time, rfl, hreturned, hlasts⟩
      · intro hwrites
        cases hwrites
      · intro _
        exact Option.some_ne_none c
      · intro _ _
        exact hpair.symm

theorem panelInv_step {a : Action} (h : PanelInv s) (hstep : step s a = some t) : PanelInv t := by
  cases step_moves hstep with
  | tick => exact panelInv_tick h
  | start _ => exact panelInv_ensure h (fun hfirst => Bool.noConfusion hfirst)
  | wake hp =>
      apply panelInv_ensure h
      intro _
      apply h.presented
      rw [hp]
      trivial
  | emptyKey _ | key _ | emptyCrt _ | crt _ => exact panelInv_write h hstep
  | writeFails hp => exact panelInv_raised h hp
  | loadFails _ _ | load _ _ => exact (panelInv_load h hstep).left
  | crash => exact h.down
  | launch _ => exact panelInv_of_rctd (a := Action.launch) h trivial hstep
  | invalid _ | validate _ => exact panelInv_of_rctd (a := Action.validate) h trivial hstep
  | quit => exact panelInv_of_rctd (a := Action.quit) h trivial hstep
  | noFile _ | newer _ | same _ _ _ => exact panelInv_of_rctd (a := Action.hello) h trivial hstep
  | readCrt _ => exact panelInv_of_rctd (a := Action.readCrt) h trivial hstep
  | noPair _ _ | readKey _ _ => exact panelInv_of_rctd (a := Action.readKey) h trivial hstep

end Steps

theorem panelInv_of_reachable {s : State} (h : machine.Reachable s) : PanelInv s :=
  h.invariant (fun _ => panelInv_of_installed) (fun _ _ _ => panelInv_step)

/-!
# Starting anew
-/

/-- What a panel does by itself until it serves. -/
def Action.Works : Action -> Prop
  | Action.start => True
  | Action.write => True
  | Action.load => True
  | _ => False

/-- How much of that is left. -/
def Panel.left : Panel -> Nat
  | Panel.down => 6
  | Panel.writing _ _ _ Write.emptyKey => 5
  | Panel.writing _ _ _ Write.key => 4
  | Panel.writing _ _ _ Write.emptyCrt => 3
  | Panel.writing _ _ _ Write.crt => 2
  | Panel.loading _ => 1
  | Panel.serving => 0

/-- A panel that is down, or has started since that time. -/
def Panel.Starts (time : Int) (checked : Option Int) : Panel -> Prop
  | Panel.down => True
  | Panel.writing first _ since _ => first = true ∧ since = time
  | Panel.loading first => first = true ∧ checked = some time
  | Panel.serving => checked = some time

/-- A panel that starts comes nearer to serving by its next step. -/
theorem starts_step {s : State} {time : Int} (h : PanelInv s) (hnow : s.now = time)
    (hstarts : s.panel.Starts time s.checked) (hleft : 0 < s.panel.left) :
    exists a t, a.Works ∧ step s a = some t ∧ t.now = time ∧ t.panel.Starts time t.checked ∧
      t.panel.left < s.panel.left := by
  have hholds := h.panel
  obtain ⟨p, hp⟩ : exists p, s.panel = p := ⟨_, rfl⟩
  rw [hp] at hstarts hleft hholds
  cases p with
  | down =>
      refine ⟨Action.start, s.ensure true, trivial, ?_, ?_⟩
      · rw [step, hp]
      · rw [hp, State.ensure]
        split
        · exact ⟨hnow, ⟨rfl, congrArg some hnow⟩, show 1 < 6 by decide⟩
        · exact ⟨hnow, ⟨rfl, hnow⟩, show 5 < 6 by decide⟩
  | writing first cert since next =>
      cases next with
      | emptyKey =>
          have hstep : step s Action.write = some { s with
              disk := s.disk.write s.now cert Write.emptyKey
              panel := Panel.writing first cert since Write.key } := by rw [step, hp]
          rw [hp]
          exact ⟨Action.write, _, trivial, hstep, hnow, hstarts, show 4 < 5 by decide⟩
      | key =>
          have hstep : step s Action.write = some { s with
              disk := s.disk.write s.now cert Write.key
              panel := Panel.writing first cert since Write.emptyCrt } := by rw [step, hp]
          rw [hp]
          exact ⟨Action.write, _, trivial, hstep, hnow, hstarts, show 3 < 4 by decide⟩
      | emptyCrt =>
          have hstep : step s Action.write = some { s with
              disk := s.disk.write s.now cert Write.emptyCrt
              panel := Panel.writing first cert since Write.crt } := by rw [step, hp]
          rw [hp]
          exact ⟨Action.write, _, trivial, hstep, hnow, hstarts, show 2 < 3 by decide⟩
      | crt =>
          have hstep : step s Action.write = some { s with
              disk := s.disk.write s.now cert Write.crt
              panel := Panel.loading first
              returned := some since
              checked := some since } := by rw [step, hp]
          rw [hp]
          exact ⟨Action.write, _, trivial, hstep, hnow,
            ⟨hstarts.left, congrArg some hstarts.right⟩, show 1 < 2 by decide⟩
  | loading first =>
      obtain ⟨c, hpair⟩ := Option.ne_none_iff_exists'.mp hholds
      have hstep : step s Action.load = some { s with
          panel := Panel.serving
          context := some c } := by rw [step, hp, hpair]
      rw [hp]
      exact ⟨Action.load, _, trivial, hstep, hnow, hstarts.right, show 0 < 1 by decide⟩
  | serving => cases hleft

/--
Whatever the panel and the engine did before, and wherever the panel stopped: a certificate
that the panel is about to load has its key on the disk; what the panel presents lasts for
more than thirty days from the last check that did not fail; and a panel that is down serves
after at most six steps of its own, with a pair that lasts.
-/
theorem panel_recovers {s : State} (h : machine.Reachable s) :
    (forall first, s.panel = Panel.loading first -> s.disk.pair ≠ none) ∧
      (s.panel.Presents -> exists c time,
        s.context = some c ∧ s.returned = some time ∧ Lasts time c) ∧
      (s.panel = Panel.down ->
        exists actions t, machine.Obeys (fun _ a => a.Works) s actions ∧ actions.length ≤ 6 ∧
          machine.exec s actions = some t ∧ t.panel = Panel.serving ∧
          exists c, t.context = some c ∧ t.disk.pair = some c ∧ Lasts s.now c) := by
  have hinv := panelInv_of_reachable h
  refine ⟨?_, hinv.presented, ?_⟩
  · intro first hp
    have hholds := hinv.panel
    rw [hp] at hholds
    exact hholds
  · intro hp
    have hfirst : PanelInv s ∧ s.now = s.now ∧ s.panel.Starts s.now s.checked := by
      refine ⟨hinv, rfl, ?_⟩
      rw [hp]
      trivial
    have hmore : forall u : State,
        (PanelInv u ∧ u.now = s.now ∧ u.panel.Starts s.now u.checked) -> 0 < u.panel.left ->
        exists a t, a.Works ∧ machine.step u a = some t ∧
          (PanelInv t ∧ t.now = s.now ∧ t.panel.Starts s.now t.checked) ∧
          t.panel.left < u.panel.left := by
      rintro u ⟨hu, hnow, hstarts⟩ hleft
      rcases starts_step hu hnow hstarts hleft with ⟨a, t, ha, hat, hnow', hstarts', hless⟩
      exact ⟨a, t, ha, hat, ⟨panelInv_step hu hat, hnow', hstarts'⟩, hless⟩
    rcases Machine.exists_exec_of_measure hmore hfirst with
      ⟨actions, t, hworks, hlength, hexec, ⟨ht, -, hstarts⟩, hzero⟩
    have hserving : t.panel = Panel.serving := by
      obtain ⟨p, hpt⟩ : exists p, t.panel = p := ⟨_, rfl⟩
      rw [hpt] at hzero ⊢
      cases p with
      | serving => rfl
      | down => cases hzero
      | loading first => cases hzero
      | writing first cert since next => cases next <;> cases hzero
    rw [hserving] at hstarts
    have hchecked : t.checked = some s.now := hstarts
    have hsome : t.checked ≠ none := by
      rw [hchecked]
      exact Option.some_ne_none s.now
    rcases ht.checked s.now hchecked with ⟨-, c, hc, hlasts⟩
    rw [show s.panel.left = 6 by rw [hp]; rfl] at hlength
    exact ⟨actions, t, hworks, hlength, hexec, hserving, c,
      (ht.current hserving hsome).trans hc, hc, hlasts⟩

/-- The first start, with no files. -/
def empty : State where
  now := 0
  disk := { crt := none, key := none, writes := 0 }
  panel := Panel.down
  context := none
  rctd := Rctd.down
  reloader := { cert := none, mtime := 0 }
  keys := 0
  returned := none
  checked := none
  answers := []

theorem installed_empty : Installed empty where
  panel := rfl
  rctd := rfl
  context := rfl
  reloader := rfl
  returned := rfl
  checked := rfl
  answers := rfl
  matching := by
    intro c hc
    cases hc
  past := by
    intro f hf
    cases hf
  old := by
    intro c hc
    cases hc

/-- The first certificate is issued, and the panel crashes 800 days later with a new key
that has no certificate yet. -/
def crashed : List Action :=
  [Action.start, Action.write, Action.write, Action.write, Action.write, Action.load,
    Action.tick 69120000000000, Action.wake, Action.write, Action.write, Action.crash]

theorem panel_recovers_crashed :
    exists s, machine.exec empty crashed = some s ∧ s.disk.pair = none ∧
      exists actions t, machine.exec s actions = some t ∧ t.panel = Panel.serving ∧
        t.disk.pair ≠ none := by
  have hrun : (machine.exec empty crashed).map (fun s => (s.panel, s.disk.pair)) =
      some (Panel.down, none) := by
    decide +kernel
  rcases Option.map_eq_some_iff.mp hrun with ⟨s, hexec, heq⟩
  have hreach : machine.Reachable s :=
    (Machine.Reachable.start (M := machine) installed_empty).exec hexec
  have hdown : s.panel = Panel.down := congrArg Prod.fst heq
  rcases (panel_recovers hreach).right.right hdown
    with ⟨actions, t, -, -, hactions, hserving, c, -, hpair, -⟩
  refine ⟨s, hexec, congrArg Prod.snd heq, actions, t, hactions, hserving, ?_⟩
  rw [hpair]
  exact Option.some_ne_none c

end ServerCert

end Joint
end RcTunnel
