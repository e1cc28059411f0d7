import RcTunnel.Engine.Conf
import RcTunnel.Panel.Agreement
import RcTunnel.Panel.Tokens

/-!
# The exported configuration of the engine

The panel renders the file that {lit}`rctd` is started with.  Every value stands in quotes
and is read back as it was, but the secret of the grants is not rendered at all, so an
engine that is started with the file enforces no grants.
-/

namespace RcTunnel
namespace Panel

open Engine.Conf

namespace Api

namespace Export

/-- What {lit}`render_rctd` and the grants read of the settings. -/
structure Settings where
  pkiDir : Text
  rctdWorkconnPort : Int
  grantSecret : Text
deriving DecidableEq, Repr

/-- {lit}`s.pki_dir.rstrip("/")`. -/
def Settings.pki (s : Settings) : Text := s.pkiDir.rdropWhile (· = '/')

def rctdHeader (node : Tokens.Node) : Text :=
  "# RC-Tunnel data-plane server (rctd) config for node '".toList ++ node.name ++ "'".toList

section Render

variable (s : Settings) (node : Tokens.Node)

def rctdEntries : List Entry :=
  [⟨"control".toList, " ".toList, ':' :: (toString node.controlPort).toList⟩,
    ⟨"work".toList, "    ".toList, ':' :: (toString s.rctdWorkconnPort).toList⟩,
    ⟨"vhost".toList, "   ".toList,
      "127.0.0.1:".toList ++ (toString node.vhostHttpPort).toList⟩,
    ⟨"stats".toList, "   ".toList, "127.0.0.1:7401".toList⟩,
    ⟨"token".toList, "   ".toList, node.nodeToken⟩,
    ⟨"cert".toList, "    ".toList, s.pki ++ "/server.crt".toList⟩,
    ⟨"key".toList, "     ".toList, s.pki ++ "/server.key".toList⟩,
    ⟨"ca".toList, "      ".toList, s.pki ++ "/ca.crt".toList⟩,
    ⟨"revoked".toList, " ".toList, s.pki ++ "/revoked-serials".toList⟩]

/-- {lit}`render_rctd`. -/
def renderRctd : Text := unlines (rctdHeader node :: (rctdEntries s node).map Entry.line)

/-- The engine of the node as the panel uses it. -/
def expectedRctd : Rctd where
  control := ':' :: (toString node.controlPort).toList
  work := ':' :: (toString s.rctdWorkconnPort).toList
  vhost := "127.0.0.1:".toList ++ (toString node.vhostHttpPort).toList
  stats := "127.0.0.1:7401".toList
  token := node.nodeToken
  grantSecret := s.grantSecret
  cert := s.pki ++ "/server.crt".toList
  key := s.pki ++ "/server.key".toList
  ca := s.pki ++ "/ca.crt".toList
  revoked := s.pki ++ "/revoked-serials".toList

/-- The engine that is started with the exported file. -/
def startedRctd : Rctd := defaults.overlay (parseFlat (renderRctd s node))

/-- No line feed and no double quote. -/
def Unbroken (t : Text) : Prop := '\n' ∉ t ∧ '"' ∉ t

instance (t : Text) : Decidable (Unbroken t) := inferInstanceAs (Decidable (_ ∧ _))

/-- No value of the node and the settings holds a line feed or a double quote. -/
structure Exportable : Prop where
  name : Unbroken node.name
  token : Unbroken node.nodeToken
  pkiDir : Unbroken s.pkiDir

end Render

section Export

variable {s : Settings} {node : Tokens.Node}

theorem keys_rctdEntries : (rctdEntries s node).map Entry.key =
    ["control".toList, "work".toList, "vhost".toList, "stats".toList, "token".toList,
      "cert".toList, "key".toList, "ca".toList, "revoked".toList] := rfl

theorem pads_rctdEntries : (rctdEntries s node).map Entry.pad =
    [" ".toList, "    ".toList, "   ".toList, "   ".toList, "   ".toList, "    ".toList,
      "     ".toList, "      ".toList, " ".toList] := rfl

theorem Unbroken.append {t u : Text} (ht : Unbroken t) (hu : Unbroken u) :
    Unbroken (t ++ u) := by
  constructor
  · exact fun h => (List.mem_append.mp h).elim ht.left hu.left
  · exact fun h => (List.mem_append.mp h).elim ht.right hu.right

theorem unbroken_toString (n : Int) : Unbroken (toString n).toList := by
  rw [toList_toString]
  exact ⟨Engine.not_mem_itoa (by decide) (by decide) n,
    Engine.not_mem_itoa (by decide) (by decide) n⟩

theorem unbroken_pki (h : Unbroken s.pkiDir) : Unbroken s.pki := by
  have hsubset := (List.rdropWhile_prefix (fun c => decide (c = '/')) s.pkiDir).subset
  exact ⟨fun hc => h.left (hsubset hc), fun hc => h.right (hsubset hc)⟩

theorem unbroken_values (h : Exportable s node) :
    forall e, e ∈ rctdEntries s node -> Unbroken e.value := by
  have hpki := unbroken_pki h.pkiDir
  simp only [rctdEntries, List.forall_mem_cons]
  refine ⟨?_, ?_, ?_, ?_, h.token, ?_, ?_, ?_, ?_, List.forall_mem_nil _⟩
  · exact Unbroken.append (t := [':']) (by decide) (unbroken_toString _)
  · exact Unbroken.append (t := [':']) (by decide) (unbroken_toString _)
  · exact Unbroken.append (by decide) (unbroken_toString _)
  · decide
  · exact hpki.append (by decide)
  · exact hpki.append (by decide)
  · exact hpki.append (by decide)
  · exact hpki.append (by decide)

theorem sound_rctdEntries (h : Exportable s node) {e : Entry} (he : e ∈ rctdEntries s node) :
    e.Sound := by
  have hkeys : ((rctdEntries s node).map Entry.key).all (fun k => decide (k ≠ []) && k.all fun c =>
      decide ((Engine.isSpace c = false ∧ c ≠ ':' ∧ c ≠ '#') ∧ c ≠ '\n')) = true := by
    rw [keys_rctdEntries]
    decide
  have hpads : ((rctdEntries s node).map Entry.pad).all (fun p => p.all fun c =>
      decide (Engine.isSpace c = true ∧ c ≠ '\n')) = true := by
    rw [pads_rctdEntries]
    decide
  simp only [List.all_eq_true, Bool.and_eq_true, decide_eq_true_eq] at hkeys hpads
  have hkey := hkeys e.key (List.mem_map_of_mem he)
  have hpad := hpads e.pad (List.mem_map_of_mem he)
  have hvalue := unbroken_values h e he
  constructor
  · exact hkey.left
  · exact fun c hc => (hkey.right c hc).left
  · exact fun c hc => (hpad c hc).left
  · intro c hc
    rcases List.mem_append.mp hc with hc | hc
    · rcases List.mem_append.mp hc with hc | hc
      · exact (hkey.right c hc).right
      · exact (hpad c hc).right
    · exact fun hfeed => hvalue.left (hfeed ▸ hc)
  · exact hvalue.right

theorem feed_rctdHeader (h : Exportable s node) : '\n' ∉ rctdHeader node := by
  unfold rctdHeader
  intro hmem
  rcases List.mem_append.mp hmem with hmem | hmem
  · rcases List.mem_append.mp hmem with hmem | hmem
    · exact absurd hmem (by decide)
    · exact h.name.left hmem
  · exact absurd hmem (by decide)

theorem parseFlat_renderRctd (h : Exportable s node) (key : Text) :
    parseFlat (renderRctd s node) key =
      ((scanned (rctdHeader node) (rctdEntries s node)).reverse.find? fun e => e.key = key).map
        Entry.value := by
  apply parseFlat_unlines
  · rfl
  · exact feed_rctdHeader h
  · unfold rctdHeader
    rw [show "'".toList = ['\''] from rfl, List.getLast?_concat]
    decide
  · exact fun e he => sound_rctdEntries h he

/-- A key that is not rendered is not read. -/
theorem parseFlat_absent (h : Exportable s node) {key : Text}
    (hkey : key ∉ (rctdEntries s node).map Entry.key) :
    parseFlat (renderRctd s node) key = none := by
  rw [parseFlat_renderRctd h, Option.map_eq_none_iff, List.find?_eq_none]
  intro e he
  have hmem := scanned_subset (List.mem_reverse.mp he)
  rw [decide_eq_true_eq]
  rintro rfl
  exact hkey (List.mem_map_of_mem hmem)

/-- The last value is read only if every line fits. -/
theorem fits_of_revoked (h : Exportable s node)
    (hread : parseFlat (renderRctd s node) "revoked".toList ≠ none) :
    Fits (rctdHeader node) ∧ forall e, e ∈ rctdEntries s node -> Fits e.line := by
  rw [parseFlat_renderRctd h, ne_eq, Option.map_eq_none_iff] at hread
  rcases Option.ne_none_iff_exists'.mp hread with ⟨e, hfind⟩
  have hfound := List.find?_some hfind
  have hkey : e.key = "revoked".toList := of_decide_eq_true hfound
  have hmem := List.mem_reverse.mp (List.mem_of_find?_eq_some hfind)
  have hsplit : rctdEntries s node = (rctdEntries s node).dropLast ++
      [⟨"revoked".toList, " ".toList, s.pki ++ "/revoked-serials".toList⟩] := rfl
  rw [hsplit] at hmem ⊢
  apply fits_of_last hmem
  intro hfront
  have hearlier := List.mem_map_of_mem (f := Entry.key) hfront
  rw [hkey, List.map_dropLast, keys_rctdEntries] at hearlier
  exact absurd hearlier (by decide)

/-- The engine is started as the panel uses it exactly when no grants are to be enforced and
every line fits into the engine's scanner. -/
theorem startedRctd_iff (h : Exportable s node) :
    startedRctd s node = expectedRctd s node <->
      s.grantSecret = [] ∧ Fits (rctdHeader node) ∧
        forall e, e ∈ rctdEntries s node -> Fits e.line := by
  constructor
  · intro heq
    constructor
    · have habsent : "grant_secret".toList ∉ (rctdEntries s node).map Entry.key := by
        rw [keys_rctdEntries]
        decide
      have hread := congrArg Rctd.grantSecret heq
      rw [startedRctd, Rctd.overlay_grantSecret, parseFlat_absent h habsent] at hread
      exact hread.symm
    · apply fits_of_revoked h
      intro hnone
      have hread := congrArg Rctd.revoked heq
      rw [startedRctd, Rctd.overlay_revoked, hnone] at hread
      have hempty := (List.append_eq_nil_iff.mp hread.symm).right
      exact absurd hempty (by decide)
  · rintro ⟨hsecret, hheader, hfits⟩
    have hall : scanned (rctdHeader node) (rctdEntries s node) = rctdEntries s node := by
      unfold scanned
      rw [if_pos hheader, List.takeWhile_eq_self_iff]
      simpa using hfits
    have hread : parseFlat (renderRctd s node) = fun key =>
        ((rctdEntries s node).reverse.find? fun e => e.key = key).map Entry.value := by
      funext key
      rw [parseFlat_renderRctd h, hall]
    unfold startedRctd expectedRctd
    rw [hread, hsecret]
    rfl

end Export

def edgeNode : Tokens.Node :=
  ⟨1, "edge1".toList, "185.230.138.218".toList, "rc-tunnel.com".toList, 7000, 8090,
    "AB8z_secret".toList⟩

def unsigned : Settings := ⟨"/var/lib/rctunnel-panel/pki/".toList, 7001, []⟩

/-- A panel that signs no grants. -/
theorem startedRctd_edgeNode : startedRctd unsigned edgeNode = expectedRctd unsigned edgeNode :=
  (startedRctd_iff ⟨by decide, by decide, by decide⟩).mpr ⟨rfl, by decide +kernel, by decide +kernel⟩

def signing : Settings := { unsigned with grantSecret := "s3cr3t".toList }

/-- The panel signs grants, and the engine does not ask for them. -/
theorem ungranted_of_secret :
    (startedRctd signing edgeNode).grantSecret = [] ∧ signing.grantSecret ≠ [] ∧
      ¬ forall s node, Exportable s node -> startedRctd s node = expectedRctd s node := by
  have hnone : (startedRctd signing edgeNode).grantSecret = [] := by decide +kernel
  refine ⟨hnone, by decide, fun h => ?_⟩
  have hexpected := h signing edgeNode ⟨by decide, by decide, by decide⟩
  rw [hexpected] at hnone
  exact absurd hnone (by decide)

end Export

end Api

end Panel
end RcTunnel
