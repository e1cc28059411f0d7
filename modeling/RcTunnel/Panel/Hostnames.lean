import RcTunnel.Panel.Agreement
import RcTunnel.Panel.Slug

/-!
# Host names of subdomains

A subdomain is checked label by label, without the empty ones and up to a line feed
at the end, and then used as it is: the team's label and the apex follow it.

The main result says which accepted subdomains make a host name of proper labels:
those without empty labels and without line feeds, under a team label that does not
end in a hyphen and leaves the name deep enough.
-/

namespace RcTunnel
namespace Panel

/-- The engine lower-cases label characters to themselves. -/
theorem toLower_of_isLabelChar {rt : Engine.Runtime} {label : Text}
    (h : forall c, c ∈ label -> isLabelChar c = true) : rt.toLower label = label := by
  unfold Engine.Runtime.toLower
  refine (List.map_congr_left fun c hc => ?_).trans (List.map_id label)
  have hcode := isLabelChar_iff.mp (h c hc)
  have hascii : c.val < 128 := UInt32.lt_iff_toNat_lt.mpr (by
    show c.toNat < 128
    omega)
  rw [if_pos hascii]
  exact toLower_eq_self (by omega)

theorem isLabel_of_matchLabel {t : Text} (h : matchLabel t = true) (hline : '\n' ∉ t) :
    isLabel t = true := by
  unfold matchLabel matchesToEnd at h
  rw [Bool.or_eq_true, Bool.and_eq_true, decide_eq_true_eq] at h
  rcases h with h | ⟨hlast, -⟩
  · exact h
  · exact absurd (List.mem_of_getLast? hlast) hline

namespace Api

/-- The string was accepted as the subdomain of a tunnel. -/
def AcceptedSubdomain (pl : Platform) (st : Settings) (s : Text) : Prop :=
  (exists db user fresh agentId body db',
    createTunnel pl st db user fresh agentId body = Except.ok db' ∧
      given body.subdomain = some s) ∨
  (exists db user tunnelId fields db',
    updateTunnel pl st db user tunnelId fields = Except.ok db' ∧
      given fields.subdomain.join = some s)

/-- The engine reads letters, digits and inner hyphens, and no character is a space or a
separator of the configuration. -/
def Proper (rt : Engine.Runtime) (l : Text) : Prop :=
  isLabel (rt.toLower l) = true ∧
    forall c, c ∈ l -> isSpace c = false ∧ c ≠ ',' ∧ c ≠ '|'

/-- The host is the apex behind a few proper labels, the first of which is not
reserved. -/
def WellFormedHost (rt : Engine.Runtime) (st : Settings) (apex host : Text) : Prop :=
  exists ls, ls ≠ [] ∧ host = List.intercalate ['.'] ls ++ '.' :: apex ∧
    ls.length ≤ st.subdomainMaxDepth ∧ (forall l, l ∈ ls -> Proper rt l) ∧
    forall l, ls.head? = some l -> reservedLabels.contains (rt.toLower l) = false

/-- What the checks leave to ask of a subdomain and the label of its team. -/
structure Clean (pl : Platform) (st : Settings) (s : Text) (label : Option Text) : Prop where
  nonempty : [] ∉ s.splitOn '.'
  line : '\n' ∉ pl.lower s
  team : forall l, label = some l -> l.getLast? ≠ some '-'
  depth : (labels s).length + label.toList.length ≤ st.subdomainMaxDepth

instance (pl : Platform) (st : Settings) (s : Text) (label : Option Text) :
    Decidable (Clean pl st s label) :=
  decidable_of_iff ((s.splitOn '.').all (· ≠ []) = true ∧ '\n' ∉ pl.lower s ∧
      (forall l, l ∈ label -> l.getLast? ≠ some '-') ∧
      (labels s).length + label.toList.length ≤ st.subdomainMaxDepth)
    ⟨fun ⟨hnonempty, hline, hteam, hdepth⟩ =>
        ⟨fun hnil => by simpa using List.all_eq_true.mp hnonempty [] hnil, hline, hteam, hdepth⟩,
      fun h => ⟨List.all_eq_true.mpr fun _ hl => decide_eq_true fun hnil => h.nonempty (hnil ▸ hl),
        h.line, h.team, h.depth⟩⟩

/-- The labels in front of the apex. -/
def parts (s : Text) (label : Option Text) : List Text := s.splitOn '.' ++ label.toList

section Names

variable {pl : Platform} {st : Settings} {rt : Engine.Runtime} {apex s name : Text}
variable {label : Option Text}

theorem checked_of_accepted (h : AcceptedSubdomain pl st s) :
    exists u, checkSubdomainLabels pl s = Except.ok u := by
  rcases h with ⟨db, user, fresh, agentId, body, db', hcreate, hs⟩ |
    ⟨db, user, tunnelId, fields, db', hupdate, hs⟩
  · simp only [createTunnel, bind_ok] at hcreate
    rcases hcreate with ⟨-, -, -, -, -, -, -, -, -, -, u, hlabels, -⟩
    exact ⟨u, whenGiven_ok hlabels hs⟩
  · simp only [updateTunnel, bind_ok] at hupdate
    rcases hupdate with ⟨-, -, -, -, -, -, -, -, u, hlabels, -⟩
    exact ⟨u, whenGiven_ok hlabels hs⟩

theorem reserved_of_checked {u : Unit} (h : checkSubdomainLabels pl s = Except.ok u) {l : Text}
    (hl : (labels s).head? = some l) : reservedLabels.contains (pl.lower l) = false := by
  simp only [checkSubdomainLabels, bind_ok, require_ok] at h
  rcases h with ⟨-, -, hreserved⟩
  exact hreserved l hl

theorem parts_of_label {l : Text} (hl : '.' ∉ l) :
    (s ++ '.' :: l).splitOn '.' = parts s (some l) := by
  rw [List.splitOn_append_cons_self, List.splitOn_eq_singleton hl]
  rfl

/-- The name is made of its parts. -/
theorem joined_parts (hlabel : forall l, label = some l -> l ≠ [] ∧ '.' ∉ l) :
    s ++ '.' :: suffix apex label =
      List.intercalate ['.'] (parts s label) ++ '.' :: apex := by
  cases label with
  | none =>
      simp [suffix, given, parts]
  | some l =>
      rcases hlabel l rfl with ⟨hne, hdot⟩
      have hgiven : given (some l) = some l := given_eq_some.mpr ⟨rfl, hne⟩
      rw [← parts_of_label hdot, List.intercalate_splitOn, suffix, hgiven]
      simp

theorem splitOn_parts (hlabel : forall l, label = some l -> '.' ∉ l) :
    (List.intercalate ['.'] (parts s label)).splitOn '.' = parts s label := by
  cases label with
  | none => simp [parts]
  | some l => rw [← parts_of_label (hlabel l rfl), List.intercalate_splitOn]

theorem dot_of_proper {l : Text} (h : Proper rt l) : '.' ∉ l := by
  intro hdot
  have hmem : '.' ∈ rt.toLower l := List.mem_map.mpr ⟨'.', hdot, rfl⟩
  exact absurd (chars_of_isLabel h.left hmem) (by decide)

/-- The labels of a host name under the apex are its parts. -/
theorem wellFormedHost_iff (hlabel : forall l, label = some l -> l ≠ [] ∧ '.' ∉ l) :
    WellFormedHost rt st apex (s ++ '.' :: suffix apex label) <->
      (parts s label).length ≤ st.subdomainMaxDepth ∧
        (forall l, l ∈ parts s label -> Proper rt l) ∧
        forall l, (parts s label).head? = some l ->
          reservedLabels.contains (rt.toLower l) = false := by
  rw [joined_parts hlabel]
  constructor
  · rintro ⟨ls, hne, heq, hdepth, hproper, hreserved⟩
    have hjoined := List.append_cancel_right heq
    have hls : ls = parts s label := by
      rw [← splitOn_parts fun l hl => (hlabel l hl).right, hjoined]
      exact (List.splitOn_intercalate '.' (fun l hl => dot_of_proper (hproper l hl)) hne).symm
    rw [← hls]
    exact ⟨hdepth, hproper, hreserved⟩
  · rintro ⟨hdepth, hproper, hreserved⟩
    refine ⟨parts s label, ?_, rfl, hdepth, hproper, hreserved⟩
    intro hnil
    exact List.splitOn_ne_nil '.' s (List.append_eq_nil_iff.mp hnil).left

theorem labels_eq_splitOn (h : [] ∉ s.splitOn '.') : labels s = s.splitOn '.' := by
  unfold labels
  rw [List.filter_eq_self]
  intro l hl
  simpa using fun hnil : l = [] => h (hnil ▸ hl)

section Accepted

variable (hpl : pl.Standard) (hcase : SameCase pl rt)
include hpl hcase

/-- The engine lower-cases a label of the subdomain as the panel does. -/
theorem toLower_of_label (hs : Subdomain pl s) {l : Text} (hl : l ∈ labels s) :
    rt.toLower l = pl.lower l := by
  apply Plain.toLower hpl hcase
  intro c hc
  exact (chars_of_matchLabel (hs l hl) hc).imp_left isDomainChar_of_isLabelChar

omit hcase in
/-- A text that both lower-case to one label is proper. -/
theorem proper_of_lower {l : Text} (hlower : rt.toLower l = pl.lower l)
    (h : isLabel (pl.lower l) = true) : Proper rt l := by
  have hkept : forall c, c ∈ l -> pl.lowerChar c = [c] -> isLabelChar c = true := by
    intro c hc hself
    exact chars_of_isLabel h (List.mem_flatMap.mpr ⟨c, hc, hself ▸ List.mem_singleton_self c⟩)
  constructor
  · rw [hlower]
    exact h
  · intro c hc
    constructor
    · by_contra hspace
      rw [Bool.not_eq_false] at hspace
      have hchar := isDomainChar_of_isLabelChar (hkept c hc (hpl.space c hspace))
      rw [isSpace_of_isDomainChar hchar] at hspace
      cases hspace
    · constructor
      · rintro rfl
        exact absurd (hkept ',' hc (hpl.ascii ',' (by decide))) (by decide)
      · rintro rfl
        exact absurd (hkept '|' hc (hpl.ascii '|' (by decide))) (by decide)

/-- The labels of the subdomain itself are proper when none is empty and none ends in a
line feed. -/
theorem proper_iff (hs : Subdomain pl s) :
    (forall l, l ∈ s.splitOn '.' -> Proper rt l) <->
      [] ∉ s.splitOn '.' ∧ '\n' ∉ pl.lower s := by
  constructor
  · intro hproper
    have hnonempty : [] ∉ s.splitOn '.' := by
      intro hmem
      cases (hproper [] hmem).left
    refine ⟨hnonempty, fun hline => ?_⟩
    rcases List.mem_flatMap.mp hline with ⟨c, hc, hlower⟩
    rcases mem_labels_of_mem hc with rfl | ⟨l, hl, hmem⟩
    · rw [hpl.ascii '.' (by decide)] at hlower
      exact absurd hlower (by decide)
    · have hlabel := (hproper l (labels_eq_splitOn hnonempty ▸ hl)).left
      rw [toLower_of_label hpl hcase hs hl] at hlabel
      have hchar := chars_of_isLabel hlabel (List.mem_flatMap.mpr ⟨c, hmem, hlower⟩)
      exact absurd hchar (by decide)
  · rintro ⟨hnonempty, hline⟩ l hsplit
    have hl : l ∈ labels s := (labels_eq_splitOn hnonempty).symm ▸ hsplit
    apply proper_of_lower hpl (toLower_of_label hpl hcase hs hl)
    apply isLabel_of_matchLabel (hs l hl)
    intro hmem
    rcases List.mem_flatMap.mp hmem with ⟨c, hc, hlower⟩
    exact hline (List.mem_flatMap.mpr ⟨c, mem_of_mem_splitOn hsplit hc, hlower⟩)

omit hcase in
/-- A team label is proper when it does not end in a hyphen. -/
theorem proper_label (h : slug pl name = some s) : Proper rt s <-> s.getLast? ≠ some '-' := by
  rcases slug_chars h with ⟨hne, hchars⟩
  have hlower : pl.lower s = s := lower_of_isLabelChar hpl hchars
  have hsame : rt.toLower s = s := toLower_of_isLabelChar hchars
  have hhead : s.head?.any isAlnum = true := by
    rcases List.exists_cons_of_ne_nil hne with ⟨c, rest, rfl⟩
    exact head_slug h rfl
  have hall : s.all isLabelChar = true := List.all_eq_true.mpr hchars
  have hlast := hchars (s.getLast hne) (List.getLast_mem hne)
  unfold isLabelChar at hlast
  rw [Bool.or_eq_true, decide_eq_true_eq] at hlast
  constructor
  · intro hproper heq
    have hlabel := hproper.left
    rw [hsame, isLabel, heq, Bool.and_eq_true] at hlabel
    exact absurd hlabel.right (by decide)
  · intro hnot
    apply proper_of_lower hpl (hsame.trans hlower.symm)
    rw [hlower, isLabel, hall, hhead, List.getLast?_eq_some_getLast hne, Option.any_some]
    apply hlast.resolve_right
    intro heq
    rw [List.getLast?_eq_some_getLast hne, heq] at hnot
    exact hnot rfl

/-- The name that {lit}`_domainize` makes of an accepted subdomain is the apex behind a few
proper labels exactly when the subdomain is clean. -/
theorem wellFormedHost_iff_clean (hs : AcceptedSubdomain pl st s)
    (hlabel : forall l, label = some l -> exists name, slug pl name = some l) {p : Payload}
    (hp : given p.subdomain = some s) {host : Text}
    (hhost : (p.fqdns apex label).head? = some host) :
    WellFormedHost rt st apex host <-> Clean pl st s label := by
  rcases checked_of_accepted hs with ⟨u, hchecked⟩
  have hsub := checkSubdomainLabels_ok hchecked
  have hteam : forall l, label = some l -> l ≠ [] ∧ '.' ∉ l := by
    intro l hl
    rcases hlabel l hl with ⟨name, hslug⟩
    rcases slug_chars hslug with ⟨hne, hchars⟩
    exact ⟨hne, fun hdot => absurd (hchars '.' hdot) (by decide)⟩
  have heq : host = s ++ '.' :: suffix apex label := by
    unfold Payload.fqdns at hhost
    rw [hp] at hhost
    exact (Option.some.inj hhost).symm
  have hproper : (forall l, l ∈ parts s label -> Proper rt l) <->
      ([] ∉ s.splitOn '.' ∧ '\n' ∉ pl.lower s) ∧
        forall l, label = some l -> l.getLast? ≠ some '-' := by
    rw [← proper_iff hpl hcase hsub]
    unfold parts
    simp only [List.mem_append, Option.mem_toList, or_imp, forall_and]
    apply and_congr_right
    intro _
    apply forall_congr'
    intro l
    apply imp_congr_right
    intro hl
    rcases hlabel l hl with ⟨name, hslug⟩
    exact proper_label hpl hslug
  rw [heq, wellFormedHost_iff hteam, hproper]
  have hlength : [] ∉ s.splitOn '.' -> (parts s label).length =
      (labels s).length + label.toList.length := by
    intro hnonempty
    rw [labels_eq_splitOn hnonempty, parts, List.length_append]
  constructor
  · rintro ⟨hdepth, ⟨⟨hnonempty, hline⟩, hend⟩, -⟩
    exact ⟨hnonempty, hline, hend, hlength hnonempty ▸ hdepth⟩
  · intro hclean
    refine ⟨(hlength hclean.nonempty).symm ▸ hclean.depth,
      ⟨⟨hclean.nonempty, hclean.line⟩, hclean.team⟩, ?_⟩
    intro l hl
    have hfirst : (labels s).head? = some l := by
      rw [labels_eq_splitOn hclean.nonempty]
      rw [parts, List.head?_append_of_ne_nil _ (List.splitOn_ne_nil '.' s)] at hl
      exact hl
    rw [toLower_of_label hpl hcase hsub (List.mem_of_head? hfirst)]
    exact reserved_of_checked hchecked hfirst

end Accepted

end Names

theorem acceptedSubdomain_site {s : Text}
    (h : (createTunnel asciiPlatform deployed edgeDb coreAdmin 1 7
      { siteBody with subdomain := some s }).isOk = true) (hne : s ≠ []) :
    AcceptedSubdomain asciiPlatform deployed s := by
  cases hcreate : createTunnel asciiPlatform deployed edgeDb coreAdmin 1 7
      { siteBody with subdomain := some s } with
  | error e =>
      rw [hcreate] at h
      cases h
  | ok db' =>
      exact Or.inl ⟨edgeDb, coreAdmin, 1, 7, _, db', hcreate, given_eq_some.mpr ⟨rfl, hne⟩⟩

theorem wellFormedHost_of_site :
    WellFormedHost nodeRuntime deployed "rc-tunnel.com".toList
      "Foo.core-team.rc-tunnel.com".toList :=
  (wellFormedHost_iff_clean standard_asciiPlatform sameCase_asciiPlatform
    (acceptedSubdomain_site (by decide +kernel) (by decide))
    (fun l hl => ⟨"Core Team".toList, hl⟩) (p := tunnelPayload (created 1 siteBody)) rfl
    (by decide)).mpr (by decide)

def siteUnder (s : Text) : Payload :=
  tunnelPayload (created 1 { siteBody with subdomain := some s })

/-- Two dots in a row are accepted. -/
theorem misformed_of_dots :
    ¬ forall (s : Text) (label : Option Text) (host : Text),
      AcceptedSubdomain asciiPlatform deployed s ->
      (forall l, label = some l -> exists name, slug asciiPlatform name = some l) ->
      ((siteUnder s).fqdns "rc-tunnel.com".toList label).head? = some host ->
        WellFormedHost nodeRuntime deployed "rc-tunnel.com".toList host := by
  intro h
  have hdots : AcceptedSubdomain asciiPlatform deployed "foo..bar".toList :=
    acceptedSubdomain_site (by decide +kernel) (by decide)
  have hformed := h "foo..bar".toList none
    ("foo..bar".toList ++ '.' :: suffix "rc-tunnel.com".toList none) hdots (by simp) rfl
  rcases (wellFormedHost_iff (by simp)).mp hformed with ⟨-, hproper, -⟩
  cases (hproper [] (by decide)).left

end Api

end Panel
end RcTunnel
