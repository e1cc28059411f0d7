import Mathlib.Data.List.DropRight

/-!
# Texts of the panel

The panel's validators are short text functions: stripping, splitting at commas
and dots, lower-casing, and four regular expressions.  Lower-casing a character
outside ASCII, and lower-casing in the database, are left to the platform.
-/

namespace RcTunnel
namespace Panel

abbrev Text := List Char

/-- The column holds a text that counts as true. -/
def given (t : Option Text) : Option Text := t.filter (· ≠ [])

theorem given_eq_some {t : Option Text} {s : Text} :
    given t = some s <-> t = some s ∧ s ≠ [] := by
  unfold given
  rw [Option.filter_eq_some_iff]
  simp

/-!
# Stripping and splitting
-/

/-- The characters {lit}`str.strip` removes. -/
def isSpace (c : Char) : Bool :=
  (9 ≤ c.toNat ∧ c.toNat ≤ 13) ∨ (28 ≤ c.toNat ∧ c.toNat ≤ 32) ∨ c.toNat = 0x85 ∨
    c.toNat = 0xA0 ∨ c.toNat = 0x1680 ∨ (0x2000 ≤ c.toNat ∧ c.toNat ≤ 0x200A) ∨
    c.toNat = 0x2028 ∨ c.toNat = 0x2029 ∨ c.toNat = 0x202F ∨ c.toNat = 0x205F ∨
    c.toNat = 0x3000

/-- {lit}`str.strip` of the characters that satisfy the predicate. -/
def stripOf (p : Char -> Bool) (t : Text) : Text := (t.dropWhile p).rdropWhile p

def strip (t : Text) : Text := stripOf isSpace t

/-- {lit}`[d.strip() for d in t.split(",") if d.strip()]`. -/
def pieces (t : Text) : List Text := ((t.splitOn ',').map strip).filter (· ≠ [])

/-- {lit}`[p for p in t.split(".") if p]`. -/
def labels (t : Text) : List Text := (t.splitOn '.').filter (· ≠ [])

theorem mem_of_mem_stripOf {p : Char -> Bool} {t : Text} {c : Char}
    (h : c ∈ stripOf p t) : c ∈ t :=
  (List.dropWhile_suffix p).subset ((List.rdropWhile_prefix p (t.dropWhile p)).subset h)

/-- A text with no space at either end. -/
def Stripped (t : Text) : Prop :=
  (forall c, t.head? = some c -> isSpace c = false) ∧
    forall c, t.getLast? = some c -> isSpace c = false

theorem strip_eq_self {t : Text} (h : Stripped t) : strip t = t := by
  have hfront : t.dropWhile isSpace = t := by
    cases t with
    | nil => rfl
    | cons c rest => simp [h.left c rfl]
  unfold strip stripOf
  rw [hfront, List.rdropWhile_eq_self_iff]
  intro hne
  simp [h.right (t.getLast hne) (List.getLast?_eq_some_getLast hne)]

theorem stripped_strip (t : Text) : Stripped (strip t) := by
  constructor
  · intro c hc
    have hkept := List.rdropWhile_prefix isSpace (t.dropWhile isSpace)
    have hhead : (t.dropWhile isSpace).head? = some c := by
      rcases hkept with ⟨rest, heq⟩
      rw [← heq]
      cases hstrip : (t.dropWhile isSpace).rdropWhile isSpace with
      | nil => simp [strip, stripOf, hstrip] at hc
      | cons c' rest' => simpa [strip, stripOf, hstrip] using hc
    have hnot := List.head?_dropWhile_not isSpace t
    simpa [hhead] using hnot
  · intro c hc
    cases hstrip : strip t with
    | nil => simp [hstrip] at hc
    | cons c' rest =>
        have hne : (t.dropWhile isSpace).rdropWhile isSpace ≠ [] := by
          unfold strip stripOf at hstrip
          simp [hstrip]
        have hlast := List.rdropWhile_last_not isSpace (t.dropWhile isSpace) hne
        unfold strip stripOf at hc
        rw [List.getLast?_eq_some_getLast hne] at hc
        cases hc
        simpa using hlast

theorem strip_strip (t : Text) : strip (strip t) = strip t :=
  strip_eq_self (stripped_strip t)

theorem not_mem_of_mem_splitOn {sep : Char} {t piece : Text}
    (h : piece ∈ t.splitOn sep) : sep ∉ piece := by
  induction t generalizing piece with
  | nil => simp_all
  | cons c rest ih =>
      rw [List.splitOn_cons_eq_if_modifyHead] at h
      split at h
      · rcases List.mem_cons.mp h with rfl | h
        · simp
        · exact ih h
      · rename_i hne
        rcases List.exists_cons_of_ne_nil (List.splitOn_ne_nil sep rest) with
          ⟨first, others, heq⟩
        rw [heq] at h ih
        simp only [List.modifyHead_cons, List.mem_cons] at h
        rcases h with rfl | h
        · have hfirst := ih List.mem_cons_self
          simp only [beq_iff_eq] at hne
          simp [Ne.symm hne, hfirst]
        · exact ih (List.mem_cons_of_mem _ h)

theorem mem_splitOn_of_mem {sep : Char} {t : Text} {c : Char} (h : c ∈ t) :
    c = sep ∨ exists piece, piece ∈ t.splitOn sep ∧ c ∈ piece := by
  induction t with
  | nil => cases h
  | cons first rest ih =>
      rcases List.exists_cons_of_ne_nil (List.splitOn_ne_nil sep rest) with
        ⟨piece, others, heq⟩
      rw [List.splitOn_cons_eq_if_modifyHead, heq]
      rw [heq] at ih
      by_cases hsep : first = sep
      · rcases List.mem_cons.mp h with rfl | h
        · exact Or.inl hsep
        · rcases ih h with hc | ⟨p, hp, hc⟩
          · exact Or.inl hc
          · refine Or.inr ⟨p, ?_, hc⟩
            rw [if_pos (by simpa using hsep)]
            exact List.mem_cons_of_mem _ hp
      · rw [if_neg (by simpa using hsep), List.modifyHead_cons]
        rcases List.mem_cons.mp h with rfl | h
        · exact Or.inr ⟨c :: piece, List.mem_cons_self, List.mem_cons_self⟩
        · rcases ih h with hc | ⟨p, hp, hc⟩
          · exact Or.inl hc
          · rcases List.mem_cons.mp hp with rfl | hp
            · exact Or.inr ⟨first :: p, List.mem_cons_self, List.mem_cons_of_mem _ hc⟩
            · exact Or.inr ⟨p, List.mem_cons_of_mem _ hp, hc⟩

theorem mem_of_mem_splitOn {sep : Char} {t piece : Text} (h : piece ∈ t.splitOn sep) {c : Char}
    (hc : c ∈ piece) : c ∈ t := by
  induction t generalizing piece with
  | nil =>
      rw [List.splitOn_nil, List.mem_singleton] at h
      rw [h] at hc
      cases hc
  | cons first rest ih =>
      rcases List.exists_cons_of_ne_nil (List.splitOn_ne_nil sep rest) with
        ⟨start, others, heq⟩
      rw [List.splitOn_cons_eq_if_modifyHead, heq] at h
      rw [heq] at ih
      split at h
      · rcases List.mem_cons.mp h with rfl | h
        · cases hc
        · exact List.mem_cons_of_mem first (ih h hc)
      · rw [List.modifyHead_cons] at h
        rcases List.mem_cons.mp h with rfl | h
        · rcases List.mem_cons.mp hc with rfl | hc
          · exact List.mem_cons_self
          · exact List.mem_cons_of_mem first (ih List.mem_cons_self hc)
        · exact List.mem_cons_of_mem first (ih (List.mem_cons_of_mem start h) hc)

/-- Every character of a text is a dot or in one of its labels. -/
theorem mem_labels_of_mem {t : Text} {c : Char} (h : c ∈ t) :
    c = '.' ∨ exists label, label ∈ labels t ∧ c ∈ label := by
  rcases mem_splitOn_of_mem h with hdot | ⟨label, hlabel, hc⟩
  · exact Or.inl hdot
  · refine Or.inr ⟨label, List.mem_filter.mpr ⟨hlabel, ?_⟩, hc⟩
    simpa using List.ne_nil_of_mem hc

/-- A text begins with a dot or with one of its labels. -/
theorem labels_of_head (c : Char) (rest : Text) :
    c = '.' ∨ exists label, (c :: label) ∈ labels (c :: rest) := by
  rcases List.exists_cons_of_ne_nil (List.splitOn_ne_nil '.' rest) with
    ⟨label, others, heq⟩
  by_cases hdot : c = '.'
  · exact Or.inl hdot
  · refine Or.inr ⟨label, ?_⟩
    unfold labels
    rw [List.splitOn_cons_eq_if_modifyHead, heq, if_neg (by simpa using hdot)]
    simp

/-- A text that survives being joined with others and split again. -/
def Piece (t : Text) : Prop := ',' ∉ t ∧ strip t = t ∧ t ≠ []

theorem piece_of_mem {t piece : Text} (h : piece ∈ pieces t) : Piece piece := by
  rcases List.mem_filter.mp h with ⟨hmem, hne⟩
  rcases List.mem_map.mp hmem with ⟨raw, hraw, rfl⟩
  refine ⟨fun hcomma => ?_, strip_strip raw, by simpa using hne⟩
  exact not_mem_of_mem_splitOn hraw (mem_of_mem_stripOf hcomma)

theorem pieces_join {parts : List Text} (h : forall t, t ∈ parts -> Piece t) :
    pieces (List.intercalate [','] parts) = parts := by
  cases parts with
  | nil => rfl
  | cons first others =>
      have hsplit : (List.intercalate [','] (first :: others)).splitOn ',' =
          first :: others :=
        List.splitOn_intercalate ',' (fun t ht => (h t ht).left) (by simp)
      have hstrip : (first :: others).map strip = first :: others := by
        refine (List.map_congr_left fun t ht => ?_).trans (List.map_id _)
        exact (h t ht).right.left
      unfold pieces
      rw [hsplit, hstrip, List.filter_eq_self]
      intro t ht
      simpa using (h t ht).right.right

/-- The order of texts, by code points. -/
def textLe : Text -> Text -> Bool
  | [], _ => true
  | _ :: _, [] => false
  | c :: s, d :: t => c.toNat < d.toNat || (c = d && textLe s t)

/-!
# Lower-casing
-/

structure Platform where
  /-- {lit}`str.lower` on one character -/
  lowerChar : Char -> Text
  /-- {lit}`lower` of the database -/
  sqlLower : Text -> Text

def Platform.lower (pl : Platform) (t : Text) : Text := t.flatMap pl.lowerChar

/-- What the Unicode tables say of ASCII, of spaces and of lower-cased characters. -/
structure Platform.Standard (pl : Platform) : Prop where
  ascii : forall c : Char, c.toNat < 128 -> pl.lowerChar c = [c.toLower]
  space : forall c, isSpace c = true -> pl.lowerChar c = [c]
  lowered : forall c d, d ∈ pl.lowerChar c -> pl.lowerChar d = [d]

/-- Lower-casing makes no separators. -/
structure Platform.KeepsSeparators (pl : Platform) : Prop where
  comma : forall c, ',' ∈ pl.lowerChar c -> c = ','
  bar : forall c, '|' ∈ pl.lowerChar c -> c = '|'

theorem Platform.lower_eq_self {pl : Platform} {t : Text}
    (h : forall c, c ∈ t -> pl.lowerChar c = [c]) : pl.lower t = t := by
  induction t with
  | nil => rfl
  | cons c rest ih =>
      have hrest := ih fun d hd => h d (List.mem_cons_of_mem c hd)
      unfold Platform.lower at hrest ⊢
      rw [List.flatMap_cons, h c List.mem_cons_self, hrest]
      rfl

theorem Platform.lower_append (pl : Platform) (s t : Text) :
    pl.lower (s ++ t) = pl.lower s ++ pl.lower t := List.flatMap_append

theorem Platform.Standard.lower_lower {pl : Platform} (h : pl.Standard) (t : Text) :
    pl.lower (pl.lower t) = pl.lower t := by
  refine Platform.lower_eq_self fun d hd => ?_
  rcases List.mem_flatMap.mp hd with ⟨c, -, hd⟩
  exact h.lowered c d hd

/-!
# The regular expressions
-/

/-- The character is in a range of a character class. -/
def between (first last c : Char) : Bool :=
  first.toNat ≤ c.toNat && c.toNat ≤ last.toNat

/-- {lit}`[a-z0-9]`. -/
def isAlnum (c : Char) : Bool := between 'a' 'z' c || between '0' '9' c

/-- {lit}`[a-z0-9-]`. -/
def isLabelChar (c : Char) : Bool := isAlnum c || c = '-'

/-- The characters of a domain name. -/
def isDomainChar (c : Char) : Bool := between 'A' 'Z' c || isLabelChar c || c = '.'

/-- {lit}`[a-z0-9]([a-z0-9-]*[a-z0-9])?`. -/
def isLabel (t : Text) : Bool :=
  t.all isLabelChar && t.head?.any isAlnum && t.getLast?.any isAlnum

/-- The last label of a domain: {lit}`xn--` and label characters, or letters. -/
def isTopLabel (t : Text) : Bool :=
  ("xn--".toList.isPrefixOf t && (t.drop 4).all isLabelChar && 6 ≤ t.length) ||
    (t.all (between 'a' 'z') && 2 ≤ t.length)

def isFqdn (t : Text) : Bool :=
  let parts := t.splitOn '.'
  t.length ≤ 253 && 2 ≤ parts.length && parts.dropLast.all isLabel &&
    parts.getLast?.any isTopLabel

/-- {lit}`$` matches at the end, and before a newline at the end. -/
def matchesToEnd (p : Text -> Bool) (t : Text) : Bool :=
  p t || (t.getLast? = some '\n' && p t.dropLast)

/-- {lit}`_LABEL_RE.match`. -/
def matchLabel : Text -> Bool := matchesToEnd isLabel

/-- {lit}`_FQDN_RE.match`. -/
def matchFqdn : Text -> Bool := matchesToEnd isFqdn

theorem mem_of_matchesToEnd {p : Text -> Bool} {t : Text} (h : matchesToEnd p t = true)
    {c : Char} (hc : c ∈ t) : (exists u, p u = true ∧ c ∈ u) ∨ c = '\n' := by
  unfold matchesToEnd at h
  rw [Bool.or_eq_true, Bool.and_eq_true, decide_eq_true_eq] at h
  rcases h with h | ⟨hlast, h⟩
  · exact Or.inl ⟨t, h, hc⟩
  · rw [← List.dropLast_append_getLast? '\n' hlast] at hc
    rcases List.mem_append.mp hc with hc | hc
    · exact Or.inl ⟨t.dropLast, h, hc⟩
    · exact Or.inr (List.mem_singleton.mp hc)

theorem chars_of_isLabel {t : Text} (h : isLabel t = true) {c : Char} (hc : c ∈ t) :
    isLabelChar c = true := by
  simp only [isLabel, Bool.and_eq_true, List.all_eq_true] at h
  exact h.left.left c hc

theorem chars_of_matchLabel {t : Text} (h : matchLabel t = true) {c : Char}
    (hc : c ∈ t) : isLabelChar c = true ∨ c = '\n' :=
  (mem_of_matchesToEnd h hc).imp_left fun ⟨_, hlabel, hmem⟩ => chars_of_isLabel hlabel hmem

theorem chars_of_isTopLabel {t : Text} (h : isTopLabel t = true) {c : Char} (hc : c ∈ t) :
    isLabelChar c = true := by
  unfold isTopLabel at h
  rw [Bool.or_eq_true, Bool.and_eq_true, Bool.and_eq_true, Bool.and_eq_true,
    List.all_eq_true, List.all_eq_true, List.isPrefixOf_iff_prefix] at h
  rcases h with ⟨⟨hstart, hrest⟩, -⟩ | ⟨hletters, -⟩
  · rcases hstart with ⟨rest, rfl⟩
    rcases List.mem_append.mp hc with hmark | hmem
    · exact List.all_eq_true.mp (by decide : "xn--".toList.all isLabelChar = true) c hmark
    · exact hrest c hmem
  · simp [isLabelChar, isAlnum, hletters c hc]

theorem chars_of_isFqdn {t : Text} (h : isFqdn t = true) {c : Char} (hc : c ∈ t) :
    isDomainChar c = true := by
  simp only [isFqdn, Bool.and_eq_true, List.all_eq_true] at h
  rcases h with ⟨⟨-, hlabels⟩, htop⟩
  rcases (Option.any_eq_true _ _).mp htop with ⟨last, hlast, hlastLabel⟩
  have hsplit : c = '.' ∨ exists piece, piece ∈ t.splitOn '.' ∧ c ∈ piece :=
    mem_splitOn_of_mem hc
  rcases hsplit with rfl | ⟨piece, hpiece, hmem⟩
  · rfl
  · have hlabel : isLabelChar c = true := by
      rw [← List.dropLast_append_getLast? last hlast] at hpiece
      rcases List.mem_append.mp hpiece with hinner | hend
      · exact chars_of_isLabel (hlabels piece hinner) hmem
      · rw [List.mem_singleton.mp hend] at hmem
        exact chars_of_isTopLabel hlastLabel hmem
    simp [isDomainChar, hlabel]

theorem chars_of_matchFqdn {t : Text} (h : matchFqdn t = true) {c : Char} (hc : c ∈ t) :
    isDomainChar c = true ∨ c = '\n' :=
  (mem_of_matchesToEnd h hc).imp_left fun ⟨_, hfqdn, hmem⟩ => chars_of_isFqdn hfqdn hmem

theorem head_of_matchLabel {c : Char} {t : Text} (h : matchLabel (c :: t) = true) :
    isAlnum c = true := by
  unfold matchLabel matchesToEnd at h
  rw [Bool.or_eq_true, Bool.and_eq_true] at h
  rcases h with h | ⟨-, h⟩
  · simp only [isLabel, Bool.and_eq_true] at h
    simpa using h.left.right
  · cases t with
    | nil => cases h
    | cons d rest =>
        simp only [isLabel, Bool.and_eq_true] at h
        simpa using h.left.right

/-- {lit}`re.sub(r"[^a-z0-9]+", "-", t)`, given whether a run has begun. -/
def dashed (begun : Bool) : Text -> Text
  | [] => []
  | c :: rest =>
      if isAlnum c then
        c :: dashed false rest
      else if begun then
        dashed true rest
      else
        '-' :: dashed true rest

/-- {lit}`_slug`. -/
def slug (pl : Platform) (name : Text) : Option Text :=
  let s := (stripOf (· = '-') (dashed false (pl.lower name))).take 63
  if s = [] then none else some s

theorem isLabelChar_of_mem_dashed {begun : Bool} {t : Text} {c : Char}
    (h : c ∈ dashed begun t) : isLabelChar c = true := by
  induction t generalizing begun with
  | nil => cases h
  | cons first rest ih =>
      unfold dashed at h
      split at h
      · rename_i halnum
        rcases List.mem_cons.mp h with rfl | h
        · simp [isLabelChar, halnum]
        · exact ih h
      · split at h
        · exact ih h
        · rcases List.mem_cons.mp h with rfl | h
          · rfl
          · exact ih h

theorem slug_chars {pl : Platform} {name label : Text} (h : slug pl name = some label) :
    label ≠ [] ∧ forall c, c ∈ label -> isLabelChar c = true := by
  unfold slug at h
  simp only at h
  split at h
  · cases h
  · rename_i hne
    cases h
    refine ⟨hne, fun c hc => ?_⟩
    exact isLabelChar_of_mem_dashed (mem_of_mem_stripOf (List.mem_of_mem_take hc))

/-!
# Names under a suffix

A subdomain whose labels match is followed by a suffix of domain characters.
The name so made has no comma and no space at its ends.
-/

theorem between_iff {first last c : Char} :
    between first last c = true <-> first.toNat ≤ c.toNat ∧ c.toNat ≤ last.toNat := by
  simp [between]

theorem isAlnum_iff {c : Char} : isAlnum c = true <->
    (97 ≤ c.toNat ∧ c.toNat ≤ 122) ∨ (48 ≤ c.toNat ∧ c.toNat ≤ 57) := by
  unfold isAlnum
  rw [Bool.or_eq_true, between_iff, between_iff]
  exact Iff.rfl

theorem isLabelChar_iff {c : Char} : isLabelChar c = true <->
    ((97 ≤ c.toNat ∧ c.toNat ≤ 122) ∨ (48 ≤ c.toNat ∧ c.toNat ≤ 57)) ∨ c.toNat = 45 := by
  unfold isLabelChar
  rw [Bool.or_eq_true, isAlnum_iff, decide_eq_true_eq, ← Char.toNat_inj]
  exact Iff.rfl

theorem isDomainChar_iff {c : Char} : isDomainChar c = true <->
    ((65 ≤ c.toNat ∧ c.toNat ≤ 90) ∨
      (((97 ≤ c.toNat ∧ c.toNat ≤ 122) ∨ (48 ≤ c.toNat ∧ c.toNat ≤ 57)) ∨ c.toNat = 45)) ∨
      c.toNat = 46 := by
  unfold isDomainChar
  rw [Bool.or_eq_true, Bool.or_eq_true, between_iff, isLabelChar_iff, decide_eq_true_eq,
    ← Char.toNat_inj]
  exact Iff.rfl

theorem isSpace_iff {c : Char} : isSpace c = true <->
    (9 ≤ c.toNat ∧ c.toNat ≤ 13) ∨ (28 ≤ c.toNat ∧ c.toNat ≤ 32) ∨ c.toNat = 0x85 ∨
      c.toNat = 0xA0 ∨ c.toNat = 0x1680 ∨ (0x2000 ≤ c.toNat ∧ c.toNat ≤ 0x200A) ∨
      c.toNat = 0x2028 ∨ c.toNat = 0x2029 ∨ c.toNat = 0x202F ∨ c.toNat = 0x205F ∨
      c.toNat = 0x3000 := by
  unfold isSpace
  exact decide_eq_true_iff

theorem isDomainChar_of_isLabelChar {c : Char} (h : isLabelChar c = true) :
    isDomainChar c = true := by
  simp [isDomainChar, h]

theorem isSpace_of_isDomainChar {c : Char} (h : isDomainChar c = true) :
    isSpace c = false := by
  rw [← Bool.not_eq_true, isSpace_iff]
  rw [isDomainChar_iff] at h
  omega

theorem isSpace_of_isAlnum {c : Char} (h : isAlnum c = true) : isSpace c = false :=
  isSpace_of_isDomainChar (isDomainChar_of_isLabelChar (by simp [isLabelChar, h]))

theorem toNat_toLower {c : Char} (h : 65 ≤ c.toNat ∧ c.toNat ≤ 90) :
    c.toLower.toNat = c.toNat + 32 := by
  unfold Char.toLower
  rw [dif_pos ⟨UInt32.le_iff_toNat_le.mpr h.left, UInt32.le_iff_toNat_le.mpr h.right⟩]
  show (c.val + 32).toNat = c.val.toNat + 32
  rw [UInt32.toNat_add]
  have hthirtyTwo : (32 : UInt32).toNat = 32 := rfl
  have hval : c.val.toNat ≤ 90 := h.right
  omega

theorem toLower_eq_self {c : Char} (h : ¬ (65 ≤ c.toNat ∧ c.toNat ≤ 90)) :
    c.toLower = c := by
  unfold Char.toLower
  apply dif_neg
  intro hcase
  rcases hcase with ⟨hlow, hhigh⟩
  exact h ⟨UInt32.le_iff_toNat_le.mp hlow, UInt32.le_iff_toNat_le.mp hhigh⟩

/-- Every label of the subdomain matches when it is lower-cased. -/
def Subdomain (pl : Platform) (s : Text) : Prop :=
  forall label, label ∈ labels s -> matchLabel (pl.lower label) = true

section Names

variable {pl : Platform} (hpl : pl.Standard)
include hpl

theorem lowerChar_of_isLabelChar {c : Char} (h : isLabelChar c = true) :
    pl.lowerChar c = [c] := by
  rw [isLabelChar_iff] at h
  rw [hpl.ascii c (by omega)]
  rw [toLower_eq_self (by omega)]

theorem lower_of_isLabelChar {label : Text}
    (h : forall c, c ∈ label -> isLabelChar c = true) : pl.lower label = label :=
  Platform.lower_eq_self fun c hc => lowerChar_of_isLabelChar hpl (h c hc)

theorem lower_dot (s t : Text) : pl.lower (s ++ '.' :: t) = pl.lower s ++ '.' :: pl.lower t := by
  have hdot : pl.lowerChar '.' = ['.'] := hpl.ascii '.' (by decide)
  simp [Platform.lower, hdot]

theorem comma_of_subdomain {s : Text} (h : Subdomain pl s) : ',' ∉ s := by
  intro hcomma
  rcases mem_labels_of_mem hcomma with hdot | ⟨label, hlabel, hc⟩
  · cases hdot
  · have hlower : ',' ∈ pl.lower label :=
      List.mem_flatMap.mpr ⟨',', hc, by rw [hpl.ascii ',' (by decide)]; decide⟩
    rcases chars_of_matchLabel (h label hlabel) hlower with hchar | hnewline
    · cases hchar
    · cases hnewline

theorem head_of_subdomain {c : Char} {rest : Text} (h : Subdomain pl (c :: rest)) :
    isSpace c = false := by
  rcases labels_of_head c rest with rfl | ⟨label, hlabel⟩
  · rfl
  · by_contra hspace
    rw [Bool.not_eq_false] at hspace
    have hmatch := h _ hlabel
    unfold Platform.lower at hmatch
    rw [List.flatMap_cons, hpl.space c hspace] at hmatch
    rw [isSpace_of_isAlnum (head_of_matchLabel hmatch)] at hspace
    cases hspace

/-- A subdomain under a tail that does not separate and ends in no space. -/
theorem piece_under {s tail : Text} (hs : Subdomain pl s) (hne : s ≠ []) (hcomma : ',' ∉ tail)
    (hlast : forall c, tail.getLast? = some c -> isSpace c = false) :
    Piece (s ++ '.' :: tail) := by
  refine ⟨?_, strip_eq_self ⟨?_, ?_⟩, by simp⟩
  · intro hmem
    rcases List.mem_append.mp hmem with hmem | hmem
    · exact comma_of_subdomain hpl hs hmem
    · rcases List.mem_cons.mp hmem with heq | hmem
      · cases heq
      · exact hcomma hmem
  · intro c hc
    cases s with
    | nil => exact absurd rfl hne
    | cons d rest =>
        cases hc
        exact head_of_subdomain hpl hs
  · intro c hc
    rw [List.getLast?_append_of_ne_nil _ (by simp)] at hc
    cases tail with
    | nil =>
        cases hc
        rfl
    | cons d rest =>
        rw [List.getLast?_cons_cons] at hc
        exact hlast c hc

theorem piece_of_subdomain {s tail : Text} (hs : Subdomain pl s) (hne : s ≠ [])
    (htail : forall c, c ∈ tail -> isDomainChar c = true) : Piece (s ++ '.' :: tail) := by
  apply piece_under hpl hs hne
  · intro hcomma
    cases htail ',' hcomma
  · intro c hc
    exact isSpace_of_isDomainChar (htail c (List.mem_of_getLast? hc))

end Names

end Panel
end RcTunnel
