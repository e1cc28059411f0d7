import Mathlib.Logic.Function.Basic
import RcTunnel.Engine.Registration
import RcTunnel.Engine.Strings

/-!
# The flat configuration file

{lit}`rctd` reads one key and one value from each line of its file and lays them over the
defaults of its flags.  The scanner that gives the lines stops for good at a line that does
not fit into its buffer.

The main results read back a file of quoted values: a line gives its key and its value, and
a key has the value of the last line that gives it.
-/

namespace RcTunnel
namespace Engine

namespace Conf

/-!
# Reading the file
-/

/-- {lit}`bufio.MaxScanTokenSize`. -/
def maxScanTokenSize : Nat := 64 * 1024

/-- {lit}`dropCR`. -/
def dropCR (line : Text) : Text :=
  if line.getLast? = some '\r' then line.dropLast else line

/-- The line fits into the buffer of the scanner. -/
def Fits (line : Text) : Prop := byteLength line < maxScanTokenSize

instance (line : Text) : Decidable (Fits line) := inferInstanceAs (Decidable (_ < _))

/-- The lines {lit}`bufio.Scanner` gives; nothing follows the last line feed. -/
def scanLines (data : Text) : List Text :=
  let pieces := data.splitOn '\n'
  let lines := if pieces.getLast? = some [] then pieces.dropLast else pieces
  (lines.takeWhile fun line => Fits line).map dropCR

/-- {lit}`strings.Index`. -/
def index (sub : Text) : Text -> Option Nat
  | [] => if sub = [] then some 0 else none
  | c :: rest =>
      if sub.isPrefixOf (c :: rest) then some 0 else (index sub rest).map (· + 1)

/-- {lit}`strings.Trim(t, "\"")`. -/
def trimQuotes (t : Text) : Text := (t.dropWhile (· = '"')).rdropWhile (· = '"')

/-- The value, without its quotes or without an inline comment. -/
def parseValue (val : Text) : Text :=
  if val.head? = some '"' then
    match (val.drop 1).findIdx? (· = '"') with
    | some j => (val.drop 1).take j
    | none => trimQuotes val
  else
    match index " #".toList val with
    | some c => trimSpace (val.take c)
    | none => val

/-- The key and the value of a line. -/
def parseLine (text : Text) : Option (Text × Text) :=
  let line := trimSpace text
  if line = [] ∨ line.head? = some '#' then
    none
  else
    match line.findIdx? (· = ':') with
    | none => none
    | some i =>
        let key := trimSpace (line.take i)
        let val := parseValue (trimSpace (line.drop (i + 1)))
        if key = [] then none else some (key, val)

def setLine (m : Text -> Option Text) (line : Text) : Text -> Option Text :=
  match parseLine line with
  | none => m
  | some (key, val) => Function.update m key (some val)

/-- {lit}`ParseFlat`. -/
def parseFlat (data : Text) : Text -> Option Text :=
  (scanLines data).foldl setLine fun _ => none

/-- What {lit}`rctd` is configured with. -/
structure Rctd where
  control : Text
  work : Text
  vhost : Text
  stats : Text
  token : Text
  grantSecret : Text
  cert : Text
  key : Text
  ca : Text
  revoked : Text
deriving DecidableEq, Repr

/-- The defaults of the flags. -/
def defaults : Rctd where
  control := ":7000".toList
  work := ":7001".toList
  vhost := "127.0.0.1:8090".toList
  stats := "127.0.0.1:7401".toList
  token := []
  grantSecret := []
  cert := []
  key := []
  ca := []
  revoked := []

/-- The part of {lit}`main` that lays the file over the flags. -/
def Rctd.overlay (flags : Rctd) (m : Text -> Option Text) : Rctd where
  control := (m "control".toList).getD flags.control
  work := (m "work".toList).getD flags.work
  vhost := (m "vhost".toList).getD flags.vhost
  stats := (m "stats".toList).getD flags.stats
  token := (m "token".toList).getD flags.token
  grantSecret := (m "grant_secret".toList).getD flags.grantSecret
  cert := (m "cert".toList).getD flags.cert
  key := (m "key".toList).getD flags.key
  ca := (m "ca".toList).getD flags.ca
  revoked := (m "revoked".toList).getD flags.revoked

@[simp] theorem Rctd.overlay_grantSecret (flags : Rctd) (m : Text -> Option Text) :
    (flags.overlay m).grantSecret = (m "grant_secret".toList).getD flags.grantSecret := rfl

@[simp] theorem Rctd.overlay_revoked (flags : Rctd) (m : Text -> Option Text) :
    (flags.overlay m).revoked = (m "revoked".toList).getD flags.revoked := rfl

/-!
# Files of quoted values
-/

/-- A key with its value, and the space between them. -/
structure Entry where
  key : Text
  pad : Text
  value : Text
deriving DecidableEq, Repr

/-- The line of an entry, with the value in quotes. -/
def Entry.line (e : Entry) : Text := e.key ++ ':' :: e.pad ++ quote e.value

/-- An entry that can be read back from its line. -/
structure Entry.Sound (e : Entry) : Prop where
  nonempty : e.key ≠ []
  key : forall c, c ∈ e.key -> isSpace c = false ∧ c ≠ ':' ∧ c ≠ '#'
  pad : forall c, c ∈ e.pad -> isSpace c = true
  feed : forall c, c ∈ e.key ++ e.pad ++ e.value -> c ≠ '\n'
  quotes : '"' ∉ e.value

/-- The text of some lines. -/
def unlines (lines : List Text) : Text := lines.flatMap fun line => line ++ ['\n']

theorem splitOn_unlines {lines : List Text} (h : forall l, l ∈ lines -> '\n' ∉ l) :
    (unlines lines).splitOn '\n' = lines ++ [[]] := by
  induction lines with
  | nil => rfl
  | cons line rest ih =>
      have hrest := ih fun l hl => h l (List.mem_cons_of_mem line hl)
      unfold unlines at hrest ⊢
      rw [List.flatMap_cons, List.append_assoc, List.singleton_append,
        List.splitOn_append_cons_self_of_not_mem (h line List.mem_cons_self), hrest]
      rfl

/-- The scanner gives the lines up to the first that does not fit. -/
theorem scanLines_unlines {lines : List Text} (h : forall l, l ∈ lines -> '\n' ∉ l)
    (hcr : forall l, l ∈ lines -> l.getLast? ≠ some '\r') :
    scanLines (unlines lines) = lines.takeWhile fun line => Fits line := by
  unfold scanLines
  simp only [splitOn_unlines h, List.getLast?_concat, if_true, List.dropLast_concat]
  refine (List.map_congr_left fun line hline => ?_).trans (List.map_id _)
  exact if_neg (hcr line (List.takeWhile_subset _ hline))

/-- The first place where a character stands. -/
theorem findIdx?_first {c : Char} {before after : Text} (h : c ∉ before) :
    (before ++ c :: after).findIdx? (· = c) = some before.length := by
  have hnone : before.findIdx? (· = c) = none := by
    rw [List.findIdx?_eq_none_iff]
    intro d hd
    rw [decide_eq_false_iff_not]
    rintro rfl
    exact h hd
  rw [List.findIdx?_append, hnone]
  simp [List.findIdx?_cons]

/-- A text that begins with no space keeps its first character. -/
theorem head?_trimSpace {c : Char} {t : Text} (h : t.head? = some c) (hc : isSpace c = false) :
    (trimSpace t).head? = some c := by
  cases t with
  | nil => cases h
  | cons d rest =>
      cases h
      unfold trimSpace
      rw [List.dropWhile_cons_of_neg (by simp [hc])]
      have hne : (c :: rest).rdropWhile isSpace ≠ [] := by
        intro hnil
        rw [List.rdropWhile_eq_nil_iff] at hnil
        rw [hnil c List.mem_cons_self] at hc
        cases hc
      rcases List.exists_cons_of_ne_nil hne with ⟨d, kept, heq⟩
      have hprefix := List.rdropWhile_prefix isSpace (c :: rest)
      rw [heq, List.cons_prefix_cons] at hprefix
      rw [heq, hprefix.left]
      rfl

/-- Spaces in front are trimmed. -/
theorem trimSpace_append {pad t : Text} (h : forall c, c ∈ pad -> isSpace c = true) :
    trimSpace (pad ++ t) = trimSpace t := by
  unfold trimSpace
  rw [List.dropWhile_append_of_pos h]

theorem trimSpace_quote (value : Text) : trimSpace (quote value) = quote value := by
  apply trimSpace_eq_self
  · intro c hc
    cases hc
    rfl
  · intro c hc
    unfold quote at hc
    rw [List.getLast?_concat] at hc
    cases hc
    rfl

theorem parseValue_quote {value : Text} (h : '"' ∉ value) : parseValue (quote value) = value := by
  have hrest : (quote value).drop 1 = value ++ ['"'] := rfl
  have hhead : (quote value).head? = some '"' := rfl
  unfold parseValue
  rw [hrest, findIdx?_first h, if_pos hhead]
  exact List.take_left

theorem getLast?_line (e : Entry) : e.line.getLast? = some '"' := by
  unfold Entry.line quote
  rw [← List.append_assoc, List.getLast?_concat]

theorem parseLine_comment {text : Text} (h : text.head? = some '#') : parseLine text = none := by
  have hhead := head?_trimSpace h rfl
  unfold parseLine
  exact if_pos (Or.inr hhead)

/-- The line of an entry gives its key and its value. -/
theorem parseLine_entry {e : Entry} (h : e.Sound) : parseLine e.line = some (e.key, e.value) := by
  have hline : e.line = e.key ++ ':' :: (e.pad ++ quote e.value) := List.append_assoc ..
  rcases List.exists_cons_of_ne_nil h.nonempty with ⟨first, rest, hcons⟩
  have hfirst := h.key first (hcons ▸ List.mem_cons_self)
  have hhead : e.line.head? = some first := by
    rw [hline, hcons]
    rfl
  have htrim : trimSpace e.line = e.line := by
    apply trimSpace_eq_self
    · intro c hc
      rw [hhead] at hc
      cases hc
      exact hfirst.left
    · intro c hc
      rw [getLast?_line] at hc
      cases hc
      rfl
  have hcontent : ¬ (e.line = [] ∨ e.line.head? = some '#') := by
    rw [hhead]
    rintro (hnil | hhash)
    · rw [hnil] at hhead
      cases hhead
    · exact hfirst.right.right (Option.some.inj hhash)
  have hsep : ':' ∉ e.key := fun hmem => (h.key ':' hmem).right.left rfl
  have hkept : trimSpace e.key = e.key := trimSpace_of_forall fun c hc => (h.key c hc).left
  have hdrop : (e.key ++ ':' :: (e.pad ++ quote e.value)).drop (e.key.length + 1) =
      e.pad ++ quote e.value := by
    rw [← List.drop_drop, List.drop_left]
    rfl
  unfold parseLine
  simp only [htrim, if_neg hcontent]
  rw [hline, findIdx?_first hsep]
  simp only [List.take_left, hdrop, hkept, trimSpace_append h.pad, trimSpace_quote,
    parseValue_quote h.quotes, if_neg h.nonempty]

theorem feed_line {e : Entry} (h : e.Sound) : '\n' ∉ e.line := by
  intro hmem
  have hcase : '\n' ∈ e.key ++ e.pad ++ e.value := by
    simp only [Entry.line, quote, List.mem_append, List.mem_cons] at hmem ⊢
    rcases hmem with (hkey | hsep | hpad) | (hquote | hvalue) | hquote | hnil
    · exact Or.inl (Or.inl hkey)
    · cases hsep
    · exact Or.inl (Or.inr hpad)
    · cases hquote
    · exact Or.inr hvalue
    · cases hquote
    · cases hnil
  exact h.feed '\n' hcase rfl

/-- A key has the value of the last line that gives it. -/
theorem foldl_setLine {entries : List Entry} (h : forall e, e ∈ entries -> e.Sound)
    (m : Text -> Option Text) (key : Text) :
    (entries.map Entry.line).foldl setLine m key =
      ((entries.reverse.find? fun e => e.key = key).map Entry.value).or (m key) := by
  induction entries generalizing m with
  | nil => rfl
  | cons e rest ih =>
      have hset : setLine m e.line = Function.update m e.key (some e.value) := by
        unfold setLine
        rw [parseLine_entry (h e List.mem_cons_self)]
      rw [List.map_cons, List.foldl_cons, hset,
        ih (fun e' he' => h e' (List.mem_cons_of_mem e he')), List.reverse_cons,
        List.find?_append]
      cases hfind : rest.reverse.find? fun e => decide (e.key = key) with
      | some e' => rfl
      | none =>
          by_cases hkey : e.key = key
          · subst hkey
            simp
          · simp [hkey, Function.update_of_ne (Ne.symm hkey)]

/-- The entries in front of the first line that does not fit. -/
def scanned (header : Text) (entries : List Entry) : List Entry :=
  if Fits header then entries.takeWhile fun e => Fits e.line else []

theorem scanned_subset {header : Text} {entries : List Entry} {e : Entry}
    (h : e ∈ scanned header entries) : e ∈ entries := by
  unfold scanned at h
  split at h
  · exact List.takeWhile_subset _ h
  · cases h

/-- The last line is given only if every line fits. -/
theorem fits_of_last {header : Text} {front : List Entry} {last e : Entry}
    (h : e ∈ scanned header (front ++ [last])) (hnew : e ∉ front) :
    Fits header ∧ forall e, e ∈ front ++ [last] -> Fits e.line := by
  unfold scanned at h
  split at h
  · rename_i hheader
    refine ⟨hheader, ?_⟩
    rcases List.prefix_concat_iff.mp (List.takeWhile_prefix fun e : Entry => decide (Fits e.line))
      with hall | hfront
    · rw [List.takeWhile_eq_self_iff] at hall
      exact fun e he => of_decide_eq_true (hall e he)
    · exact absurd (hfront.subset h) hnew
  · cases h

/-- What is read from a file of entries under a comment. -/
theorem parseFlat_unlines {header : Text} {entries : List Entry}
    (hheader : header.head? = some '#') (hfeed : '\n' ∉ header)
    (hlast : header.getLast? ≠ some '\r') (h : forall e, e ∈ entries -> e.Sound) (key : Text) :
    parseFlat (unlines (header :: entries.map Entry.line)) key =
      ((scanned header entries).reverse.find? fun e => e.key = key).map Entry.value := by
  have hfeeds : forall l, l ∈ header :: entries.map Entry.line -> '\n' ∉ l := by
    intro l hl
    rcases List.mem_cons.mp hl with rfl | hl
    · exact hfeed
    · rcases List.mem_map.mp hl with ⟨e, he, rfl⟩
      exact feed_line (h e he)
  have hlasts : forall l, l ∈ header :: entries.map Entry.line -> l.getLast? ≠ some '\r' := by
    intro l hl
    rcases List.mem_cons.mp hl with rfl | hl
    · exact hlast
    · rcases List.mem_map.mp hl with ⟨e, he, rfl⟩
      rw [getLast?_line]
      decide
  unfold parseFlat scanned
  rw [scanLines_unlines hfeeds hlasts]
  by_cases hfits : Fits header
  · have hskip : setLine (fun _ => none) header = fun _ => none := by
      unfold setLine
      rw [parseLine_comment hheader]
    have hsound : forall e, e ∈ entries.takeWhile (fun e => Fits e.line) -> e.Sound :=
      fun e he => h e (List.takeWhile_subset _ he)
    rw [List.takeWhile_cons_of_pos (by simpa using hfits), List.foldl_cons, hskip,
      List.takeWhile_map, if_pos hfits]
    exact (foldl_setLine hsound _ key).trans (Option.or_none ..)
  · rw [List.takeWhile_cons_of_neg (by simpa using hfits), if_neg hfits]
    rfl

end Conf

end Engine
end RcTunnel
