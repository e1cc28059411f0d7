import RcTunnel.Panel.Disjoint
import Mathlib.Data.List.Chain

/-!
# Team labels

The label of a team is made of the words of its name, joined with hyphens and cut
off after 63 characters.  Creating a team makes it once, renaming makes it twice.

The main result says for which names the label is a DNS label, stays what it is when
it is made again, and is the same on both ways: those whose words do not leave a
hyphen as the last character that is kept.
-/

namespace RcTunnel
namespace Panel

open Foundation

/-- The runs of letters and digits. -/
def words (t : Text) : List Text := (t.splitOnP fun c => !isAlnum c).filter (· ≠ [])

def hyphenated (t : Text) : Text := List.intercalate ['-'] (words t)

/-- A DNS label: 1 to 63 letters, digits and inner hyphens. -/
def DnsLabel (l : Text) : Prop := l.length ≤ 63 ∧ isLabel l = true

instance (l : Text) : Decidable (DnsLabel l) := inferInstanceAs (Decidable (_ ∧ _))

/-- Some words of the name, joined with hyphens, have 62 characters, and another one
follows. -/
def Cut (pl : Platform) (name : Text) : Prop :=
  exists k, k < (words (pl.lower name)).length ∧
    (List.intercalate ['-'] ((words (pl.lower name)).take k)).length = 62

instance (pl : Platform) (name : Text) : Decidable (Cut pl name) :=
  inferInstanceAs (Decidable (exists k, k < (words (pl.lower name)).length ∧ _))

/-!
# Words
-/

theorem words_cons_of_sep {c : Char} (h : isAlnum c = false) (t : Text) :
    words (c :: t) = words t := by
  unfold words
  rw [List.splitOnP_cons_eq_if_modifyHead, h]
  simp

theorem words_append_sep {c : Char} (h : isAlnum c = false) (s t : Text) :
    words (s ++ c :: t) = words s ++ words t := by
  unfold words
  rw [List.splitOnP_append_cons s t (by simpa using h), List.filter_append]

theorem words_of_sep {t : Text} (h : forall c, c ∈ t -> isAlnum c = false) : words t = [] := by
  induction t with
  | nil => rfl
  | cons c rest ih =>
      rw [words_cons_of_sep (h c List.mem_cons_self)]
      exact ih fun d hd => h d (List.mem_cons_of_mem c hd)

theorem words_append_left {s : Text} (h : forall c, c ∈ s -> isAlnum c = false) (t : Text) :
    words (s ++ t) = words t := by
  induction s with
  | nil => rfl
  | cons c rest ih =>
      rw [List.cons_append, words_cons_of_sep (h c List.mem_cons_self)]
      exact ih fun d hd => h d (List.mem_cons_of_mem c hd)

theorem words_append_right {t : Text} (h : forall c, c ∈ t -> isAlnum c = false) (s : Text) :
    words (s ++ t) = words s := by
  cases t with
  | nil => rw [List.append_nil]
  | cons c rest =>
      rw [words_append_sep (h c List.mem_cons_self),
        words_of_sep fun d hd => h d (List.mem_cons_of_mem c hd), List.append_nil]

/-- A letter or digit begins a word of its own, or the first word of what follows. -/
theorem words_cons_of_alnum {c : Char} (h : isAlnum c = true) (t : Text) :
    (exists d rest, t = d :: rest ∧ isAlnum d = true ∧
      exists w ws, words t = w :: ws ∧ words (c :: t) = (c :: w) :: ws) ∨
    (forall d rest, t = d :: rest -> isAlnum d = false) ∧ words (c :: t) = [c] :: words t := by
  cases t with
  | nil =>
      right
      constructor
      · intro d rest hnil
        cases hnil
      · simp [words, List.splitOnP_cons_eq_if_modifyHead, h]
  | cons d rest =>
      cases hd : isAlnum d with
      | true =>
          left
          refine ⟨d, rest, rfl, hd, ?_⟩
          rcases List.exists_cons_of_ne_nil
            (List.splitOnP_ne_nil (fun c => !isAlnum c) rest) with ⟨first, others, heq⟩
          refine ⟨d :: first, others.filter (· ≠ []), ?_, ?_⟩
          · simp [words, List.splitOnP_cons_eq_if_modifyHead, hd, heq]
          · simp [words, List.splitOnP_cons_eq_if_modifyHead, h, hd, heq]
      | false =>
          right
          constructor
          · intro d' rest' hcons
            cases hcons
            exact hd
          · simp [words, List.splitOnP_cons_eq_if_modifyHead, h, hd]

theorem word_of_mem {t w : Text} (hw : w ∈ words t) :
    w ≠ [] ∧ forall c, c ∈ w -> isAlnum c = true := by
  induction t generalizing w with
  | nil => cases hw
  | cons c rest ih =>
      cases hc : isAlnum c with
      | false =>
          rw [words_cons_of_sep hc] at hw
          exact ih hw
      | true =>
          rcases words_cons_of_alnum hc rest with ⟨-, -, -, -, v, ws, hrest, heq⟩ | ⟨-, heq⟩
          · rw [heq] at hw
            rcases List.mem_cons.mp hw with rfl | hw
            · refine ⟨List.cons_ne_nil c v, fun d hd => ?_⟩
              rcases List.mem_cons.mp hd with rfl | hd
              · exact hc
              · exact (ih (hrest ▸ List.mem_cons_self)).right d hd
            · exact ih (hrest ▸ List.mem_cons_of_mem v hw)
          · rw [heq] at hw
            rcases List.mem_cons.mp hw with rfl | hw
            · refine ⟨List.cons_ne_nil c [], fun d hd => ?_⟩
              rw [List.mem_singleton.mp hd]
              exact hc
            · exact ih hw

/-!
# Hyphens for runs
-/

theorem hyphenated_cons {c : Char} {t w : Text} {ws : List Text} (ht : words t = w :: ws)
    (h : words (c :: t) = (c :: w) :: ws) : hyphenated (c :: t) = c :: hyphenated t := by
  unfold hyphenated
  rw [ht, h]
  cases ws with
  | nil => rfl
  | cons v rest => rfl

theorem hyphenated_alone {c : Char} {t : Text} (h : words (c :: t) = [c] :: words t) :
    hyphenated (c :: t) = if words t = [] then [c] else c :: '-' :: hyphenated t := by
  unfold hyphenated
  rw [h]
  cases words t with
  | nil => rfl
  | cons v rest => rfl

theorem words_ne_nil_of_alnum {c : Char} (hc : isAlnum c = true) (rest : Text) :
    words (c :: rest) ≠ [] := by
  rcases words_cons_of_alnum hc rest with ⟨_, _, _, _, _, _, _, heq⟩ | ⟨_, heq⟩
  · rw [heq]
    exact List.cons_ne_nil _ _
  · rw [heq]
    exact List.cons_ne_nil _ _

theorem dashed_true (t : Text) : exists trail, (trail = [] ∨ trail = ['-']) ∧
    dashed true t = hyphenated t ++ trail ∧ (words t = [] -> trail = []) := by
  induction t with
  | nil => exact ⟨[], Or.inl rfl, rfl, fun _ => rfl⟩
  | cons c rest ih =>
      rcases ih with ⟨trail, htrail, hdashed, hnone⟩
      cases hc : isAlnum c with
      | false =>
          refine ⟨trail, htrail, ?_, ?_⟩
          · rw [dashed, hc, if_neg Bool.false_ne_true, if_pos rfl, hdashed]
            unfold hyphenated
            rw [words_cons_of_sep hc]
          · rw [words_cons_of_sep hc]
            exact hnone
      | true =>
          have hstep : dashed true (c :: rest) = c :: dashed false rest := by
            rw [dashed, hc, if_pos rfl]
          have hword : words (c :: rest) ≠ [] := words_ne_nil_of_alnum hc rest
          rcases words_cons_of_alnum hc rest with ⟨d, rest', rfl, hd, w, ws, hwords, heq⟩ |
            ⟨hsep, heq⟩
          · have hsame : dashed false (d :: rest') = dashed true (d :: rest') := by
              rw [dashed, dashed, hd, if_pos rfl, if_pos rfl]
            refine ⟨trail, htrail, ?_, fun hnil => absurd hnil hword⟩
            rw [hstep, hsame, hdashed, hyphenated_cons hwords heq]
            rfl
          · cases hrest : rest with
            | nil =>
                subst hrest
                refine ⟨[], Or.inl rfl, ?_, fun _ => rfl⟩
                rw [hstep, hyphenated_alone heq]
                rfl
            | cons d rest' =>
                subst hrest
                have hd := hsep d rest' rfl
                have hopen : dashed false (d :: rest') = '-' :: dashed true (d :: rest') := by
                  rw [dashed, dashed, hd]
                  rfl
                by_cases hnil : words (d :: rest') = []
                · refine ⟨['-'], Or.inr rfl, ?_, fun h => absurd h hword⟩
                  rw [hstep, hopen, hdashed, hnone hnil, hyphenated_alone heq, if_pos hnil,
                    hyphenated, hnil]
                  rfl
                · refine ⟨trail, htrail, ?_, fun h => absurd h hword⟩
                  rw [hstep, hopen, hdashed, hyphenated_alone heq, if_neg hnil]
                  rfl

theorem dashed_false (t : Text) : exists lead trail, (lead = [] ∨ lead = ['-']) ∧
    (trail = [] ∨ trail = ['-']) ∧ dashed false t = lead ++ (hyphenated t ++ trail) ∧
      (words t = [] -> trail = []) := by
  rcases dashed_true t with ⟨trail, htrail, hdashed, hnone⟩
  cases t with
  | nil => exact ⟨[], [], Or.inl rfl, Or.inl rfl, rfl, fun _ => rfl⟩
  | cons c rest =>
      cases hc : isAlnum c with
      | true =>
          refine ⟨[], trail, Or.inl rfl, htrail, ?_, hnone⟩
          rw [← hdashed, dashed, dashed, hc]
          rfl
      | false =>
          refine ⟨['-'], trail, Or.inr rfl, htrail, ?_, hnone⟩
          rw [← hdashed, dashed, dashed, hc]
          rfl

theorem head_joined {ws : List Text} (h : forall w, w ∈ ws -> w ≠ [] ∧ forall c, c ∈ w ->
    isAlnum c = true) {c : Char} (hc : (List.intercalate ['-'] ws).head? = some c) :
    isAlnum c = true := by
  cases ws with
  | nil => cases hc
  | cons w rest =>
      rcases h w List.mem_cons_self with ⟨hne, hw⟩
      rcases List.exists_cons_of_ne_nil hne with ⟨d, w', rfl⟩
      have hd := hw d List.mem_cons_self
      cases rest with
      | nil =>
          cases hc
          exact hd
      | cons v others =>
          cases hc
          exact hd

theorem last_joined {ws : List Text} (h : forall w, w ∈ ws -> w ≠ [] ∧ forall c, c ∈ w ->
    isAlnum c = true) {c : Char} (hc : (List.intercalate ['-'] ws).getLast? = some c) :
    isAlnum c = true := by
  induction ws with
  | nil => cases hc
  | cons w rest ih =>
      have hrest := fun v hv => h v (List.mem_cons_of_mem w hv)
      cases rest with
      | nil =>
          rw [List.intercalate_singleton] at hc
          exact (h w List.mem_cons_self).right c (List.mem_of_getLast? hc)
      | cons v others =>
          rw [List.intercalate_cons_cons, List.getLast?_append] at hc
          cases htail : (List.intercalate ['-'] (v :: others)).getLast? with
          | none =>
              exact absurd (List.getLast?_eq_none_iff.mp htail)
                (joined_ne_nil (List.cons_ne_nil v others) fun u hu => (hrest u hu).left)
          | some d =>
              rw [htail] at hc
              cases hc
              exact ih hrest htail

/-- A hyphen in the joined words is where some of them end and another one follows. -/
theorem getElem?_joined {ws : List Text} (h : forall w, w ∈ ws -> w ≠ [] ∧ forall c, c ∈ w ->
    isAlnum c = true) (n : Nat) : (List.intercalate ['-'] ws)[n]? = some '-' <->
      exists k, 0 < k ∧ k < ws.length ∧ (List.intercalate ['-'] (ws.take k)).length = n := by
  induction ws generalizing n with
  | nil => simp
  | cons w rest ih =>
      rcases h w List.mem_cons_self with ⟨hne, hw⟩
      have hplain : '-' ∉ w := fun hmem => absurd (hw '-' hmem) (by decide)
      cases rest with
      | nil =>
          rw [List.intercalate_singleton]
          constructor
          · intro hget
            exact absurd (List.mem_of_getElem? hget) hplain
          · rintro ⟨k, hpos, hlt, -⟩
            simp at hlt
            omega
      | cons v others =>
          have htail := ih fun u hu => h u (List.mem_cons_of_mem w hu)
          have hone : (List.intercalate ['-'] ((w :: v :: others).take 1)).length = w.length := by
            simp
          have hmore : forall m, (List.intercalate ['-']
              ((w :: v :: others).take (m + 2))).length =
                w.length + 1 + (List.intercalate ['-'] ((v :: others).take (m + 1))).length := by
            intro m
            simp only [List.take_succ_cons, List.intercalate_cons_cons, List.length_append,
              List.length_singleton]
          rw [List.intercalate_cons_cons, List.append_assoc, List.getElem?_append]
          constructor
          · intro hget
            split at hget
            · exact absurd (List.mem_of_getElem? hget) hplain
            · rename_i hge
              cases hsub : n - w.length with
              | zero =>
                  refine ⟨1, Nat.one_pos, by simp, ?_⟩
                  rw [hone]
                  omega
              | succ m =>
                  rw [hsub, List.singleton_append, List.getElem?_cons_succ] at hget
                  rcases (htail m).mp hget with ⟨k, hpos, hlt, hlength⟩
                  cases k with
                  | zero => cases hpos
                  | succ k =>
                      refine ⟨k + 2, Nat.succ_pos _, Nat.succ_lt_succ hlt, ?_⟩
                      rw [hmore, hlength]
                      omega
          · rintro ⟨k, hpos, hlt, hlength⟩
            cases k with
            | zero => cases hpos
            | succ k =>
                cases k with
                | zero =>
                    rw [hone] at hlength
                    rw [if_neg (by omega), hlength, Nat.sub_self]
                    rfl
                | succ k =>
                    rw [hmore] at hlength
                    rw [if_neg (by omega)]
                    have hindex : n - w.length =
                        (List.intercalate ['-'] ((v :: others).take (k + 1))).length + 1 := by
                      omega
                    rw [hindex, List.singleton_append, List.getElem?_cons_succ]
                    exact (htail _).mpr ⟨k + 1, Nat.succ_pos k, Nat.lt_of_succ_lt_succ hlt, rfl⟩

/-!
# The label
-/

theorem strip_hyphens {lead body trail : Text} (hlead : lead = [] ∨ lead = ['-'])
    (htrail : trail = [] ∨ trail = ['-']) (hbody : body ≠ [])
    (hhead : forall c, body.head? = some c -> isAlnum c = true)
    (hlast : forall c, body.getLast? = some c -> isAlnum c = true) :
    stripOf (· = '-') (lead ++ (body ++ trail)) = body := by
  have hfront : (body ++ trail).dropWhile (fun c => decide (c = '-')) = body ++ trail := by
    rcases List.exists_cons_of_ne_nil hbody with ⟨c, rest, rfl⟩
    have hc : c ≠ '-' := by
      rintro rfl
      exact absurd (hhead '-' rfl) (by decide)
    simp [hc]
  have hdrop : (lead ++ (body ++ trail)).dropWhile (fun c => decide (c = '-')) =
      body ++ trail := by
    rcases hlead with rfl | rfl
    · exact hfront
    · exact hfront
  have hback : body.rdropWhile (fun c => decide (c = '-')) = body := by
    rw [List.rdropWhile_eq_self_iff]
    intro hne hhyphen
    have halnum := hlast (body.getLast hne) (List.getLast?_eq_some_getLast hne)
    rw [of_decide_eq_true hhyphen] at halnum
    exact absurd halnum (by decide)
  unfold stripOf
  rw [hdrop]
  rcases htrail with rfl | rfl
  · rw [List.append_nil]
    exact hback
  · rw [List.rdropWhile_concat_pos _ _ _ (by decide)]
    exact hback

theorem strip_dashed (t : Text) : stripOf (· = '-') (dashed false t) = hyphenated t := by
  rcases dashed_false t with ⟨lead, trail, hlead, htrail, hdashed, hnone⟩
  rw [hdashed]
  by_cases hnil : words t = []
  · rw [hnone hnil, hyphenated, hnil]
    rcases hlead with rfl | rfl
    · rfl
    · rfl
  · have hwords := fun w hw => word_of_mem (t := t) (w := w) hw
    apply strip_hyphens hlead htrail
    · exact joined_ne_nil hnil fun w hw => (hwords w hw).left
    · intro c hc
      exact head_joined hwords hc
    · intro c hc
      exact last_joined hwords hc

theorem slug_eq (pl : Platform) (name : Text) :
    slug pl name =
      if (hyphenated (pl.lower name)).take 63 = [] then
        none
      else
        some ((hyphenated (pl.lower name)).take 63) := by
  unfold slug
  rw [strip_dashed]

section Label

variable {pl : Platform} {name label : Text}

theorem hyphenated_chars {t : Text} {c : Char} (hc : c ∈ hyphenated t) : isLabelChar c = true := by
  rw [← strip_dashed] at hc
  exact isLabelChar_of_mem_dashed (mem_of_mem_stripOf hc)

/-- The label that is made, and what it is made of. -/
theorem slug_eq_some (h : slug pl name = some label) :
    label ≠ [] ∧ label = (hyphenated (pl.lower name)).take 63 := by
  rw [slug_eq] at h
  split at h
  · cases h
  · rename_i hne
    cases h
    exact ⟨hne, rfl⟩

theorem head_slug (h : slug pl name = some label) {c : Char} (hc : label.head? = some c) :
    isAlnum c = true := by
  rcases slug_eq_some h with ⟨-, rfl⟩
  apply head_joined fun w hw => word_of_mem hw
  rw [List.head?_take, if_neg (by decide)] at hc
  exact hc

/-- The words of the name are cut off behind a hyphen. -/
theorem cut_iff : Cut pl name <-> (hyphenated (pl.lower name))[62]? = some '-' := by
  unfold hyphenated
  rw [getElem?_joined fun w hw => word_of_mem hw]
  constructor
  · rintro ⟨k, hlt, hlength⟩
    refine ⟨k, Nat.pos_of_ne_zero ?_, hlt, hlength⟩
    rintro rfl
    cases hlength
  · rintro ⟨k, -, hlt, hlength⟩
    exact ⟨k, hlt, hlength⟩

/-- The label ends in a letter or digit, unless it was cut off behind a hyphen. -/
theorem last_slug (h : slug pl name = some label) (huncut : ¬ Cut pl name) {c : Char}
    (hc : label.getLast? = some c) : isAlnum c = true := by
  rcases slug_eq_some h with ⟨-, rfl⟩
  rw [cut_iff] at huncut
  by_cases hlong : 63 ≤ (hyphenated (pl.lower name)).length
  · rw [List.getLast?_take, if_neg (by decide)] at hc
    have hget : (hyphenated (pl.lower name))[62]? = some c := by
      have hsome := List.getElem?_eq_getElem (l := hyphenated (pl.lower name)) (i := 62) (by omega)
      rw [hsome] at hc ⊢
      simpa using hc
    have hchar := hyphenated_chars (List.mem_of_getElem? hget)
    rw [hget] at huncut
    unfold isLabelChar at hchar
    rw [Bool.or_eq_true, decide_eq_true_eq] at hchar
    exact hchar.resolve_right fun heq => huncut (congrArg some heq)
  · rw [List.take_of_length_le (by omega)] at hc
    exact last_joined (fun w hw => word_of_mem hw) hc

theorem dnsLabel_of_uncut (h : slug pl name = some label) (huncut : ¬ Cut pl name) :
    DnsLabel label := by
  rcases slug_eq_some h with ⟨hne, heq⟩
  constructor
  · rw [heq]
    exact List.length_take_le 63 _
  · have hchars := (slug_chars h).right
    have hhead : label.head?.any isAlnum = true := by
      rcases List.exists_cons_of_ne_nil hne with ⟨c, rest, rfl⟩
      exact head_slug h rfl
    have hlast : label.getLast?.any isAlnum = true := by
      rw [List.getLast?_eq_some_getLast hne]
      exact last_slug h huncut (List.getLast?_eq_some_getLast hne)
    simp only [isLabel, Bool.and_eq_true, List.all_eq_true]
    exact ⟨⟨hchars, hhead⟩, hlast⟩

/-- A name that is cut off behind a hyphen has a label that ends in it. -/
theorem not_dnsLabel_of_cut (h : Cut pl name) :
    exists label, slug pl name = some label ∧ ¬ DnsLabel label := by
  rw [cut_iff] at h
  have hlast : ((hyphenated (pl.lower name)).take 63).getLast? = some '-' := by
    rw [List.getLast?_take, if_neg (by decide), h]
    rfl
  refine ⟨(hyphenated (pl.lower name)).take 63, ?_, ?_⟩
  · rw [slug_eq, if_neg]
    intro hnil
    rw [hnil] at hlast
    cases hlast
  · rintro ⟨-, hlabel⟩
    simp only [isLabel, Bool.and_eq_true] at hlabel
    rw [hlast] at hlabel
    exact absurd hlabel.right (by decide)

end Label

/-!
# Making it again
-/

/-- No hyphen follows another one. -/
def Apart (t : Text) : Prop := t.IsChain fun c d => ¬ (c = '-' ∧ d = '-')

theorem Apart.cons_alnum {c : Char} {t : Text} (hc : isAlnum c = true) (h : Apart t) :
    Apart (c :: t) := by
  refine List.isChain_cons.mpr ⟨fun d _ => ?_, h⟩
  rintro ⟨rfl, -⟩
  exact absurd hc (by decide)

theorem apart_dashed (t : Text) : Apart (dashed false t) ∧ Apart ('-' :: dashed true t) := by
  induction t with
  | nil => exact ⟨List.IsChain.nil, List.IsChain.singleton _⟩
  | cons c rest ih =>
      rcases ih with ⟨hfalse, htrue⟩
      cases hc : isAlnum c with
      | true =>
          rw [dashed, dashed, hc, if_pos rfl, if_pos rfl]
          have hword := hfalse.cons_alnum hc
          refine ⟨hword, List.isChain_cons.mpr ⟨fun d hd => ?_, hword⟩⟩
          cases hd
          rintro ⟨-, rfl⟩
          exact absurd hc (by decide)
      | false =>
          rw [dashed, dashed, hc]
          exact ⟨htrue, htrue⟩

/-- A text that has its hyphens already. -/
theorem dashed_eq_self {t : Text} (hchars : forall c, c ∈ t -> isLabelChar c = true)
    (h : Apart t) : dashed false t = t ∧ (t.head? ≠ some '-' -> dashed true t = t) := by
  induction t with
  | nil => exact ⟨rfl, fun _ => rfl⟩
  | cons c rest ih =>
      rcases List.isChain_cons.mp h with ⟨hnext, hrest⟩
      rcases ih (fun d hd => hchars d (List.mem_cons_of_mem c hd)) hrest with ⟨hfalse, htrue⟩
      cases hc : isAlnum c with
      | true =>
          rw [dashed, dashed, hc, if_pos rfl, if_pos rfl, hfalse]
          exact ⟨rfl, fun _ => rfl⟩
      | false =>
          have hhyphen : c = '-' := by
            have hchar := hchars c List.mem_cons_self
            unfold isLabelChar at hchar
            rw [hc, Bool.false_or, decide_eq_true_eq] at hchar
            exact hchar
          subst hhyphen
          constructor
          · have hopen : dashed false ('-' :: rest) = '-' :: dashed true rest := rfl
            rw [hopen, htrue]
            intro hhead
            exact hnext '-' hhead ⟨rfl, rfl⟩
          · intro hne
            exact absurd rfl hne

section Stable

variable {pl : Platform} (hpl : pl.Standard) {name label : Text}
include hpl

/-- Slugging is idempotent, unless the name is cut off behind a hyphen. -/
theorem slug_slug (h : slug pl name = some label) (huncut : ¬ Cut pl name) :
    slug pl label = some label := by
  rcases slug_eq_some h with ⟨hne, heq⟩
  rcases slug_chars h with ⟨-, hchars⟩
  have hapart : Apart label := by
    have hall := (apart_dashed (pl.lower name)).left
    have hinfix : label <:+: dashed false (pl.lower name) := by
      rw [heq, ← strip_dashed]
      have hstrip : stripOf (· = '-') (dashed false (pl.lower name)) <:+:
          dashed false (pl.lower name) :=
        (List.rdropWhile_prefix _ _).isInfix.trans (List.dropWhile_suffix _).isInfix
      exact (List.take_prefix 63 _).isInfix.trans hstrip
    exact List.IsChain.infix hall hinfix
  have hstrip : stripOf (· = '-') label = label := by
    have hends := strip_hyphens (Or.inl rfl) (Or.inl rfl) hne (fun c hc => head_slug h hc)
      (fun c hc => last_slug h huncut hc)
    rwa [List.nil_append, List.append_nil] at hends
  have hlength : label.length ≤ 63 := (dnsLabel_of_uncut h huncut).left
  unfold slug
  rw [lower_of_isLabelChar hpl hchars, (dashed_eq_self hchars hapart).left, hstrip,
    List.take_of_length_le hlength]
  exact if_neg hne

/-- The spaces around a name are no part of its words. -/
theorem words_lower_strip (name : Text) :
    words (pl.lower (strip name)) = words (pl.lower name) := by
  have hspace : forall t : Text, (forall c, c ∈ t -> isSpace c = true) ->
      forall c, c ∈ pl.lower t -> isAlnum c = false := by
    intro t ht c hc
    rw [Platform.lower_eq_self fun d hd => hpl.space d (ht d hd)] at hc
    rw [← Bool.not_eq_true]
    intro halnum
    have hnot := isSpace_of_isAlnum halnum
    rw [ht c hc] at hnot
    cases hnot
  have hfront : pl.lower name =
      pl.lower (name.takeWhile isSpace) ++ pl.lower (name.dropWhile isSpace) := by
    rw [← Platform.lower_append, List.takeWhile_append_dropWhile]
  have hback : pl.lower (name.dropWhile isSpace) =
      pl.lower (strip name) ++ pl.lower ((name.dropWhile isSpace).rtakeWhile isSpace) := by
    rw [← Platform.lower_append]
    exact congrArg pl.lower List.rdropWhile_append_rtakeWhile.symm
  rw [hfront, words_append_left, hback, words_append_right]
  · exact hspace _ fun c hc => List.mem_rtakeWhile_imp hc
  · exact hspace _ fun c hc => List.mem_takeWhile_imp hc

theorem cut_strip : Cut pl (strip name) <-> Cut pl name := by
  unfold Cut
  rw [words_lower_strip hpl]

end Stable

/-!
# Creating and renaming
-/

namespace Api

section Teams

variable {pl : Platform} {db db' : Db}

theorem requireName_ok {name n : Text} (h : requireName name = Except.ok n) : n = strip name := by
  simp only [requireName, bind_ok, pure_ok] at h
  rcases h with ⟨-, -, -, -, rfl⟩
  rfl

theorem createTeam_label {fresh : Nat} {name : Text} {quota : Option Int}
    (hfresh : db.team? fresh = none)
    (h : createTeam pl db fresh name none quota = Except.ok db') :
    (db'.team? fresh).map Team.subdomainLabel = some (slug pl (strip name)) := by
  simp only [createTeam, bind_ok, pure_ok] at h
  rcases h with ⟨n, hname, -, -, -, -, -, -, rfl⟩
  rw [requireName_ok hname]
  unfold Db.team? at hfresh ⊢
  simp only [List.find?_append, hfresh, Option.none_or]
  simp [given, strip_strip]

/-- A renamed team has the label of its label. -/
theorem updateTeam_label {teamId : Nat} {name : Text} {quota : Option (Option Int)}
    (h : updateTeam pl db teamId ⟨some (some name), none, quota⟩ = Except.ok db') :
    (db'.team? teamId).map Team.subdomainLabel =
      some ((slug pl (strip name)).bind (slug pl)) := by
  simp only [updateTeam, bind_ok, pure_ok] at h
  rcases h with ⟨newName, hclean, team, hteam, n, hrenamed, -, -, -, -, rfl⟩
  rw [cleanOptionalName] at hclean
  rcases bind_ok.mp hclean with ⟨stripped, hname, hnew⟩
  cases hnew
  rw [requireName_ok hname] at hrenamed
  simp only [renamed, bind_ok, pure_ok, Option.getD_some, strip_strip] at hrenamed
  rcases hrenamed with ⟨-, -, -, -, rfl⟩
  rw [found_ok] at hteam
  have hlabel : relabelled pl (some (strip name)) none =
      some ((slug pl (strip name)).bind (slug pl)) := by
    unfold relabelled
    cases hslug : slug pl (strip name) with
    | none => simp [hslug, given]
    | some label =>
        have hgiven : given (some label) = some label :=
          given_eq_some.mpr ⟨rfl, (slug_eq_some hslug).left⟩
        simp [hslug, hgiven]
  unfold Db.team? at hteam ⊢
  have hid := key_of_find hteam
  simp only
  rw [find?_rewriteRow, hteam, hlabel]
  · simp [hid]
  · intro t
    rfl

/-- Creating a team and renaming a team give it the same label. -/
def SameOnRename (pl : Platform) (name : Text) : Prop :=
  forall (db db₁ db₂ db₃ : Db) (fresh teamId : Nat) (quota : Option Int)
    (field : Option (Option Int)), db.team? fresh = none ->
      createTeam pl db fresh name none quota = Except.ok db₁ ->
      updateTeam pl db₂ teamId ⟨some (some name), none, field⟩ = Except.ok db₃ ->
      (db₁.team? fresh).map Team.subdomainLabel = (db₃.team? teamId).map Team.subdomainLabel

/-- The label of a name is a DNS label, does not change when it is made again, and is the
same for a team created under the name and one renamed to it, exactly when the name is
not cut off behind a hyphen. -/
theorem stable_iff_uncut (hpl : pl.Standard) (name : Text) :
    ((forall label, slug pl name = some label -> DnsLabel label) ∧
      (forall label, slug pl name = some label -> slug pl label = some label) ∧
      SameOnRename pl name) <-> ¬ Cut pl name := by
  constructor
  · rintro ⟨hvalid, -, -⟩ hcut
    rcases not_dnsLabel_of_cut hcut with ⟨label, hslug, hnot⟩
    exact hnot (hvalid label hslug)
  · intro huncut
    refine ⟨fun label h => dnsLabel_of_uncut h huncut, fun label h => slug_slug hpl h huncut, ?_⟩
    intro db db₁ db₂ db₃ fresh teamId quota field hfresh hcreate hrename
    rw [createTeam_label hfresh hcreate, updateTeam_label hrename]
    cases hslug : slug pl (strip name) with
    | none => rfl
    | some label =>
        have huncut' : ¬ Cut pl (strip name) := fun hcut => huncut ((cut_strip hpl).mp hcut)
        rw [Option.bind_some, slug_slug hpl hslug huncut']

end Teams

theorem stable_of_acme :
    ((forall label, slug asciiPlatform " ACME Corp. ".toList = some label -> DnsLabel label) ∧
      (forall label, slug asciiPlatform " ACME Corp. ".toList = some label ->
        slug asciiPlatform label = some label) ∧
      SameOnRename asciiPlatform " ACME Corp. ".toList) :=
  (stable_iff_uncut standard_asciiPlatform _).mpr (by decide)

/-- A name whose first word has 62 characters. -/
theorem unstable_of_longWord :
    ¬ forall name label, slug asciiPlatform name = some label ->
      DnsLabel label ∧ slug asciiPlatform label = some label := by
  intro h
  have hcut : Cut asciiPlatform (List.replicate 62 'a' ++ [' ', 'b']) := by decide
  rcases not_dnsLabel_of_cut hcut with ⟨label, hslug, hnot⟩
  exact hnot (h _ label hslug).left

end Api

end Panel
end RcTunnel
