import RcTunnel.Engine.Update
import RcTunnel.Foundation.Separated

/-!
# What the key of a proxy tells apart

A reload compares the desired proxies with the registered ones by a key, which joins the
type, the port, the subdomain and the printed list of domains with bars.  The texts come
from the agent, and may hold bars, brackets and spaces themselves.  The main result lists
the pairs of proxies that the server serves differently and that have the same key.
-/

namespace RcTunnel
namespace Engine

open Foundation Update

namespace SpecKey

/-- The list of domains as it is printed, up to the closing bracket. -/
def printed (domains : List Text) : Text := '[' :: List.intercalate [' '] domains

/-- The subdomain and the domains. -/
def names (p : ProxySpec) : Text := p.subdomain ++ '|' :: printed p.customDomains

/-- The lists of domains differ, but have the same words when each domain is cut at its
spaces. -/
structure SameWords (p q : ProxySpec) : Prop where
  type : p.type = q.type
  remotePort : p.remotePort = q.remotePort
  subdomain : p.subdomain = q.subdomain
  words : wordsAt ' ' p.customDomains = wordsAt ' ' q.customDomains
  differ : p.customDomains ≠ q.customDomains

/-- The subdomain of the second goes on with a bar, a bracket and the beginning of the first
one's domains. -/
def SubdomainRunsOn (p q : ProxySpec) : Prop :=
  p.type = q.type ∧ p.remotePort = q.remotePort ∧ exists x : Text,
    q.subdomain = p.subdomain ++ '|' :: '[' :: x ∧
      List.intercalate [' '] p.customDomains = x ++ '|' :: printed q.customDomains

/-- The type of the second goes on with a bar, the port of the first and the beginning of
the first one's names. -/
def TypeRunsOn (p q : ProxySpec) : Prop :=
  (q.type = p.type ++ '|' :: itoa p.remotePort ∧
      names p = itoa q.remotePort ++ '|' :: names q) ∨
    exists z : Text, q.type = p.type ++ '|' :: (itoa p.remotePort ++ '|' :: z) ∧
      names p = z ++ '|' :: (itoa q.remotePort ++ '|' :: names q)

/-- The proxies have texts that hold the separators of the key in one of these ways. -/
def Confusable (p q : ProxySpec) : Prop :=
  SameWords p q ∨ SubdomainRunsOn p q ∨ SubdomainRunsOn q p ∨ TypeRunsOn p q ∨ TypeRunsOn q p

/-- The key and the two comparisons of a reload tell the proxies apart exactly when the
server serves them differently. -/
structure Identifies (p q : ProxySpec) : Prop where
  key : specKey p = specKey q <-> SameServed p q
  /-- the registered proxy is taken for the desired one -/
  unchanged : forall (regs : Regs) (e : RegEntry), regs.get? p.name = some e -> e.spec = q ->
    (Server.Unchanged regs p <-> SameServed p q)
  /-- the registered proxy is torn down -/
  stale : forall (proxies : List ProxySpec) (e : RegEntry),
    lastNamed proxies e.spec.name = some p -> e.spec = q ->
      (Server.Stale proxies e <-> ¬ SameServed p q)

/-!
# The key, taken apart
-/

theorem bar_not_mem_itoa (n : Int) : '|' ∉ itoa n := not_mem_itoa (by decide) (by decide) n

theorem specKey_eq_iff (p q : ProxySpec) :
    specKey p = specKey q <->
      p.type ++ '|' :: (itoa p.remotePort ++ '|' :: names p) =
        q.type ++ '|' :: (itoa q.remotePort ++ '|' :: names q) := by
  have hkey : forall r : ProxySpec, specKey r =
      (r.type ++ '|' :: (itoa r.remotePort ++ '|' :: names r)) ++ [']'] := by
    intro r
    simp [specKey, names, printed]
  rw [hkey, hkey]
  exact List.append_left_inj _

/-- The printed domains start with a bracket, so a bar before them is followed by one. -/
theorem subdomainRunsOn_of_names {p q : ProxySpec} {z : Text} (htype : p.type = q.type)
    (hport : p.remotePort = q.remotePort) (hsubdomain : q.subdomain = p.subdomain ++ '|' :: z)
    (hprinted : printed p.customDomains = z ++ '|' :: printed q.customDomains) :
    SubdomainRunsOn p q := by
  refine ⟨htype, hport, ?_⟩
  unfold printed at hprinted
  cases z with
  | nil => exact absurd (List.cons.inj hprinted).left (by decide)
  | cons c x =>
      rw [List.cons_append, List.cons.injEq] at hprinted
      refine ⟨x, ?_, hprinted.right⟩
      rw [hsubdomain, hprinted.left]

/-- The names of two proxies with the same type and port. -/
theorem confusable_of_names {p q : ProxySpec} (htype : p.type = q.type)
    (hport : p.remotePort = q.remotePort) (hnames : names p = names q)
    (hdiffer : ¬ SameServed p q) : Confusable p q := by
  rcases append_sep_cases hnames with ⟨hsubdomain, hprinted⟩ | ⟨z, hsubdomain, hprinted⟩ |
    ⟨z, hsubdomain, hprinted⟩
  · have hjoined := (List.cons.inj hprinted).right
    refine Or.inl ⟨htype, hport, hsubdomain, (intercalate_inj_iff _ _).mp hjoined, ?_⟩
    intro hsame
    exact hdiffer ⟨htype, hport, hsubdomain, hsame⟩
  · exact Or.inr (Or.inl (subdomainRunsOn_of_names htype hport hsubdomain hprinted))
  · exact Or.inr (Or.inr (Or.inl
      (subdomainRunsOn_of_names htype.symm hport.symm hsubdomain hprinted)))

/-- A port has no bar, so a type that goes on past the first one's takes the whole port. -/
theorem typeRunsOn_of_rest {p q : ProxySpec} {z : Text} (htype : q.type = p.type ++ '|' :: z)
    (hrest : itoa p.remotePort ++ '|' :: names p =
      z ++ '|' :: (itoa q.remotePort ++ '|' :: names q)) : TypeRunsOn p q := by
  rcases first_sep_cases hrest (bar_not_mem_itoa p.remotePort) with
    ⟨rfl, hnames⟩ | ⟨z', rfl, hnames⟩
  · exact Or.inl ⟨htype, hnames⟩
  · exact Or.inr ⟨z', htype, hnames⟩

theorem confusable_of_specKey_eq {p q : ProxySpec} (hkey : specKey p = specKey q)
    (hdiffer : ¬ SameServed p q) : Confusable p q := by
  rw [specKey_eq_iff] at hkey
  rcases append_sep_cases hkey with ⟨htype, hrest⟩ | ⟨z, htype, hrest⟩ | ⟨z, htype, hrest⟩
  · have hparts := first_sep_inj hrest (bar_not_mem_itoa _) (bar_not_mem_itoa _)
    exact confusable_of_names htype (itoa_inj hparts.left) hparts.right hdiffer
  · exact Or.inr (Or.inr (Or.inr (Or.inl (typeRunsOn_of_rest htype hrest))))
  · exact Or.inr (Or.inr (Or.inr (Or.inr (typeRunsOn_of_rest htype hrest))))

/-!
# Proxies that are confused
-/

/-- A text that goes on is another one. -/
theorem append_cons_ne (s t : Text) (c : Char) : s ≠ s ++ c :: t := by
  intro h
  have hlength := congrArg List.length h
  simp at hlength

theorem confused_of_sameWords {p q : ProxySpec} (h : SameWords p q) :
    specKey p = specKey q ∧ ¬ SameServed p q := by
  constructor
  · rw [specKey_eq_iff, names, names, printed, printed, h.type, h.remotePort, h.subdomain,
      (intercalate_inj_iff _ _).mpr h.words]
  · exact fun hsame => h.differ hsame.customDomains

theorem confused_of_subdomainRunsOn {p q : ProxySpec} (h : SubdomainRunsOn p q) :
    specKey p = specKey q ∧ ¬ SameServed p q := by
  rcases h with ⟨htype, hport, x, hsubdomain, hprinted⟩
  constructor
  · rw [specKey_eq_iff, names, names, htype, hport, hsubdomain, printed, hprinted]
    simp
  · intro hsame
    rw [← hsame.subdomain] at hsubdomain
    exact append_cons_ne _ _ _ hsubdomain

theorem confused_of_typeRunsOn {p q : ProxySpec} (h : TypeRunsOn p q) :
    specKey p = specKey q ∧ ¬ SameServed p q := by
  rcases h with ⟨htype, hnames⟩ | ⟨z, htype, hnames⟩
  · constructor
    · rw [specKey_eq_iff, htype, hnames]
      simp
    · intro hsame
      rw [← hsame.type] at htype
      exact append_cons_ne _ _ _ htype
  · constructor
    · rw [specKey_eq_iff, htype, hnames]
      simp
    · intro hsame
      rw [← hsame.type] at htype
      exact append_cons_ne _ _ _ htype

theorem confused_of_confusable {p q : ProxySpec} (h : Confusable p q) :
    specKey p = specKey q ∧ ¬ SameServed p q := by
  have hswap : specKey q = specKey p ∧ ¬ SameServed q p ->
      specKey p = specKey q ∧ ¬ SameServed p q :=
    fun hconfused => ⟨hconfused.left.symm, fun hsame => hconfused.right hsame.symm⟩
  rcases h with hwords | hsubdomain | hsubdomain | htype | htype
  · exact confused_of_sameWords hwords
  · exact confused_of_subdomainRunsOn hsubdomain
  · exact hswap (confused_of_subdomainRunsOn hsubdomain)
  · exact confused_of_typeRunsOn htype
  · exact hswap (confused_of_typeRunsOn htype)

theorem specKey_eq_iff_sameServed {p q : ProxySpec} (h : ¬ Confusable p q) :
    specKey p = specKey q <-> SameServed p q := by
  constructor
  · intro hkey
    by_contra hdiffer
    exact h (confusable_of_specKey_eq hkey hdiffer)
  · exact SameServed.specKey

/--
For any two proxies, the key is the same exactly when the server serves them alike, a
reload keeps the one as the other exactly then and tears it down otherwise, if and only if
their texts do not hold the separators of the key in one of the ways listed.
-/
theorem identifies_iff (p q : ProxySpec) : Identifies p q <-> ¬ Confusable p q := by
  constructor
  · intro h hconfusable
    have hconfused := confused_of_confusable hconfusable
    exact hconfused.right (h.key.mp hconfused.left)
  · intro h
    have hkey := specKey_eq_iff_sameServed h
    constructor
    · exact hkey
    · intro regs e hget hspec
      rw [← hkey]
      unfold Server.Unchanged
      simp only [hget, Option.mem_some_iff, exists_eq_left', hspec]
      exact eq_comm
    · intro proxies e hlast hspec
      rw [← hkey, ← hspec, ← not_iff_not, not_not, not_stale_iff]
      simp [hlast]

/-- One domain with a space in it, or two domains. -/
def spaced (domains : List Text) : ProxySpec :=
  ⟨"web".toList, "http".toList, "127.0.0.1:80".toList, 0, [], domains⟩

/-- A proxy that gave up a host is taken for unchanged. -/
theorem confused_of_space :
    specKey (spaced ["a.example".toList, "b.example".toList]) =
        specKey (spaced ["a.example b.example".toList]) ∧
      ¬ SameServed (spaced ["a.example".toList, "b.example".toList])
        (spaced ["a.example b.example".toList]) ∧
      ¬ Identifies (spaced ["a.example".toList, "b.example".toList])
        (spaced ["a.example b.example".toList]) := by
  have hkey : specKey (spaced ["a.example".toList, "b.example".toList]) =
      specKey (spaced ["a.example b.example".toList]) := by decide
  have hdiffer : ¬ SameServed (spaced ["a.example".toList, "b.example".toList])
      (spaced ["a.example b.example".toList]) := by decide
  exact ⟨hkey, hdiffer, fun h => hdiffer (h.key.mp hkey)⟩

end SpecKey

end Engine
end RcTunnel
