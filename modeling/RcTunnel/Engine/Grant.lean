import RcTunnel.Engine.Proto

/-!
# Grants

A grant is a text of six fields separated by {lit}`|`: a version, the identity it
is bound to, its expiry, the ports, the hosts and a signature over the other
five.  The engine accepts it for an identity when the signature and the binding
check and it has not expired.
-/

namespace RcTunnel
namespace Engine

/-- What the engine takes from outside: the keyed hash of the signature, in its
base64 form, the case mapping of non-ASCII runes, and the errors of the sockets. -/
structure Runtime where
  hmac : Text -> Text -> Text
  unicodeLower : Char -> Char
  listenError : Text

/-- {lit}`strings.ToLower`. -/
def Runtime.toLower (rt : Runtime) (t : Text) : Text :=
  t.map fun c => if c.val < 128 then c.toLower else rt.unicodeLower c

/-- {lit}`strconv.Atoi` and {lit}`strconv.ParseInt` for 64 bits. -/
def parseInt (t : Text) : Option Int :=
  let (negative, digits) :=
    match t with
    | '-' :: rest => (true, rest)
    | '+' :: rest => (false, rest)
    | _ => (false, t)
  if digits = [] ∨ ¬ digits.all Char.isDigit then
    none
  else
    let n : Nat := digits.foldl (fun acc c => 10 * acc + (c.toNat - '0'.toNat)) 0
    let value : Int := if negative then - (n : Int) else n
    if -0x8000000000000000 ≤ value ∧ value ≤ 0x7FFFFFFFFFFFFFFF then some value else none

theorem digits_all (n : Nat) : (Nat.toDigits 10 n).all Char.isDigit = true :=
  List.all_eq_true.mpr fun _ hc => Nat.isDigit_of_mem_toDigits (by decide) (by decide) hc

theorem parseInt_digits (negative : Bool) (m : Nat) {t digits : Text}
    (ht : (match t with
      | '-' :: rest => (true, rest)
      | '+' :: rest => (false, rest)
      | _ => (false, t)) = (negative, digits))
    (hdigits : digits = Nat.toDigits 10 m) {n : Int}
    (hn : (if negative then - (m : Int) else m) = n) (hlow : -0x8000000000000000 ≤ n)
    (hhigh : n ≤ 0x7FFFFFFFFFFFFFFF) : parseInt t = some n := by
  have hfold : digits.foldl (fun acc c => 10 * acc + (c.toNat - '0'.toNat)) 0 = m := by
    rw [hdigits]
    exact Nat.ofDigitChars_ten_toDigits
  unfold parseInt
  rw [ht]
  simp only
  rw [if_neg, hfold, hn, if_pos ⟨hlow, hhigh⟩]
  rw [hdigits]
  simp [digits_all]

/-- What is written in decimal is read back. -/
theorem parseInt_itoa {n : Int} (hlow : -0x8000000000000000 ≤ n)
    (hhigh : n ≤ 0x7FFFFFFFFFFFFFFF) : parseInt (itoa n) = some n := by
  cases n with
  | ofNat m =>
      refine parseInt_digits false m ?_ rfl rfl hlow hhigh
      show (match Nat.toDigits 10 m with
        | '-' :: rest => (true, rest)
        | '+' :: rest => (false, rest)
        | _ => (false, Nat.toDigits 10 m)) = _
      have hall := digits_all m
      split
      · rename_i heq
        rw [heq] at hall
        cases hall
      · rename_i heq
        rw [heq] at hall
        cases hall
      · rfl
  | negSucc m => exact parseInt_digits true (m + 1) rfl rfl rfl hlow hhigh

structure Grant where
  cn : Text
  ports : List Int
  hosts : List Text
deriving DecidableEq, Repr

/-- The ports of the fourth field. -/
def grantPorts (field : Text) : List Int :=
  if field = [] then [] else (field.splitOn ',').filterMap parseInt

/-- The hosts of the fifth field. -/
def grantHosts (rt : Runtime) (field : Text) : List Text :=
  if field = [] then [] else (field.splitOn ',').map rt.toLower

/-- {lit}`Verify`. -/
def verify (rt : Runtime) (secret s cn : Text) (now : Int) : Except Text Grant :=
  match s.splitOn '|' with
  | [version, bound, expiry, ports, hosts, signature] =>
      if version ≠ "v1".toList then
        Except.error "bad grant format".toList
      else
        let msg := List.intercalate ['|'] [version, bound, expiry, ports, hosts]
        if rt.hmac secret msg ≠ signature then
          Except.error "bad grant signature".toList
        else if bound ≠ cn then
          Except.error "grant cn mismatch".toList
        else
          match parseInt expiry with
          | none => Except.error "grant expired".toList
          | some exp =>
              if exp < now then
                Except.error "grant expired".toList
              else
                Except.ok ⟨bound, grantPorts ports, grantHosts rt hosts⟩
  | _ => Except.error "bad grant format".toList

def Grant.allowPort (g : Grant) (port : Int) : Bool := g.ports.contains port

def Grant.allowHost (rt : Runtime) (g : Grant) (host : Text) : Bool :=
  g.hosts.contains (rt.toLower host)

/-!
# What a verified grant says
-/

/-- The text is a grant signed under the secret, bound to the identity and not
expired, with these ports and hosts. -/
structure Signed (rt : Runtime) (secret cn text : Text) (now : Int)
    (ports hosts : Text) : Prop where
  intro ::
  fields : exists expiry exp,
    text.splitOn '|' = ["v1".toList, cn, expiry, ports, hosts,
      rt.hmac secret (List.intercalate ['|'] ["v1".toList, cn, expiry, ports, hosts])] ∧
    parseInt expiry = some exp ∧ now ≤ exp

/-- A signed grant of the identity lists the port. -/
def PortGranted (rt : Runtime) (secret cn text : Text) (now port : Int) : Prop :=
  exists ports hosts, Signed rt secret cn text now ports hosts ∧ port ∈ grantPorts ports

/-- A signed grant of the identity lists the host, in some case. -/
def HostGranted (rt : Runtime) (secret cn text : Text) (now : Int) (host : Text) :
    Prop :=
  exists ports hosts, Signed rt secret cn text now ports hosts ∧ hosts ≠ [] ∧
    exists listed, listed ∈ hosts.splitOn ',' ∧ rt.toLower listed = host

theorem verify_ok {rt : Runtime} {secret text cn : Text} {now : Int} {g : Grant}
    (h : verify rt secret text cn now = Except.ok g) :
    exists ports hosts, Signed rt secret cn text now ports hosts ∧
      g = ⟨cn, grantPorts ports, grantHosts rt hosts⟩ := by
  unfold verify at h
  split at h
  · rename_i version bound expiry ports hosts signature hparts
    split at h
    · cases h
    · rename_i hversion
      simp only at h
      split at h
      · cases h
      · rename_i hsignature
        split at h
        · cases h
        · rename_i hbound
          rw [not_not] at hversion hsignature hbound
          subst hversion hbound hsignature
          split at h
          · cases h
          · rename_i exp hexp
            split at h
            · cases h
            · rename_i hnow
              cases h
              exact ⟨ports, hosts, ⟨expiry, exp, hparts, hexp, Int.not_lt.mp hnow⟩, rfl⟩
  · cases h

theorem portGranted_of_allowPort {rt : Runtime} {secret text cn : Text}
    {now port : Int} {g : Grant} (h : verify rt secret text cn now = Except.ok g)
    (hport : g.allowPort port = true) : PortGranted rt secret cn text now port := by
  rcases verify_ok h with ⟨ports, hosts, hsigned, rfl⟩
  exact ⟨ports, hosts, hsigned, by simpa [Grant.allowPort] using hport⟩

theorem hostGranted_of_allowHost {rt : Runtime} {secret text cn : Text}
    {now : Int} {g : Grant} {host : Text}
    (h : verify rt secret text cn now = Except.ok g)
    (hhost : g.allowHost rt host = true) :
    HostGranted rt secret cn text now (rt.toLower host) := by
  rcases verify_ok h with ⟨ports, hosts, hsigned, rfl⟩
  have hmem : rt.toLower host ∈ grantHosts rt hosts := by
    simpa [Grant.allowHost] using hhost
  unfold grantHosts at hmem
  split at hmem
  · cases hmem
  · rename_i hne
    rcases List.mem_map.mp hmem with ⟨listed, hlisted, heq⟩
    exact ⟨ports, hosts, hsigned, hne, listed, hlisted, heq⟩

end Engine
end RcTunnel
