import Mathlib.Data.List.Basic

/-!
# The control protocol of the engine

Control messages are length-prefixed frames of bounded size.  A text is the
list of its runes; the wire form of a message is left to the encoder.
-/

namespace RcTunnel
namespace Engine

abbrev Text := List Char

abbrev Bytes := List UInt8

structure ProxySpec where
  name : Text
  type : Text
  localAddr : Text
  remotePort : Int
  subdomain : Text
  customDomains : List Text
deriving DecidableEq, Repr

structure ProxyStatus where
  name : Text
  ok : Bool
  error : Text
deriving DecidableEq, Repr

/-- The messages {lit}`rctc` and {lit}`rctd` exchange, each with the fields it
uses. -/
inductive Msg where
  | hello (token grant clientId : Text) (proxies : List ProxySpec)
  | helloResp (ok : Bool) (error : Text) (statuses : List ProxyStatus)
  | update (grant : Text) (proxies : List ProxySpec)
  | reqWorkConn (proxyName connId : Text)
  | workConn (token connId : Text)
  | ping
  | pong
deriving DecidableEq, Repr

def maxFrame : Nat := 1 <<< 20

/-- The big-endian length header. -/
def putUint32 (n : Nat) : Bytes :=
  [UInt8.ofNat (n >>> 24), UInt8.ofNat (n >>> 16), UInt8.ofNat (n >>> 8),
    UInt8.ofNat n]

/-- {lit}`WriteMsg`: the frame written, unless the payload is too large. -/
def writeMsg (marshal : Msg -> Bytes) (m : Msg) : Option Bytes :=
  if (marshal m).length > maxFrame then
    none
  else
    some (putUint32 (marshal m).length ++ marshal m)

/-!
The encoder on texts that need no escaping: every field that is not empty, in
the order of its declaration.
-/

/-- The decimal form of an integer. -/
def itoa (n : Int) : Text :=
  match n with
  | Int.ofNat m => Nat.toDigits 10 m
  | Int.negSucc m => '-' :: Nat.toDigits 10 (m + 1)

theorem itoa_chars {n : Int} {c : Char} (hc : c ∈ itoa n) : c.isDigit = true ∨ c = '-' := by
  cases n with
  | ofNat m => exact Or.inl (Nat.isDigit_of_mem_toDigits (by decide) (by decide) hc)
  | negSucc m =>
      rcases List.mem_cons.mp hc with rfl | hc
      · exact Or.inr rfl
      · exact Or.inl (Nat.isDigit_of_mem_toDigits (by decide) (by decide) hc)

/-- No separator in a number. -/
theorem not_mem_itoa {c : Char} (hc : c.isDigit = false) (hne : c ≠ '-') (n : Int) :
    c ∉ itoa n := by
  intro hmem
  rcases itoa_chars hmem with hdigit | heq
  · rw [hc] at hdigit
    cases hdigit
  · exact hne heq

theorem itoa_ne_nil (n : Int) : itoa n ≠ [] := by
  cases n with
  | ofNat m => exact Nat.toDigits_ne_nil
  | negSucc m => exact List.cons_ne_nil _ _

theorem toDigits_inj {n m : Nat} (h : Nat.toDigits 10 n = Nat.toDigits 10 m) : n = m := by
  have hread := congrArg (fun digits => Nat.ofDigitChars 10 digits 0) h
  simpa only [Nat.ofDigitChars_ten_toDigits] using hread

theorem sign_not_mem_toDigits (n : Nat) : '-' ∉ Nat.toDigits 10 n := by
  intro hmem
  exact absurd (Nat.isDigit_of_mem_toDigits (by decide) (by decide) hmem) (by decide)

theorem itoa_inj {n m : Int} (h : itoa n = itoa m) : n = m := by
  cases n with
  | ofNat k =>
      cases m with
      | ofNat l => exact congrArg Int.ofNat (toDigits_inj h)
      | negSucc l =>
          have hmem : '-' ∈ itoa (Int.ofNat k) := h ▸ List.mem_cons_self
          exact absurd hmem (sign_not_mem_toDigits k)
  | negSucc k =>
      cases m with
      | ofNat l =>
          have hmem : '-' ∈ itoa (Int.ofNat l) := h ▸ List.mem_cons_self
          exact absurd hmem (sign_not_mem_toDigits l)
      | negSucc l =>
          have hsucc := toDigits_inj (List.cons.inj h).right
          rw [Nat.succ.inj hsucc]

/-- A JSON string without its escapes: only the concrete codecs use it, for texts that
need none. -/
def quote (t : Text) : Text := '"' :: t ++ ['"']

def jsonField (key : String) (value : Text) : Text :=
  quote key.toList ++ ':' :: value

def textField (key : String) (value : Text) : List Text :=
  if value = [] then [] else [jsonField key (quote value)]

def listField (key : String) (values : List Text) : List Text :=
  if values = [] then
    []
  else
    [jsonField key ('[' :: List.intercalate [','] values ++ [']'])]

def object (fields : List Text) : Text :=
  '{' :: List.intercalate [','] fields ++ ['}']

def ProxySpec.json (p : ProxySpec) : Text :=
  object
    ([jsonField "name" (quote p.name), jsonField "type" (quote p.type),
        jsonField "localAddr" (quote p.localAddr)] ++
      (if p.remotePort = 0 then [] else [jsonField "remotePort" (itoa p.remotePort)]) ++
      textField "subdomain" p.subdomain ++
      listField "customDomains" (p.customDomains.map quote))

def ProxyStatus.json (st : ProxyStatus) : Text :=
  object
    ([jsonField "name" (quote st.name),
        jsonField "ok" (if st.ok then "true".toList else "false".toList)] ++
      textField "error" st.error)

def Msg.json : Msg -> Text
  | Msg.hello token grant clientId proxies =>
      object
        (textField "type" "hello".toList ++ textField "token" token ++
          textField "grant" grant ++ textField "clientId" clientId ++
          listField "proxies" (proxies.map ProxySpec.json))
  | Msg.helloResp ok error statuses =>
      object
        (textField "type" "helloResp".toList ++
          (if ok then [jsonField "ok" "true".toList] else []) ++
          textField "error" error ++ listField "statuses" (statuses.map ProxyStatus.json))
  | Msg.update grant proxies =>
      object
        (textField "type" "update".toList ++ textField "grant" grant ++
          listField "proxies" (proxies.map ProxySpec.json))
  | Msg.reqWorkConn proxyName connId =>
      object
        (textField "type" "reqWorkConn".toList ++ textField "proxyName" proxyName ++
          textField "connId" connId)
  | Msg.workConn token connId =>
      object
        (textField "type" "workConn".toList ++ textField "token" token ++
          textField "connId" connId)
  | Msg.ping => object (textField "type" "ping".toList)
  | Msg.pong => object (textField "type" "pong".toList)

/-- The bytes of an ASCII text. -/
def ascii (t : Text) : Bytes := t.map fun c => UInt8.ofNat c.toNat

end Engine
end RcTunnel
