import RcTunnel.Engine.Routing

/-!
# Requests on a public host

{lit}`handleVhost` reads one request of a public connection, looks its host up,
and hands the connection over: the request is replayed on a work connection and
every byte after it is copied.  The host of a later request on the same
connection is never read.
-/

namespace RcTunnel
namespace Engine

namespace Vhost

/-- What the handler uses of {lit}`net/http`. -/
structure Http where
  Request : Type
  /-- the request at the head of the bytes, its body included, and what follows -/
  readRequest : Bytes -> Option (Request × Bytes)
  host : Request -> Text
  /-- {lit}`req.Write` -/
  write : Request -> Bytes

/-- The bytes are exactly the request, whatever follows them. -/
def Http.Encodes (http : Http) (wire : Bytes) (r : http.Request) : Prop :=
  wire ≠ [] ∧ forall rest, http.readRequest (wire ++ rest) = some (r, rest)

/-- A {lit}`bufio.Reader`: what it has taken from the connection, and the rest. -/
structure BufReader where
  buffered : Bytes
  conn : Bytes

/-- What happens to one public connection. -/
structure Conditions where
  /-- the first request is complete before the deadline -/
  inTime : Bool
  /-- {lit}`acquireCNOnly` -/
  slot : Bool
  /-- a work connection arrives within ten seconds -/
  arrives : Bool
  /-- how many bytes of the replay the work connection takes -/
  replayed : Nat
  /-- how far the reader is ahead of the first request -/
  ahead : Nat
  /-- how many bytes are copied before either side closes -/
  copied : Nat
deriving DecidableEq, Repr

inductive Outcome where
  | closed
  | answered (response : Text)
  /-- the bytes written to a work connection of the client -/
  | forwarded (client : Nat) (replay copy : Bytes)
deriving DecidableEq, Repr

def statusText : Nat -> Text
  | 404 => "Not Found".toList
  | 502 => "Bad Gateway".toList
  | 503 => "Service Unavailable".toList
  | _ => []

def writeStatus (code : Nat) (msg : Text) : Text :=
  "HTTP/1.1 ".toList ++ itoa code ++ ' ' :: statusText code ++
    "\r\nContent-Length: ".toList ++ itoa (byteLength msg) ++
    "\r\nConnection: close\r\nContent-Type: text/plain\r\n\r\n".toList ++ msg

/-- The bytes {lit}`io.Copy` takes from the reader: first those it has buffered. -/
def pipeBuffered (conditions : Conditions) (br : BufReader) : Bytes :=
  (br.buffered ++ br.conn).take conditions.copied

section Handler

variable (http : Http) (rt : Runtime) (vhosts : Text -> Option ProxyRef)

def handleVhost (conditions : Conditions) (stream : Bytes) : Outcome :=
  match http.readRequest stream with
  | none => Outcome.closed
  | some (req, rest) =>
      if conditions.inTime = false then
        Outcome.closed
      else
        match vhosts (Server.vhostKey rt (http.host req)) with
        | none => Outcome.answered (writeStatus 404 "no such tunnel".toList)
        | some ref =>
            if conditions.slot = false then
              Outcome.answered (writeStatus 503 "busy".toList)
            else if conditions.arrives = false then
              Outcome.answered (writeStatus 502 "tunnel timeout".toList)
            else if conditions.replayed < (http.write req).length then
              Outcome.forwarded ref.client ((http.write req).take conditions.replayed) []
            else
              Outcome.forwarded ref.client (http.write req)
                (pipeBuffered conditions
                  ⟨rest.take conditions.ahead, rest.drop conditions.ahead⟩)

/-!
# Requests and their owners
-/

/-- The bytes of a connection that carries the requests one after another. -/
def stream {http : Http} (requests : List (Bytes × http.Request)) : Bytes :=
  requests.flatMap Prod.fst

/-- The client that owns the host of a request. -/
def owner (r : http.Request) : Option Nat :=
  (vhosts (Server.vhostKey rt (http.host r))).map ProxyRef.client

/-- Some of the request's bytes are written to a work connection of the client. -/
inductive Reaches {http : Http} : List (Bytes × http.Request) -> Outcome ->
    http.Request -> Nat -> Prop where
  | first {wire : Bytes} {r : http.Request} {rest : List (Bytes × http.Request)}
      {c : Nat} {replay copy : Bytes} :
      replay ≠ [] ->
      Reaches ((wire, r) :: rest) (Outcome.forwarded c replay copy) r c
  | later {first : Bytes × http.Request} {before after : List (Bytes × http.Request)}
      {wire : Bytes} {r : http.Request} {c : Nat} {replay copy : Bytes} :
      (stream before).length < copy.length ->
      Reaches (first :: (before ++ (wire, r) :: after))
        (Outcome.forwarded c replay copy) r c

/-- Whatever happens to the connection, no request reaches a client that does not own
its host. -/
def RoutedByHost (requests : List (Bytes × http.Request)) : Prop :=
  forall conditions r c,
    Reaches requests (handleVhost http rt vhosts conditions (stream requests)) r c ->
      owner http rt vhosts r = some c

/-- The first host is unknown, or its owner owns the hosts of all later requests. -/
def OneOwner : List (Bytes × http.Request) -> Prop
  | [] => True
  | first :: rest =>
      owner http rt vhosts first.2 = none ∨
        forall later, later ∈ rest ->
          owner http rt vhosts later.2 = owner http rt vhosts first.2

instance (requests : List (Bytes × http.Request)) :
    Decidable (OneOwner http rt vhosts requests) :=
  match requests with
  | [] => isTrue trivial
  | first :: rest =>
      inferInstanceAs (Decidable (owner http rt vhosts first.2 = none ∨
        forall later, later ∈ rest ->
          owner http rt vhosts later.2 = owner http rt vhosts first.2))

end Handler

section Proof

variable {http : Http} {rt : Runtime} {vhosts : Text -> Option ProxyRef}

/-- A forwarded connection goes to the owner of its first host. -/
theorem handleVhost_forwarded {conditions : Conditions} {wire : Bytes}
    {r : http.Request} {rest : List (Bytes × http.Request)} {c : Nat}
    {replay copy : Bytes} (hwire : http.Encodes wire r)
    (h : handleVhost http rt vhosts conditions (stream ((wire, r) :: rest)) =
      Outcome.forwarded c replay copy) : owner http rt vhosts r = some c := by
  have hread : http.readRequest (stream ((wire, r) :: rest)) = some (r, stream rest) :=
    hwire.right (stream rest)
  unfold handleVhost at h
  rw [hread] at h
  simp only at h
  split at h
  · cases h
  · split at h
    · cases h
    · rename_i ref href
      unfold owner
      rw [href]
      split at h
      · cases h
      · split at h
        · cases h
        · split at h
          · cases h
            rfl
          · cases h
            rfl

/-- The conditions under which nothing interrupts the connection. -/
def undisturbed (http : Http) (r : http.Request) (rest : Bytes) : Conditions where
  inTime := true
  slot := true
  arrives := true
  replayed := (http.write r).length
  ahead := 0
  copied := rest.length

/-- An undisturbed connection is copied to its end. -/
theorem handleVhost_undisturbed {wire : Bytes} {r : http.Request}
    {rest : List (Bytes × http.Request)} {c : Nat} (hwire : http.Encodes wire r)
    (howner : owner http rt vhosts r = some c) :
    handleVhost http rt vhosts (undisturbed http r (stream rest))
      (stream ((wire, r) :: rest)) =
        Outcome.forwarded c (http.write r) (stream rest) := by
  have hread : http.readRequest (stream ((wire, r) :: rest)) = some (r, stream rest) :=
    hwire.right (stream rest)
  rcases Option.map_eq_some_iff.mp howner with ⟨ref, href, rfl⟩
  simp [handleVhost, hread, href, undisturbed, pipeBuffered]

/--
Every request of a connection goes to the owner of its host exactly when the first
host is unknown or all hosts have one owner.
-/
theorem routedByHost_iff_oneOwner {requests : List (Bytes × http.Request)}
    (hrequests : forall q, q ∈ requests -> http.Encodes q.1 q.2) :
    RoutedByHost http rt vhosts requests <-> OneOwner http rt vhosts requests := by
  cases requests with
  | nil =>
      refine ⟨fun _ => trivial, fun _ conditions r c hreaches => ?_⟩
      cases hreaches
  | cons first rest =>
      rcases first with ⟨wire, r⟩
      have hwire : http.Encodes wire r := hrequests (wire, r) List.mem_cons_self
      constructor
      · intro hrouted
        cases howner : owner http rt vhosts r with
        | none => exact Or.inl howner
        | some c =>
            apply Or.inr
            intro h hlater
            rcases h with ⟨wire', r'⟩
            rcases List.append_of_mem hlater with ⟨before, after, rfl⟩
            have hne : wire' ≠ [] :=
              (hrequests (wire', r') (List.mem_cons_of_mem _ hlater)).left
            have hcopied : (stream before).length <
                (stream (before ++ (wire', r') :: after)).length := by
              have hpos := List.length_pos_iff.mpr hne
              simp only [stream, List.flatMap_append, List.flatMap_cons,
                List.length_append]
              omega
            have hreaches : Reaches ((wire, r) :: (before ++ (wire', r') :: after))
                (handleVhost http rt vhosts
                  (undisturbed http r (stream (before ++ (wire', r') :: after)))
                  (stream ((wire, r) :: (before ++ (wire', r') :: after)))) r' c := by
              rw [handleVhost_undisturbed hwire howner]
              exact Reaches.later hcopied
            exact (hrouted _ r' c hreaches).trans howner.symm
      · intro hone conditions r' c hreaches
        generalize houtcome : handleVhost http rt vhosts conditions
          (stream ((wire, r) :: rest)) = outcome at hreaches
        cases hreaches with
        | first => exact handleVhost_forwarded hwire houtcome
        | later =>
            have howner := handleVhost_forwarded hwire houtcome
            rcases hone with hnone | hall
            · rw [hnone] at howner
              cases howner
            · exact (hall _ (List.mem_append_right _ List.mem_cons_self)).trans howner

end Proof

/-!
# Requests without a body

A reader of {lit}`GET` requests, which end at their first empty line.
-/

/-- The bytes up to the first empty line, and those after it. -/
def splitHead : Bytes -> Option (Bytes × Bytes)
  | 13 :: 10 :: 13 :: 10 :: rest => some ([], rest)
  | b :: rest => (splitHead rest).map fun (head, tail) => (b :: head, tail)
  | [] => none

theorem splitHead_length {wire head tail : Bytes}
    (h : splitHead wire = some (head, tail)) : 4 ≤ wire.length := by
  induction wire using splitHead.induct generalizing head with
  | case1 after => simp
  | case2 b after hne ih =>
      rw [splitHead.eq_2 b after hne] at h
      rcases Option.map_eq_some_iff.mp h with ⟨⟨head', tail'⟩, hsplit, heq⟩
      cases heq
      exact Nat.le_succ_of_le (ih hsplit)
  | case3 => cases h

theorem splitHead_append {wire head tail : Bytes} (rest : Bytes)
    (h : splitHead wire = some (head, tail)) :
    splitHead (wire ++ rest) = some (head, tail ++ rest) := by
  induction wire using splitHead.induct generalizing head with
  | case1 after =>
      cases h
      rfl
  | case2 b after hne ih =>
      rw [splitHead.eq_2 b after hne] at h
      rcases Option.map_eq_some_iff.mp h with ⟨⟨head', tail'⟩, hsplit, heq⟩
      cases heq
      have hlong := splitHead_length hsplit
      have hne' : forall next, b = 13 -> after ++ rest = 10 :: 13 :: 10 :: next -> False := by
        intro next hb heq
        rcases after with _ | ⟨x, _ | ⟨y, _ | ⟨z, after⟩⟩⟩ <;> simp at hlong
        simp only [List.cons_append, List.cons.injEq] at heq
        rcases heq with ⟨rfl, rfl, rfl, _⟩
        exact hne after hb rfl
      rw [List.cons_append, splitHead.eq_2 b (after ++ rest) hne', ih hsplit]
      rfl
  | case3 => cases h

structure GetRequest where
  line : Text
  host : Text
deriving DecidableEq, Repr

def parseHead (head : Bytes) : Option GetRequest :=
  let text := (head.map fun b => Char.ofNat b.toNat).filter (· ≠ '\r')
  match text.splitOn '\n' with
  | [] => none
  | line :: headers =>
      (headers.find? fun h => "Host: ".toList.isPrefixOf h).map fun h =>
        ⟨line, h.drop "Host: ".toList.length⟩

def readGet (bytes : Bytes) : Option (GetRequest × Bytes) :=
  (splitHead bytes).bind fun (head, rest) => (parseHead head).map fun r => (r, rest)

abbrev getRequests : Http where
  Request := GetRequest
  readRequest := readGet
  host r := r.host
  write r :=
    ascii (r.line ++ "\r\nHost: ".toList ++ r.host ++
      "\r\nUser-Agent: Go-http-client/1.1\r\n\r\n".toList)

theorem encodes_of_readGet {wire : Bytes} {r : GetRequest}
    (h : readGet wire = some (r, [])) : getRequests.Encodes wire r := by
  rcases Option.bind_eq_some_iff.mp h with ⟨⟨head, tail⟩, hsplit, hparse⟩
  rcases Option.map_eq_some_iff.mp hparse with ⟨r', hr, heq⟩
  cases heq
  have hlong := splitHead_length hsplit
  refine ⟨?_, fun rest => ?_⟩
  · intro hsame
    subst hsame
    simp at hlong
  · have hread := splitHead_append rest hsplit
    simp [getRequests, readGet, hread, hr]

/-- A request and its bytes. -/
def get (host : String) : Bytes × GetRequest :=
  (ascii ("GET / HTTP/1.1\r\nHost: ".toList ++ host.toList ++ "\r\n\r\n".toList),
    ⟨"GET / HTTP/1.1".toList, host.toList⟩)

/-- Two clients with one host each. -/
def twoHosts (host : Text) : Option ProxyRef :=
  if host = "a.example".toList then
    some ⟨0, Server.site "web" ["a.example"], ⟨[], 0⟩⟩
  else if host = "b.example".toList then
    some ⟨1, Server.site "web" ["b.example"], ⟨[], 0⟩⟩
  else
    none

/-- Two requests for the hosts of one client. -/
theorem routedByHost_oneClient :
    RoutedByHost getRequests Server.plainRuntime twoHosts
      [get "a.example", get "A.example:8080"] := by
  have hread : forall q, q ∈ [get "a.example", get "A.example:8080"] ->
      readGet q.1 = some (q.2, []) := by
    decide +kernel
  exact (routedByHost_iff_oneOwner fun q hq => encodes_of_readGet (hread q hq)).mpr
    (by decide +kernel)

/-- A second request is written to the work connection of another host's owner. -/
theorem later_host_unread :
    (forall q, q ∈ [get "a.example", get "b.example"] ->
        getRequests.Encodes q.1 q.2) ∧
      owner getRequests Server.plainRuntime twoHosts (get "b.example").2 = some 1 ∧
      (exists conditions, @Reaches getRequests [get "a.example", get "b.example"]
        (handleVhost getRequests Server.plainRuntime twoHosts conditions
          (@stream getRequests [get "a.example", get "b.example"]))
        (get "b.example").2 0) ∧
      ¬ RoutedByHost getRequests Server.plainRuntime twoHosts
        [get "a.example", get "b.example"] := by
  have howner : owner getRequests Server.plainRuntime twoHosts (get "b.example").2 =
      some 1 := by
    decide +kernel
  have hforwarded : handleVhost getRequests Server.plainRuntime twoHosts
      ⟨true, true, true, 200, 0, 200⟩
      (@stream getRequests [get "a.example", get "b.example"]) =
        Outcome.forwarded 0 (getRequests.write (get "a.example").2)
          (get "b.example").1 := by
    decide +kernel
  have hreaches : @Reaches getRequests [get "a.example", get "b.example"]
      (handleVhost getRequests Server.plainRuntime twoHosts ⟨true, true, true, 200, 0, 200⟩
        (@stream getRequests [get "a.example", get "b.example"]))
      (get "b.example").2 0 := by
    rw [hforwarded]
    exact @Reaches.later getRequests _ [] [] _ _ _ _ _ (by decide +kernel)
  have hread : forall q, q ∈ [get "a.example", get "b.example"] ->
      readGet q.1 = some (q.2, []) := by
    decide +kernel
  refine ⟨fun q hq => encodes_of_readGet (hread q hq), howner, ⟨_, hreaches⟩,
    fun hrouted => ?_⟩
  have hfirst := hrouted _ _ 0 hreaches
  rw [howner] at hfirst
  cases hfirst

end Vhost

end Engine
end RcTunnel
