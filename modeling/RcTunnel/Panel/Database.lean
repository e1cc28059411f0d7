import RcTunnel.Foundation.Machine
import RcTunnel.Foundation.Rows
import RcTunnel.Panel.Text

/-!
# The database and its requests

Teams, users, agents and tunnels, and the endpoints that change them.  Requests
run one at a time, each a sequence of checks and then one commit; a check that
fails leaves the database as it was.  All agents are on the system node.
Passwords, sessions and the columns no endpoint here reads are left out.
-/

namespace RcTunnel
namespace Panel

open Foundation

namespace Api

inductive Role where
  | admin
  | teamAdmin
  | user
  | demo
deriving DecidableEq, Repr

inductive TunnelType where
  | tcp
  | udp
  | http
  | https
deriving DecidableEq, Repr

def TunnelType.value : TunnelType -> Text
  | TunnelType.tcp => "tcp".toList
  | TunnelType.udp => "udp".toList
  | TunnelType.http => "http".toList
  | TunnelType.https => "https".toList

/-- {lit}`_DOMAIN_TYPES`. -/
def TunnelType.domain : TunnelType -> Bool
  | TunnelType.http | TunnelType.https => true
  | TunnelType.tcp | TunnelType.udp => false

structure Team where
  id : Nat
  name : Text
  subdomainLabel : Option Text
  quotaBytes : Option Int
  suspended : Bool
deriving DecidableEq, Repr

structure User where
  id : Nat
  email : Text
  role : Role
  teamId : Option Nat
deriving DecidableEq, Repr

structure Agent where
  id : Nat
  name : Text
  teamId : Option Nat
  generation : Nat
deriving DecidableEq, Repr

structure Tunnel where
  id : Nat
  agentId : Nat
  name : Text
  type : TunnelType
  remotePort : Option Int
  subdomain : Option Text
  customDomains : Option Text
  enabled : Bool
  healthCheckType : Option Text
  bytesIn : Int
  bytesOut : Int
  lastTodayIn : Int
  lastTodayOut : Int
deriving DecidableEq, Repr

structure Db where
  teams : List Team
  users : List User
  agents : List Agent
  tunnels : List Tunnel
deriving DecidableEq, Repr

structure Settings where
  publicDomain : Text
  /-- the public domain is one domain name -/
  oneDomain : publicDomain.all isDomainChar = true
  subdomainMaxDepth : Nat
  maxTunnelsPerAgent : Nat
  maxCustomDomains : Nat
  tcpPortMin : Int
  tcpPortMax : Int
  portAllowMin : Int
  portAllowMax : Int
  grantSecret : Text
  /-- the id of the system node -/
  systemNode : Nat
  /-- the database checks foreign keys; SQLite does not -/
  foreignKeys : Bool

def Db.team? (db : Db) (id : Nat) : Option Team := db.teams.find? fun t => t.id = id

def Db.user? (db : Db) (id : Nat) : Option User := db.users.find? fun u => u.id = id

def Db.agent? (db : Db) (id : Nat) : Option Agent := db.agents.find? fun a => a.id = id

def Db.tunnel? (db : Db) (id : Nat) : Option Tunnel := db.tunnels.find? fun t => t.id = id

/-- The team row of an agent, if it has one. -/
def Db.teamOf (db : Db) (a : Agent) : Option Team := a.teamId.bind db.team?

/-- The label under which an agent's subdomains stand. -/
def Db.labelOf (db : Db) (a : Agent) : Option Text :=
  (db.teamOf a).bind fun t => given t.subdomainLabel

/-!
# Checks
-/

/-- An {lit}`HTTPException`. -/
structure Error where
  status : Nat
  detail : Text
deriving DecidableEq, Repr

def require (p : Prop) [Decidable p] (status : Nat) (detail : Text) :
    Except Error Unit :=
  if p then Except.ok () else Except.error ⟨status, detail⟩

def found (row : Option Row) (status : Nat) (detail : Text) : Except Error Row :=
  match row with
  | some r => Except.ok r
  | none => Except.error ⟨status, detail⟩

/-- A constraint of the database that fails at the commit. -/
def constraint (p : Prop) [Decidable p] : Except Error Unit :=
  require p 500 "Internal Server Error".toList

theorem bind_ok {x : Except Error α} {f : α -> Except Error β} {b : β} :
    (x >>= f) = Except.ok b <-> exists a, x = Except.ok a ∧ f a = Except.ok b := by
  cases x with
  | error e => simp [bind, Except.bind]
  | ok a => simp [bind, Except.bind]

theorem pure_ok {a b : α} : (pure a : Except Error α) = Except.ok b <-> a = b := by
  simp [pure, Except.pure]

theorem require_ok {p : Prop} [Decidable p] {status : Nat} {detail : Text} {u : Unit} :
    require p status detail = Except.ok u <-> p := by
  unfold require
  split <;> simp_all

theorem constraint_ok {p : Prop} [Decidable p] {u : Unit} :
    constraint p = Except.ok u <-> p := require_ok

theorem found_ok {row : Option Row} {status : Nat} {detail : Text} {r : Row} :
    found row status detail = Except.ok r <-> row = some r := by
  cases row with
  | none => simp [found]
  | some r' => simp [found]

/-- {lit}`_require_name`. -/
def requireName (name : Text) : Except Error Text := do
  require (strip name ≠ []) 422 "name must not be empty".toList
  require ((strip name).all fun c => 32 ≤ c.toNat ∧ c ∉ "<>\"'\u0060\\".toList) 422
    "name may not contain < > \" ' \u0060 \\ or control characters".toList
  return strip name

def requireAdmin (u : User) : Except Error Unit :=
  require (u.role = Role.admin) 403 "admin required".toList

def checkTeamAccess (resourceTeam : Option Nat) (u : User) : Except Error Unit :=
  require (u.role = Role.admin ∨ (resourceTeam ≠ none ∧ resourceTeam = u.teamId)) 404
    "not found".toList

/-!
# Teams
-/

/-- The fields of a {lit}`TeamUpdate` that are set. -/
structure TeamFields where
  name : Option (Option Text)
  subdomainLabel : Option (Option Text)
  quotaBytes : Option (Option Int)
deriving DecidableEq, Repr

section Requests

variable (pl : Platform) (st : Settings)

def createTeam (db : Db) (fresh : Nat) (name : Text) (subdomainLabel : Option Text)
    (quotaBytes : Option Int) : Except Error Db := do
  let name ← requireName name
  require (strip name ≠ []) 422 "team name required".toList
  require (forall t, t ∈ db.teams -> t.name ≠ strip name) 409 "team name exists".toList
  let label := match given subdomainLabel with
    | some l => slug pl l
    | none => slug pl (strip name)
  require (forall l, l ∈ label -> forall t, t ∈ db.teams -> t.subdomainLabel ≠ some l) 409
    ("subdomain label '".toList ++ label.getD [] ++ "' is taken".toList)
  return { db with teams := db.teams ++ [⟨fresh, strip name, label, quotaBytes, false⟩] }

/-- {lit}`_clean_optional_name`. -/
def cleanOptionalName : Option (Option Text) -> Except Error (Option (Option Text))
  | some (some name) => do
      let name ← requireName name
      return some (some name)
  | field => return field

/-- The new name of a team, when it is set. -/
def renamed (db : Db) (teamId : Nat) :
    Option (Option Text) -> Except Error (Option Text)
  | none => return none
  | some name => do
      let name := strip (name.getD [])
      require (name ≠ []) 422 "team name required".toList
      require (forall t, t ∈ db.teams -> t.id ≠ teamId -> t.name ≠ name) 409
        "team name exists".toList
      return some name

/-- The label that is set: the one asked for, or the one that follows a new name. -/
def relabelled (name : Option Text) (field : Option (Option Text)) :
    Option (Option Text) :=
  let asked := match field, name with
    | some l, _ => some l
    | none, some n => some (slug pl n)
    | none, none => none
  asked.map fun l =>
    match given l with
    | some t => slug pl t
    | none => l

/-- What a team's tunnels have carried. -/
def Db.usage (db : Db) (teamId : Nat) : Int :=
  (db.tunnels.filter fun t =>
    (db.agent? t.agentId).bind Agent.teamId = some teamId).foldl
      (fun total t => total + (t.bytesIn + t.bytesOut)) 0

/-- The usage is over the quota. -/
def overQuota (quota : Option Int) (usage : Int) : Bool := quota.any fun q => q < usage

def updateTeam (db : Db) (teamId : Nat) (fields : TeamFields) : Except Error Db := do
  let newName ← cleanOptionalName fields.name
  let team ← found (db.team? teamId) 404 "team not found".toList
  let name ← renamed db teamId newName
  let label := relabelled pl name fields.subdomainLabel
  require (forall l, l ∈ given label.join -> forall t, t ∈ db.teams -> t.id ≠ teamId ->
    t.subdomainLabel ≠ some l) 409 "subdomain label is taken".toList
  -- an empty label is not checked above, but the column is unique
  constraint (forall l, l ∈ label.join -> forall t, t ∈ db.teams -> t.id ≠ teamId ->
    t.subdomainLabel ≠ some l)
  let quota := fields.quotaBytes.getD team.quotaBytes
  return { db with
    teams := rewriteRow Team.id teamId (fun t =>
      { t with
        name := name.getD t.name
        subdomainLabel := label.getD t.subdomainLabel
        quotaBytes := quota
        suspended := overQuota quota (db.usage teamId) }) db.teams
    agents := db.agents.map fun a =>
      if a.teamId = some teamId ∧ label.getD team.subdomainLabel ≠ team.subdomainLabel then
        { a with generation := a.generation + 1 }
      else
        a }

def deleteTeam (db : Db) (teamId : Nat) : Except Error Db := do
  let _ ← found (db.team? teamId) 404 "team not found".toList
  require (forall u, u ∈ db.users -> u.teamId ≠ some teamId) 409
    "team has members; reassign them first".toList
  require (forall a, a ∈ db.agents -> a.teamId ≠ some teamId) 409
    "team has agents; delete them first".toList
  return { db with teams := db.teams.filter fun t => t.id ≠ teamId }

/-!
# Users
-/

def addMember (db : Db) (teamId userId : Nat) : Except Error Db := do
  let _ ← found (db.team? teamId) 404 "team not found".toList
  let _ ← found (db.user? userId) 404 "user not found".toList
  return { db with
    users := rewriteRow User.id userId (fun u => { u with teamId := some teamId }) db.users }

def createUser (db : Db) (fresh : Nat) (email : Text) (role : Role)
    (teamId : Option Nat) : Except Error Db := do
  require (forall u, u ∈ db.users -> u.email ≠ email) 409 "email already exists".toList
  constraint (st.foreignKeys = true -> forall t, t ∈ teamId -> db.team? t ≠ none)
  return { db with users := db.users ++ [⟨fresh, email, role, teamId⟩] }

def updateUserRole (db : Db) (userId : Nat) (role : Role) : Except Error Db := do
  let u ← found (db.user? userId) 404 "user not found".toList
  require (u.role = Role.admin ∧ role ≠ Role.admin ->
      exists other, other ∈ db.users ∧ other.role = Role.admin ∧ other.id ≠ userId) 409
    "cannot remove the last global admin".toList
  return { db with
    users := rewriteRow User.id userId (fun u => { u with role := role }) db.users }

def deleteUser (db : Db) (admin : User) (userId : Nat) : Except Error Db := do
  require (userId ≠ admin.id) 409 "you cannot delete your own account".toList
  let _ ← found (db.user? userId) 404 "user not found".toList
  return { db with users := db.users.filter fun u => u.id ≠ userId }

def updateMe (db : Db) (user : User) (email : Option Text) : Except Error Db := do
  require (forall e, e ∈ given email -> e ≠ user.email ->
      forall u, u ∈ db.users -> u.id ≠ user.id -> u.email ≠ e) 409
    "email already in use".toList
  return { db with
    users := rewriteRow User.id user.id (fun u =>
      { u with email := (given email).getD u.email }) db.users }

/-!
# Agents
-/

def createAgent (db : Db) (user : User) (fresh : Nat) (name : Text)
    (nodeId : Option Nat) : Except Error Db := do
  let name ← requireName name
  require (user.role = Role.admin ∨ user.role = Role.teamAdmin) 403
    "only a team admin can connect new agents".toList
  require (forall a, a ∈ db.agents -> a.name ≠ name) 409 "agent name exists".toList
  require (forall n, n ∈ nodeId -> n = 0 ∨ n = st.systemNode) 404 "node not found".toList
  return { db with agents := db.agents ++ [⟨fresh, name, user.teamId, 0⟩] }

def updateAgent (db : Db) (user : User) (agentId : Nat) (name : Text) :
    Except Error Db := do
  let name ← requireName name
  let a ← found (db.agent? agentId) 404 "agent not found".toList
  checkTeamAccess a.teamId user
  require (forall other, other ∈ db.agents -> other.id ≠ agentId -> other.name ≠ name) 409
    "agent name exists".toList
  return { db with
    agents := rewriteRow Agent.id agentId (fun a => { a with name := name }) db.agents }

/-- The agent and its tunnels are deleted. -/
def deleteAgent (db : Db) (user : User) (agentId : Nat) : Except Error Db := do
  let a ← found (db.agent? agentId) 404 "agent not found".toList
  checkTeamAccess a.teamId user
  return { db with
    agents := db.agents.filter fun a => a.id ≠ agentId
    tunnels := db.tunnels.filter fun t => t.agentId ≠ agentId }

/-!
# Tunnels
-/

/-- {lit}`_RESERVED_LABELS`. -/
def reservedLabels : List Text :=
  ["_dmarc".toList, "_domainkey".toList, "autodiscover".toList, "autoconfig".toList,
    "ns".toList, "ns1".toList, "ns2".toList, "mx".toList, "mx1".toList, "mx2".toList,
    "dkim".toList, "www".toList, "rctunnel".toList, "rc-tunnel".toList, "rc".toList]

/-- {lit}`_check_subdomain_labels`. -/
def checkSubdomainLabels (subdomain : Text) : Except Error Unit := do
  require (forall lab, lab ∈ labels subdomain -> matchLabel (pl.lower lab) = true) 422
    ("invalid subdomain label '".toList ++
      ((labels subdomain).find? fun lab => !matchLabel (pl.lower lab)).getD [] ++
        "'".toList)
  require (forall lab, lab ∈ (labels subdomain).head? ->
      reservedLabels.contains (pl.lower lab) = false) 422
    ("subdomain '".toList ++ (labels subdomain).head?.getD [] ++ "' is reserved".toList)

/-- {lit}`_check_subdomain_depth`. -/
def checkSubdomainDepth (subdomain : Text) (teamHasLabel : Bool) : Except Error Unit :=
  let depth := (labels subdomain).length + if teamHasLabel then 1 else 0
  require (depth ≤ st.subdomainMaxDepth) 422
    ("subdomain too deep (".toList ++ Nat.toDigits 10 depth ++
      " labels incl. team); max ".toList ++ Nat.toDigits 10 st.subdomainMaxDepth)

def checkHealthCheckType (type : Option Text) : Except Error Unit :=
  require (forall t, t ∈ given type -> t = "tcp".toList ∨ t = "http".toList) 422
    "health_check_type must be tcp or http".toList

/-- {lit}`_check_subdomain_unique`. -/
def checkSubdomainUnique (db : Db) (subdomain : Text) (teamId : Option Nat)
    (excluded : Option Nat) : Except Error Unit :=
  require (forall t, t ∈ db.tunnels -> some t.id ≠ excluded ->
      forall a, a ∈ db.agent? t.agentId -> a.teamId = teamId ->
        t.subdomain.map pl.sqlLower ≠ some (pl.lower subdomain)) 409
    ("subdomain '".toList ++ subdomain ++ "' is already taken in your team".toList)

/-- The domains a text of custom domains stands for. -/
def Platform.domains (custom : Option Text) : List Text :=
  (pieces (custom.getD [])).map pl.lower

/-- The domain is the apex or under it. -/
def UnderApex (d : Text) : Prop :=
  d = pl.lower st.publicDomain ∨ ('.' :: pl.lower st.publicDomain) <:+ d

instance (d : Text) : Decidable (UnderApex pl st d) :=
  inferInstanceAs (Decidable (_ ∨ _))

/-- What is wrong with a custom domain. -/
def domainError (d : Text) : Option Text :=
  if matchFqdn d = false then
    some ("invalid domain '".toList ++ d ++ "'".toList)
  else if UnderApex pl st d then
    some ("domains under ".toList ++ pl.lower st.publicDomain ++
      " must use the subdomain field, not custom_domains".toList)
  else
    none

/-- The first of the texts in the order of their characters. -/
def least (ts : List Text) : Option Text :=
  ts.foldl (fun first t =>
    match first with
    | none => some t
    | some f => if textLe f t then some f else some t) none

/-- {lit}`_check_custom_domains`. -/
def checkCustomDomains (db : Db) (custom : Option Text) (excluded : Option Nat) :
    Except Error Unit := do
  let wanted := Platform.domains pl custom
  require (wanted.length ≤ st.maxCustomDomains) 422
    ("too many custom domains (max ".toList ++ Nat.toDigits 10 st.maxCustomDomains ++
      ")".toList)
  require (wanted.findSome? (domainError pl st) = none) 422
    ((wanted.findSome? (domainError pl st)).getD [])
  let others := db.tunnels.filter fun t => some t.id ≠ excluded
  let clash (t : Tunnel) : List Text :=
    wanted.filter fun d => (Platform.domains pl t.customDomains).contains d
  require (forall t, t ∈ others -> clash t = []) 409
    ("domain '".toList ++ ((others.findSome? fun t => least (clash t)).getD []) ++
        "' is already claimed by another tunnel".toList)

def Db.usedPorts (db : Db) (excluded : Option Nat) : List Int :=
  (db.tunnels.filter fun t => some t.id ≠ excluded ∧ db.agent? t.agentId ≠ none).filterMap
    Tunnel.remotePort

/-- {lit}`_allocate_port`. -/
def allocatePort (db : Db) (preferred : Option Int) (excluded : Option Nat) :
    Except Error Int :=
  match preferred with
  | some p => do
      require (st.portAllowMin ≤ p ∧ p ≤ st.portAllowMax) 422
        ("remote_port out of range ".toList ++ (toString st.portAllowMin).toList ++
          "-".toList ++ (toString st.portAllowMax).toList)
      require (p ∉ db.usedPorts excluded) 409
        ("remote_port ".toList ++ (toString p).toList ++ " is taken".toList)
      return p
  | none =>
      found (((List.range (st.tcpPortMax + 1 - st.tcpPortMin).toNat).map fun i =>
          st.tcpPortMin + i).find? fun p => p ∉ db.usedPorts excluded) 409
        "no free remote ports on node".toList

/-- The fields of a {lit}`TunnelCreate` that are checked. -/
structure TunnelBody where
  name : Text
  type : TunnelType
  remotePort : Option Int
  subdomain : Option Text
  customDomains : Option Text
  healthCheckType : Option Text
deriving DecidableEq, Repr

/-- {lit}`_bump`. -/
def Db.bump (db : Db) (agentId : Nat) : Db :=
  { db with
    agents := rewriteRow Agent.id agentId (fun a =>
      { a with generation := a.generation + 1 }) db.agents }

/-- A check of a text that is given. -/
def whenGiven (t : Option Text) (check : Text -> Except Error Unit) : Except Error Unit :=
  match given t with
  | none => Except.ok ()
  | some t => check t

/-- The port of a new tunnel. -/
def assigned (db : Db) (body : TunnelBody) : Except Error (Option Int) :=
  if body.type.domain then
    return body.remotePort
  else do
    let port ← allocatePort st db body.remotePort none
    return some port

def createTunnel (db : Db) (user : User) (fresh agentId : Nat) (body : TunnelBody) :
    Except Error Db := do
  let name ← requireName body.name
  let a ← found (db.agent? agentId) 404 "agent not found".toList
  checkTeamAccess a.teamId user
  require (body.type.domain = true ->
      given body.subdomain ≠ none ∨ given body.customDomains ≠ none) 422
    (body.type.value ++ " requires subdomain or custom_domains".toList)
  checkHealthCheckType body.healthCheckType
  whenGiven body.subdomain (checkSubdomainLabels pl)
  whenGiven body.subdomain (checkSubdomainDepth st · (db.labelOf a).isSome)
  require ((db.tunnels.filter fun t => t.agentId = agentId).length < st.maxTunnelsPerAgent)
    422 ("tunnel limit reached for this agent (max ".toList ++
      Nat.toDigits 10 st.maxTunnelsPerAgent ++ ")".toList)
  require (forall t, t ∈ db.tunnels -> t.agentId = agentId -> t.name ≠ name) 409
    "tunnel name exists for agent".toList
  whenGiven body.subdomain (checkSubdomainUnique pl db · a.teamId none)
  checkCustomDomains pl st db body.customDomains none
  let port ← assigned st db body
  return Db.bump { db with
    tunnels := db.tunnels ++
      [{ id := fresh
         agentId := agentId
         name := name
         type := body.type
         remotePort := port
         subdomain := body.subdomain
         customDomains := body.customDomains
         enabled := true
         healthCheckType := body.healthCheckType
         bytesIn := 0
         bytesOut := 0
         lastTodayIn := 0
         lastTodayOut := 0 }] } agentId

/-- The fields of a {lit}`TunnelUpdate` that are set. -/
structure TunnelFields where
  enabled : Option (Option Bool)
  remotePort : Option (Option Int)
  subdomain : Option (Option Text)
  healthCheckType : Option (Option Text)
deriving DecidableEq, Repr

/-- The port that is set. -/
def reassigned (db : Db) (t : Tunnel) : Option (Option Int) ->
    Except Error (Option (Option Int))
  | some (some p) => do
      let port ← allocatePort st db (some p) (some t.id)
      return some (some port)
  | field => return field

def updateTunnel (db : Db) (user : User) (tunnelId : Nat) (fields : TunnelFields) :
    Except Error Db := do
  let t ← found (db.tunnel? tunnelId) 404 "tunnel not found".toList
  let a ← found (db.agent? t.agentId) 500 "Internal Server Error".toList
  checkTeamAccess a.teamId user
  checkHealthCheckType fields.healthCheckType.join
  whenGiven fields.subdomain.join (checkSubdomainLabels pl)
  whenGiven fields.subdomain.join (checkSubdomainDepth st · (db.labelOf a).isSome)
  whenGiven fields.subdomain.join (checkSubdomainUnique pl db · a.teamId (some tunnelId))
  let port ← reassigned st db t fields.remotePort
  constraint (fields.enabled ≠ some none)
  return Db.bump { db with
    tunnels := rewriteRow Tunnel.id tunnelId (fun t =>
      { t with
        enabled := fields.enabled.join.getD t.enabled
        remotePort := port.getD t.remotePort
        subdomain := fields.subdomain.getD t.subdomain
        healthCheckType := fields.healthCheckType.getD t.healthCheckType })
      db.tunnels } t.agentId

def deleteTunnel (db : Db) (user : User) (tunnelId : Nat) : Except Error Db := do
  let t ← found (db.tunnel? tunnelId) 404 "tunnel not found".toList
  let a ← found (db.agent? t.agentId) 500 "Internal Server Error".toList
  checkTeamAccess a.teamId user
  return Db.bump { db with tunnels := db.tunnels.filter fun t => t.id ≠ tunnelId } t.agentId

/-!
# Requests
-/

inductive Call where
  | createTeam (fresh : Nat) (name : Text) (subdomainLabel : Option Text)
      (quotaBytes : Option Int)
  | updateTeam (teamId : Nat) (fields : TeamFields)
  | deleteTeam (teamId : Nat)
  | addMember (teamId userId : Nat)
  | createUser (fresh : Nat) (email : Text) (role : Role) (teamId : Option Nat)
  | updateUserRole (userId : Nat) (role : Role)
  | deleteUser (userId : Nat)
  | updateMe (email : Option Text)
  | createAgent (fresh : Nat) (name : Text) (nodeId : Option Nat)
  | updateAgent (agentId : Nat) (name : Text)
  | deleteAgent (agentId : Nat)
  | createTunnel (fresh agentId : Nat) (body : TunnelBody)
  | updateTunnel (tunnelId : Nat) (fields : TunnelFields)
  | deleteTunnel (tunnelId : Nat)
deriving DecidableEq, Repr

/-- A request, with the role its token was issued for. -/
structure Request where
  actor : Nat
  tokenRole : Role
  call : Call
deriving DecidableEq, Repr

/-- The id that the database draws is not in use. -/
def Db.Fresh (db : Db) : Call -> Prop
  | Call.createTeam fresh _ _ _ => fresh ≠ 0 ∧ db.team? fresh = none
  | Call.createUser fresh _ _ _ => fresh ≠ 0 ∧ db.user? fresh = none
  | Call.createAgent fresh _ _ => fresh ≠ 0 ∧ db.agent? fresh = none
  | Call.createTunnel fresh _ _ => fresh ≠ 0 ∧ db.tunnel? fresh = none
  | Call.updateTeam _ _ | Call.deleteTeam _ | Call.addMember _ _ | Call.updateUserRole _ _
  | Call.deleteUser _ | Call.updateMe _ | Call.updateAgent _ _ | Call.deleteAgent _
  | Call.updateTunnel _ _ | Call.deleteTunnel _ => True

instance (db : Db) : forall call, Decidable (db.Fresh call)
  | Call.createTeam _ _ _ _ | Call.createUser _ _ _ _ | Call.createAgent _ _ _
  | Call.createTunnel _ _ _ => inferInstanceAs (Decidable (_ ∧ _))
  | Call.updateTeam _ _ | Call.deleteTeam _ | Call.addMember _ _ | Call.updateUserRole _ _
  | Call.deleteUser _ | Call.updateMe _ | Call.updateAgent _ _ | Call.deleteAgent _
  | Call.updateTunnel _ _ | Call.deleteTunnel _ => isTrue trivial

def serve (db : Db) (user : User) : Call -> Except Error Db
  | Call.createTeam fresh name label quota => do
      requireAdmin user
      createTeam pl db fresh name label quota
  | Call.updateTeam teamId fields => do
      requireAdmin user
      updateTeam pl db teamId fields
  | Call.deleteTeam teamId => do
      requireAdmin user
      deleteTeam db teamId
  | Call.addMember teamId userId => do
      requireAdmin user
      addMember db teamId userId
  | Call.createUser fresh email role teamId => do
      requireAdmin user
      createUser st db fresh email role teamId
  | Call.updateUserRole userId role => do
      requireAdmin user
      updateUserRole db userId role
  | Call.deleteUser userId => do
      requireAdmin user
      deleteUser db user userId
  | Call.updateMe email => updateMe db user email
  | Call.createAgent fresh name nodeId => createAgent st db user fresh name nodeId
  | Call.updateAgent agentId name => updateAgent db user agentId name
  | Call.deleteAgent agentId => deleteAgent db user agentId
  | Call.createTunnel fresh agentId body => createTunnel pl st db user fresh agentId body
  | Call.updateTunnel tunnelId fields => updateTunnel pl st db user tunnelId fields
  | Call.deleteTunnel tunnelId => deleteTunnel db user tunnelId

/-- The middleware, {lit}`current_user`, and the endpoint. -/
def handle (db : Db) (request : Request) : Except Error Db := do
  require (request.tokenRole ≠ Role.demo) 403
    "Demo account is read-only \u2014 ask your admin for an account.".toList
  let user ← found (db.user? request.actor) 401 "user not found".toList
  serve pl st db user request.call

/-!
# The poller and the start of the panel
-/

/-- What a counter adds to a total; it may have been reset. -/
def accumulated (total last today : Int) : Int :=
  if last ≤ today then total + (today - last) else total + today

/-- The engine's counters of an agent's tunnel, when it has them. -/
abbrev Traffic := Nat -> Nat -> Option (Int × Int)

/-- A tunnel with its counters read. -/
def Tunnel.counted (traffic : Traffic) (t : Tunnel) : Tunnel :=
  match traffic t.agentId t.id with
  | none => t
  | some (today, todayOut) =>
      { t with
        bytesIn := accumulated t.bytesIn t.lastTodayIn today
        bytesOut := accumulated t.bytesOut t.lastTodayOut todayOut
        lastTodayIn := today
        lastTodayOut := todayOut }

/-- {lit}`poll_once`. -/
def pollOnce (traffic : Traffic) (db : Db) : Db :=
  let counted : Db := { db with tunnels := db.tunnels.map (Tunnel.counted traffic) }
  { counted with
    teams := counted.teams.map fun t =>
      { t with suspended := overQuota t.quotaBytes (counted.usage t.id) } }

def defaultName : Text := "default".toList

/-- {lit}`_seed_default_team`; it fails when the label to set is another team's. -/
def seedDefaultTeam (db : Db) (fresh : Nat) : Option Db :=
  let team := db.teams.find? fun t => t.name = defaultName
  let id := (team.map Team.id).getD fresh
  let added := if team = none then [⟨fresh, defaultName, none, none, false⟩] else []
  let unlabelled := (team.bind fun t => given t.subdomainLabel) = none
  if db.users = [] then
    some db
  else if unlabelled ∧ exists t, t ∈ db.teams ∧ t.subdomainLabel = some defaultName then
    none
  else
    some { db with
      teams :=
        if unlabelled then
          rewriteRow Team.id id (fun t => { t with subdomainLabel := some defaultName })
            (db.teams ++ added)
        else
          db.teams
      users := db.users.map fun u => { u with teamId := u.teamId.orElse fun _ => some id }
      agents := db.agents.map fun a =>
        { a with teamId := a.teamId.orElse fun _ => some id } }

/-- {lit}`scripts/bootstrap_admin.py`. -/
def bootstrapAdmin (db : Db) (fresh : Nat) (email : Text) : Db :=
  match db.users.find? fun u => u.email = email with
  | none => { db with users := db.users ++ [⟨fresh, email, Role.admin, none⟩] }
  | some user =>
      { db with
        users := rewriteRow User.id user.id (fun u => { u with role := Role.admin })
          db.users }

inductive Action where
  | request (request : Request)
  | poll (traffic : Traffic)
  | restart (fresh : Nat)
  | bootstrap (fresh : Nat) (email : Text)

def step (db : Db) : Action -> Option Db
  | Action.request request =>
      if db.Fresh request.call then
        match handle pl st db request with
        | Except.error _ => some db
        | Except.ok db' => some db'
      else
        none
  | Action.poll traffic => some (pollOnce traffic db)
  | Action.restart fresh =>
      if fresh ≠ 0 ∧ db.team? fresh = none then seedDefaultTeam db fresh else none
  | Action.bootstrap fresh email =>
      if fresh ≠ 0 ∧ db.user? fresh = none then some (bootstrapAdmin db fresh email)
      else none

def emptyDb : Db := ⟨[], [], [], []⟩

/-- What {lit}`_seed_demo` adds to a fresh database. -/
def demoDb : Db where
  teams := [⟨1, "Demo".toList, some "demo".toList, none, false⟩]
  users := [⟨1, "demo@rc-tunnel.com".toList, Role.demo, some 1⟩]
  agents := [⟨1, "demo-edge".toList, some 1, 0⟩]
  tunnels :=
    [{ id := 1
       agentId := 1
       name := "demo-site".toList
       type := TunnelType.http
       remotePort := none
       subdomain := some "demo".toList
       customDomains := none
       enabled := true
       healthCheckType := none
       bytesIn := 0
       bytesOut := 0
       lastTodayIn := 0
       lastTodayOut := 0 },
      { id := 2
        agentId := 1
        name := "demo-ssh".toList
        type := TunnelType.tcp
        remotePort := some 12022
        subdomain := none
        customDomains := none
        enabled := true
        healthCheckType := some "tcp".toList
        bytesIn := 0
        bytesOut := 0
        lastTodayIn := 0
        lastTodayOut := 0 }]

/-- A fresh panel, or a fresh demo deployment. -/
def machine : Machine Db Action where
  init db := db = emptyDb ∨ db = demoDb
  step := step pl st

end Requests

end Api

end Panel
end RcTunnel
