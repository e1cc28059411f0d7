import RcTunnel.Foundation.Machine
import RcTunnel.Panel.TeamScope

/-!
# Sign-in tokens and the requests they authenticate

A token names a user, and carries the role and the token version that the user had
when it was issued.  The API takes it from the header or from the cookie and checks
the version; the pages take it from the cookie and do not.  The middleware reads the
role in the token, and the endpoints the role in the database.

The machine runs the sign-ins and every request that changes rows, over the tables
and the tokens that were issued.
-/

namespace RcTunnel
namespace Panel

open Foundation

namespace Api

namespace Tokens

/-- The claims of a token. -/
structure Payload where
  sub : Nat
  role : Role
  tv : Nat
  exp : Nat
deriving DecidableEq, Repr

/-- {lit}`jwt.encode` and {lit}`jwt.decode` under the panel's secret. -/
structure Jwt (Token : Type) where
  encode : Payload -> Token
  decode : Token -> Nat -> Option Payload
  /-- a token that was issued decodes until it expires -/
  decode_encode : forall payload now,
    decode (encode payload) now = if now < payload.exp then some payload else none

/-- {lit}`PasswordHasher`; the salt of a hash is drawn. -/
structure Hasher where
  hash : Nat -> Text -> Text
  verify : Text -> Text -> Bool

/-- What a request carries: a bearer token, and the cookie. -/
structure Headers (Token : Type) where
  bearer : Option Token
  cookie : Option Token
deriving DecidableEq, Repr

/-- The columns of a user's row that only signing in uses. -/
structure Account where
  passwordHash : Text
  tokenVersion : Nat
deriving DecidableEq, Repr

structure Node where
  id : Nat
  name : Text
  publicAddr : Text
  subdomainHost : Text
  controlPort : Int
  vhostHttpPort : Int
  nodeToken : Text
deriving DecidableEq, Repr

structure Tables where
  site : Site
  accounts : Nat -> Account
  nodes : List Node

def Tables.withDb (tables : Tables) (db : Db) : Tables :=
  { tables with site := { tables.site with db := db } }

/-- {lit}`_extract_token`. -/
def extractToken (headers : Headers Token) : Option Token :=
  headers.bearer.orElse fun _ => headers.cookie

/-- {lit}`create_token`. -/
def createToken (ttl now : Nat) (tables : Tables) (user : User) : Payload where
  sub := user.id
  role := user.role
  tv := (tables.accounts user.id).tokenVersion
  exp := now + ttl

section Authenticators

variable (jwt : Jwt Token) (tables : Tables) (now : Nat)

def currentUser (headers : Headers Token) : Except Error User := do
  let token ← found (extractToken headers) 401 "not authenticated".toList
  let payload ← found (jwt.decode token now) 401 "invalid token".toList
  let user ← found (tables.site.db.user? payload.sub) 401 "user not found".toList
  require (payload.tv = (tables.accounts user.id).tokenVersion) 401 "session expired".toList
  return user

/-- {lit}`_user` of the pages. -/
def pageUser (headers : Headers Token) : Option User := do
  let token ← headers.cookie
  let payload ← jwt.decode token now
  tables.site.db.user? payload.sub

/-- {lit}`_token_role` of the middleware. -/
def tokenRole (headers : Headers Token) : Option Role := do
  let token ← extractToken headers
  let payload ← jwt.decode token now
  return payload.role

end Authenticators

/-!
# The requests that change rows
-/

inductive Mutation where
  | createTeam (fresh : Nat) (name : Text) (subdomainLabel : Option Text)
      (quotaBytes : Option Int)
  | updateTeam (teamId : Nat) (fields : TeamFields)
  | deleteTeam (teamId : Nat)
  | addMember (teamId userId : Nat)
  | createNode (node : Node)
  | createUser (fresh : Nat) (email password : Text) (role : Role) (teamId : Option Nat)
      (salt : Nat)
  | updateUserRole (userId : Nat) (role : Role)
  | deleteUser (userId : Nat)
  | updateMe (email currentPassword newPassword : Option Text) (salt : Nat)
  | agents (call : AgentCall)
deriving DecidableEq, Repr

/-- {lit}`create_node`. -/
def createNode (nodes : List Node) (node : Node) : Except Error (List Node) := do
  require (forall n, n ∈ nodes -> n.name ≠ node.name) 409 "node name exists".toList
  return nodes ++ [node]

/-- A node that is named has to exist; which node an agent has is not kept. -/
def onNodes (nodes : List Node) : AgentCall -> AgentCall
  | AgentCall.createAgent fresh name nodeId token =>
      AgentCall.createAgent fresh name (nodeId.filter fun n => n ∉ nodes.map Node.id) token
  | call => call

/-- {lit}`min_length=8` -/
def checkPassword (password : Option Text) : Except Error Unit :=
  require (forall p, p ∈ password -> 8 ≤ p.length) 422
    "String should have at least 8 characters".toList

section Requests

variable (pl : Platform) (st : Settings) (hasher : Hasher)

/-- {lit}`update_me`. -/
def updateMe (tables : Tables) (user : User)
    (email currentPassword newPassword : Option Text) (salt : Nat) :
    Except Error Tables := do
  let account := tables.accounts user.id
  checkPassword newPassword
  let db ← Api.updateMe tables.site.db user email
  match given newPassword with
  | none => return tables.withDb db
  | some password => do
      require (exists current, current ∈ given currentPassword ∧
        hasher.verify current account.passwordHash = true) 403
        "current password is incorrect".toList
      return { tables.withDb db with
        accounts := Function.update tables.accounts user.id
          ⟨hasher.hash salt password, account.tokenVersion + 1⟩ }

def serve (tables : Tables) (user : User) : Mutation -> Except Error Tables
  | Mutation.createTeam fresh name label quota => do
      requireAdmin user
      let db ← createTeam pl tables.site.db fresh name label quota
      return tables.withDb db
  | Mutation.updateTeam teamId fields => do
      requireAdmin user
      let db ← updateTeam pl tables.site.db teamId fields
      return tables.withDb db
  | Mutation.deleteTeam teamId => do
      requireAdmin user
      let db ← deleteTeam tables.site.db teamId
      return tables.withDb db
  | Mutation.addMember teamId userId => do
      requireAdmin user
      let db ← addMember tables.site.db teamId userId
      return tables.withDb db
  | Mutation.createNode node => do
      requireAdmin user
      let nodes ← createNode tables.nodes node
      return { tables with nodes := nodes }
  | Mutation.createUser fresh email password role teamId salt => do
      requireAdmin user
      checkPassword (some password)
      let db ← createUser st tables.site.db fresh email role teamId
      return { tables.withDb db with
        accounts := Function.update tables.accounts fresh ⟨hasher.hash salt password, 0⟩ }
  | Mutation.updateUserRole userId role => do
      requireAdmin user
      let db ← updateUserRole tables.site.db userId role
      return tables.withDb db
  | Mutation.deleteUser userId => do
      requireAdmin user
      let db ← deleteUser tables.site.db user userId
      return tables.withDb db
  | Mutation.updateMe email currentPassword newPassword salt =>
      updateMe hasher tables user email currentPassword newPassword salt
  | Mutation.agents call => do
      let reply ← respond pl st tables.site user (onNodes tables.nodes call)
      return { tables with site := reply.site }

/-- The middleware, {lit}`current_user`, and the endpoint. -/
def handle (jwt : Jwt Token) (now : Nat) (tables : Tables) (headers : Headers Token)
    (mutation : Mutation) : Except Error Tables := do
  require (tokenRole jwt now headers ≠ some Role.demo) 403
    "Demo account is read-only \u2014 ask your admin for an account.".toList
  let user ← currentUser jwt tables now headers
  serve pl st hasher tables user mutation

/-- {lit}`scripts/bootstrap_admin.py`. -/
def bootstrapAdmin (tables : Tables) (fresh : Nat) (email password : Text) (salt : Nat) :
    Tables :=
  let db := Api.bootstrapAdmin tables.site.db fresh email
  match tables.site.db.users.find? fun u => u.email = email with
  | none =>
      { tables.withDb db with
        accounts := Function.update tables.accounts fresh ⟨hasher.hash salt password, 0⟩ }
  | some user =>
      { tables.withDb db with
        accounts := Function.update tables.accounts user.id
          ⟨hasher.hash salt password, (tables.accounts user.id).tokenVersion + 1⟩ }

/-- {lit}`login` and {lit}`login_submit` find the user whose password it is. -/
def verified (tables : Tables) (email password : Text) : Option User :=
  (tables.site.db.users.find? fun u => u.email = email).filter fun u =>
    hasher.verify password (tables.accounts u.id).passwordHash

/-- The account that {lit}`demo_login` signs in to. -/
def demoUser (tables : Tables) : Option User :=
  tables.site.db.users.find? fun u => u.email = "demo@rc-tunnel.com".toList

end Requests

/-- The ids that a request draws are not in use. -/
def Tables.FreshFor (tables : Tables) : Mutation -> Prop
  | Mutation.createTeam fresh _ _ _ => fresh ≠ 0 ∧ tables.site.db.team? fresh = none
  | Mutation.createUser fresh _ _ _ _ _ => fresh ≠ 0 ∧ tables.site.db.user? fresh = none
  | Mutation.createNode node => node.id ≠ 0 ∧ node.id ∉ tables.nodes.map Node.id
  | Mutation.agents call => tables.site.db.FreshFor call
  | _ => True

instance (tables : Tables) : forall mutation, Decidable (tables.FreshFor mutation)
  | Mutation.createTeam _ _ _ _ | Mutation.createUser _ _ _ _ _ _ | Mutation.createNode _ =>
      inferInstanceAs (Decidable (_ ∧ _))
  | Mutation.agents call => inferInstanceAs (Decidable (Db.FreshFor _ call))
  | Mutation.updateTeam _ _ | Mutation.deleteTeam _ | Mutation.addMember _ _
  | Mutation.updateUserRole _ _ | Mutation.deleteUser _ | Mutation.updateMe _ _ _ _ =>
      isTrue trivial

/-- The id that a request gives a new user. -/
def Mutation.creates : Mutation -> Option Nat
  | Mutation.createUser fresh _ _ _ _ _ => some fresh
  | _ => none

/-- The user whose password a request changes. -/
def Mutation.changes (user : User) : Mutation -> Option Nat
  | Mutation.updateMe _ _ newPassword _ => (given newPassword).map fun _ => user.id
  | _ => none

/-!
# The machine
-/

structure State where
  tables : Tables
  /-- the tokens that were issued -/
  issued : List Payload
  /-- those issued before the latest change of their user's password -/
  outdated : List Payload
  clock : Nat

inductive Action (Token : Type) where
  | login (email password : Text)
  | demoLogin
  | request (headers : Headers Token) (mutation : Mutation)
  | bootstrap (fresh : Nat) (email password : Text) (salt : Nat)
  | tick (now : Nat)
deriving DecidableEq, Repr

def State.issue (ttl : Nat) (s : State) : Option User -> State
  | none => s
  | some user => { s with issued := s.issued ++ [createToken ttl s.clock s.tables user] }

def State.change (s : State) (tables : Tables) (userId : Option Nat) : State :=
  { s with
    tables := tables
    outdated := s.outdated ++ s.issued.filter fun payload => some payload.sub = userId }

/-- {lit}`jwt_ttl_hours` and {lit}`demo_mode` -/
structure Config where
  ttl : Nat
  demoMode : Bool

section Machine

variable [DecidableEq Token] (pl : Platform) (st : Settings) (hasher : Hasher)
  (jwt : Jwt Token) (config : Config)

/-- A token that was not issued does not decode, and is as good as none. -/
def step (s : State) : Action Token -> Option State
  | Action.login email password =>
      some (s.issue config.ttl (verified hasher s.tables email password))
  | Action.demoLogin =>
      some (s.issue config.ttl (if config.demoMode then demoUser s.tables else none))
  | Action.request headers mutation =>
      if (forall token, token ∈ extractToken headers -> token ∈ s.issued.map jwt.encode) ∧
          s.tables.FreshFor mutation then
        match handle pl st hasher jwt s.clock s.tables headers mutation with
        | Except.error _ => some s
        | Except.ok tables =>
            some (s.change tables ((currentUser jwt s.tables s.clock headers).toOption.bind
              mutation.changes))
      else
        none
  | Action.bootstrap fresh email password salt =>
      if fresh ≠ 0 ∧ s.tables.site.db.user? fresh = none then
        some (s.change (bootstrapAdmin hasher s.tables fresh email password salt)
          ((s.tables.site.db.users.find? fun u => u.email = email).map User.id))
      else
        none
  | Action.tick now => if s.clock ≤ now then some { s with clock := now } else none

/-- Nobody has signed in yet. -/
structure Unissued (s : State) : Prop where
  users : (s.tables.site.db.users.map User.id).Nodup
  issued : s.issued = []
  outdated : s.outdated = []

def machine : Machine State (Action Token) where
  init := Unissued
  step := step pl st hasher jwt config

end Machine

/-!
# What a request does to the users
-/

/-- The edits of the users, with the request that makes them. -/
inductive Edit (users : List User) (mutation : Mutation) : List User -> Prop where
  | same : Edit users mutation users
  | row (userId : Nat) (f : User -> User) (hid : forall u, (f u).id = u.id)
      (hrole : forall u, u.id = userId -> (f u).role = u.role ∨
        mutation = Mutation.updateUserRole userId (f u).role) :
      Edit users mutation (rewriteRow User.id userId f users)
  | created (fresh : Nat) (email password : Text) (role : Role) (teamId : Option Nat)
      (salt : Nat)
      (hcreate : mutation = Mutation.createUser fresh email password role teamId salt) :
      Edit users mutation (users ++ [⟨fresh, email, role, teamId⟩])
  | deleted (userId : Nat) : Edit users mutation (users.filter fun u => u.id ≠ userId)

section Effects

variable {pl : Platform} {st : Settings} {hasher : Hasher} {tables tables' : Tables}
  {user : User} {mutation : Mutation}

/-- The agent and tunnel endpoints leave the users alone. -/
theorem users_respond {site : Site} {call : AgentCall} {reply : Reply}
    (h : respond pl st site user call = Except.ok reply) :
    reply.site.db.users = site.db.users := by
  cases call with
  | listAgents =>
      cases h
      rfl
  | listTunnels agentId =>
      simp only [respond, bind_ok, pure_ok] at h
      rcases h with ⟨_, -, rfl⟩
      rfl
  | createAgent fresh name nodeId token =>
      simp only [respond, createAgent, bind_ok, pure_ok] at h
      rcases h with ⟨_, ⟨_, -, _, -, _, -, _, -, rfl⟩, rfl⟩
      rfl
  | updateAgent agentId name =>
      simp only [respond, updateAgent, bind_ok, pure_ok] at h
      rcases h with ⟨_, ⟨_, -, _, -, _, -, _, -, rfl⟩, rfl⟩
      rfl
  | deleteAgent agentId =>
      simp only [respond, deleteAgent, bind_ok, pure_ok] at h
      rcases h with ⟨_, ⟨_, -, _, -, rfl⟩, rfl⟩
      rfl
  | reissueToken agentId token =>
      simp only [respond, reissue, bind_ok, pure_ok] at h
      rcases h with ⟨_, ⟨_, -, _, -, rfl⟩, rfl⟩
      rfl
  | createTunnel fresh agentId body =>
      simp only [respond, createTunnel, bind_ok, pure_ok] at h
      rcases h with ⟨_, ⟨_, -, _, -, _, -, _, -, _, -, _, -, _, -, _, -, _, -, _, -, _, -, _, -,
        rfl⟩, rfl⟩
      rfl
  | updateTunnel tunnelId fields =>
      simp only [respond, updateTunnel, bind_ok, pure_ok] at h
      rcases h with ⟨_, ⟨_, -, _, -, _, -, _, -, _, -, _, -, _, -, _, -, _, -, rfl⟩, rfl⟩
      rfl
  | deleteTunnel tunnelId =>
      simp only [respond, deleteTunnel, bind_ok, pure_ok] at h
      rcases h with ⟨_, ⟨_, -, _, -, _, -, rfl⟩, rfl⟩
      rfl

theorem users_updateMe {email currentPassword newPassword : Option Text} {salt : Nat}
    (h : updateMe hasher tables user email currentPassword newPassword salt =
      Except.ok tables') :
    tables'.site.db.users = rewriteRow User.id user.id
      (fun u => { u with email := (given email).getD u.email }) tables.site.db.users := by
  simp only [updateMe, Api.updateMe, bind_ok, pure_ok] at h
  rcases h with ⟨_, -, _, ⟨_, -, rfl⟩, h⟩
  cases hgiven : given newPassword with
  | none =>
      simp only [hgiven, pure_ok] at h
      subst h
      rfl
  | some password =>
      simp only [hgiven, bind_ok, pure_ok] at h
      rcases h with ⟨_, -, rfl⟩
      rfl

/-- A request edits the users, and leaves the accounts alone unless it creates a user or
changes a password. -/
theorem serve_effects (h : serve pl st hasher tables user mutation = Except.ok tables') :
    Edit tables.site.db.users mutation tables'.site.db.users ∧
      (mutation.creates = none -> mutation.changes user = none ->
        tables'.accounts = tables.accounts) := by
  cases mutation with
  | createTeam fresh name label quota =>
      simp only [serve, createTeam, bind_ok, pure_ok] at h
      rcases h with ⟨_, -, _, ⟨_, -, _, -, _, -, _, -, rfl⟩, rfl⟩
      exact ⟨Edit.same, fun _ _ => rfl⟩
  | updateTeam teamId fields =>
      simp only [serve, updateTeam, bind_ok, pure_ok] at h
      rcases h with ⟨_, -, _, ⟨_, -, _, -, _, -, _, -, _, -, rfl⟩, rfl⟩
      exact ⟨Edit.same, fun _ _ => rfl⟩
  | deleteTeam teamId =>
      simp only [serve, deleteTeam, bind_ok, pure_ok] at h
      rcases h with ⟨_, -, _, ⟨_, -, _, -, _, -, rfl⟩, rfl⟩
      exact ⟨Edit.same, fun _ _ => rfl⟩
  | addMember teamId userId =>
      simp only [serve, addMember, bind_ok, pure_ok] at h
      rcases h with ⟨_, -, _, ⟨_, -, _, -, rfl⟩, rfl⟩
      exact ⟨Edit.row userId _ (fun _ => rfl) fun _ _ => Or.inl rfl, fun _ _ => rfl⟩
  | createNode node =>
      simp only [serve, bind_ok, pure_ok] at h
      rcases h with ⟨_, -, _, -, rfl⟩
      exact ⟨Edit.same, fun _ _ => rfl⟩
  | createUser fresh email password role teamId salt =>
      simp only [serve, createUser, bind_ok, pure_ok] at h
      rcases h with ⟨_, -, _, -, _, ⟨_, -, _, -, rfl⟩, rfl⟩
      exact ⟨Edit.created fresh email password role teamId salt rfl,
        fun hcreates => absurd hcreates (Option.some_ne_none fresh)⟩
  | updateUserRole userId role =>
      simp only [serve, updateUserRole, bind_ok, pure_ok] at h
      rcases h with ⟨_, -, _, ⟨_, -, _, -, rfl⟩, rfl⟩
      exact ⟨Edit.row userId _ (fun _ => rfl) fun _ _ => Or.inr rfl, fun _ _ => rfl⟩
  | deleteUser userId =>
      simp only [serve, deleteUser, bind_ok, pure_ok] at h
      rcases h with ⟨_, -, _, ⟨_, -, _, -, rfl⟩, rfl⟩
      exact ⟨Edit.deleted userId, fun _ _ => rfl⟩
  | updateMe email currentPassword newPassword salt =>
      constructor
      · rw [users_updateMe h]
        exact Edit.row user.id _ (fun _ => rfl) fun _ _ => Or.inl rfl
      · intro _ hchanges
        have hgiven : given newPassword = none := Option.map_eq_none_iff.mp hchanges
        simp only [serve, updateMe, hgiven, bind_ok, pure_ok] at h
        rcases h with ⟨_, -, _, -, rfl⟩
        rfl
  | agents call =>
      simp only [serve, bind_ok, pure_ok] at h
      rcases h with ⟨reply, hreply, rfl⟩
      refine ⟨?_, fun _ _ => rfl⟩
      rw [show ({ tables with site := reply.site } : Tables).site.db.users =
        tables.site.db.users from users_respond hreply]
      exact Edit.same

/-- The user of an id after an edit was there before, with the same role unless the
request set it, or was created. -/
theorem Edit.find {users users' : List User} (h : Edit users mutation users') {id : Nat}
    {u' : User} (hfound : users'.find? (fun u => u.id = id) = some u') :
    (exists u, users.find? (fun u => u.id = id) = some u ∧
      (u'.role = u.role ∨ mutation = Mutation.updateUserRole id u'.role)) ∨
    exists email password teamId salt,
      mutation = Mutation.createUser id email password u'.role teamId salt := by
  cases h with
  | same => exact Or.inl ⟨u', hfound, Or.inl rfl⟩
  | row userId f hid hrole =>
      rw [find?_rewriteRow hid] at hfound
      rcases Option.map_eq_some_iff.mp hfound with ⟨u, hu, rfl⟩
      refine Or.inl ⟨u, hu, ?_⟩
      by_cases hrow : u.id = userId
      · have hset := hrole u hrow
        rw [if_pos hrow, ← key_of_find hu, hrow]
        exact hset
      · rw [if_neg hrow]
        exact Or.inl rfl
  | created fresh email password role teamId salt hcreate =>
      rcases find?_appended hfound with hold | ⟨hid, rfl⟩
      · exact Or.inl ⟨u', hold, Or.inl rfl⟩
      · subst hid
        exact Or.inr ⟨email, password, teamId, salt, hcreate⟩
  | deleted userId => exact Or.inl ⟨u', (find?_deleted hfound).right, Or.inl rfl⟩

/-- An edit keeps the primary key. -/
theorem Edit.nodup {users users' : List User} (h : Edit users mutation users')
    (hkeys : (users.map User.id).Nodup)
    (hfresh : forall fresh email password role teamId salt,
      mutation = Mutation.createUser fresh email password role teamId salt ->
      users.find? (fun u => u.id = fresh) = none) : (users'.map User.id).Nodup := by
  cases h with
  | same => exact hkeys
  | row userId f hid _ => exact nodup_keys_rewriteRow hkeys hid
  | created fresh email password role teamId salt hcreate =>
      exact nodup_keys_append hkeys (hfresh fresh email password role teamId salt hcreate)
  | deleted userId => exact nodup_keys_filter hkeys

/-- The version of an account changes with its password, and starts from zero. -/
theorem version_serve (h : serve pl st hasher tables user mutation = Except.ok tables')
    (id : Nat) :
    (tables'.accounts id).tokenVersion = (tables.accounts id).tokenVersion ∨
    mutation.changes user = some id ∨
    ((tables'.accounts id).tokenVersion = 0 ∧ mutation.creates = some id) := by
  have hkept : mutation.creates = none -> mutation.changes user = none ->
      (tables'.accounts id).tokenVersion = (tables.accounts id).tokenVersion := by
    intro hcreates hchanges
    rw [(serve_effects h).right hcreates hchanges]
  cases mutation with
  | createUser fresh email password role teamId salt =>
      simp only [serve, bind_ok, pure_ok] at h
      rcases h with ⟨_, -, _, -, _, -, rfl⟩
      by_cases hid : id = fresh
      · subst hid
        refine Or.inr (Or.inr ⟨?_, rfl⟩)
        simp only [Function.update_self]
      · apply Or.inl
        simp only [Function.update_of_ne hid]
  | updateMe email currentPassword newPassword salt =>
      cases hgiven : given newPassword with
      | none => exact Or.inl (hkept rfl (by simp [Mutation.changes, hgiven]))
      | some password =>
          simp only [serve, updateMe, hgiven, bind_ok, pure_ok] at h
          rcases h with ⟨_, -, _, -, _, -, rfl⟩
          by_cases hid : id = user.id
          · apply Or.inr (Or.inl _)
            simp [Mutation.changes, hgiven, hid]
          · apply Or.inl
            simp only [Function.update_of_ne hid]
  | _ => exact Or.inl (hkept rfl rfl)

/-- A new user is found under the drawn id, with the version zero. -/
theorem created_serve {fresh : Nat} {email password : Text} {role : Role}
    {teamId : Option Nat} {salt : Nat} (hfresh : tables.site.db.user? fresh = none)
    (h : serve pl st hasher tables user
      (Mutation.createUser fresh email password role teamId salt) = Except.ok tables') :
    tables'.site.db.user? fresh = some ⟨fresh, email, role, teamId⟩ ∧
      (tables'.accounts fresh).tokenVersion = 0 := by
  simp only [serve, createUser, bind_ok, pure_ok] at h
  rcases h with ⟨_, -, _, -, _, ⟨_, -, _, -, rfl⟩, rfl⟩
  constructor
  · show (tables.site.db.users ++ [_]).find? _ = _
    rw [List.find?_append, show tables.site.db.users.find? _ = none from hfresh]
    simp
  · simp only [Function.update_self]

/-- A user whose password a request changed is still there. -/
theorem found_of_changes {id : Nat} (hfound : tables.site.db.user? user.id = some user)
    (h : serve pl st hasher tables user mutation = Except.ok tables')
    (hchanges : mutation.changes user = some id) :
    id = user.id ∧ exists u, tables'.site.db.user? id = some u := by
  cases mutation with
  | updateMe email currentPassword newPassword salt =>
      rcases Option.map_eq_some_iff.mp hchanges with ⟨_, -, rfl⟩
      refine ⟨rfl, ?_⟩
      unfold Db.user?
      rw [users_updateMe h, find?_rewriteRow]
      · exact ⟨_, Option.map_eq_some_iff.mpr ⟨user, hfound, rfl⟩⟩
      · intro _
        rfl
  | _ => cases hchanges

end Effects

/-!
# What the script does to the users
-/

section Bootstrap

variable {hasher : Hasher} {tables : Tables} {fresh : Nat} {email password : Text}
  {salt : Nat}

/-- A user after the script was there before, with the same version, or is the admin
that the script made. -/
theorem find_bootstrap {id : Nat} {u' : User} (hfresh : tables.site.db.user? fresh = none)
    (hfound : (bootstrapAdmin hasher tables fresh email password salt).site.db.user? id =
      some u') :
    (tables.site.db.user? id = some u' ∧
      ((bootstrapAdmin hasher tables fresh email password salt).accounts id).tokenVersion =
        (tables.accounts id).tokenVersion) ∨
    (u'.role = Role.admin ∧
      match tables.site.db.users.find? fun u => u.email = email with
      | some user => id = user.id
      | none => id = fresh ∧
          ((bootstrapAdmin hasher tables fresh email password salt).accounts id).tokenVersion =
            0) := by
  unfold bootstrapAdmin Api.bootstrapAdmin at *
  cases hemail : tables.site.db.users.find? fun u => u.email = email with
  | none =>
      simp only [hemail] at hfound ⊢
      rcases find?_appended hfound with hold | ⟨hid, rfl⟩
      · have hne : id ≠ fresh := by
          rintro rfl
          rw [show tables.site.db.users.find? _ = none from hfresh] at hold
          cases hold
        refine Or.inl ⟨hold, ?_⟩
        rw [Function.update_of_ne hne]
      · subst hid
        refine Or.inr ⟨rfl, rfl, ?_⟩
        rw [Function.update_self]
  | some user =>
      simp only [hemail] at hfound ⊢
      change (rewriteRow User.id user.id _ tables.site.db.users).find? _ = _ at hfound
      rw [find?_rewriteRow (by intro _; rfl)] at hfound
      rcases Option.map_eq_some_iff.mp hfound with ⟨u, hu, rfl⟩
      have hid := key_of_find hu
      by_cases hrow : u.id = user.id
      · rw [if_pos hrow]
        exact Or.inr ⟨rfl, hid.symm.trans hrow⟩
      · rw [if_neg hrow]
        refine Or.inl ⟨hu, ?_⟩
        rw [Function.update_of_ne (hid ▸ hrow)]

theorem nodup_bootstrap (h : (tables.site.db.users.map User.id).Nodup)
    (hfresh : tables.site.db.user? fresh = none) :
    ((bootstrapAdmin hasher tables fresh email password salt).site.db.users.map
      User.id).Nodup := by
  unfold bootstrapAdmin Api.bootstrapAdmin
  cases hemail : tables.site.db.users.find? fun u => u.email = email with
  | none =>
      simp only
      exact nodup_keys_append h hfresh
  | some user =>
      simp only
      apply nodup_keys_rewriteRow h
      intro _
      rfl

/-- The user whose password the script resets is still there. -/
theorem found_of_reset {user : User}
    (hemail : (tables.site.db.users.find? fun u => u.email = email) = some user) :
    exists u, (bootstrapAdmin hasher tables fresh email password salt).site.db.user? user.id =
      some u := by
  have hmem := List.mem_of_find?_eq_some hemail
  have hsome : exists u, tables.site.db.users.find? (fun u => u.id = user.id) = some u :=
    Option.isSome_iff_exists.mp (List.find?_isSome.mpr ⟨user, hmem, decide_eq_true rfl⟩)
  rcases hsome with ⟨u, hu⟩
  unfold bootstrapAdmin Api.bootstrapAdmin
  simp only [hemail]
  show exists u, (rewriteRow User.id user.id _ tables.site.db.users).find? _ = some u
  rw [find?_rewriteRow, hu]
  · exact ⟨_, rfl⟩
  · intro _
    rfl

/-- A new admin is found under the drawn id, with the version zero. -/
theorem created_bootstrap (hfresh : tables.site.db.user? fresh = none)
    (hemail : (tables.site.db.users.find? fun u => u.email = email) = none) :
    (bootstrapAdmin hasher tables fresh email password salt).site.db.user? fresh =
        some ⟨fresh, email, Role.admin, none⟩ ∧
      ((bootstrapAdmin hasher tables fresh email password salt).accounts fresh).tokenVersion =
        0 := by
  unfold bootstrapAdmin Api.bootstrapAdmin
  simp only [hemail]
  constructor
  · show (tables.site.db.users ++ [_]).find? _ = _
    rw [List.find?_append, show tables.site.db.users.find? _ = none from hfresh]
    simp
  · rw [Function.update_self]

end Bootstrap

/-!
# Tokens that were issued
-/

section Issued

variable {jwt : Jwt Token} {tables : Tables} {now : Nat} {headers : Headers Token}

theorem toOption_eq_some {x : Except Error User} {user : User} :
    x.toOption = some user <-> x = Except.ok user := by
  cases x <;> simp [Except.toOption]

theorem currentUser_ok {user : User} :
    currentUser jwt tables now headers = Except.ok user <->
      exists token payload, extractToken headers = some token ∧
        jwt.decode token now = some payload ∧
        tables.site.db.user? payload.sub = some user ∧
        payload.tv = (tables.accounts user.id).tokenVersion := by
  simp only [currentUser, bind_ok, found_ok, require_ok, pure_ok]
  constructor
  · rintro ⟨token, htoken, payload, hpayload, user', huser, _, hversion, rfl⟩
    exact ⟨token, payload, htoken, hpayload, huser, hversion⟩
  · rintro ⟨token, payload, htoken, hpayload, huser, hversion⟩
    exact ⟨token, htoken, payload, hpayload, user, huser, (), hversion, rfl⟩

/-- The API accepts an issued token until it expires, while its version is current. -/
theorem currentUser_issued {payload : Payload} {user : User}
    (htoken : extractToken headers = some (jwt.encode payload)) :
    currentUser jwt tables now headers = Except.ok user <->
      now < payload.exp ∧ tables.site.db.user? payload.sub = some user ∧
        payload.tv = (tables.accounts payload.sub).tokenVersion := by
  rw [currentUser_ok]
  constructor
  · rintro ⟨token, payload', htoken', hdecode, huser, hversion⟩
    cases htoken.symm.trans htoken'
    rw [jwt.decode_encode] at hdecode
    split at hdecode
    · cases hdecode
      rw [key_of_find huser] at hversion
      exact ⟨‹_›, huser, hversion⟩
    · cases hdecode
  · rintro ⟨hlive, huser, hversion⟩
    refine ⟨_, payload, htoken, ?_, huser, ?_⟩
    · rw [jwt.decode_encode, if_pos hlive]
    · rw [key_of_find huser]
      exact hversion

/-- The pages accept an issued token until it expires. -/
theorem pageUser_issued {payload : Payload} {bearer : Option Token} {user : User} :
    pageUser jwt tables now ⟨bearer, some (jwt.encode payload)⟩ = some user <->
      now < payload.exp ∧ tables.site.db.user? payload.sub = some user := by
  show ((jwt.decode (jwt.encode payload) now).bind fun p => tables.site.db.user? p.sub) =
    some user <-> _
  rw [jwt.decode_encode]
  by_cases hlive : now < payload.exp <;> simp [hlive]

theorem tokenRole_issued {payload : Payload} (hlive : now < payload.exp)
    (htoken : extractToken headers = some (jwt.encode payload)) :
    tokenRole jwt now headers = some payload.role := by
  simp [tokenRole, htoken, jwt.decode_encode, hlive]

end Issued

/-- The tokens of a user that have not expired. -/
def State.live (s : State) (userId : Nat) : List Payload :=
  s.issued.filter fun payload => payload.sub = userId ∧ s.clock < payload.exp

theorem mem_live {s : State} {userId : Nat} {payload : Payload} :
    payload ∈ s.live userId <->
      payload ∈ s.issued ∧ payload.sub = userId ∧ s.clock < payload.exp := by
  simp [State.live]

/-- What a request comes to: nothing, or what its endpoint does for the user of a live
token. -/
theorem step_request [DecidableEq Token] {pl : Platform} {st : Settings} {hasher : Hasher}
    {jwt : Jwt Token} {config : Config} {s t : State} {headers : Headers Token}
    {mutation : Mutation}
    (h : step pl st hasher jwt config s (Action.request headers mutation) = some t) :
    (t = s ∧ exists e,
      handle pl st hasher jwt s.clock s.tables headers mutation = Except.error e) ∨
    exists payload user tables,
      currentUser jwt s.tables s.clock headers = Except.ok user ∧
      handle pl st hasher jwt s.clock s.tables headers mutation = Except.ok tables ∧
      payload ∈ s.live user.id ∧ payload.role ≠ Role.demo ∧
      payload.tv = (s.tables.accounts user.id).tokenVersion ∧
      s.tables.site.db.user? user.id = some user ∧ s.tables.FreshFor mutation ∧
      serve pl st hasher s.tables user mutation = Except.ok tables ∧
      t = s.change tables (mutation.changes user) := by
  simp only [step, Option.ite_none_right_eq_some] at h
  rcases h with ⟨⟨hissued, hfresh⟩, h⟩
  cases hhandle : handle pl st hasher jwt s.clock s.tables headers mutation with
  | error e =>
      rw [hhandle] at h
      cases h
      exact Or.inl ⟨rfl, e, rfl⟩
  | ok tables =>
      rw [hhandle] at h
      simp only [handle, bind_ok, require_ok] at hhandle
      rcases hhandle with ⟨_, hrole, user, huser, hserve⟩
      rcases currentUser_ok.mp huser with ⟨token, -, htoken, -⟩
      rcases List.mem_map.mp (hissued token htoken) with ⟨payload, hpayload, rfl⟩
      rcases (currentUser_issued htoken).mp huser with ⟨hlive, hfound, hversion⟩
      have hid := key_of_find hfound
      rw [tokenRole_issued hlive htoken] at hrole
      rw [← hid] at hfound hversion
      rw [huser] at h
      cases h
      exact Or.inr ⟨payload, user, tables, huser, rfl, mem_live.mpr ⟨hpayload, hid.symm, hlive⟩,
        fun hdemo => hrole (congrArg some hdemo), hversion, hfound, hfresh, hserve, rfl⟩

/-- Tokens that are their own claims. -/
def plainJwt : Jwt Payload where
  encode payload := payload
  decode payload now := if now < payload.exp then some payload else none
  decode_encode _ _ := rfl

def plainHasher : Hasher where
  hash _ password := password
  verify password hash := decide (password = hash)

end Tokens

end Api

end Panel
end RcTunnel
