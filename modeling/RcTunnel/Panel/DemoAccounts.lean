import RcTunnel.Panel.Tokens

/-!
# Demo accounts

The middleware refuses the requests of a token that was issued to a demo account.
The endpoints ask for the role in the database, and none of them for the demo role.

The main result says which runs keep demo accounts read-only: those in which a user
becomes a demo account only when all tokens the API accepts of that user were issued
to one.
-/

namespace RcTunnel
namespace Panel

open Foundation

namespace Api

namespace Tokens

section Property

variable [DecidableEq Token] (pl : Platform) (st : Settings) (hasher : Hasher)
  (jwt : Jwt Token) (config : Config)

/-- The middleware refuses every request of a user who is a demo account, and it changes
no row. -/
structure ReadOnly (s : State) : Prop where
  blocked : forall payload, payload ∈ s.issued -> forall headers : Headers Token,
    extractToken headers = some (jwt.encode payload) ->
    forall user, currentUser jwt s.tables s.clock headers = Except.ok user ->
      user.role = Role.demo -> tokenRole jwt s.clock headers = some Role.demo
  unchanged : forall payload, payload ∈ s.issued -> forall headers : Headers Token,
    extractToken headers = some (jwt.encode payload) ->
    forall user, currentUser jwt s.tables s.clock headers = Except.ok user ->
      user.role = Role.demo -> forall mutation t,
        step pl st hasher jwt config s (Action.request headers mutation) = some t ->
        t.tables = s.tables

/-- The user that a request makes a demo account, and the version of the account then. -/
def demoted (tables : Tables) : Mutation -> Option (Nat × Nat)
  | Mutation.updateUserRole userId Role.demo =>
      some (userId, (tables.accounts userId).tokenVersion)
  | Mutation.createUser fresh _ _ Role.demo _ _ => some (fresh, 0)
  | _ => none

/-- A request makes a user a demo account only when all live tokens of that version were
issued to a demo account. -/
def DemoTokens (s : State) : Action Token -> Prop
  | Action.request headers mutation =>
      forall userId version, (userId, version) ∈ demoted s.tables mutation ->
        (handle pl st hasher jwt s.clock s.tables headers mutation).toOption ≠ none ->
        forall payload, payload ∈ s.live userId -> payload.tv = version ->
          payload.role = Role.demo
  | _ => True

instance DemoTokens.decidable (s : State) :
    DecidablePred (DemoTokens pl st hasher jwt s)
  | Action.request headers mutation =>
      decidable_of_iff (forall demotion, demotion ∈ demoted s.tables mutation ->
          (handle pl st hasher jwt s.clock s.tables headers mutation).toOption.isSome = true ->
          forall payload, payload ∈ s.live demotion.1 -> payload.tv = demotion.2 ->
            payload.role = Role.demo)
        (by simp only [DemoTokens, Prod.forall, Option.isSome_iff_ne_none])
  | Action.login _ _ | Action.demoLogin | Action.bootstrap _ _ _ _ | Action.tick _ =>
      isTrue trivial

end Property

/-- The tokens that the API accepts for a demo account were issued to one. -/
structure Frozen (s : State) : Prop where
  users : (s.tables.site.db.users.map User.id).Nodup
  demo : forall payload, payload ∈ s.issued -> s.clock < payload.exp ->
    forall user, s.tables.site.db.user? payload.sub = some user -> user.role = Role.demo ->
      payload.tv = (s.tables.accounts payload.sub).tokenVersion -> payload.role = Role.demo

section Steps

variable {Token : Type} [DecidableEq Token] {pl : Platform} {st : Settings}
  {hasher : Hasher} {jwt : Jwt Token} {config : Config} {s t : State} {a : Action Token}

theorem frozen_of_unissued (h : Unissued s) : Frozen s := by
  constructor
  · exact h.users
  · intro payload hpayload
    rw [h.issued] at hpayload
    cases hpayload

theorem readOnly_of_frozen (h : Frozen s) : ReadOnly pl st hasher jwt config s := by
  have hblocked : forall payload, payload ∈ s.issued -> forall headers : Headers Token,
      extractToken headers = some (jwt.encode payload) ->
      forall user, currentUser jwt s.tables s.clock headers = Except.ok user ->
        user.role = Role.demo -> tokenRole jwt s.clock headers = some Role.demo := by
    intro payload hpayload headers htoken user huser hdemo
    rcases (currentUser_issued htoken).mp huser with ⟨hlive, hfound, hversion⟩
    rw [tokenRole_issued hlive htoken,
      h.demo payload hpayload hlive user hfound hdemo hversion]
  constructor
  · exact hblocked
  · intro payload hpayload headers htoken user huser hdemo mutation t hstep
    have hrole := hblocked payload hpayload headers htoken user huser hdemo
    rcases step_request hstep with ⟨rfl, -⟩ | ⟨-, -, tables, -, hhandle, -⟩
    · rfl
    · simp only [handle, bind_ok, require_ok] at hhandle
      rcases hhandle with ⟨_, hnot, -⟩
      exact absurd hrole hnot

/-- A sign-in freezes the role that the user has. -/
theorem frozen_issue {ttl : Nat} {user : Option User} (h : Frozen s)
    (huser : forall u, user = some u -> u ∈ s.tables.site.db.users) :
    Frozen (s.issue ttl user) := by
  cases user with
  | none => exact h
  | some u =>
      constructor
      · exact h.users
      · intro payload hpayload hlive u' hu' hdemo hversion
        rcases List.mem_append.mp hpayload with hold | hnew
        · exact h.demo payload hold hlive u' hu' hdemo hversion
        · rw [List.mem_singleton] at hnew
          subst hnew
          have hsame : u' = u := List.inj_on_of_nodup_map h.users
            (List.mem_of_find?_eq_some hu') (huser u rfl) (key_of_find hu')
          exact hsame ▸ hdemo

/-- The middleware has let no demo account through. -/
theorem not_demo_of_live {payload : Payload} {user : User} (h : Frozen s)
    (hpayload : payload ∈ s.live user.id) (hrole : payload.role ≠ Role.demo)
    (hversion : payload.tv = (s.tables.accounts user.id).tokenVersion)
    (hfound : s.tables.site.db.user? user.id = some user) : user.role ≠ Role.demo := by
  rcases mem_live.mp hpayload with ⟨hissued, hsub, hlive⟩
  rw [← hsub] at hversion hfound
  intro hdemo
  exact hrole (h.demo payload hissued hlive user hfound hdemo hversion)

theorem frozen_serve {tables : Tables} {user : User} {mutation : Mutation} (h : Frozen s)
    (hfound : s.tables.site.db.user? user.id = some user) (huser : user.role ≠ Role.demo)
    (hfresh : s.tables.FreshFor mutation)
    (hserve : serve pl st hasher s.tables user mutation = Except.ok tables)
    (hguard : forall userId version, (userId, version) ∈ demoted s.tables mutation ->
      forall payload, payload ∈ s.live userId -> payload.tv = version ->
        payload.role = Role.demo) :
    Frozen (s.change tables (mutation.changes user)) := by
  have hedit := (serve_effects hserve).left
  constructor
  · apply hedit.nodup h.users
    intro fresh email password role teamId salt hcreate
    subst hcreate
    exact hfresh.right
  · intro payload hpayload hlive u' hu' hdemo hversion
    change tables.site.db.user? payload.sub = some u' at hu'
    change payload.tv = (tables.accounts payload.sub).tokenVersion at hversion
    have hmem := mem_live.mpr ⟨hpayload, rfl, hlive⟩
    rcases hedit.find hu' with ⟨u, hu, hrole⟩ | ⟨email, password, teamId, salt, rfl⟩
    · rcases version_serve hserve payload.sub with hsame | hchanged | ⟨-, hcreated⟩
      · rw [hsame] at hversion
        rcases hrole with hrole | rfl
        · exact h.demo payload hpayload hlive u hu (hrole ▸ hdemo) hversion
        · rw [hdemo] at hguard
          exact hguard payload.sub _ rfl payload hmem hversion
      · -- the user who changed the password is no demo account, and still is not
        have hid := (found_of_changes hfound hserve hchanged).left
        rw [hid] at hu
        cases hu.symm.trans hfound
        rcases hrole with hrole | rfl
        · exact absurd (hrole ▸ hdemo) huser
        · cases hchanged
      · cases mutation with
        | createUser fresh email password role teamId salt =>
            cases hcreated
            cases hu.symm.trans hfresh.right
        | _ => cases hcreated
    · rw [(created_serve hfresh.right hserve).right] at hversion
      rw [hdemo] at hguard
      exact hguard payload.sub 0 rfl payload hmem hversion

theorem frozen_bootstrap {fresh : Nat} {email password : Text} {salt : Nat}
    {userId : Option Nat} (h : Frozen s) (hfresh : s.tables.site.db.user? fresh = none) :
    Frozen (s.change (bootstrapAdmin hasher s.tables fresh email password salt) userId) := by
  constructor
  · exact nodup_bootstrap h.users hfresh
  · intro payload hpayload hlive u' hu' hdemo hversion
    rcases find_bootstrap hfresh hu' with ⟨hold, hsame⟩ | ⟨hadmin, -⟩
    · exact h.demo payload hpayload hlive u' hold hdemo (hversion.trans hsame)
    · rw [hdemo] at hadmin
      cases hadmin

/-- The user that a request makes a demo account. -/
theorem found_of_demoted {tables tables' : Tables} {user : User} {mutation : Mutation}
    {userId version : Nat} (hfresh : tables.FreshFor mutation)
    (hserve : serve pl st hasher tables user mutation = Except.ok tables')
    (hdemoted : (userId, version) ∈ demoted tables mutation) :
    (exists u, tables'.site.db.user? userId = some u ∧ u.role = Role.demo) ∧
      (tables'.accounts userId).tokenVersion = version := by
  cases mutation with
  | updateUserRole userId' role =>
      cases role with
      | demo =>
          cases hdemoted
          simp only [serve, updateUserRole, bind_ok, pure_ok, found_ok] at hserve
          rcases hserve with ⟨_, -, _, ⟨u, hu, _, -, rfl⟩, rfl⟩
          constructor
          · show exists u, (rewriteRow User.id userId _ tables.site.db.users).find? _ = some u ∧ _
            rw [find?_rewriteRow, show tables.site.db.users.find? _ = some u from hu,
              Option.map_some, if_pos (key_of_find hu)]
            · exact ⟨_, rfl, rfl⟩
            · intro _
              rfl
          · rfl
      | _ => cases hdemoted
  | createUser fresh email password role teamId salt =>
      cases role with
      | demo =>
          cases hdemoted
          rcases created_serve hfresh.right hserve with ⟨hnew, hzero⟩
          exact ⟨⟨_, hnew, rfl⟩, hzero⟩
      | _ => cases hdemoted
  | _ => cases hdemoted

theorem frozen_step (h : Frozen s) (hguard : DemoTokens pl st hasher jwt s a)
    (hstep : step pl st hasher jwt config s a = some t) : Frozen t := by
  cases a with
  | login email password =>
      cases hstep
      apply frozen_issue h
      intro u hu
      exact List.mem_of_find?_eq_some (Option.filter_eq_some_iff.mp hu).left
  | demoLogin =>
      cases hstep
      apply frozen_issue h
      intro u hu
      split at hu
      · exact List.mem_of_find?_eq_some hu
      · cases hu
  | request headers mutation =>
      rcases step_request hstep with ⟨rfl, -⟩ | ⟨payload, user, tables, hcurrent, hhandle,
        htoken, hrole, hversion, hfound, hfresh, hserve, rfl⟩
      · exact h
      · have huser := not_demo_of_live h htoken hrole hversion hfound
        apply frozen_serve h hfound huser hfresh hserve
        intro userId version hdemoted
        exact hguard userId version hdemoted (by rw [hhandle]; exact Option.some_ne_none _)
  | bootstrap fresh email password salt =>
      simp only [step, Option.ite_none_right_eq_some] at hstep
      rcases hstep with ⟨⟨-, hfresh⟩, hstep⟩
      cases hstep
      exact frozen_bootstrap h hfresh
  | tick now =>
      simp only [step, Option.ite_none_right_eq_some] at hstep
      rcases hstep with ⟨hle, hstep⟩
      cases hstep
      constructor
      · exact h.users
      · intro payload hpayload hlive
        exact h.demo payload hpayload (Nat.lt_of_le_of_lt hle hlive)

/-- The token of a user who was made a demo account passes the middleware. -/
theorem not_readOnly_step (hguard : ¬ DemoTokens pl st hasher jwt s a)
    (hstep : step pl st hasher jwt config s a = some t) :
    ¬ ReadOnly pl st hasher jwt config t := by
  cases a with
  | request headers mutation =>
      simp only [DemoTokens] at hguard
      push Not at hguard
      rcases hguard with ⟨userId, version, hdemoted, hhandled, payload, hpayload, htv, hrole⟩
      rcases step_request hstep with ⟨rfl, e, hhandle⟩ | ⟨-, user, tables, -, -, -, -, -, -,
        hfresh, hserve, rfl⟩
      · rw [hhandle] at hhandled
        exact absurd rfl hhandled
      · rcases found_of_demoted hfresh hserve hdemoted with ⟨⟨u, hu, hdemo⟩, hversion⟩
        rcases mem_live.mp hpayload with ⟨hissued, rfl, hlive⟩
        intro hreadOnly
        have haccepted : currentUser jwt (s.change tables (mutation.changes user)).tables
            s.clock ⟨some (jwt.encode payload), none⟩ = Except.ok u :=
          (currentUser_issued rfl).mpr ⟨hlive, hu, htv.trans hversion.symm⟩
        have hblocked : tokenRole jwt s.clock ⟨some (jwt.encode payload), none⟩ =
            some Role.demo := hreadOnly.blocked payload hissued _ rfl u haccepted hdemo
        rw [tokenRole_issued hlive rfl] at hblocked
        exact hrole (Option.some.inj hblocked)
  | login email password => exact absurd trivial hguard
  | demoLogin => exact absurd trivial hguard
  | bootstrap fresh email password salt => exact absurd trivial hguard
  | tick now => exact absurd trivial hguard

/--
In a run from the first sign-in on, the middleware always refuses the requests of demo
accounts, so that they change no row, exactly when no request makes a user a demo account
while the API still accepts a token of that user that was issued to another role.
-/
theorem readOnly_iff_demoTokens {actions : List (Action Token)} (hs : Unissued s)
    (hexec : (machine pl st hasher jwt config).exec s actions = some t) :
    (machine pl st hasher jwt config).Always (ReadOnly pl st hasher jwt config) s actions <->
      (machine pl st hasher jwt config).Obeys (DemoTokens pl st hasher jwt) s actions :=
  Machine.always_iff_obeys (fun _ => readOnly_of_frozen)
    (fun _ _ _ => frozen_step) (fun _ _ _ _ => not_readOnly_step)
    (frozen_of_unissued hs) hexec

end Steps

def demo : Text := "demo@rc-tunnel.com".toList

/-- A demo deployment with an admin and a demo account. -/
def demoPanel : State where
  tables :=
    { site :=
        { db :=
            { teams := [⟨1, "Demo".toList, some "demo".toList, none, false⟩]
              users :=
                [⟨1, demo, Role.demo, some 1⟩,
                  ⟨2, "root@rc-tunnel.com".toList, Role.admin, some 1⟩,
                  ⟨3, "edge@rc-tunnel.com".toList, Role.teamAdmin, some 1⟩]
              agents := [⟨1, "demo-edge".toList, some 1, 0⟩]
              tunnels := [] }
          rows := fun _ => ⟨"token", false, none, none⟩
          revoked := [] }
      accounts := fun _ => ⟨"password".toList, 0⟩
      nodes := [] }
  issued := []
  outdated := []
  clock := 0

theorem unissued_demoPanel : Unissued demoPanel where
  users := by decide
  issued := rfl
  outdated := rfl

def demoConfig : Config := ⟨86400, true⟩

def edge : Text := "edge@rc-tunnel.com".toList

def edgeToken : Payload := ⟨3, Role.teamAdmin, 0, 86400⟩

def adminToken (exp : Nat) : Payload := ⟨2, Role.admin, 0, exp⟩

/-- The demo account tries to delete the agent, and a user is made a demo account a day
after the last sign-in. -/
def patientDemotion : List (Action Payload) :=
  [Action.demoLogin, Action.login edge "password".toList,
    Action.request ⟨none, some ⟨1, Role.demo, 0, 86400⟩⟩
      (Mutation.agents (AgentCall.deleteAgent 1)),
    Action.tick 86400, Action.login "root@rc-tunnel.com".toList "password".toList,
    Action.request ⟨some (adminToken 172800), none⟩ (Mutation.updateUserRole 3 Role.demo),
    Action.login edge "password".toList]

theorem readOnly_of_patientDemotion :
    (exists t, (machine asciiPlatform deployed plainHasher plainJwt demoConfig).exec demoPanel
        patientDemotion = some t ∧
      t.tables.site.db.user? 3 = some ⟨3, edge, Role.demo, some 1⟩ ∧
      t.tables.site.db.agents = demoPanel.tables.site.db.agents) ∧
    (machine asciiPlatform deployed plainHasher plainJwt demoConfig).Always
      (ReadOnly asciiPlatform deployed plainHasher plainJwt demoConfig) demoPanel
      patientDemotion := by
  have hend : ((machine asciiPlatform deployed plainHasher plainJwt demoConfig).exec demoPanel
      patientDemotion).map (fun t => (t.tables.site.db.user? 3, t.tables.site.db.agents)) =
      some (some ⟨3, edge, Role.demo, some 1⟩, demoPanel.tables.site.db.agents) := by
    decide +kernel
  rcases Option.map_eq_some_iff.mp hend with ⟨t, hexec, hrows⟩
  rw [Prod.mk.injEq] at hrows
  constructor
  · exact ⟨t, hexec, hrows.left, hrows.right⟩
  · exact (readOnly_iff_demoTokens unissued_demoPanel hexec).mpr (by decide +kernel)

/-- The same user is made a demo account while signed in. -/
def demotion : List (Action Payload) :=
  [Action.login edge "password".toList,
    Action.login "root@rc-tunnel.com".toList "password".toList,
    Action.request ⟨some (adminToken 86400), none⟩ (Mutation.updateUserRole 3 Role.demo)]

/-- The demo account deletes the agent of its team. -/
theorem deleted_of_demotion :
    exists s t, (machine asciiPlatform deployed plainHasher plainJwt demoConfig).exec demoPanel
        demotion = some s ∧
      currentUser plainJwt s.tables s.clock ⟨some edgeToken, none⟩ =
        Except.ok ⟨3, edge, Role.demo, some 1⟩ ∧
      step asciiPlatform deployed plainHasher plainJwt demoConfig s
        (Action.request ⟨some edgeToken, none⟩ (Mutation.agents (AgentCall.deleteAgent 1))) =
          some t ∧
      t.tables.site.db.agents ≠ s.tables.site.db.agents ∧
      ¬ ReadOnly asciiPlatform deployed plainHasher plainJwt demoConfig s := by
  have hend : ((machine asciiPlatform deployed plainHasher plainJwt demoConfig).exec demoPanel
      demotion).map (fun s => (s.issued, s.tables.site.db.agents,
        (currentUser plainJwt s.tables s.clock ⟨some edgeToken, none⟩).toOption,
        (step asciiPlatform deployed plainHasher plainJwt demoConfig s
          (Action.request ⟨some edgeToken, none⟩
            (Mutation.agents (AgentCall.deleteAgent 1)))).map fun t =>
              t.tables.site.db.agents)) =
      some ([edgeToken, adminToken 86400], [⟨1, "demo-edge".toList, some 1, 0⟩],
        some ⟨3, edge, Role.demo, some 1⟩, some []) := by decide +kernel
  rcases Option.map_eq_some_iff.mp hend with ⟨s, hexec, hanswers⟩
  simp only [Prod.mk.injEq] at hanswers
  rcases hanswers with ⟨hissued, hagents, haccepted, hdeleted⟩
  rcases Option.map_eq_some_iff.mp hdeleted with ⟨t, hstep, hnone⟩
  have huser := toOption_eq_some.mp haccepted
  have hchanged : t.tables.site.db.agents ≠ s.tables.site.db.agents := by
    rw [hnone, hagents]
    exact (List.cons_ne_nil _ _).symm
  refine ⟨s, t, hexec, huser, hstep, hchanged, fun h => ?_⟩
  have hmem : edgeToken ∈ s.issued := hissued ▸ List.mem_cons_self
  have hsame := h.unchanged edgeToken hmem ⟨some edgeToken, none⟩ rfl _ huser rfl _ t hstep
  exact hchanged (by rw [hsame])

end Tokens

end Api

end Panel
end RcTunnel
