import RcTunnel.Panel.Tokens

/-!
# What a password change ends

The API and the pages authenticate the same tokens, the API by the user and the
version, the pages by the user alone.  They agree as long as no live token has
another version than its user.

The main result says which runs keep them in agreement: those in which a password is
changed, or an id used again, only after the tokens of that user have expired.  A
request that changes a password is authenticated by a live token of its user, so no
run with such a request is among them.
-/

namespace RcTunnel
namespace Panel

open Foundation

namespace Api

namespace Tokens

section Property

variable (jwt : Jwt Token)

/-- The API and the pages accept an issued token for the same user, and neither accepts
one that was issued before the latest change of its user's password. -/
structure LoggedOut (s : State) : Prop where
  agree : forall payload, payload ∈ s.issued -> forall headers : Headers Token,
    extractToken headers = some (jwt.encode payload) ->
    (currentUser jwt s.tables s.clock headers).toOption =
      pageUser jwt s.tables s.clock ⟨none, some (jwt.encode payload)⟩
  refused : forall payload, payload ∈ s.outdated -> forall headers : Headers Token,
    extractToken headers = some (jwt.encode payload) ->
    (currentUser jwt s.tables s.clock headers).toOption = none ∧
      pageUser jwt s.tables s.clock ⟨none, some (jwt.encode payload)⟩ = none

variable [DecidableEq Token] (pl : Platform) (st : Settings) (hasher : Hasher)

/-- No request changes a password, the script does after the tokens of the user have
expired, and an id is given to a new user when no live token of it has another version
than the new one. -/
def AfterExpiry (s : State) : Action Token -> Prop
  | Action.request headers mutation =>
      match currentUser jwt s.tables s.clock headers,
          handle pl st hasher jwt s.clock s.tables headers mutation with
      | Except.ok user, Except.ok _ => mutation.changes user = none ∧
          forall fresh, fresh ∈ mutation.creates ->
            forall payload, payload ∈ s.live fresh -> payload.tv = 0
      | _, _ => True
  | Action.bootstrap fresh email _ _ =>
      match s.tables.site.db.users.find? fun u => u.email = email with
      | some user => s.live user.id = []
      | none => forall payload, payload ∈ s.live fresh -> payload.tv = 0
  | _ => True

instance AfterExpiry.decidable (s : State) :
    DecidablePred (AfterExpiry jwt pl st hasher s)
  | Action.request headers mutation =>
      match huser : currentUser jwt s.tables s.clock headers,
          hhandle : handle pl st hasher jwt s.clock s.tables headers mutation with
      | Except.ok user, Except.ok _ =>
          decidable_of_iff (mutation.changes user = none ∧
              forall fresh, fresh ∈ mutation.creates ->
                forall payload, payload ∈ s.live fresh -> payload.tv = 0)
            (by simp only [AfterExpiry, huser, hhandle])
      | Except.error _, _ => isTrue (by simp only [AfterExpiry, huser])
      | Except.ok _, Except.error _ => isTrue (by simp only [AfterExpiry, huser, hhandle])
  | Action.bootstrap fresh email _ _ =>
      match hemail : s.tables.site.db.users.find? fun u => u.email = email with
      | some user => decidable_of_iff (s.live user.id = []) (by simp only [AfterExpiry, hemail])
      | none =>
          decidable_of_iff (forall payload, payload ∈ s.live fresh -> payload.tv = 0)
            (by simp only [AfterExpiry, hemail])
  | Action.login _ _ | Action.demoLogin | Action.tick _ => isTrue trivial

end Property

/-- Live tokens have the version of their user, and the outdated ones have expired. -/
structure Versioned (s : State) : Prop where
  current : forall payload, payload ∈ s.issued -> s.clock < payload.exp ->
    forall user, s.tables.site.db.user? payload.sub = some user ->
      payload.tv = (s.tables.accounts payload.sub).tokenVersion
  expired : forall payload, payload ∈ s.outdated -> payload.exp ≤ s.clock

section Steps

variable {Token : Type} {pl : Platform} {st : Settings}
  {hasher : Hasher} {jwt : Jwt Token} {config : Config} {s t : State}

theorem versioned_of_unissued (h : Unissued s) : Versioned s := by
  constructor
  · intro payload hpayload
    rw [h.issued] at hpayload
    cases hpayload
  · intro payload hpayload
    rw [h.outdated] at hpayload
    cases hpayload

theorem loggedOut_of_versioned (h : Versioned s) : LoggedOut jwt s := by
  constructor
  · intro payload hpayload headers htoken
    apply Option.ext
    intro user
    rw [pageUser_issued, toOption_eq_some, currentUser_issued htoken]
    constructor
    · rintro ⟨hlive, huser, -⟩
      exact ⟨hlive, huser⟩
    · rintro ⟨hlive, huser⟩
      exact ⟨hlive, huser, h.current payload hpayload hlive user huser⟩
  · intro payload hpayload headers htoken
    have hexpired : ¬ s.clock < payload.exp := Nat.not_lt.mpr (h.expired payload hpayload)
    constructor
    · rw [Option.eq_none_iff_forall_ne_some]
      intro user huser
      rw [toOption_eq_some, currentUser_issued htoken] at huser
      exact hexpired huser.left
    · rw [Option.eq_none_iff_forall_ne_some]
      intro user huser
      exact hexpired (pageUser_issued.mp huser).left

theorem versioned_issue {ttl : Nat} (h : Versioned s) (user : Option User) :
    Versioned (s.issue ttl user) := by
  cases user with
  | none => exact h
  | some u =>
      constructor
      · intro payload hpayload hlive user huser
        rcases List.mem_append.mp hpayload with hold | hnew
        · exact h.current payload hold hlive user huser
        · rw [List.mem_singleton] at hnew
          subst hnew
          rfl
      · exact h.expired

theorem versioned_tick {now : Nat} (h : Versioned s) (hle : s.clock ≤ now) :
    Versioned { s with clock := now } := by
  constructor
  · intro payload hpayload hlive
    exact h.current payload hpayload (Nat.lt_of_le_of_lt hle hlive)
  · intro payload hpayload
    exact Nat.le_trans (h.expired payload hpayload) hle

/-- New tables keep the versions when they keep that of every user with a live token. -/
theorem versioned_change {tables : Tables} {userId : Option Nat} (h : Versioned s)
    (hretired : forall id, userId = some id -> s.live id = [])
    (hcurrent : forall payload, payload ∈ s.issued -> s.clock < payload.exp ->
      forall user, tables.site.db.user? payload.sub = some user ->
        payload.tv = (tables.accounts payload.sub).tokenVersion) :
    Versioned (s.change tables userId) := by
  constructor
  · exact hcurrent
  · intro payload hpayload
    rcases List.mem_append.mp hpayload with hold | hnew
    · exact h.expired payload hold
    · rcases List.mem_filter.mp hnew with ⟨hissued, hsub⟩
      have hnone := hretired payload.sub (of_decide_eq_true hsub).symm
      by_contra hlive
      have hmem := mem_live.mpr ⟨hissued, rfl, Nat.not_le.mp hlive⟩
      rw [hnone] at hmem
      cases hmem

theorem versioned_serve {tables : Tables} {user : User} {mutation : Mutation}
    (h : Versioned s) (hfresh : s.tables.FreshFor mutation)
    (hserve : serve pl st hasher s.tables user mutation = Except.ok tables)
    (hchanges : mutation.changes user = none)
    (hcreates : forall fresh, mutation.creates = some fresh ->
      forall payload, payload ∈ s.live fresh -> payload.tv = 0) :
    Versioned (s.change tables (mutation.changes user)) := by
  rw [hchanges]
  apply versioned_change h
  · intro id hid
    cases hid
  · intro payload hpayload hlive user' huser'
    have hmem := mem_live.mpr ⟨hpayload, rfl, hlive⟩
    have hedit := (serve_effects hserve).left
    rcases hedit.find huser' with ⟨u, hu, -⟩ | ⟨email, password, teamId, salt, rfl⟩
    · rcases version_serve hserve payload.sub with hsame | hchanged | ⟨hzero, hcreated⟩
      · rw [hsame]
        exact h.current payload hpayload hlive u hu
      · rw [hchanges] at hchanged
        cases hchanged
      · rw [hzero]
        exact hcreates payload.sub hcreated payload hmem
    · rw [(created_serve hfresh.right hserve).right]
      exact hcreates payload.sub rfl payload hmem

theorem versioned_bootstrap {fresh : Nat} {email password : Text} {salt : Nat}
    (h : Versioned s) (hfresh : s.tables.site.db.user? fresh = none)
    (hguard : AfterExpiry jwt pl st hasher s (Action.bootstrap fresh email password salt)) :
    Versioned (s.change (bootstrapAdmin hasher s.tables fresh email password salt)
      ((s.tables.site.db.users.find? fun u => u.email = email).map User.id)) := by
  simp only [AfterExpiry] at hguard
  apply versioned_change h
  · intro id hid
    cases hemail : s.tables.site.db.users.find? fun u => u.email = email with
    | none =>
        rw [hemail] at hid
        cases hid
    | some user =>
        rw [hemail] at hid hguard
        cases hid
        exact hguard
  · intro payload hpayload hlive user' huser'
    have hmem := mem_live.mpr ⟨hpayload, rfl, hlive⟩
    rcases find_bootstrap hfresh huser' with ⟨hold, hsame⟩ | ⟨-, hadmin⟩
    · rw [hsame]
      exact h.current payload hpayload hlive user' hold
    · cases hemail : s.tables.site.db.users.find? fun u => u.email = email with
      | none =>
          rw [hemail] at hadmin hguard
          rw [hadmin.right]
          exact hguard payload (hadmin.left ▸ hmem)
      | some user =>
          rw [hemail] at hadmin hguard
          simp only at hadmin hguard
          rw [hadmin, hguard] at hmem
          cases hmem

/-!
# How the agreement is lost
-/

theorem not_loggedOut_of_outdated {payload : Payload} {user : User}
    (hpayload : payload ∈ s.outdated) (hlive : s.clock < payload.exp)
    (huser : s.tables.site.db.user? payload.sub = some user) : ¬ LoggedOut jwt s := by
  intro h
  have hrefused := (h.refused payload hpayload ⟨some (jwt.encode payload), none⟩ rfl).right
  rw [pageUser_issued.mpr ⟨hlive, huser⟩] at hrefused
  cases hrefused

theorem not_loggedOut_of_version {payload : Payload} {user : User}
    (hpayload : payload ∈ s.issued) (hlive : s.clock < payload.exp)
    (huser : s.tables.site.db.user? payload.sub = some user)
    (hversion : payload.tv ≠ (s.tables.accounts payload.sub).tokenVersion) :
    ¬ LoggedOut jwt s := by
  intro h
  have hagree := h.agree payload hpayload ⟨some (jwt.encode payload), none⟩ rfl
  rw [pageUser_issued.mpr ⟨hlive, huser⟩, toOption_eq_some, currentUser_issued rfl] at hagree
  exact hversion hagree.right.right

/-- A token that is outdated while it is live. -/
theorem not_loggedOut_change {tables : Tables} {payload : Payload} {userId : Nat}
    {user : User} (hpayload : payload ∈ s.live userId)
    (huser : tables.site.db.user? userId = some user) :
    ¬ LoggedOut jwt (s.change tables (some userId)) := by
  rcases mem_live.mp hpayload with ⟨hissued, rfl, hlive⟩
  have houtdated : payload ∈ (s.change tables (some payload.sub)).outdated :=
    List.mem_append_right _ (List.mem_filter.mpr ⟨hissued, decide_eq_true rfl⟩)
  exact not_loggedOut_of_outdated houtdated hlive huser

/-- A token of a deleted user that has another version than the new one. -/
theorem not_loggedOut_create {tables : Tables} {payload : Payload} {fresh : Nat}
    {user : User} {userId : Option Nat} (hpayload : payload ∈ s.live fresh)
    (hversion : payload.tv ≠ 0) (huser : tables.site.db.user? fresh = some user)
    (hzero : (tables.accounts fresh).tokenVersion = 0) :
    ¬ LoggedOut jwt (s.change tables userId) := by
  rcases mem_live.mp hpayload with ⟨hissued, rfl, hlive⟩
  have hother : payload.tv ≠ ((s.change tables userId).tables.accounts payload.sub).tokenVersion :=
    fun heq => hversion (heq.trans hzero)
  exact not_loggedOut_of_version (s := s.change tables userId) hissued hlive huser hother

end Steps

/-!
# Every run
-/

section Runs

variable {Token : Type} [DecidableEq Token] {pl : Platform} {st : Settings}
  {hasher : Hasher} {jwt : Jwt Token} {config : Config} {s t : State} {a : Action Token}

theorem versioned_step (h : Versioned s) (hguard : AfterExpiry jwt pl st hasher s a)
    (hstep : step pl st hasher jwt config s a = some t) : Versioned t := by
  cases a with
  | login email password =>
      cases hstep
      exact versioned_issue h _
  | demoLogin =>
      cases hstep
      exact versioned_issue h _
  | request headers mutation =>
      rcases step_request hstep with ⟨rfl, -⟩ | ⟨payload, user, tables, hcurrent, hhandle,
        -, -, -, -, hfresh, hserve, rfl⟩
      · exact h
      · simp only [AfterExpiry, hcurrent, hhandle] at hguard
        exact versioned_serve h hfresh hserve hguard.left hguard.right
  | bootstrap fresh email password salt =>
      simp only [step, Option.ite_none_right_eq_some] at hstep
      rcases hstep with ⟨⟨-, hfresh⟩, hstep⟩
      cases hstep
      exact versioned_bootstrap h hfresh hguard
  | tick now =>
      simp only [step, Option.ite_none_right_eq_some] at hstep
      rcases hstep with ⟨hle, hstep⟩
      cases hstep
      exact versioned_tick h hle

theorem not_loggedOut_request {headers : Headers Token} {mutation : Mutation}
    (hguard : ¬ AfterExpiry jwt pl st hasher s (Action.request headers mutation))
    (hstep : step pl st hasher jwt config s (Action.request headers mutation) = some t) :
    ¬ LoggedOut jwt t := by
  rcases step_request hstep with ⟨rfl, e, hhandle⟩ | ⟨token, user, tables, hcurrent, hhandle,
    htoken, -, -, hfound, hfresh, hserve, rfl⟩
  · simp [AfterExpiry, hhandle] at hguard
  · simp only [AfterExpiry, hcurrent, hhandle, not_and] at hguard
    cases hchanges : mutation.changes user with
    | some id =>
        rcases found_of_changes hfound hserve hchanges with ⟨rfl, u, hu⟩
        exact not_loggedOut_change htoken hu
    | none =>
        have hcreate := hguard hchanges
        push Not at hcreate
        rcases hcreate with ⟨fresh, hcreates, payload, hpayload, hversion⟩
        cases mutation with
        | createUser fresh' email password role teamId salt =>
            cases hcreates
            rcases created_serve hfresh.right hserve with ⟨hnew, hzero⟩
            exact not_loggedOut_create hpayload hversion hnew hzero
        | _ => cases hcreates

theorem not_loggedOut_bootstrap {fresh : Nat} {email password : Text} {salt : Nat}
    (hguard : ¬ AfterExpiry jwt pl st hasher s (Action.bootstrap fresh email password salt))
    (hstep : step pl st hasher jwt config s (Action.bootstrap fresh email password salt) =
      some t) : ¬ LoggedOut jwt t := by
  simp only [step, Option.ite_none_right_eq_some] at hstep
  rcases hstep with ⟨⟨-, hfresh⟩, hstep⟩
  cases hstep
  simp only [AfterExpiry] at hguard
  cases hemail : s.tables.site.db.users.find? fun u => u.email = email with
  | none =>
      rw [hemail] at hguard
      push Not at hguard
      rcases hguard with ⟨payload, hpayload, hversion⟩
      rcases created_bootstrap hfresh hemail with ⟨hnew, hzero⟩
      exact not_loggedOut_create hpayload hversion hnew hzero
  | some user =>
      rw [hemail] at hguard
      rcases List.exists_mem_of_ne_nil _ hguard with ⟨payload, hpayload⟩
      rcases found_of_reset hemail with ⟨u, hu⟩
      exact not_loggedOut_change hpayload hu

theorem not_loggedOut_step (hguard : ¬ AfterExpiry jwt pl st hasher s a)
    (hstep : step pl st hasher jwt config s a = some t) : ¬ LoggedOut jwt t := by
  cases a with
  | request headers mutation => exact not_loggedOut_request hguard hstep
  | bootstrap fresh email password salt => exact not_loggedOut_bootstrap hguard hstep
  | login email password => exact absurd trivial hguard
  | demoLogin => exact absurd trivial hguard
  | tick now => exact absurd trivial hguard

/--
In a run from the first sign-in on, the API and the pages always accept the same issued
tokens, and neither one that was issued before its user's latest password change, exactly
when no step changes a password, or gives an id to a new user, before the tokens it
outdates have expired.
-/
theorem loggedOut_iff_afterExpiry {actions : List (Action Token)} (hs : Unissued s)
    (hexec : (machine pl st hasher jwt config).exec s actions = some t) :
    (machine pl st hasher jwt config).Always (LoggedOut jwt) s actions <->
      (machine pl st hasher jwt config).Obeys (AfterExpiry jwt pl st hasher) s actions :=
  Machine.always_iff_obeys (fun _ => loggedOut_of_versioned)
    (fun _ _ _ => versioned_step) (fun _ _ _ _ => not_loggedOut_step)
    (versioned_of_unissued hs) hexec

end Runs

/-!
# Two admins
-/

def dayLong : Config := ⟨86400, false⟩

def root : Text := "root@rc-tunnel.com".toList

def member : Text := "core@rc-tunnel.com".toList

/-- An admin and a member, with the passwords of their names. -/
def twoUsers : State where
  tables :=
    { site :=
        { db := ⟨[], [⟨1, root, Role.admin, none⟩, ⟨2, member, Role.user, none⟩], [], []⟩
          rows := fun _ => ⟨"", false, none, none⟩
          revoked := [] }
      accounts := fun id => if id = 1 then ⟨root, 0⟩ else ⟨member, 0⟩
      nodes := [] }
  issued := []
  outdated := []
  clock := 0

theorem unissued_twoUsers : Unissued twoUsers where
  users := by decide
  issued := rfl
  outdated := rfl

/-- The tokens that the two are issued at the start. -/
def rootToken : Payload := ⟨1, Role.admin, 0, 86400⟩

def memberToken : Payload := ⟨2, Role.user, 0, 86400⟩

/-- The admin changes the member's role and deletes him, and the script resets the
admin's password after a day. -/
def patient : List (Action Payload) :=
  [Action.login root root, Action.login member member,
    Action.request ⟨some rootToken, none⟩ (Mutation.updateUserRole 2 Role.teamAdmin),
    Action.request ⟨none, some rootToken⟩ (Mutation.deleteUser 2),
    Action.tick 86400, Action.bootstrap 3 root "new password".toList 0,
    Action.login root "new password".toList]

theorem loggedOut_of_patient :
    (exists t, (machine asciiPlatform deployed plainHasher plainJwt dayLong).exec twoUsers
        patient = some t ∧ t.outdated = [rootToken]) ∧
      (machine asciiPlatform deployed plainHasher plainJwt dayLong).Always
        (LoggedOut plainJwt) twoUsers patient := by
  have hend : ((machine asciiPlatform deployed plainHasher plainJwt dayLong).exec twoUsers
      patient).map State.outdated = some [rootToken] := by decide +kernel
  rcases Option.map_eq_some_iff.mp hend with ⟨t, hexec, houtdated⟩
  constructor
  · exact ⟨t, hexec, houtdated⟩
  · exact (loggedOut_iff_afterExpiry unissued_twoUsers hexec).mpr (by decide +kernel)

/-- The member changes his password. -/
def hasty : List (Action Payload) :=
  [Action.login member member,
    Action.request ⟨some memberToken, none⟩
      (Mutation.updateMe none (some member) (some "new password".toList) 0)]

/-- The pages accept the member's token after he has changed his password. -/
theorem accepted_of_hasty :
    exists t, (machine asciiPlatform deployed plainHasher plainJwt dayLong).exec twoUsers
        hasty = some t ∧
      pageUser plainJwt t.tables t.clock ⟨none, some memberToken⟩ =
        some ⟨2, member, Role.user, none⟩ ∧
      (currentUser plainJwt t.tables t.clock ⟨none, some memberToken⟩).toOption = none ∧
      ¬ LoggedOut plainJwt t := by
  have hend : ((machine asciiPlatform deployed plainHasher plainJwt dayLong).exec twoUsers
      hasty).map (fun t => (pageUser plainJwt t.tables t.clock ⟨none, some memberToken⟩,
        (currentUser plainJwt t.tables t.clock ⟨none, some memberToken⟩).toOption,
        t.outdated)) =
      some (some ⟨2, member, Role.user, none⟩, none, [memberToken]) := by decide +kernel
  rcases Option.map_eq_some_iff.mp hend with ⟨t, hexec, hanswers⟩
  simp only [Prod.mk.injEq] at hanswers
  rcases hanswers with ⟨hpage, hcurrent, houtdated⟩
  refine ⟨t, hexec, hpage, hcurrent, fun h => ?_⟩
  have hmem : memberToken ∈ t.outdated := houtdated ▸ List.mem_singleton_self memberToken
  have hrefused := (h.refused memberToken hmem ⟨none, some memberToken⟩ rfl).right
  rw [show plainJwt.encode memberToken = memberToken from rfl, hpage] at hrefused
  cases hrefused


end Tokens

end Api

end Panel
end RcTunnel
