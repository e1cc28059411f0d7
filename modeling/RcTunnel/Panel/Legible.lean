import RcTunnel.Panel.Registrable

/-!
# The grants of reachable databases

Whatever the requests have made of the tables, no name that is signed holds a separator,
so the engine reads every grant of the panel as it was signed.  It accepts the grant from
then on up to its expiry, and not after.
-/

namespace RcTunnel
namespace Panel

open Foundation

namespace Api

/-- Every custom domain is a domain name. -/
def Legible (pl : Platform) (db : Db) : Prop :=
  forall t, t ∈ db.tunnels -> forall d, d ∈ pieces (t.customDomains.getD []) ->
    matchFqdn (pl.lower d) = true

section Legible

variable {pl : Platform} {st : Settings}

/-!
# The tunnels after a step

A row is a row from before the step, with its custom domains, or one that was checked.
-/

theorem serve_rows {db db' : Db} {user : User} {call : Call}
    (h : serve pl st db user call = Except.ok db') {t : Tunnel} (ht : t ∈ db'.tunnels) :
    (exists u, u ∈ db.tunnels ∧ t.customDomains = u.customDomains) ∨ Vetted pl st t := by
  have hspared : call.Spares ->
      (exists u, u ∈ db.tunnels ∧ t.customDomains = u.customDomains) ∨ Vetted pl st t :=
    fun hspares => Or.inl ⟨t, serve_tunnels hspares h ht, rfl⟩
  cases call with
  | createTunnel fresh agentId body =>
      rcases vetted_createTunnel h with ⟨new, htunnels, -, -, -, hvetted⟩
      rw [htunnels] at ht
      rcases List.mem_append.mp ht with hold | hnew
      · exact Or.inl ⟨t, hold, rfl⟩
      · rw [List.mem_singleton.mp hnew]
        exact Or.inr hvetted
  | updateTunnel tunnelId fields =>
      simp only [serve, updateTunnel, bind_ok, pure_ok] at h
      rcases h with ⟨t, -, a, -, -, -, -, -, -, -, -, -, -, -, port, -, -, -, rfl⟩
      rcases mem_rewriteRow ht with ⟨old, hold, ⟨-, rfl⟩ | ⟨-, rfl⟩⟩
      · exact Or.inl ⟨old, hold, rfl⟩
      · exact Or.inl ⟨_, hold, rfl⟩
  | _ => exact hspared trivial

theorem step_rows {db db' : Db} {a : Action} (h : step pl st db a = some db') {t : Tunnel}
    (ht : t ∈ db'.tunnels) :
    (exists u, u ∈ db.tunnels ∧ t.customDomains = u.customDomains) ∨ Vetted pl st t := by
  cases a with
  | request request =>
      simp only [step] at h
      split at h
      · cases hhandle : handle pl st db request with
        | error e =>
            rw [hhandle] at h
            cases h
            exact Or.inl ⟨t, ht, rfl⟩
        | ok served =>
            rw [hhandle] at h
            cases h
            simp only [handle, bind_ok] at hhandle
            rcases hhandle with ⟨-, -, user, -, hserve⟩
            exact serve_rows hserve ht
      · cases h
  | poll traffic =>
      cases h
      rcases List.mem_map.mp ht with ⟨u, hu, rfl⟩
      refine Or.inl ⟨u, hu, ?_⟩
      unfold Tunnel.counted
      split <;> rfl
  | restart fresh =>
      simp only [step] at h
      split at h
      · rw [seedDefaultTeam_tunnels h] at ht
        exact Or.inl ⟨t, ht, rfl⟩
      · cases h
  | bootstrap fresh email =>
      simp only [step] at h
      split at h
      · cases h
        refine Or.inl ⟨t, ?_, rfl⟩
        unfold bootstrapAdmin at ht
        split at ht <;> exact ht
      · cases h

theorem legible_of_reachable {db : Db} (h : (machine pl st).Reachable db) : Legible pl db := by
  apply h.invariant
  · intro db hcase t ht d hd
    rcases hcase with rfl | rfl
    · cases ht
    · rcases List.mem_cons.mp ht with rfl | ht
      · cases hd
      · rw [List.mem_singleton.mp ht] at hd
        cases hd
  · intro db action db' hdb hstep t ht d hd
    rcases step_rows hstep ht with ⟨u, hu, hcustom⟩ | hvetted
    · rw [hcustom] at hd
      exact hdb u hu d hd
    · exact hvetted.custom d hd

/-!
# What the engine answers
-/

variable {rt : Engine.Runtime} (hpl : pl.Standard)
include hpl

/-- The names of a tunnel, under whatever label, are plain. -/
theorem plain_of_name {db : Db} (h : (machine pl st).Reachable db) {a : Agent} {t : Tunnel}
    (ht : t ∈ db.tunnels) {d : Text}
    (hd : (exists s, given t.subdomain = some s ∧ d = db.hostOf st a s) ∨
      d ∈ pieces (t.customDomains.getD [])) : Plain pl d := by
  have htenants := tenants_of_reachable hpl h
  rcases hd with ⟨s, hs, rfl⟩ | hpiece
  · refine (plain_of_subdomain hpl ((htenants.named t ht).subdomain s hs)).under hpl ?_
    exact plain_of_domainChars hpl fun _ hc => suffix_chars htenants hc
  · exact plain_of_matchFqdn (legible_of_reachable h t ht d hpiece)

/-- The names that are signed are plain. -/
theorem plain_of_nameOf {db : Db} (h : (machine pl st).Reachable db) {a : Agent} {d : Text}
    (hd : NameOf st db a d) : Plain pl d := by
  rcases hd with ⟨t, ht, -, hname⟩
  exact plain_of_name hpl h ht.mem hname

variable (hhmac : forall secret msg, '|' ∉ rt.hmac secret msg)
include hhmac

/-- The engine accepts a grant of the panel for its agent exactly up to the expiry. -/
theorem verify_iff_unexpired {db : Db} (h : (machine pl st).Reachable db) {agentId : Nat}
    {issued now : Int} {g : Grant} (hsigns : Signs pl st db agentId issued g)
    (hexp : Readable (issued + grantTtl)) :
    (Engine.verify rt st.grantSecret (g.token rt.hmac st.grantSecret)
        ("agent.".toList ++ Nat.toDigits 10 agentId) now).isOk = true <->
      now ≤ issued + grantTtl := by
  have htenants := tenants_of_reachable hpl h
  rcases (signs_iff pl st).mp hsigns with ⟨-, a, hagent, rfl⟩
  have hcn : (db.grantOf pl st issued a).cn = "agent.".toList ++ Nat.toDigits 10 agentId := by
    rw [← (agent_of_agent? hagent).right]
    rfl
  have hbar : '|' ∉ (db.grantOf pl st issued a).cn := by
    rw [hcn]
    exact not_mem_identity agentId
  have hhosts : forall t, t ∈ (db.grantOf pl st issued a).hosts -> '|' ∉ t := by
    intro t ht
    rcases (mem_grant_hosts (piece_hostOf htenants hpl)).mp ht with ⟨d, hd, rfl⟩
    exact (plain_of_nameOf hpl h hd).not_mem (by decide) (by decide)
  rw [← hcn, verify_signed (hhmac st.grantSecret) hbar hexp hhosts]
  have hsum : (db.grantOf pl st issued a).exp = issued + grantTtl := rfl
  rw [hsum]
  split
  · rename_i hlate
    exact iff_of_false nofun (Int.not_le.mpr hlate)
  · rename_i hearly
    exact iff_of_true rfl (Int.not_lt.mp hearly)

end Legible

end Api

end Panel
end RcTunnel
