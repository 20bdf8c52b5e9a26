import Proconsul.AuditTrail
import Proconsul.Rejection

/-!
# Complete audit trails

The handlers keep to the protocol of `AuditTrail`, so that in every interleaved
run whose steps are permitted each deed has its row when everything has ended.
The protocol says nothing about a request that is still being served.
-/

namespace AuditCompleteness

open Program Schema Text Surroundings Hosts Accounts Sessions Handlers Checkout Interleaving AuditTrail
open Lifecycle (served conforms_gates)
open CheckoutEffects (onlyTokens_checkoutGates checkoutSite checkoutRequest)
open Rejection (onlyTokens_updateGates)

section Conformance

variable {strict : Bool} {l : Origin}

/-! ## Handlers -/

theorem conforms_gated {gs : List Gate} (tokens : ∀ g ∈ gs, g.Steps OnlyTokens)
    {f : Option Page → Run Page} (stopped : ∀ page, f (some page) = pure page)
    (passed : Conforms (Move strict l) settledEnd (f none) .settled) :
    Conforms (Move strict l) settledEnd (inOrder gs >>= f) .settled := by
  have neutral : ∀ w w', OnlyTokens w w' → Move strict l .settled w w' .settled :=
    fun _ _ only => .neutral (fun _ => silent_tokens only)
  have ends : ∀ r : Except Exn Page, settledEnd r .settled := fun _ => rfl
  exact conforms_gates neutral ends tokens stopped passed

theorem conforms_withAccount {cfg : Config} {c : CreateCalls} {au : Option AuthUser}
    (creating : Conforms (Move strict l) settledEnd (createRandomizedADUser cfg c au) .settled)
    {gs : List Gate} (tokens : ∀ g ∈ gs, g.Steps OnlyTokens) {body : ADUser → Run Page}
    (hbody : ∀ u, u.sAMAccountName ≠ none → Conforms (Move strict l) settledEnd (body u) .settled) :
    Conforms (Move strict l) settledEnd (withAccount cfg c au (inOrder gs) body) .settled := by
  refine conforms_gated tokens (fun _ => rfl) ?_
  refine conforms_after creating (returns_createRandomizedADUser cfg c au) (fun o named => ?_)
  cases o with
  | none => rfl
  | some u => exact hbody u (named u rfl)

/-- What the groups of an account are added to is still that account. -/
theorem named_of_sameUser {u : ADUser} (named : u.sAMAccountName ≠ none) {o : Option ADUser}
    (same : SameUser u o) : ∃ u', o = some u' ∧ u'.sAMAccountName ≠ none := by
  obtain ⟨u', rfl, name, -, -⟩ := same
  exact ⟨u', rfl, name ▸ named⟩

theorem conforms_userGroups (cfg : Config) {c : UserGroupCalls} (default : GroupAudits c.default)
    (host : GroupAudits c.host.group) (group : ∀ i, GroupAudits (c.group i))
    (gateway : GroupAudits c.gateway.group) (au : AuthUser) (target : Option String) {u : ADUser}
    (named : u.sAMAccountName ≠ none) (addr : Option String) :
    Conforms (Move strict l) settledEnd (userGroups cfg c au target u addr) .settled := by
  refine conforms_after (conforms_addGroupToADUser cfg default _ named _ _)
    (returns_addGroupToADUser _ _ _ _ _ _) (fun o same => ?_)
  obtain ⟨u₁, rfl, named₁⟩ := named_of_sameUser named same
  refine conforms_after (conforms_addHostAccessGroup cfg host named₁ _)
    (returns_addHostAccessGroup _ _ _ _) (fun o same => ?_)
  obtain ⟨u₂, rfl, named₂⟩ := named_of_sameUser named₁ same
  refine conforms_then (conforms_silent ((reads_groupDnsForEppn _ _).steps silent_refl)) (fun dns => ?_)
  have adding : Conforms (Move strict l) (fun r ph => ph = .settled ∧ ∀ o, r = .ok o →
      ∃ u', o = some u' ∧ u'.sAMAccountName ≠ none) (dns.zipIdx.foldlM (fun u dn =>
        addGroupToADUser cfg (c.group dn.2) dn.1 u (some au) addr) (some u₂)) .settled := by
    refine conforms_foldlM (fun o dn ph before => ?_) _ _ ⟨rfl, ?_⟩
    · obtain ⟨rfl, before⟩ := before
      obtain ⟨u', rfl, named'⟩ := before o rfl
      refine conforms_weaken (conforms_returning
        (conforms_addGroupToADUser cfg (group dn.2) _ named' _ _)
        (returns_addGroupToADUser _ _ _ _ _ _)) (fun r ph h => ⟨h.1, fun o' ho' => ?_⟩)
      exact named_of_sameUser named' (h.2 o' ho')
    · rintro _ ⟨⟩
      exact ⟨u₂, rfl, named₂⟩
  refine conforms_bind adding ?_ (fun _ _ h => h.1)
  rintro o ph ⟨rfl, h⟩
  obtain ⟨u₃, rfl, named₃⟩ := h o rfl
  exact conforms_addGatewayAccessGroup cfg gateway named₃ _

theorem conforms_handleUserSessionPost (cfg : Config) {c : UserCalls} (audits : UserAudits c)
    (req : Request) (form : UserSessionRequest) :
    Conforms (Move strict l) settledEnd (handleUserSessionPost cfg c req form) .settled := by
  refine conforms_withAccount (conforms_createRandomizedADUser cfg audits.create _)
    (onlyTokens_userGates c req form) (fun u named => ?_)
  refine conforms_then (conforms_silent (steps_deref _)) (fun displayName => ?_)
  refine conforms_then (conforms_silent (steps_deref _)) (fun target => ?_)
  refine conforms_then (conforms_silent (steps_openSession silent_serves _ _ _)) (fun s => ?_)
  refine conforms_then (conforms_userGroups cfg audits.default audits.host audits.group audits.gateway
    _ _ named _) (fun o => ?_)
  exact conforms_silent (steps_finishSession silent_serves _ _ _ _ _ _)

theorem conforms_handleStaticSessionPost (cfg : Config) (c : StaticCalls) (req : Request)
    (form : StaticUserSessionRequest) :
    Conforms (Move strict l) settledEnd (handleStaticSessionPost cfg c req form) .settled := by
  refine conforms_gated (onlyTokens_staticGates c req form) (fun _ => rfl) ?_
  refine conforms_then (conforms_silent (steps_getStaticADUser silent_refl
    (fun _ _ _ _ => silent_changeAccount _ _ _) _ _ _ _ _)) (fun u => ?_)
  refine conforms_then (conforms_silent (steps_deref _)) (fun displayName => ?_)
  refine conforms_then (conforms_silent (steps_deref _)) (fun target => ?_)
  refine conforms_then (conforms_silent (steps_openSession silent_serves _ _ _)) (fun s => ?_)
  exact conforms_silent (steps_launch silent_serves _ _ _ _ _)

theorem conforms_undone {γ : Type} (cfg : Config) (c : DeleteCalls) (u : ADUser) (au : AuthUser)
    (addr : Option String) (r : γ) :
    Conforms (Move strict l) settledEnd (do
      let _ ← deleteAdUser cfg c u (some au) addr
      return r) .settled :=
  conforms_then (conforms_neutral (neutral_deleteAdUser _ _ _ _ _)) (fun _ => rfl)

theorem conforms_domainGroups (cfg : Config) {c : DomainCalls} (audits : DomainAudits c)
    (au : AuthUser) (host : String) {u : ADUser} (named : u.sAMAccountName ≠ none)
    (addr : Option String) :
    Conforms (Move strict l) settledEnd (domainGroups cfg c au host u addr) .settled := by
  refine conforms_then (conforms_makeUserAuthorizedDA audits.register _ _ _) (fun registered => ?_)
  cases registered with
  | false => exact conforms_undone _ _ _ _ _ _
  | true =>
    refine conforms_after (conforms_addGroupToADUser cfg audits.group _ named _ _)
      (returns_addGroupToADUser _ _ _ _ _ _) (fun o same => ?_)
    obtain ⟨u₁, rfl, named₁⟩ := named_of_sameUser named same
    exact conforms_then (conforms_addGatewayAccessGroup cfg audits.gateway named₁ _) (fun _ => rfl)

theorem conforms_handleDomainAdminPost (cfg : Config) {c : DomainCalls} (audits : DomainAudits c)
    (req : Request) (form : DomainAdminRequest) :
    Conforms (Move strict l) settledEnd (handleDomainAdminPost cfg c req form) .settled := by
  refine conforms_then (conforms_silent (steps_deref _)) (fun target => ?_)
  refine conforms_then (conforms_silent (steps_deref _)) (fun displayName => ?_)
  refine conforms_withAccount (conforms_createRandomizedADUser cfg audits.create _)
    (onlyTokens_domainGates c req form _) (fun u named => ?_)
  refine conforms_then (conforms_silent (steps_openSession silent_serves _ _ _)) (fun s => ?_)
  refine conforms_then (conforms_domainGroups cfg audits _ _ named _) (fun r => ?_)
  cases r with
  | inl page => rfl
  | inr o => exact conforms_silent (steps_finishSession silent_serves _ _ _ _ _ _)

/-- One group of the chain, which keeps the account it is given. -/
theorem conforms_orUndo (cfg : Config) (c : DeleteCalls) (au : AuthUser) (addr : Option String)
    {before : ADUser} (message : String) {add : Run (Option ADUser)}
    {next : ADUser → Run (Page ⊕ Option ADUser)} (named : before.sAMAccountName ≠ none)
    (hadd : Conforms (Move strict l) settledEnd add .settled) (same : add.Returns (SameUser before))
    (hnext : ∀ u, u.sAMAccountName ≠ none → Conforms (Move strict l) settledEnd (next u) .settled) :
    Conforms (Move strict l) settledEnd (orUndo cfg c au addr before message add next) .settled := by
  refine conforms_after hadd same (fun o same => ?_)
  obtain ⟨u, rfl, named'⟩ := named_of_sameUser named same
  exact hnext u named'

theorem conforms_delegatedGroups (cfg : Config) {c : DelegatedCalls} (audits : DelegatedAudits c)
    (au : AuthUser) (host : String) (roleGroup : Option String) {u : ADUser}
    (named : u.sAMAccountName ≠ none) (addr : Option String) :
    Conforms (Move strict l) settledEnd (delegatedGroups cfg c au host roleGroup u addr) .settled := by
  refine conforms_after (conforms_addGroupToADUser cfg audits.default _ named _ _)
    (returns_addGroupToADUser _ _ _ _ _ _) (fun o same => ?_)
  obtain ⟨u₁, rfl, name, password, domain⟩ := same
  have named₁ : u₁.sAMAccountName ≠ none := name ▸ named
  have same₁ : SameUser u (some u₁) := ⟨u₁, rfl, name, password, domain⟩
  refine conforms_orUndo cfg _ _ _ _ named (conforms_addHostAccessGroup cfg audits.host named₁ _)
    ((returns_addHostAccessGroup _ _ _ _).mono (fun _ same => same₁.trans same)) (fun u₂ named₂ => ?_)
  refine conforms_orUndo cfg _ _ _ _ named₂ ?_ ?_ (fun u₃ named₃ => ?_)
  · refine conforms_then (conforms_silent ((reads_groupDnForFQDN _ _ _).steps silent_refl))
      (fun dn => ?_)
    exact conforms_addGroupToADUser cfg audits.managing _ named₂ _ _
  · exact Prog.returns_bind (Prog.returns_any _) (fun _ _ => returns_addGroupToADUser _ _ _ _ _ _)
  refine conforms_orUndo cfg _ _ _ _ named₃ (conforms_addGroupToADUser cfg audits.role _ named₃ _ _)
    (returns_addGroupToADUser _ _ _ _ _ _) (fun u₄ named₄ => ?_)
  exact conforms_then (conforms_addGatewayAccessGroup cfg audits.gateway named₄ _) (fun _ => rfl)

theorem conforms_handleDelegatedAdminPost (cfg : Config) {c : DelegatedCalls}
    (audits : DelegatedAudits c) (req : Request) (form : DelegatedAdminRequest) :
    Conforms (Move strict l) settledEnd (handleDelegatedAdminPost cfg c req form) .settled := by
  refine conforms_then (conforms_silent (steps_deref _)) (fun host => ?_)
  refine conforms_then (conforms_silent (steps_deref _)) (fun displayName => ?_)
  refine conforms_withAccount (conforms_createRandomizedADUser cfg audits.create _)
    (onlyTokens_delegatedGates c req form _) (fun u named => ?_)
  refine conforms_then (conforms_silent (steps_openSession silent_serves _ _ _)) (fun s => ?_)
  refine conforms_then (conforms_delegatedGroups cfg audits _ _ _ named _) (fun r => ?_)
  cases r with
  | inl page => rfl
  | inr o => exact conforms_silent (steps_finishSession silent_serves _ _ _ _ _ _)

theorem conforms_handleReconnectPost (cfg : Config) (c : ReconnectCalls) (req : Request)
    (form : ReconnectRequest) :
    Conforms (Move strict l) settledEnd (handleReconnectPost cfg c req form) .settled := by
  refine conforms_gated (onlyTokens_reconnectGates c req form) (fun _ => rfl) ?_
  refine conforms_then (conforms_silent ((reads_getAvailableSessions _ _ _).steps silent_refl))
    (fun psa => ?_)
  cases chooseSession req.authUser form.targetFQDN psa with
  | none => rfl
  | some s =>
    refine conforms_then (conforms_silent (steps_getVncPortNumber silent_refl silent_serves.port _ _))
      (fun port => ?_)
    refine conforms_then (conforms_silent (steps_setRandomADPassword silent_refl
      (fun _ _ _ _ => silent_changeAccount _ _ _) _ _ _)) (fun u => ?_)
    refine conforms_then (conforms_silent (steps_writeSessionToDB silent_logs (silent_serves.session _)
      _ _)) (fun _ => ?_)
    exact conforms_silent (steps_launch silent_serves _ _ _ _ _)

/-! ## Checkouts -/

theorem conforms_assignGroup (cfg : Config) {c : CheckoutCalls} (audits : CheckoutAudits c)
    (au : AuthUser) (addr : Option String) {u : ADUser} (named : u.sAMAccountName ≠ none)
    (g : String × Nat) :
    Conforms (Move strict l) (fun r ph => ph = .settled ∧ ∀ u', r = .ok u' → u'.sAMAccountName ≠ none)
      (assignGroup cfg c au addr u g) .settled := by
  have member : Conforms (Move strict l) (fun r ph => ph = .settled ∧ ∀ u', r = .ok u' →
      u'.sAMAccountName ≠ none) (do
        return (← addGroupToADUser cfg (c.group g.2) (some g.1) (some u) (some au) addr).getD u)
      .settled := by
    refine conforms_bind (conforms_returning (conforms_addGroupToADUser cfg (audits.group g.2) _ named
      _ _) (returns_addGroupToADUser _ _ _ _ _ _)) ?_ ?_
    · rintro o ph ⟨settled, same⟩
      obtain ⟨u', rfl, named'⟩ := named_of_sameUser named (same o rfl)
      refine ⟨settled, ?_⟩
      rintro _ ⟨⟩
      exact named'
    · rintro e ph ⟨settled, -⟩
      exact ⟨settled, fun _ h => nomatch h⟩
  rw [assignGroup]
  split
  · refine conforms_bind (conforms_makeUserAuthorizedDA (audits.register g.2) u (some au) addr) ?_ ?_
    · rintro _ ph rfl
      exact member
    · rintro e ph settled
      exact ⟨settled, fun _ h => nomatch h⟩
  · exact member

theorem silent_storeCheckedOutUser (fails : Bool) (row : CheckoutRow) :
    (storeCheckedOutUser fails row).Steps Silent := by
  refine Prog.steps_orElse (Prog.steps_bind (steps_execute silent_refl _ _ _ (fun w => ?_))
    (fun _ => Prog.steps_pure _)) _
  exact silent_of_effects rfl (fun _ he => absurd he List.not_mem_nil) (List.prefix_append _ _)
    List.prefix_rfl List.prefix_rfl

theorem conforms_registerCheckout (cfg : Config) {c : CheckoutCalls} (audits : CheckoutAudits c)
    (req : Request) (form : CheckedOutCredRequest) {u : ADUser} (named : u.sAMAccountName ≠ none) :
    Conforms (Move strict l) settledEnd (registerCheckout cfg c req form u) .settled := by
  have assigning : Conforms (Move strict l) (fun r ph => ph = .settled ∧ ∀ u', r = .ok u' →
      u'.sAMAccountName ≠ none) ((requestedGroups form).zipIdx.foldlM
        (assignGroup cfg c req.authUser req.remoteAddr) u) .settled := by
    refine conforms_foldlM (fun u' g ph before => ?_) _ _ ⟨rfl, ?_⟩
    · obtain ⟨rfl, named'⟩ := before
      exact conforms_assignGroup cfg audits _ _ (named' u' rfl) g
    · rintro _ ⟨⟩
      exact named
  refine conforms_bind assigning ?_ (fun _ _ h => h.1)
  rintro u₁ ph ⟨rfl, h⟩
  refine conforms_then (conforms_addGroupToADUser cfg audits.default _ (h u₁ rfl) _ _) (fun o => ?_)
  refine conforms_then (conforms_silent (steps_deref _)) (fun hosts => ?_)
  refine conforms_then (conforms_silent (Prog.steps_foldlM (fun u h =>
    steps_addWorkstationToADUser silent_refl silent_setWorkstations (steps_audit silent_logs)
      _ _ _ _ _ _) _ _)) (fun u₃ => ?_)
  exact conforms_then (conforms_silent (silent_storeCheckedOutUser _ _)) (fun _ => rfl)

theorem conforms_handleCheckOutPost (cfg : Config) {c : CheckoutCalls} (audits : CheckoutAudits c)
    (req : Request) (form : CheckedOutCredRequest) :
    Conforms (Move strict .checkOut) settledEnd (handleCheckOutPost cfg c req form) .settled := by
  have creating : (createRandomizedADUser cfg c.create none).Steps (Neutral strict .checkOut) :=
    steps_createRandomizedADUser neutral_logs (fun _ _ _ => neutral_addAccount _ _)
      (fun _ _ _ _ => neutral_of_silent (silent_changeAccount _ _ _)) _ _ _
  refine conforms_withAccount (conforms_neutral creating) (onlyTokens_checkoutGates cfg c req form)
    (fun u named => ?_)
  exact conforms_registerCheckout cfg audits req form named

/-- A button that moves a checkout is not permitted, and one that moves none is silent. -/
theorem neutral_updateCheckouts (fails : Bool) (columns : List String)
    (sel : CheckoutRow → Bool) (f : CheckoutRow → CheckoutRow) :
    (execute fails .checkout columns (fun db =>
      ({ db with checkout := updateWhere sel f db.checkout }, []))).Steps (Neutral strict l) := by
  refine steps_execute (fun w _ => silent_refl w) _ _ _ ?_
  intro w permitted
  refine ⟨?_, List.prefix_rfl⟩
  rw [deeds, permitted.unmoved, zip_prefix_nil disabled_self List.prefix_rfl, newEffects_of_append rfl]
  rfl

theorem neutral_extendCheckedOutUser (c : ButtonCalls) (co : CheckedOutCred)
    (clientip : Option String) : (extendCheckedOutUser c co clientip).Steps (Neutral strict l) :=
  Prog.steps_orElse (Prog.steps_bind (neutral_updateCheckouts _ _ _ _) (fun _ =>
    Prog.steps_bind (steps_audit neutral_logs _ _ _ _ _ _ _) (fun _ => Prog.steps_pure _))) _

theorem neutral_expireCheckedOutUser (c : ButtonCalls) (co : CheckedOutCred)
    (clientip : Option String) : (expireCheckedOutUser c co clientip).Steps (Neutral strict l) :=
  Prog.steps_orElse (Prog.steps_bind (neutral_updateCheckouts _ _ _ _) (fun _ =>
    Prog.steps_bind (steps_audit neutral_logs _ _ _ _ _ _ _) (fun _ => Prog.steps_pure _))) _

theorem conforms_handleUpdateCheckout (c : UpdateCheckoutCalls) (req : Request)
    (form : UpdateCheckoutRequest) :
    Conforms (Move strict l) settledEnd (handleUpdateCheckout c req form) .settled := by
  refine conforms_gated (onlyTokens_updateGates c req form) (fun _ => rfl) ?_
  refine conforms_then (conforms_silent (steps_deref _)) (fun expireNow => ?_)
  refine conforms_then (conforms_silent (steps_deref _)) (fun extendNow => ?_)
  dsimp only
  split
  · exact conforms_then (conforms_neutral (neutral_expireCheckedOutUser _ _ _)) (fun _ => rfl)
  · split
    · exact conforms_then (conforms_neutral (neutral_extendCheckedOutUser _ _ _)) (fun _ => rfl)
    · rfl

/-- The sweep raises at its first row. -/
theorem reads_run (cfg : Config) (c : SweepCalls) (active : Bool) (t : Int) :
    (run cfg c active t).Reads := by
  rw [run, runReading]
  split
  · exact Prog.steps_pure _
  · refine Prog.steps_orElse (Prog.steps_bind (reads_query _ _ _ _) (fun rows => ?_)) _
    exact Prog.steps_forM (fun r => Prog.steps_throwing _) _

theorem conforms_spawned {cfg : Config} {p : Run Unit} (h : Spawned cfg l p) :
    Conforms (Move strict l) settledEnd p .settled := by
  cases h with
  | user audits req form =>
    exact conforms_then (conforms_handleUserSessionPost cfg audits req form) (fun _ => rfl)
  | static c req form =>
    exact conforms_then (conforms_handleStaticSessionPost cfg c req form) (fun _ => rfl)
  | domain audits req form =>
    exact conforms_then (conforms_handleDomainAdminPost cfg audits req form) (fun _ => rfl)
  | delegated audits req form =>
    exact conforms_then (conforms_handleDelegatedAdminPost cfg audits req form) (fun _ => rfl)
  | reconnect c req form =>
    exact conforms_then (conforms_handleReconnectPost cfg c req form) (fun _ => rfl)
  | checkOut audits req form =>
    exact conforms_then (conforms_handleCheckOutPost cfg audits req form) (fun _ => rfl)
  | button audits req form =>
    exact conforms_then (conforms_handleUpdateCheckout _ req form) (fun _ => rfl)
  | sweep audits active t => exact conforms_silent ((reads_run _ _ _ _).steps silent_refl)

end Conformance

/-! ## Whole runs -/

/-- The deed has its row in the table, or somebody owes it. -/
def Told (strict : Bool) (log : List AuditRow) (phs : List Phase) (since : World) (d : Deed) : Prop :=
  (∃ row ∈ table strict (log.drop since.db.auditLog.length), Tells row d) ∨ .owing d ∈ phs

structure Accounted (strict : Bool) (s : Recorded) (phs : List Phase) : Prop where
  grown : ∀ e ∈ s.2, e.2.1.db.auditLog <+: s.1.db.auditLog
  told : ∀ e ∈ s.2, ∀ d ∈ deeds e.2.1 e.2.2, Told strict s.1.db.auditLog phs e.2.1 d

section Accounting

variable {strict : Bool}

theorem Told.mono {log log' : List AuditRow} {phs phs' : List Phase} {since : World} {d : Deed}
    (told : Told strict log phs since d) (grown : log <+: log')
    (kept : .owing d ∈ phs → Told strict log' phs' since d) : Told strict log' phs' since d := by
  rcases told with ⟨row, hrow, tells⟩ | owing
  · obtain ⟨insert, mem, kept⟩ := List.mem_filterMap.mp hrow
    exact .inl ⟨row, List.mem_filterMap.mpr ⟨insert, (grown.drop _).mem mem, kept⟩, tells⟩
  · exact kept owing

/-- What a permitted move does to the log. -/
theorem log_move {l : Origin} {w w' : World} {ph ph' : Phase} (move : Move strict l ph w w' ph')
    (permitted : Permitted strict l w w') : w.db.auditLog <+: w'.db.auditLog := by
  cases move with
  | neutral h => exact (h permitted).log
  | deed before only log => exact log
  | pay none log known tells => exact ⟨_, log.symm⟩

/-- A debt of the moving program is kept or paid. -/
theorem debt_move {l : Origin} {w w' since : World} {d : Deed} {ph' : Phase} {phs' : List Phase}
    (move : Move strict l (.owing d) w w' ph') (permitted : Permitted strict l w w') (here : ph' ∈ phs')
    (earlier : since.db.auditLog <+: w.db.auditLog) : Told strict w'.db.auditLog phs' since d := by
  cases move with
  | neutral h => exact .inr here
  | deed before only log =>
    rcases before with settled | same
    · cases settled
    · exact .inr (same ▸ here)
  | pay none log known tells =>
    rename_i row
    have added : row ∈ newRows w w' := by
      rw [newRows, log, List.drop_left]
      exact List.mem_singleton_self row
    have kept : row ∈ w'.db.auditLog.drop since.db.auditLog.length := by
      obtain ⟨rest, grown⟩ := earlier
      rw [log, ← grown, List.append_assoc, List.drop_left]
      exact List.mem_append_right _ (List.mem_singleton_self row)
    obtain ⟨stored_row, hstored, event, target⟩ := stored_of_fits (permitted.fits row added known)
      (fun insists => permitted.timely insists row added known)
    exact .inl ⟨stored_row, List.mem_filterMap.mpr ⟨row, kept, hstored⟩,
      event.trans tells.1, target.trans tells.2⟩

/-- The deeds of a move are owed by the program that has moved. -/
theorem deeds_move {l : Origin} {w w' : World} {d : Deed} {ph ph' : Phase}
    (move : Move strict l ph w w' ph') (permitted : Permitted strict l w w') (hd : d ∈ deeds w w') :
    ph' = .owing d := by
  cases move with
  | neutral h =>
    rw [(h permitted).none] at hd
    cases hd
  | deed before only log => rw [only d hd]
  | pay none log known tells =>
    rw [none] at hd
    cases hd

theorem accounted_move {s t : Recorded} {before after : List Phase} {ph ph' : Phase}
    (accounted : Accounted strict s (before ++ ph :: after)) (move : Recording (Move strict) ph s t ph')
    (each : Each (Permitted strict) s t) : Accounted strict t (before ++ ph' :: after) := by
  obtain ⟨l, record, move⟩ := move
  have permitted := each_recorded record each
  have grown := log_move move permitted
  have here : ph' ∈ before ++ ph' :: after := List.mem_append_right _ List.mem_cons_self
  constructor
  · intro e he
    rw [record] at he
    rcases List.mem_append.mp he with old | new
    · exact (accounted.grown e old).trans grown
    · rw [List.mem_singleton.mp new]
      exact grown
  · intro e he d hd
    rw [record] at he
    rcases List.mem_append.mp he with old | new
    · refine (accounted.told e old d hd).mono grown (fun owing => ?_)
      rcases List.mem_append.mp owing with first | rest
      · exact .inr (List.mem_append_left _ first)
      · rcases List.mem_cons.mp rest with mine | last
        · subst mine
          exact debt_move move permitted here (accounted.grown e old)
        · exact .inr (List.mem_append_right _ (List.mem_cons_of_mem _ last))
    · rw [List.mem_singleton.mp new] at hd
      rw [deeds_move move permitted hd]
      exact .inr (List.mem_append_right _ List.mem_cons_self)

end Accounting

/-- In every run whose steps are permitted, each deed has its row when all programs have ended. -/
theorem audit_trail_complete {cfg : Config} {start : World} {P : Pool Recorded Exn Unit}
    (strict : Bool) (reach : Reachable (Threads cfg) Beside (Each (Permitted strict)) (start, []) P)
    (finished : P.Finished) {l : Origin} {w w' : World} (step : (l, w, w') ∈ P.shared.2) {d : Deed}
    (deed : d ∈ deeds w w') :
    ∃ row ∈ table strict (P.shared.1.db.auditLog.drop w.db.auditLog.length), Tells row d := by
  have conforms : ∀ p, Threads cfg p → Conforms (Recording (Move strict)) settledEnd p .settled := by
    rintro _ ⟨h⟩
    exact conforms_recorded (conforms_spawned h)
  have init : Accounted strict (start, []) [] :=
    ⟨fun _ he => absurd he List.not_mem_nil, fun _ he => absurd he List.not_mem_nil⟩
  have arrive : ∀ s phs, Accounted strict s phs → Accounted strict s (phs ++ [.settled]) := by
    intro s phs accounted
    refine ⟨accounted.grown, fun e he d hd => ?_⟩
    exact (accounted.told e he d hd).mono List.prefix_rfl
      (fun owing => .inr (List.mem_append_left _ owing))
  have beside : ∀ s t phs, Accounted strict s phs → Beside s t → Each (Permitted strict) s t →
      Accounted strict t phs := by
    rintro s t phs accounted ⟨same, grown⟩ -
    refine ⟨?_, ?_⟩
    · rw [same]
      exact fun e he => (accounted.grown e he).trans grown
    · rw [same]
      exact fun e he d hd => (accounted.told e he d hd).mono grown .inr
  obtain ⟨phs, tracks, accounted⟩ := reachable_invariant (Accounted strict) conforms init
    (fun _ _ _ _ _ _ accounted move each => accounted_move accounted move each) arrive beside reach
  rcases accounted.told _ step d deed with ⟨row, hrow, tells⟩ | owing
  · exact ⟨row, hrow, tells⟩
  · obtain ⟨r, settled⟩ := tracks_finished tracks finished owing
    cases settled

/-! ## Runs on a small site -/

instance (strict : Bool) (l : Origin) (w w' : World) : Decidable (Permitted strict l w w') :=
  decidable_of_iff ((∀ d ∈ deeds w w', ∀ sam ∈ d.account, d ≠ .deleted sam) ∧
      (l = .checkOut → ∀ d ∈ deeds w w', ∀ sam ∈ d.account, d ≠ .created sam) ∧
      movedCheckouts w w' = [] ∧ (∀ row ∈ newRows w w', tracked row = true → fits row = true) ∧
      (strict = true → ∀ row ∈ newRows w w', tracked row = true → timely row = true)) (by
    constructor
    · rintro ⟨undeleted, uncreated, unmoved, fit, time⟩
      exact ⟨fun sam hd => undeleted _ hd sam rfl rfl,
        fun from_ sam hd => uncreated from_ _ hd sam rfl rfl, unmoved, fit, time⟩
    · rintro ⟨undeleted, uncreated, unmoved, fit, time⟩
      refine ⟨?_, ?_, unmoved, fit, time⟩
      · rintro _ hd sam - rfl
        exact undeleted sam hd
      · rintro from_ _ hd sam - rfl
        exact uncreated from_ sam hd)

def isDone {σ ε α : Type} : Prog σ ε α → Bool
  | .done _ => true
  | .step _ _ => false

instance (strict : Bool) : DecidableRel (Each (Permitted strict)) := fun s t =>
  inferInstanceAs (Decidable (∀ e ∈ t.2.drop s.2.length, Permitted strict e.1 e.2.1 e.2.2))

/-- The default group exists, and Pat asks for a session. -/
def patAsks : Pool Recorded Exn Unit :=
  ⟨({ sampleSite with ad := { sampleSite.ad with groups := [sampleConfig.defgroupdn] } }, []),
    [recorded .session (Lifecycle.patOpens "ab3de6fgh-eas")]⟩

theorem finished_of_all {P : Pool Recorded Exn Unit} (done : P.threads.all isDone = true) :
    P.Finished := by
  intro p hp
  have ended := List.all_eq_true.mp done p hp
  cases p with
  | done r => exact ⟨r, rfl⟩
  | step update next => cases ended

/-- The account and its group are told. -/
theorem pats_session_told :
    let P := (List.replicate 40 0).foldl Pool.turn patAsks
    ∀ d ∈ [Deed.created "ab3de6fgh-eas", .grouped "ab3de6fgh-eas"],
      ∃ row ∈ table true P.shared.1.db.auditLog, Tells row d := by
  intro P d hd
  have audits : UserAudits (.noOutage "ab3de6fgh-eas" "secret" "vncsecret") :=
    ⟨rfl, fun _ => rfl, fun _ => rfl, fun _ _ => rfl, fun _ => rfl⟩
  have asked : Reachable (Threads sampleConfig) Beside (Each (Permitted true)) patAsks.shared patAsks :=
    reachable_spawn .refl (.intro (.user audits sampleRequest sampleForm)) (by decide +kernel)
  have permitted : patAsks.Along (Each (Permitted true)) (List.replicate 40 0) := by decide +kernel
  have reach : Reachable (Threads sampleConfig) Beside (Each (Permitted true)) patAsks.shared P :=
    reachable_turns asked permitted
  have finished : P.Finished := finished_of_all (by decide +kernel)
  have made : ∃ e ∈ P.shared.2, d ∈ deeds e.2.1 e.2.2 := by
    rcases List.mem_cons.mp hd with rfl | hd
    · decide +kernel
    · rw [List.mem_singleton.mp hd]
      decide +kernel
  obtain ⟨⟨l, w, w'⟩, step, deed⟩ := made
  obtain ⟨row, hrow, tells⟩ := audit_trail_complete true reach finished step deed
  refine ⟨row, ?_, tells⟩
  obtain ⟨insert, mem, kept⟩ := List.mem_filterMap.mp hrow
  exact List.mem_filterMap.mpr ⟨insert, List.mem_of_mem_drop mem, kept⟩

def patChecksOut : Pool Recorded Exn Unit :=
  ⟨(checkoutSite, []), [recorded .checkOut (served (handleCheckOutPost sampleConfig
    (.noOutage "ab3de6fgh-eas" "secret" 0) sampleRequest (checkoutRequest (some "host1.dom.ain"))))]⟩

/-- The account of a checkout is in the place of its user, and no row has it as its target. -/
theorem checkout_untold :
    ∃ P, Reachable (Threads sampleConfig) Beside (fun _ _ => True) (checkoutSite, []) P ∧
      P.Finished ∧ ∃ e ∈ P.shared.2, ∃ d ∈ deeds e.2.1 e.2.2, ∀ strict,
        ∀ row ∈ table strict (P.shared.1.db.auditLog.drop e.2.1.db.auditLog.length), ¬ Tells row d := by
  let schedule := List.replicate 40 0
  have audits : CheckoutAudits (.noOutage "ab3de6fgh-eas" "secret" 0) :=
    ⟨rfl, fun _ => rfl, fun _ _ => rfl, fun _ => rfl⟩
  have asked : Reachable (Threads sampleConfig) Beside (fun _ _ => True) (checkoutSite, [])
      patChecksOut :=
    reachable_spawn .refl (.intro (.checkOut audits sampleRequest _)) trivial
  have reach := reachable_turns asked (patChecksOut.along_true schedule)
  refine ⟨_, reach, finished_of_all (by decide +kernel), ?_⟩
  decide +kernel

end AuditCompleteness
