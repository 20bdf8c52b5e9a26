import Proconsul.Lifecycle
import Proconsul.Checkout
import Proconsul.DelegatedHosts
import Proconsul.MainPage
import Proconsul.Rejection

/-!
# The whole application, step by step

Everything that runs beside each other on one site: the seven POST handlers, the
two GET handlers, the expiry sweep and the scripts of docker-gen. `Admits` lists,
statement by statement, what a single step of any of them can do, and
`steps_served` says that the list is complete. A statement about all runs of the
application is then a statement about this list.

The administration console is another application and is not among them.
-/

namespace Application

open Program Schema Text Surroundings Access Hosts Accounts Sessions Handlers Checkout Cleanup
  Lifecycle Interleaving MainPage DelegatedHosts

/-! ## Programs -/

/-- A program whose answer is of no further interest. -/
def answered {α : Type} (p : Run α) : Run Unit := do
  let _ ← p

/-- What can be running. The sweep reads the owner of a checkout from any column. -/
inductive Served (cfg : Config) (adbase : String) : Run Unit → Prop where
  | session {p : Run Unit} (h : Spawned cfg adbase p) : Served cfg adbase p
  | checkOut (c : CheckoutCalls) (req : Request) (form : CheckedOutCredRequest) :
      Served cfg adbase (answered (handleCheckOutPost cfg c req form))
  | update (c : UpdateCheckoutCalls) (req : Request) (form : UpdateCheckoutRequest) :
      Served cfg adbase (answered (handleUpdateCheckout c req form))
  | page (c : RootCalls) (req : Request) : Served cfg adbase (answered (handleRootRequest cfg c req))
  | hosts (fails : Bool) (ou : String) : Served cfg adbase (answered (handleFQDNOU fails ou))
  | sweep (column : String) (c : SweepCalls) (active : Bool) (t : Int) :
      Served cfg adbase (runReading column cfg c active t)

/-! ## Statements -/

/-- Everything but the expiration and the status of a checkout. -/
def fixedPart (r : CheckoutRow) : CheckoutRow := { r with expiretime := none, status := none }

def lent (row : CheckoutRow) (w : World) : World :=
  { w with db := { w.db with checkout := w.db.checkout ++ [row] } }

def rescheduled (sel : CheckoutRow → Bool) (f : CheckoutRow → CheckoutRow) (w : World) : World :=
  { w with db := { w.db with checkout := updateWhere sel f w.db.checkout } }

def registered (row : ActiveDomainAdminRow) (w : World) : World :=
  { w with
    db := { w.db with activeDomainAdmins := w.db.activeDomainAdmins ++ [row] }
    trace := w.trace ++ [.daStored row.samaccountname] }

def disabled (sel : ActiveDomainAdminRow → Bool) (now : Int) (w : World) : World :=
  { w with db := { w.db with
    activeDomainAdmins := updateWhere sel (fun r => { r with disabletime := some now })
      w.db.activeDomainAdmins } }

def issued (row : CsrfRow) (w : World) : World :=
  { w with db := { w.db with csrfTokens := w.db.csrfTokens ++ [row] } }

def touched (sel : CsrfRow → Bool) (now : Int) (w : World) : World :=
  { w with db := { w.db with
    csrfTokens := updateWhere sel (fun r => { r with lastused := now }) w.db.csrfTokens } }

/-- `R` permits what any request may lead to besides a session. -/
structure Routine (R : World → World → Prop) : Prop where
  logs : Logs R
  accounts : ∀ (w : World) accounts effects, (∀ e ∈ effects, Effect.quiet e = true) →
    R w { w with ad := { w.ad with accounts := accounts }, trace := w.trace ++ effects }
  register : ∀ w row, R w (registered row w)
  disable : ∀ w sel now, R w (disabled sel now w)
  issue : ∀ w row, R w (issued row w)
  touch : ∀ w sel now, R w (touched sel now w)
  lend : ∀ w row, R w (lent row w)
  reschedule : ∀ w sel f, (∀ r, fixedPart (f r) = fixedPart r) → R w (rescheduled sel f w)

/-- `R` permits each statement and each external call of the application. -/
structure Admits (R : World → World → Prop) : Prop extends Routine R where
  serves : Serves R
  script : ∀ adbase now c, PermitsScript R adbase now c
  snapshot : ∀ (w : World) scripts, R w { w with scripts := scripts }

theorem steps_gated {R : World → World → Prop} {gs : List Gate} (tokens : ∀ g ∈ gs, g.Steps R)
    {f : Option Page → Run Page}
    (stopped : ∀ page, f (some page) = pure page) (passed : (f none).Steps R) :
    (inOrder gs >>= f).Steps R := by
  refine Prog.steps_bind (steps_inOrder tokens) (fun page => ?_)
  cases page with
  | none => exact passed
  | some page =>
    rw [stopped]
    exact Prog.steps_pure _

theorem steps_answered {R : World → World → Prop} {α : Type} {p : Run α} (h : p.Steps R) :
    (answered p).Steps R :=
  Prog.steps_bind h (fun _ => Prog.steps_pure _)

theorem reads_mainView (cfg : Config) (c : RootCalls) (au : AuthUser) (token : String) :
    (mainView cfg c au token).Reads := by
  have sessions := fun stype => reads_getAvailableSessionDisplayFQDNs (c.sessions stype) au stype
  refine Prog.steps_bind (reads_canUseCO _ _) (fun _ => ?_)
  refine Prog.steps_bind (reads_getAvailableCheckedOutUsers _ _ _ _) (fun _ => ?_)
  refine Prog.steps_bind (reads_canUseDA _ _) (fun _ => ?_)
  refine Prog.steps_bind (reads_groupDnsForEppn _ _) (fun _ => ?_)
  refine Prog.steps_bind (sessions "") (fun _ => ?_)
  refine Prog.steps_bind (sessions "user") (fun _ => ?_)
  refine Prog.steps_bind (sessions "delegated") (fun _ => ?_)
  refine Prog.steps_bind (sessions "domain") (fun _ => ?_)
  refine Prog.steps_bind (sessions "static") (fun _ => ?_)
  refine Prog.steps_bind (reads_getDomainAdminFQDNs _) (fun _ => ?_)
  refine Prog.steps_bind (reads_canUseDA _ _) (fun _ => ?_)
  refine Prog.steps_bind (reads_groupDNsForDelegate _ _ _) (fun _ => ?_)
  refine Prog.steps_bind (reads_displayGroups _) (fun _ => ?_)
  refine Prog.steps_bind (reads_delegatedOusForUser _ _) (fun _ => ?_)
  refine Prog.steps_bind (reads_fqdnsForStatic _ _) (fun _ => ?_)
  refine Prog.steps_bind (reads_offeredHosts _ _) (fun _ => ?_)
  exact Prog.steps_bind (reads_canUseDA _ _) (fun _ => Prog.steps_pure _)

section Footprint

variable {R : World → World → Prop} (routine : Routine R)

include routine

theorem Routine.refl (w : World) : R w w := routine.logs.refl w

/-! ## Directory calls -/

theorem steps_directory (fails : Bool) {change : Directory → Option (Directory × List Effect)}
    (accounts : ∀ ad ad' effects, change ad = some (ad', effects) →
      ad' = { ad with accounts := ad'.accounts } ∧ ∀ e ∈ effects, Effect.quiet e = true) :
    (modify fails change).Steps R := by
  refine steps_modify routine.refl fails ?_
  intro w ad effects hc
  obtain ⟨had, heff⟩ := accounts w.ad ad effects hc
  rw [had]
  exact routine.accounts w ad.accounts effects heff

theorem steps_addAccount (fails : Bool) (a : Account) : (modify fails (addAccount a)).Steps R := by
  refine steps_directory routine fails (fun ad ad' effects h => ?_)
  cases h
  exact ⟨rfl, by simp [Effect.quiet]⟩

theorem steps_changeAccount (fails : Bool) (dn : String) (f : Account → Account) :
    (modify fails (changeAccount dn f)).Steps R := by
  refine steps_directory routine fails (fun ad ad' effects h => ?_)
  obtain ⟨had, rfl⟩ := changeAccount_accounts h
  exact ⟨had, by simp⟩

theorem steps_destroy (fails : Bool) (dn : String) :
    (modify fails (destroySubcontext dn)).Steps R := by
  refine steps_directory routine fails (fun ad ad' effects h => ?_)
  cases h
  refine ⟨rfl, fun e he => ?_⟩
  obtain ⟨a, -, rfl⟩ := List.mem_map.mp he
  rfl

theorem steps_addMember (fails : Bool) (sam userDn groupDN : String) :
    (modify fails (addMember sam userDn groupDN)).Steps R := by
  refine steps_directory routine fails (fun ad ad' effects h => ?_)
  rw [addMember] at h
  split at h
  · cases h
    exact ⟨rfl, by simp [Effect.quiet]⟩
  · cases h

theorem steps_setWorkstations (fails : Bool) (userDn pre : String) :
    (modify fails (setWorkstations userDn pre)).Steps R := by
  refine steps_directory routine fails (fun ad ad' effects h => ?_)
  rw [setWorkstations] at h
  split at h
  · obtain ⟨had, rfl⟩ := changeAccount_accounts h
    exact ⟨had, by simp⟩
  · cases h

theorem steps_log (fails : Bool) (event : String)
    (authUser targetHost targetUser targetGroup clientIp : Option String) :
    (audit fails event authUser targetHost targetUser targetGroup clientIp).Steps R :=
  steps_audit routine.logs _ _ _ _ _ _ _

theorem steps_create (cfg : Config) (c : CreateCalls) (au : Option AuthUser) :
    (createRandomizedADUser cfg c au).Steps R :=
  steps_createRandomizedADUser routine.logs (fun _ _ _ => steps_addAccount routine _ _)
    (fun _ _ _ _ => steps_changeAccount routine _ _ _) _ _ _

theorem steps_delete (cfg : Config) (c : DeleteCalls) (u : ADUser) (au : Option AuthUser)
    (clientip : Option String) : (deleteAdUser cfg c u au clientip).Steps R :=
  steps_deleteAdUser routine.logs (steps_destroy routine) _ _ _ _ _

theorem steps_password (cfg : Config) (c : PasswordCalls) (adu : ADUser) :
    (setRandomADPassword cfg c adu).Steps R :=
  steps_setRandomADPassword routine.refl (fun _ _ _ _ => steps_changeAccount routine _ _ _) _ _ _

theorem steps_group (cfg : Config) (c : GroupCalls) (urn : Option String) (u : Option ADUser)
    (au : Option AuthUser) (clientip : Option String) :
    (addGroupToADUser cfg c urn u au clientip).Steps R :=
  steps_addGroupToADUser routine.refl (steps_addMember routine) (steps_log routine) _ _ _ _ _ _

theorem steps_hostGroup (cfg : Config) (c : HostGroupCalls) (u : Option ADUser)
    (fqdn : Option String) : (addHostAccessGroup cfg c u fqdn).Steps R :=
  steps_addHostAccessGroup routine.refl (steps_addMember routine) (steps_log routine) _ _ _ _

theorem steps_gatewayGroup (cfg : Config) (c : GatewayGroupCalls) (u : Option ADUser)
    (fqdn : Option String) : (addGatewayAccessGroup cfg c u fqdn).Steps R :=
  steps_addGatewayAccessGroup routine.refl (steps_addMember routine) (steps_log routine) _ _ _ _

theorem steps_makeUserAuthorizedDA (c : AdminCalls) (u : ADUser) (authu : Option AuthUser)
    (clientip : Option String) : (makeUserAuthorizedDA c u authu clientip).Steps R := by
  refine Prog.steps_orElse (Prog.steps_bind (steps_execute routine.refl _ _ _ (fun w => ?_))
    (fun _ => Prog.steps_bind (steps_log routine _ _ _ _ _ _ _) (fun _ => Prog.steps_pure _))) _
  exact routine.register w ⟨u.sAMAccountName, some c.now, some 0⟩

theorem steps_removeAuthorizedDA (c : AdminCalls) (u : ADUser) (authu : Option AuthUser)
    (clientip : Option String) : (removeAuthorizedDA c u authu clientip).Steps R := by
  refine Prog.steps_orElse (Prog.steps_bind (steps_execute routine.refl _ _ _ (fun w => ?_))
    (fun _ => Prog.steps_bind (steps_log routine _ _ _ _ _ _ _) (fun _ => Prog.steps_pure _))) _
  simp only [List.append_nil]
  exact routine.disable w (fun r => sqlEq r.samaccountname u.sAMAccountName) c.now

/-! ## Gates -/

theorem steps_getSessionCSRFToken (c : TokenCalls) (req : Request) :
    (getSessionCSRFToken c req).Steps R := by
  refine Prog.steps_bind (Prog.steps_attempt ((reads_query _ _ _ _).steps routine.refl)) ?_
  rintro (_ | _ | row)
  · exact Prog.steps_pure _
  · refine Prog.steps_bind (Prog.steps_attempt (steps_execute routine.refl _ _ _ (fun w => ?_)))
      (fun _ => Prog.steps_pure _)
    simp only [List.append_nil]
    exact routine.issue w ⟨some req.sessionId, some c.uuid, c.now⟩
  · refine Prog.steps_bind (Prog.steps_attempt (steps_execute routine.refl _ _ _ (fun w => ?_)))
      (fun _ => Prog.steps_pure _)
    simp only [List.append_nil]
    exact routine.touch w (fun r => sqlEq r.sessionId (some req.sessionId)) c.now

theorem steps_csrfGate (c : TokenCalls) (req : Request) (token : Option String)
    (m : CsrfMessages) : (csrfGate c req token m).Steps R := by
  unfold csrfGate
  split
  · cases token with
    | none => exact Prog.steps_pure _
    | some token =>
      refine Prog.steps_bind (steps_getSessionCSRFToken routine c req) (fun t => ?_)
      split <;> exact Prog.steps_pure _
  · exact Prog.steps_pure _

theorem steps_refuseUnless {check : Run Bool} (h : check.Reads) (message : String) :
    (refuseUnless check message).Steps R := by
  refine Prog.steps_bind (h.steps routine.refl) (fun b => ?_)
  cases b <;> exact Prog.steps_pure _

theorem steps_userGates (c : UserCalls) (req : Request) (form : UserSessionRequest) :
    ∀ g ∈ userGates c req form, g.Steps R :=
  List.forall_mem_cons.mpr ⟨steps_refuseUnless routine (reads_canUseApp _ _) _,
    List.forall_mem_cons.mpr ⟨(reads_userHostGate _ _ _).steps routine.refl,
      List.forall_mem_singleton.mpr (steps_csrfGate routine _ _ _ _)⟩⟩

theorem steps_staticGates (c : StaticCalls) (req : Request) (form : StaticUserSessionRequest) :
    ∀ g ∈ staticGates c req form, g.Steps R :=
  List.forall_mem_cons.mpr ⟨steps_refuseUnless routine (reads_canUseApp _ _) _,
    List.forall_mem_cons.mpr ⟨steps_refuseUnless routine (reads_staticHostAllowed _ _ _) _,
      List.forall_mem_singleton.mpr (steps_csrfGate routine _ _ _ _)⟩⟩

theorem steps_domainGates (c : DomainCalls) (req : Request) (form : DomainAdminRequest)
    (host : String) : ∀ g ∈ domainGates c req form host, g.Steps R :=
  List.forall_mem_cons.mpr ⟨steps_refuseUnless routine (reads_canUseApp _ _) _,
    List.forall_mem_cons.mpr ⟨steps_refuseUnless routine (reads_canUseDA _ _) _,
      List.forall_mem_cons.mpr ⟨steps_csrfGate routine _ _ _ _,
        List.forall_mem_singleton.mpr (steps_refuseUnless routine
          (Prog.steps_bind (reads_getDomainAdminFQDNs _) (fun _ => Prog.steps_pure _)) _)⟩⟩⟩

theorem steps_delegatedGates (c : DelegatedCalls) (req : Request) (form : DelegatedAdminRequest)
    (host : String) : ∀ g ∈ delegatedGates c req form host, g.Steps R :=
  List.forall_mem_cons.mpr ⟨steps_refuseUnless routine (reads_canUseApp _ _) _,
    List.forall_mem_cons.mpr ⟨steps_refuseUnless routine (reads_canAdminFQDN _ _ _) _,
      List.forall_mem_cons.mpr ⟨steps_refuseUnless routine (Prog.steps_bind
          (reads_groupDNsForDelegate _ _ _) (fun _ => Prog.steps_bind (steps_deref _)
            (fun _ => Prog.steps_pure _))) _,
        List.forall_mem_singleton.mpr (steps_csrfGate routine _ _ _ _)⟩⟩⟩

theorem steps_reconnectGates (c : ReconnectCalls) (req : Request) (form : ReconnectRequest) :
    ∀ g ∈ reconnectGates c req form, g.Steps R :=
  List.forall_mem_cons.mpr ⟨(reads_targetGate form).steps routine.refl,
    List.forall_mem_cons.mpr ⟨steps_refuseUnless routine (reads_canUseApp _ _) _,
      List.forall_mem_singleton.mpr (steps_csrfGate routine _ _ _ _)⟩⟩

theorem steps_checkoutGates (cfg : Config) (c : CheckoutCalls) (req : Request)
    (form : CheckedOutCredRequest) : ∀ g ∈ checkoutGates cfg c req form, g.Steps R := by
  refine List.forall_mem_cons.mpr ⟨steps_refuseUnless routine (Rejection.reads_checkoutAllowed _ _) _,
    List.forall_mem_cons.mpr ⟨steps_csrfGate routine _ _ _ _, fun g hg => ?_⟩⟩
  obtain ⟨group, -, rfl⟩ := List.mem_map.mp hg
  rw [groupGate]
  split
  · exact steps_refuseUnless routine (reads_canUseDA _ _) _
  · exact steps_refuseUnless routine
      (Prog.steps_bind (reads_groupDnsForEppn _ _) (fun _ => Prog.steps_pure _)) _

theorem steps_updateGates (c : UpdateCheckoutCalls) (req : Request)
    (form : UpdateCheckoutRequest) : ∀ g ∈ updateGates c req form, g.Steps R :=
  List.forall_mem_cons.mpr ⟨steps_refuseUnless routine (reads_canUseApp _ _) _,
    List.forall_mem_cons.mpr ⟨steps_refuseUnless routine (Rejection.reads_mayUpdate _ _ _) _,
      List.forall_mem_singleton.mpr (steps_csrfGate routine _ _ _ _)⟩⟩

/-! ## Accounts and groups of a session -/

theorem steps_withAccount {cfg : Config} {c : CreateCalls} {au : Option AuthUser} {gs : List Gate}
    (tokens : ∀ g ∈ gs, g.Steps R) {body : ADUser → Run Page} (hbody : ∀ u, (body u).Steps R) :
    (withAccount cfg c au (inOrder gs) body).Steps R := by
  refine steps_gated tokens (fun _ => rfl) ?_
  refine Prog.steps_bind (steps_create routine cfg c au) (fun o => ?_)
  exact Prog.steps_bind (steps_deref o) hbody

theorem steps_groups (cfg : Config) (c : UserGroupCalls) (au : AuthUser) (target : Option String)
    (u : ADUser) (addr : Option String) : (userGroups cfg c au target u addr).Steps R :=
  steps_userGroups routine.refl (steps_addMember routine) (steps_log routine) _ _ _ _ _ _

theorem steps_undone (cfg : Config) (c : DeleteCalls) (u : ADUser) (au : AuthUser)
    (addr : Option String) (page : Page) : (do
      let _ ← deleteAdUser cfg c u (some au) addr
      return .inl page : Run (Page ⊕ Option ADUser)).Steps R :=
  Prog.steps_bind (steps_delete routine _ _ _ _ _) (fun _ => Prog.steps_pure _)

theorem steps_domainGroups (cfg : Config) (c : DomainCalls) (au : AuthUser) (host : String)
    (u : ADUser) (addr : Option String) : (domainGroups cfg c au host u addr).Steps R := by
  refine Prog.steps_bind (steps_makeUserAuthorizedDA routine _ _ _ _) (fun granted => ?_)
  cases granted with
  | false => exact steps_undone routine _ _ _ _ _ _
  | true =>
    refine Prog.steps_bind (steps_group routine _ _ _ _ _ _) (fun added => ?_)
    cases added with
    | none => exact steps_undone routine _ _ _ _ _ _
    | some u₁ =>
      exact Prog.steps_bind (steps_gatewayGroup routine _ _ _ _) (fun _ => Prog.steps_pure _)

theorem steps_orUndo (cfg : Config) (c : DeleteCalls) (au : AuthUser) (addr : Option String)
    (before : ADUser) (message : String) {add : Run (Option ADUser)}
    {next : ADUser → Run (Page ⊕ Option ADUser)} (hadd : add.Steps R)
    (hnext : ∀ u, (next u).Steps R) :
    (orUndo cfg c au addr before message add next).Steps R := by
  refine Prog.steps_bind hadd (fun added => ?_)
  cases added with
  | none => exact steps_undone routine _ _ _ _ _ _
  | some u => exact hnext u

theorem steps_delegatedGroups (cfg : Config) (c : DelegatedCalls) (au : AuthUser) (host : String)
    (roleGroup : Option String) (u : ADUser) (addr : Option String) :
    (delegatedGroups cfg c au host roleGroup u addr).Steps R := by
  refine Prog.steps_bind (steps_group routine _ _ _ _ _ _) (fun _ => ?_)
  refine steps_orUndo routine _ _ _ _ _ _ (steps_hostGroup routine _ _ _ _) (fun _ => ?_)
  refine steps_orUndo routine _ _ _ _ _ _ ?_ (fun _ => ?_)
  · exact Prog.steps_bind ((reads_groupDnForFQDN _ _ _).steps routine.refl)
      (fun _ => steps_group routine _ _ _ _ _ _)
  refine steps_orUndo routine _ _ _ _ _ _ (steps_group routine _ _ _ _ _ _) (fun _ => ?_)
  exact Prog.steps_bind (steps_gatewayGroup routine _ _ _ _) (fun _ => Prog.steps_pure _)

/-! ## Checkouts and pages -/

theorem steps_handleCheckOutPost (cfg : Config) (c : CheckoutCalls) (req : Request)
    (form : CheckedOutCredRequest) : (handleCheckOutPost cfg c req form).Steps R := by
  refine steps_withAccount routine (steps_checkoutGates routine cfg c req form) (fun u => ?_)
  refine Prog.steps_bind (Prog.steps_foldlM (fun u g => ?_) _ _) (fun u₁ => ?_)
  · rw [assignGroup]
    split
    · exact Prog.steps_bind (steps_makeUserAuthorizedDA routine _ _ _ _)
        (fun _ => Prog.steps_bind (steps_group routine _ _ _ _ _ _) (fun _ => Prog.steps_pure _))
    · exact Prog.steps_bind (steps_group routine _ _ _ _ _ _) (fun _ => Prog.steps_pure _)
  refine Prog.steps_bind (steps_group routine _ _ _ _ _ _) (fun u₂ => ?_)
  refine Prog.steps_bind (steps_deref _) (fun limithost => ?_)
  have limited : ∀ calls fqdn u,
      (addWorkstationToADUser cfg calls fqdn u (some req.authUser) req.remoteAddr).Steps R :=
    fun calls fqdn u => steps_addWorkstationToADUser routine.refl (steps_setWorkstations routine)
      (steps_log routine) _ _ _ _ _ _
  refine Prog.steps_bind (Prog.steps_foldlM (fun u h => limited _ _ _) _ _) (fun u₃ => ?_)
  refine Prog.steps_bind ?_ (fun _ => Prog.steps_pure _)
  refine Prog.steps_orElse (Prog.steps_bind (steps_execute routine.refl _ _ _ (fun w => ?_))
    (fun _ => Prog.steps_pure _)) _
  simp only [List.append_nil]
  exact routine.lend w _

theorem steps_extendCheckedOutUser (c : ButtonCalls) (co : CheckedOutCred)
    (clientip : Option String) : (extendCheckedOutUser c co clientip).Steps R := by
  refine Prog.steps_orElse (Prog.steps_bind (steps_execute routine.refl _ _ _ (fun w => ?_))
    (fun _ => Prog.steps_bind (steps_log routine _ _ _ _ _ _ _) (fun _ => Prog.steps_pure _))) _
  simp only [List.append_nil]
  exact routine.reschedule w _ _ (fun _ => rfl)

theorem steps_expireCheckedOutUser (c : ButtonCalls) (co : CheckedOutCred)
    (clientip : Option String) : (expireCheckedOutUser c co clientip).Steps R := by
  refine Prog.steps_orElse (Prog.steps_bind (steps_execute routine.refl _ _ _ (fun w => ?_))
    (fun _ => Prog.steps_bind (steps_log routine _ _ _ _ _ _ _) (fun _ => Prog.steps_pure _))) _
  simp only [List.append_nil]
  exact routine.reschedule w _ (fun r => { r with expiretime := some c.set }) (fun _ => rfl)

theorem steps_handleUpdateCheckout (c : UpdateCheckoutCalls) (req : Request)
    (form : UpdateCheckoutRequest) : (handleUpdateCheckout c req form).Steps R := by
  refine steps_gated (steps_updateGates routine c req form) (fun _ => rfl) ?_
  refine Prog.steps_bind (steps_deref _) (fun expireNow => ?_)
  refine Prog.steps_bind (steps_deref _) (fun extendNow => ?_)
  dsimp only
  split
  · exact Prog.steps_bind (steps_expireCheckedOutUser routine _ _ _) (fun _ => Prog.steps_pure _)
  · split
    · exact Prog.steps_bind (steps_extendCheckedOutUser routine _ _ _) (fun _ => Prog.steps_pure _)
    · exact Prog.steps_pure _

theorem steps_runReading (column : String) (cfg : Config) (c : SweepCalls) (active : Bool)
    (t : Int) : (runReading column cfg c active t).Steps R := by
  rw [runReading]
  split
  · exact Prog.steps_pure _
  · refine Prog.steps_orElse (Prog.steps_bind ((reads_query _ _ _ _).steps routine.refl)
      (fun rows => Prog.steps_forM (fun r => ?_) _)) _
    have owner : (getString .checkout column r.1.owner).Steps R := by
      rw [getString]
      split
      · exact Prog.steps_pure _
      · exact Prog.steps_throwing _
    refine Prog.steps_bind owner (fun owner => ?_)
    refine Prog.steps_bind (steps_delete routine _ _ _ _ _) (fun _ => ?_)
    refine Prog.steps_bind (steps_execute routine.refl _ _ _ (fun w => ?_)) (fun _ => ?_)
    · simp only [List.append_nil]
      exact routine.reschedule w _ (fun x => { x with status := some "inactive" }) (fun _ => rfl)
    · exact Prog.steps_bind (steps_removeAuthorizedDA routine _ _ _ _) (fun _ => Prog.steps_pure _)

theorem steps_handleRootRequest (cfg : Config) (c : RootCalls) (req : Request) :
    (handleRootRequest cfg c req).Steps R := by
  refine Prog.steps_bind (steps_getSessionCSRFToken routine _ _) (fun token => ?_)
  cases token with
  | none => exact Prog.steps_pure _
  | some token =>
    refine Prog.steps_bind ((reads_canUseApp _ _).steps routine.refl) (fun allowed => ?_)
    split
    · exact Prog.steps_bind ((reads_mainView _ _ _ _).steps routine.refl) (fun _ => Prog.steps_pure _)
    · exact Prog.steps_pure _

end Footprint

section Sessions

variable {R : World → World → Prop} (admits : Admits R)

include admits

/-! ## Session handlers -/

theorem steps_handleUserSessionPost (cfg : Config) (c : UserCalls) (req : Request)
    (form : UserSessionRequest) : (handleUserSessionPost cfg c req form).Steps R := by
  refine steps_withAccount admits.toRoutine (steps_userGates admits.toRoutine c req form) (fun u => ?_)
  refine Prog.steps_bind (steps_deref _) (fun displayName => ?_)
  refine Prog.steps_bind (steps_deref _) (fun target => ?_)
  refine Prog.steps_bind (steps_openSession admits.serves _ _ _) (fun s => ?_)
  exact Prog.steps_bind (steps_groups admits.toRoutine _ _ _ _ _ _)
    (fun o => steps_finishSession admits.serves _ _ _ _ _ _)

theorem steps_handleStaticSessionPost (cfg : Config) (c : StaticCalls) (req : Request)
    (form : StaticUserSessionRequest) : (handleStaticSessionPost cfg c req form).Steps R := by
  refine steps_gated (steps_staticGates admits.toRoutine c req form) (fun _ => rfl) ?_
  have mapped : (getStaticADUser cfg c.mapping c.password req.authUser form.targetFQDN).Steps R :=
    steps_getStaticADUser admits.refl
      (fun _ _ _ _ => steps_changeAccount admits.toRoutine _ _ _) _ _ _ _ _
  refine Prog.steps_bind mapped (fun u => ?_)
  refine Prog.steps_bind (steps_deref _) (fun displayName => ?_)
  refine Prog.steps_bind (steps_deref _) (fun target => ?_)
  exact Prog.steps_bind (steps_openSession admits.serves _ _ _)
    (fun s => steps_launch admits.serves _ _ _ _ _)

theorem steps_handleDomainAdminPost (cfg : Config) (c : DomainCalls) (req : Request)
    (form : DomainAdminRequest) : (handleDomainAdminPost cfg c req form).Steps R := by
  refine Prog.steps_bind (steps_deref _) (fun target => ?_)
  refine Prog.steps_bind (steps_deref _) (fun displayName => ?_)
  refine steps_withAccount admits.toRoutine
    (steps_domainGates admits.toRoutine c req form _) (fun u => ?_)
  refine Prog.steps_bind (steps_openSession admits.serves _ _ _) (fun s => ?_)
  refine Prog.steps_bind (steps_domainGroups admits.toRoutine _ _ _ _ _ _) (fun r => ?_)
  cases r with
  | inl page => exact Prog.steps_pure _
  | inr o => exact steps_finishSession admits.serves _ _ _ _ _ _

theorem steps_handleDelegatedAdminPost (cfg : Config) (c : DelegatedCalls) (req : Request)
    (form : DelegatedAdminRequest) : (handleDelegatedAdminPost cfg c req form).Steps R := by
  refine Prog.steps_bind (steps_deref _) (fun host => ?_)
  refine Prog.steps_bind (steps_deref _) (fun displayName => ?_)
  refine steps_withAccount admits.toRoutine
    (steps_delegatedGates admits.toRoutine c req form _) (fun u => ?_)
  refine Prog.steps_bind (steps_openSession admits.serves _ _ _) (fun s => ?_)
  refine Prog.steps_bind (steps_delegatedGroups admits.toRoutine _ _ _ _ _ _ _) (fun r => ?_)
  cases r with
  | inl page => exact Prog.steps_pure _
  | inr o => exact steps_finishSession admits.serves _ _ _ _ _ _

theorem steps_handleReconnectPost (cfg : Config) (c : ReconnectCalls) (req : Request)
    (form : ReconnectRequest) : (handleReconnectPost cfg c req form).Steps R := by
  refine steps_gated (steps_reconnectGates admits.toRoutine c req form) (fun _ => rfl) ?_
  refine Prog.steps_bind ((reads_getAvailableSessions _ _ _).steps admits.refl) (fun psa => ?_)
  cases chooseSession req.authUser form.targetFQDN psa with
  | none => exact Prog.steps_pure _
  | some s =>
    refine Prog.steps_bind (steps_getVncPortNumber admits.refl admits.serves.port _ _)
      (fun port => ?_)
    refine Prog.steps_bind (steps_password admits.toRoutine _ _ _) (fun u => ?_)
    exact Prog.steps_bind (steps_writeSessionToDB admits.serves.logs (admits.serves.session _) _ _)
      (fun _ => steps_launch admits.serves _ _ _ _ _)

/-! ## Everything together -/

theorem steps_cleanup (adbase : String) (calls : ScriptCalls) : (cleanup adbase calls).Steps R :=
  Prog.steps_bind (Prog.steps_atom (fun w => admits.snapshot w _)) (fun _ =>
    Prog.steps_forM (fun c => steps_script admits.refl (admits.script adbase calls.now c)) _)

/-- The list is complete. -/
theorem steps_served {cfg : Config} {adbase : String} {p : Run Unit} (h : Served cfg adbase p) :
    p.Steps R := by
  cases h with
  | session spawned =>
    cases spawned with
    | user c req form => exact steps_answered (steps_handleUserSessionPost admits _ _ _ _)
    | static c req form => exact steps_answered (steps_handleStaticSessionPost admits _ _ _ _)
    | domain c req form => exact steps_answered (steps_handleDomainAdminPost admits _ _ _ _)
    | delegated c req form =>
      exact steps_answered (steps_handleDelegatedAdminPost admits _ _ _ _)
    | reconnect c req form => exact steps_answered (steps_handleReconnectPost admits _ _ _ _)
    | cleanup calls => exact steps_cleanup admits adbase calls
  | checkOut c req form => exact steps_answered (steps_handleCheckOutPost admits.toRoutine _ _ _ _)
  | update c req form => exact steps_answered (steps_handleUpdateCheckout admits.toRoutine _ _ _)
  | page c req => exact steps_answered (steps_handleRootRequest admits.toRoutine _ _ _)
  | hosts fails ou =>
    refine steps_answered (Prog.steps_bind ?_ (fun _ => Prog.steps_pure _))
    exact (reads_fqdnsForOu _ _).steps admits.refl
  | sweep column c active t => exact steps_runReading admits.toRoutine _ _ _ _ _

end Sessions

end Application
