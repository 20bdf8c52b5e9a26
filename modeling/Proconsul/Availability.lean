import Proconsul.ReconnectForms
import Proconsul.Delegation

/-!
# Who can load the main page

`handleRootRequest` asks a dozen questions before it has its page. Each lookup
turns its own failure into an empty answer, and strings are cut where nothing
can go wrong, with one exception: the name of a role group is the first 25
characters of what is left of its DN, and `substring` raises if fewer are left.
The list of role groups comes from the tables, so what decides about the page
of a user is the length of the group DNs of the OUs delegated to the user.

Only the handler is looked at; rendering the page is not modelled.
-/

namespace Availability

open Program Schema Text Surroundings Access Hosts Accounts Sessions Handlers Checkout MainPage
open Delegation (delegatedOus mappedGroup run_groupDNsForDelegate run_delegatedOusForUser)
open ReconnectForms (tokenRow run_getSessionCSRFToken)

/-! ## Names of role groups -/

/-- `substring(0, 25)` has its 25 characters. -/
def Nameable (dn : String) : Prop := 25 ≤ (utf16 (shownName dn)).length

instance (dn : String) : Decidable (Nameable dn) := inferInstanceAs (Decidable (_ ≤ _))

theorem run_displayGroup (rg : Option String) (w : World) :
    (∃ shown, (displayGroup rg).run w = (.ok shown, w)) ∧ (∀ dn, rg = some dn → Nameable dn) ∨
    (∃ e, (displayGroup rg).run w = (.error e, w)) ∧ ∃ dn, rg = some dn ∧ ¬ Nameable dn := by
  cases rg with
  | none => exact .inl ⟨⟨_, rfl⟩, by simp⟩
  | some dn =>
    simp only [displayGroup, substringFromStart, Nameable]
    split
    · rename_i short
      exact .inr ⟨⟨_, rfl⟩, dn, rfl, by omega⟩
    · rename_i long
      refine .inl ⟨⟨_, rfl⟩, ?_⟩
      rintro _ ⟨rfl⟩
      omega

/-- One name that cannot be cut is enough to raise. -/
theorem run_displayGroups (groups : List (Option String)) (w : World) :
    (∃ shown, (displayGroups groups).run w = (.ok shown, w)) ∧
      (∀ dn, some dn ∈ groups → Nameable dn) ∨
    (∃ e, (displayGroups groups).run w = (.error e, w)) ∧
      ∃ dn, some dn ∈ groups ∧ ¬ Nameable dn := by
  induction groups with
  | nil => exact .inl ⟨⟨[], rfl⟩, by simp⟩
  | cons rg groups ih =>
    rw [displayGroups]
    rcases run_displayGroup rg w with ⟨⟨shown, hshown⟩, named⟩ | ⟨⟨e, hraised⟩, dn, rfl, unnamed⟩
    · rw [Prog.run_bind_ok hshown]
      rcases ih with ⟨⟨rest, hrest⟩, all⟩ | ⟨⟨e, hraised⟩, dn, mem, unnamed⟩
      · refine .inl ⟨⟨shown :: rest, by rw [Prog.run_bind_ok hrest]; rfl⟩, fun dn mem => ?_⟩
        rcases List.mem_cons.mp mem with here | later
        · exact named dn here.symm
        · exact all dn later
      · exact .inr ⟨⟨e, by rw [Prog.run_bind_error hraised]⟩, dn, List.mem_cons_of_mem _ mem, unnamed⟩
    · exact .inr ⟨⟨e, by rw [Prog.run_bind_error hraised]⟩, dn, List.mem_cons_self, unnamed⟩

/-! ## Everything else answers -/

theorem answers_canUseCO (fails : Bool) (au : AuthUser) : (canUseCO fails au).Answers := by
  rw [canUseCO]
  split
  · exact Prog.answers_pure _
  · refine Prog.answers_bind (Prog.answers_orElse (reads_userBlock _ _ _)) (fun b => ?_)
    cases b <;> exact Prog.answers_pure _

theorem answers_canUseDA (c : AccessCalls) (au : AuthUser) : (canUseDA c au).Answers := by
  intro w
  obtain ⟨b, hrun, -⟩ := run_canUseDA c au w
  exact ⟨b, hrun⟩

theorem answers_fqdnsFor (c : HostCalls) (t : Table) (subject : String)
    (select : Database → List HostMapRow) : (fqdnsFor c t subject select).Answers :=
  Prog.answers_orElse (reads_fqdnsFor _ _ _ _)

theorem answers_offeredHosts (c : OfferCalls) (au : AuthUser) : (offeredHosts c au).Answers := by
  refine Prog.answers_bind (answers_fqdnsFor _ _ _ _) (fun hosts => ?_)
  refine Prog.answers_bind (Prog.answers_foldlM (fun hosts g => ?_) _ _) (fun hosts => ?_)
  · exact Prog.answers_bind (answers_fqdnsFor _ _ _ _) (fun _ => Prog.answers_pure _)
  · exact Prog.answers_foldlM (fun hosts e => Prog.answers_bind (answers_fqdnsFor _ _ _ _)
      (fun _ => Prog.answers_pure _)) _ _

/-! ## The page -/

/-- The lookups that decide whether there is a page have answers. -/
structure Answered (c : RootCalls) : Prop where
  token : c.token.select = false
  app : c.app = .noOutage
  ous : ∀ i, c.roleOus i = false
  groups : ∀ i, c.roleGroups i = false

/-- Every role group of the user has a name. -/
def GroupsNameable (db : Database) (au : AuthUser) : Prop :=
  ∀ ou ∈ delegatedOus db au, ∀ dn, mappedGroup db.ouGroup ou = some dn → Nameable dn

theorem mainView_returned_iff (cfg : Config) {c : RootCalls} (answered : Answered c)
    (au : AuthUser) (token : String) (w : World) :
    (∃ view, ((mainView cfg c au token).run w).1 = .ok view) ↔ GroupsNameable w.db au := by
  have sessions : ∀ stype, (getAvailableSessionDisplayFQDNs (c.sessions stype) au stype).Answers :=
    fun stype => Prog.answers_orElse (reads_getAvailableSessionDisplayFQDNs _ _ _)
  refine Prog.returned_bind (answers_canUseCO _ _) (fun checkoutShown => ?_)
  refine Prog.returned_bind (Prog.answers_orElse (reads_getAvailableCheckedOutUsers _ _ _ _))
    (fun creds => ?_)
  refine Prog.returned_bind (answers_canUseDA _ _) (fun da => ?_)
  refine Prog.returned_bind (Prog.answers_orElse (reads_groupDnsForEppn _ _)) (fun explicit => ?_)
  refine Prog.returned_bind (sessions "") (fun all => ?_)
  refine Prog.returned_bind (sessions "user") (fun user => ?_)
  refine Prog.returned_bind (sessions "delegated") (fun delegated => ?_)
  refine Prog.returned_bind (sessions "domain") (fun domain => ?_)
  refine Prog.returned_bind (sessions "static") (fun static => ?_)
  refine Prog.returned_bind (Prog.answers_orElse (reads_getDomainAdminFQDNs _))
    (fun domainhosts => ?_)
  refine Prog.returned_bind (answers_canUseDA _ _) (fun daShown => ?_)
  obtain ⟨groups, hgroups, mapped, all⟩ := run_groupDNsForDelegate c.roleOus c.roleGroups au w
  rw [Prog.run_bind_ok hgroups]
  have named : GroupsNameable w.db au ↔ ∀ dn, some dn ∈ groups.getD [] → Nameable dn := by
    constructor
    · intro each dn mem
      cases groups with
      | none => cases mem
      | some listed =>
        obtain ⟨ou, delegated, group⟩ := mapped listed rfl dn mem
        exact each ou delegated dn group
    · intro each ou delegated dn group
      have mem := all answered.ous answered.groups ou delegated
      rw [group] at mem
      exact each dn mem
  rw [named]
  rcases run_displayGroups (groups.getD []) w with ⟨⟨shown, hshown⟩, all⟩ |
    ⟨⟨e, hraised⟩, dn, mem, unnamed⟩
  · have ous : (delegatedOusForUser c.ous au).Answers := by
      intro w
      obtain ⟨r, hrun, -⟩ := run_delegatedOusForUser c.ous au w
      exact ⟨r, hrun⟩
    rw [Prog.run_bind_ok hshown]
    refine (Prog.returned_bind ous (fun ous => ?_)).trans (iff_of_true trivial all)
    refine Prog.returned_bind (Prog.answers_orElse (reads_fqdnsForStatic _ _))
      (fun statichosts => ?_)
    refine Prog.returned_bind (answers_offeredHosts _ _) (fun userhosts => ?_)
    exact Prog.returned_bind (answers_canUseDA _ _) (fun mayDA => iff_of_true ⟨_, rfl⟩ trivial)
  · rw [Prog.run_bind_error hraised]
    exact iff_of_false (by simp) (fun all => unnamed (all dn mem))

/-- The servlet session is known, but its row has no token. -/
def Tokenless (req : Request) (db : Database) : Prop :=
  ∃ row, tokenRow req.sessionId db = some row ∧ row.csrfToken = none

/-- What follows once the servlet session has its token. -/
theorem admitted_returned_iff (cfg : Config) {c : RootCalls} (answered : Answered c)
    (au : AuthUser) {w : World} (granted : grants w.db "proconsul" au = true) (token : String) :
    (∃ page, ((do
      if ← canUseApp c.app au then return .mary (← mainView cfg c au token)
      else return .authzError "You are not authorized to use this tool." : Run RootPage).run w).1 =
        .ok page) ↔ GroupsNameable w.db au := by
  have admitted : (canUseApp c.app au).run w = (.ok true, w) := by
    rw [answered.app, run_canUseApp_noOutage, granted]
  rw [Prog.run_bind_ok admitted, if_pos rfl]
  exact Prog.returned_map.trans (mainView_returned_iff cfg answered au token w)

/-- An authorized user gets a page exactly if every group DN of an OU delegated
to the user leaves 25 characters to show, or if the request ends before the
groups at a token that is null. -/
theorem page_returned_iff (cfg : Config) (c : RootCalls) (answered : Answered c) (req : Request)
    (w : World) (allowed : ((canUseApp c.app req.authUser).run w).1 = .ok true) :
    (∃ page, ((handleRootRequest cfg c req).run w).1 = .ok page) ↔
      Tokenless req w.db ∨ GroupsNameable w.db req.authUser := by
  have drawn : c.token = ⟨false, c.token.write, c.token.uuid, c.token.now⟩ := by
    rw [← answered.token]
  have granted : grants w.db "proconsul" req.authUser = true := by
    rw [answered.app, run_canUseApp_noOutage] at allowed
    exact Except.ok.inj allowed
  obtain ⟨w₁, htoken, -⟩ := run_getSessionCSRFToken c.token.write c.token.uuid c.token.now req w
  rw [← drawn] at htoken
  have tokens := onlyTokens_run (onlyTokens_getSessionCSRFToken c.token req) w
  rw [htoken] at tokens
  obtain ⟨table, rfl⟩ := tokens
  -- the policy tables are those of `w`
  have rest := admitted_returned_iff cfg answered req.authUser
    (w := { w with db := { w.db with csrfTokens := table } }) granted
  rw [handleRootRequest, Prog.run_bind_ok htoken]
  cases hrow : tokenRow req.sessionId w.db with
  | none =>
    have held : ¬ Tokenless req w.db := by
      rintro ⟨row, hrow', -⟩
      rw [hrow] at hrow'
      cases hrow'
    exact (rest c.token.uuid).trans (or_iff_right held).symm
  | some row =>
    rw [Option.elim_some]
    cases htok : row.csrfToken with
    | none => exact iff_of_true ⟨_, rfl⟩ (.inl ⟨row, hrow, htok⟩)
    | some token =>
      have held : ¬ Tokenless req w.db := by
        rintro ⟨row', hrow', missing⟩
        rw [hrow] at hrow'
        cases hrow'
        rw [htok] at missing
        cases missing
      exact (rest token).trans (or_iff_right held).symm

/-- Pat's group administers one OU, whose group has the given DN. -/
def delegateSite (dn : String) : World :=
  { sampleSite with
    db := { sampleSite.db with
      delegateGroups := [⟨some "urn:ops", some "ou=labs,dc=dom,dc=ain"⟩]
      ouGroup := [⟨"ou=labs,dc=dom,dc=ain", some dn⟩] } }

def delegateRequest : Request := { sampleRequest with isMemberOf := some "urn:ops" }

def longDn : String := "cn=laboratory administrators,ou=labs,dc=dom,dc=ain"

theorem long_group_name_shown :
    ((canUseApp AccessCalls.noOutage delegateRequest.authUser).run (delegateSite longDn)).1 =
        .ok true ∧
    ∃ page, ((handleRootRequest sampleConfig (.noOutage "U1" 0) delegateRequest).run
      (delegateSite longDn)).1 = .ok page := by
  have allowed : ((canUseApp AccessCalls.noOutage delegateRequest.authUser).run
      (delegateSite longDn)).1 = .ok true := by decide +kernel
  have only : delegatedOus (delegateSite longDn).db delegateRequest.authUser =
      ["ou=labs,dc=dom,dc=ain"] := by decide +kernel
  have group : mappedGroup (delegateSite longDn).db.ouGroup "ou=labs,dc=dom,dc=ain" =
      some longDn := by decide +kernel
  refine ⟨allowed, (page_returned_iff sampleConfig (.noOutage "U1" 0)
    ⟨rfl, rfl, fun _ => rfl, fun _ => rfl⟩ delegateRequest _ allowed).mpr (.inr ?_)⟩
  intro ou delegated dn mapped
  rw [only] at delegated
  cases List.mem_singleton.mp delegated
  rw [group] at mapped
  cases mapped
  decide +kernel

/-- An ordinary DN: `cn=labadmins,` is left of it, and Pat is locked out. -/
theorem short_group_name_raises :
    ((canUseApp AccessCalls.noOutage delegateRequest.authUser).run
        (delegateSite "cn=labadmins,ou=labs,dc=dom,dc=ain")).1 = .ok true ∧
    ¬ ∃ page, ((handleRootRequest sampleConfig (.noOutage "U1" 0) delegateRequest).run
      (delegateSite "cn=labadmins,ou=labs,dc=dom,dc=ain")).1 = .ok page := by
  refine ⟨by decide +kernel, ?_⟩
  have raised : ((handleRootRequest sampleConfig (.noOutage "U1" 0) delegateRequest).run
      (delegateSite "cn=labadmins,ou=labs,dc=dom,dc=ain")).1 = .error .indexOutOfBounds := by
    decide +kernel
  rintro ⟨page, returned⟩
  rw [raised] at returned
  cases returned

end Availability
