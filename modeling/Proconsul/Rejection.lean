import Proconsul.CheckoutEffects

/-!
# Requests that are turned away

The seven POST handlers repeat one gate by hand: may the user log in at all,
does the request come from one of our own pages, does it carry the token of
its servlet session. Here the seven are one type, and a request that fails any
of the three leaves everything but the table of tokens as it was. Where in its
sequence of checks a handler puts the gate does not matter, only that what
comes before it reads.
-/

namespace Rejection

open Program Schema Text Surroundings Access Hosts Accounts Sessions Handlers Checkout
open CheckoutEffects

/-! ## The seven handlers -/

/-- A form together with the outcomes of the calls made for it. -/
inductive Post where
  | reconnect (c : ReconnectCalls) (form : ReconnectRequest)
  | checkOut (c : CheckoutCalls) (form : CheckedOutCredRequest)
  | domainadmin (c : DomainCalls) (form : DomainAdminRequest)
  | deladmin (c : DelegatedCalls) (form : DelegatedAdminRequest)
  | updateCheckOut (c : UpdateCheckoutCalls) (form : UpdateCheckoutRequest)
  | staticsession (c : StaticCalls) (form : StaticUserSessionRequest)
  | usersession (c : UserCalls) (form : UserSessionRequest)

namespace Post

def handle (cfg : Config) (req : Request) : Post → Run Page
  | reconnect c form => handleReconnectPost cfg c req form
  | checkOut c form => handleCheckOutPost cfg c req form
  | domainadmin c form => handleDomainAdminPost cfg c req form
  | deladmin c form => handleDelegatedAdminPost cfg c req form
  | updateCheckOut c form => handleUpdateCheckout c req form
  | staticsession c form => handleStaticSessionPost cfg c req form
  | usersession c form => handleUserSessionPost cfg c req form

/-- Outcomes of the queries behind `canUseApp`. -/
def app : Post → AccessCalls
  | reconnect c _ => c.app
  | checkOut c _ => c.app
  | domainadmin c _ => c.app
  | deladmin c _ => c.app
  | updateCheckOut c _ => c.app
  | staticsession c _ => c.app
  | usersession c _ => c.app

/-- Outcomes of the statements behind `getSessionCSRFToken`. -/
def token : Post → TokenCalls
  | reconnect c _ => c.token
  | checkOut c _ => c.token
  | domainadmin c _ => c.token
  | deladmin c _ => c.token
  | updateCheckOut c _ => c.token
  | staticsession c _ => c.token
  | usersession c _ => c.token

def csrfToken : Post → Option String
  | reconnect _ form => form.csrfToken
  | checkOut _ form => form.csrfToken
  | domainadmin _ form => form.csrfToken
  | deladmin _ form => form.csrfToken
  | updateCheckOut _ form => form.csrfToken
  | staticsession _ form => form.csrfToken
  | usersession _ form => form.csrfToken

end Post

/-- Not a user of the application, a foreign origin, or no valid token. -/
def Rejected (post : Post) (req : Request) (w : World) : Prop :=
  ((canUseApp post.app req.authUser).run w).1 ≠ .ok true ∨
    checkOrigin req = false ∨
    post.csrfToken = none ∨
    ((getSessionCSRFToken post.token req).run w).1 ≠ .ok post.csrfToken

/-! ## Gates that refuse -/

/-- In world `w` the gate does not let the request through. -/
def Refuses (g : Gate) (w : World) : Prop := (g.run w).1 ≠ .ok none

/-- A refusal behind gates that only read refuses the whole sequence. -/
theorem refuses_inOrder {before after : List Gate} {g : Gate} {w : World}
    (reads : ∀ b ∈ before, b.Reads) (refuses : Refuses g w) :
    Refuses (inOrder (before ++ g :: after)) w := by
  induction before with
  | nil =>
    intro passed
    rw [List.nil_append, inOrder, Prog.run_bind] at passed
    rcases hg : g.run w with ⟨e | page, w₁⟩
    · rw [hg] at passed
      cases passed
    · cases page with
      | some page =>
        rw [hg] at passed
        cases passed
      | none => exact refuses (congrArg Prod.fst hg)
  | cons b before ih =>
    have rest := ih (fun x hx => reads x (List.mem_cons_of_mem b hx))
    have same := Prog.run_unchanged (reads b List.mem_cons_self) w
    intro passed
    rw [List.cons_append, inOrder, Prog.run_bind] at passed
    rcases hb : b.run w with ⟨e | page, w₁⟩
    · rw [hb] at passed
      cases passed
    · rw [hb] at passed same
      cases page with
      | some page => cases passed
      | none =>
        obtain rfl : w₁ = w := same
        exact rest passed

theorem refuses_refuseUnless {check : Run Bool} {message : String} {w : World}
    (denied : (check.run w).1 ≠ .ok true) : Refuses (refuseUnless check message) w := by
  intro passed
  rcases hr : (refuseUnless check message).run w with ⟨r, w'⟩
  rw [hr] at passed
  obtain rfl : r = .ok none := passed
  exact denied (congrArg Prod.fst (refuseUnless_passes hr))

theorem refuses_csrfGate {c : TokenCalls} {req : Request} {token : Option String}
    {m : CsrfMessages} {w : World}
    (invalid : checkOrigin req = false ∨ token = none ∨
      ((getSessionCSRFToken c req).run w).1 ≠ .ok token) :
    Refuses (csrfGate c req token m) w := by
  intro passed
  unfold csrfGate at passed
  by_cases origin : checkOrigin req = true
  · rw [if_pos origin] at passed
    cases token with
    | none => cases passed
    | some token =>
      have differs : ((getSessionCSRFToken c req).run w).1 ≠ .ok (some token) := by
        rcases invalid with foreign | missing | differs
        · rw [origin] at foreign
          cases foreign
        · cases missing
        · exact differs
      dsimp only at passed
      rw [Prog.run_bind] at passed
      rcases ht : (getSessionCSRFToken c req).run w with ⟨e | valid, w₁⟩
      · rw [ht] at passed
        cases passed
      · rw [ht] at passed differs
        dsimp only at passed
        by_cases same : valid = some token
        · exact differs (congrArg _ same)
        · rw [if_neg same] at passed
          cases passed
  · rw [if_neg origin] at passed
    cases passed

/-! ## Handlers behind a refusing gate -/

/-- A handler that answers with the gate's page does no more than the gate. -/
theorem onlyTokens_gated {gate : Gate} {body : Run Page} {w : World}
    (tokens : gate.Steps OnlyTokens) (refuses : Refuses gate w) :
    OnlyTokens w ((do
      match ← gate with
      | some page => return page
      | none => body : Run Page).run w).2 := by
  have only := onlyTokens_run tokens w
  rw [Prog.run_bind]
  rcases hg : gate.run w with ⟨e | page, w₁⟩
  · rwa [hg] at only
  · rw [hg] at only
    cases page with
    | some page => exact only
    | none => exact absurd (congrArg Prod.fst hg) refuses

theorem onlyTokens_withAccount (cfg : Config) (c : CreateCalls) (au : Option AuthUser) {gate : Gate}
    {body : ADUser → Run Page} {w : World} (tokens : gate.Steps OnlyTokens)
    (refuses : Refuses gate w) : OnlyTokens w ((withAccount cfg c au gate body).run w).2 :=
  onlyTokens_gated tokens refuses

/-- A yes of the check needs a yes of `canUseApp`. -/
def AsksApp (post : Post) (req : Request) (check : Run Bool) : Prop :=
  ∀ w, (check.run w).1 = .ok true → ((canUseApp post.app req.authUser).run w).1 = .ok true

/-- The login check and the cross-site check of a handler, each behind checks
that only read. -/
structure Gated (post : Post) (req : Request) (gates : List Gate) : Prop where
  app : ∃ before after check message, (∀ b ∈ before, b.Reads) ∧ AsksApp post req check ∧
    gates = before ++ refuseUnless check message :: after
  csrf : ∃ before after m, (∀ b ∈ before, b.Reads) ∧
    gates = before ++ csrfGate post.token req post.csrfToken m :: after

theorem Gated.refuses {post : Post} {req : Request} {gates : List Gate} {w : World}
    (gated : Gated post req gates) (rejected : Rejected post req w) : Refuses (inOrder gates) w := by
  rcases rejected with denied | invalid
  · obtain ⟨before, after, check, message, reads, asks, rfl⟩ := gated.app
    have no : (check.run w).1 ≠ .ok true := fun yes => denied (asks w yes)
    exact refuses_inOrder reads (refuses_refuseUnless no)
  · obtain ⟨before, after, m, reads, rfl⟩ := gated.csrf
    exact refuses_inOrder reads (refuses_csrfGate invalid)

/-! ## The gates of the seven handlers -/

theorem reads_refuseUnless {check : Run Bool} (h : check.Reads) (message : String) :
    (refuseUnless check message).Reads := by
  refine Prog.steps_bind h (fun b => ?_)
  cases b <;> exact Prog.steps_pure _

theorem reads_roleGroupAllowed (c : DelegatedCalls) (au : AuthUser) (roleGroup : Option String) :
    (roleGroupAllowed c au roleGroup).Reads :=
  Prog.steps_bind (reads_groupDNsForDelegate _ _ _)
    (fun _ => Prog.steps_bind (steps_deref _) (fun _ => Prog.steps_pure _))

theorem reads_mayUpdate (fails : Bool) (au : AuthUser) (owner : Option String) :
    (mayUpdate fails au owner).Reads := by
  rw [mayUpdate]
  split
  · exact Prog.steps_pure _
  · split
    · exact Prog.steps_pure _
    · refine Prog.steps_bind (reads_canUseCO fails au) (fun b => ?_)
      cases b <;> exact Prog.steps_pure _

theorem reads_checkoutAllowed (c : CheckoutCalls) (au : AuthUser) : (checkoutAllowed c au).Reads := by
  refine Prog.steps_bind (reads_canUseApp c.app au) (fun b => ?_)
  cases b with
  | false => exact Prog.steps_pure _
  | true => exact reads_canUseCO c.co au

theorem asksApp_self (post : Post) (req : Request) :
    AsksApp post req (canUseApp post.app req.authUser) := fun _ yes => yes

theorem asksApp_checkoutAllowed (c : CheckoutCalls) (req : Request) (form : CheckedOutCredRequest) :
    AsksApp (.checkOut c form) req (checkoutAllowed c req.authUser) := by
  intro w yes
  rw [checkoutAllowed, Prog.run_bind] at yes
  rcases hr : (canUseApp c.app req.authUser).run w with ⟨e | b, w₁⟩
  · rw [hr] at yes
    cases yes
  · cases b with
    | false =>
      rw [hr] at yes
      cases yes
    | true => exact congrArg Prod.fst hr

theorem reads_nothing : ∀ b ∈ ([] : List Gate), b.Reads := by simp

theorem gated_user (c : UserCalls) (req : Request) (form : UserSessionRequest) :
    Gated (.usersession c form) req (userGates c req form) where
  app := ⟨[], _, _, _, reads_nothing, asksApp_self _ _, rfl⟩
  csrf := by
    refine ⟨[_, _], [], _, ?_, rfl⟩
    refine List.forall_mem_cons.mpr ⟨reads_refuseUnless (reads_canUseApp _ _) _,
      List.forall_mem_singleton.mpr ?_⟩
    exact reads_userHostGate c.hosts req.authUser form.targetFQDN

theorem gated_static (c : StaticCalls) (req : Request) (form : StaticUserSessionRequest) :
    Gated (.staticsession c form) req (staticGates c req form) where
  app := ⟨[], _, _, _, reads_nothing, asksApp_self _ _, rfl⟩
  csrf := ⟨[_, _], [], _, List.forall_mem_cons.mpr ⟨reads_refuseUnless (reads_canUseApp _ _) _,
    List.forall_mem_singleton.mpr (reads_refuseUnless (reads_staticHostAllowed _ _ _) _)⟩, rfl⟩

theorem gated_domain (c : DomainCalls) (req : Request) (form : DomainAdminRequest) (host : String) :
    Gated (.domainadmin c form) req (domainGates c req form host) where
  app := ⟨[], _, _, _, reads_nothing, asksApp_self _ _, rfl⟩
  csrf := ⟨[_, _], [_], _, List.forall_mem_cons.mpr ⟨reads_refuseUnless (reads_canUseApp _ _) _,
    List.forall_mem_singleton.mpr (reads_refuseUnless (reads_canUseDA _ _) _)⟩, rfl⟩

theorem gated_delegated (c : DelegatedCalls) (req : Request) (form : DelegatedAdminRequest)
    (host : String) : Gated (.deladmin c form) req (delegatedGates c req form host) where
  app := ⟨[], _, _, _, reads_nothing, asksApp_self _ _, rfl⟩
  csrf := ⟨[_, _, _], [], _, List.forall_mem_cons.mpr ⟨reads_refuseUnless (reads_canUseApp _ _) _,
    List.forall_mem_cons.mpr ⟨reads_refuseUnless (reads_canAdminFQDN _ _ _) _,
      List.forall_mem_singleton.mpr (reads_refuseUnless (reads_roleGroupAllowed _ _ _) _)⟩⟩, rfl⟩

theorem gated_reconnect (c : ReconnectCalls) (req : Request) (form : ReconnectRequest) :
    Gated (.reconnect c form) req (reconnectGates c req form) where
  app := ⟨[_], _, _, _, List.forall_mem_singleton.mpr (reads_targetGate form), asksApp_self _ _, rfl⟩
  csrf := ⟨[_, _], [], _, List.forall_mem_cons.mpr ⟨reads_targetGate form,
    List.forall_mem_singleton.mpr (reads_refuseUnless (reads_canUseApp _ _) _)⟩, rfl⟩

theorem gated_checkOut (cfg : Config) (c : CheckoutCalls) (req : Request)
    (form : CheckedOutCredRequest) :
    Gated (.checkOut c form) req (checkoutGates cfg c req form) where
  app := ⟨[], _, _, _, reads_nothing, asksApp_checkoutAllowed c req form, rfl⟩
  csrf := ⟨[_], _, _, List.forall_mem_singleton.mpr
    (reads_refuseUnless (reads_checkoutAllowed c req.authUser) _), rfl⟩

theorem gated_update (c : UpdateCheckoutCalls) (req : Request) (form : UpdateCheckoutRequest) :
    Gated (.updateCheckOut c form) req (updateGates c req form) where
  app := ⟨[], _, _, _, reads_nothing, asksApp_self _ _, rfl⟩
  csrf := ⟨[_, _], [], _, List.forall_mem_cons.mpr ⟨reads_refuseUnless (reads_canUseApp _ _) _,
    List.forall_mem_singleton.mpr (reads_refuseUnless (reads_mayUpdate _ _ _) _)⟩, rfl⟩

theorem onlyTokens_updateGates (c : UpdateCheckoutCalls) (req : Request)
    (form : UpdateCheckoutRequest) : ∀ g ∈ updateGates c req form, g.Steps OnlyTokens :=
  List.forall_mem_cons.mpr ⟨onlyTokens_refuseUnless (reads_canUseApp _ _) _,
    List.forall_mem_cons.mpr ⟨onlyTokens_refuseUnless (reads_mayUpdate _ _ _) _,
      List.forall_mem_singleton.mpr (onlyTokens_csrfGate _ _ _ _)⟩⟩

/-! ## A rejected request -/

/-- Whatever else a rejected request asks for, and whichever calls fail on the
way, it changes nothing but the table of tokens. -/
theorem rejected_request_changes_nothing (cfg : Config) (post : Post) (req : Request) (w : World)
    (rejected : Rejected post req w) : OnlyTokens w ((post.handle cfg req).run w).2 := by
  cases post with
  | reconnect c form =>
    exact onlyTokens_gated (steps_inOrder (onlyTokens_reconnectGates c req form))
      ((gated_reconnect c req form).refuses rejected)
  | checkOut c form =>
    exact onlyTokens_withAccount cfg c.create none
      (steps_inOrder (onlyTokens_checkoutGates cfg c req form))
      ((gated_checkOut cfg c req form).refuses rejected)
  | domainadmin c form =>
    -- both names are filtered, and so dereferenced, before the first check
    change OnlyTokens w ((handleDomainAdminPost cfg c req form).run w).2
    rw [handleDomainAdminPost]
    cases form.targetFQDN with
    | none => exact .refl w
    | some target =>
      cases form.displayName with
      | none => exact .refl w
      | some displayName =>
        exact onlyTokens_withAccount cfg c.create (some req.authUser)
          (steps_inOrder (onlyTokens_domainGates c req form (keepOnly hostChar target)))
          ((gated_domain c req form (keepOnly hostChar target)).refuses rejected)
  | deladmin c form =>
    change OnlyTokens w ((handleDelegatedAdminPost cfg c req form).run w).2
    rw [handleDelegatedAdminPost]
    cases form.hostName with
    | none => exact .refl w
    | some host =>
      cases form.displayName with
      | none => exact .refl w
      | some displayName =>
        exact onlyTokens_withAccount cfg c.create (some req.authUser)
          (steps_inOrder (onlyTokens_delegatedGates c req form (keepOnly hostChar host)))
          ((gated_delegated c req form (keepOnly hostChar host)).refuses rejected)
  | updateCheckOut c form =>
    exact onlyTokens_gated (steps_inOrder (onlyTokens_updateGates c req form))
      ((gated_update c req form).refuses rejected)
  | staticsession c form =>
    exact onlyTokens_gated (steps_inOrder (onlyTokens_staticGates c req form))
      ((gated_static c req form).refuses rejected)
  | usersession c form =>
    exact onlyTokens_withAccount cfg c.create (some req.authUser)
      (steps_inOrder (onlyTokens_userGates c req form)) ((gated_user c req form).refuses rejected)

/-- Pat's form with the token of another servlet session. -/
def forgedPost : Post :=
  .usersession (.noOutage "ab3de6fgh-eas" "secret" "vncsecret") { sampleForm with
    csrfToken := some "T2" }

theorem forged_request_changes_nothing :
    Rejected forgedPost sampleRequest sampleSite ∧
      OnlyTokens sampleSite ((forgedPost.handle sampleConfig sampleRequest).run sampleSite).2 := by
  have rejected : Rejected forgedPost sampleRequest sampleSite := by
    right; right; right
    decide
  exact ⟨rejected, rejected_request_changes_nothing sampleConfig forgedPost sampleRequest sampleSite
    rejected⟩

end Rejection
