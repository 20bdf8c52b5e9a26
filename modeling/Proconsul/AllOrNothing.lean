import Proconsul.Starting

/-!
# Is a failed session request undone?

A request acquires an account, a port, a session row and, for Domain Admins, a
registration, one after the other. The result below says for each of the three
handlers that create accounts exactly when a request that starts no container
leaves none of these behind. Exceptions and error pages are treated alike;
the static handler, which creates no account, is not considered.
-/

namespace AllOrNothing

open Program Schema Text Surroundings Access Hosts Accounts Sessions Handlers Starting

/-- What the log entry records is still there. -/
def remains (w : World) : Effect → Bool
  | .accountCreated sam => w.ad.accounts.any (fun a => nameEq a.sam sam)
  | .portReserved portnum => w.db.ports.any (fun r => r.portnum == portnum)
  | .sessionInserted row => w.db.sessions.any (fun r =>
      r.owner = row.owner && r.fqdn = row.fqdn && r.samaccountname = row.samaccountname)
  | .daStored sam => w.db.activeDomainAdmins.any (fun r =>
      r.samaccountname = sam && r.disabletime = some 0)
  | _ => false

/-- A container was started, or everything acquired on the way is gone. -/
def NothingLeft (w w' : World) : Prop :=
  started (newEffects w w') = [] → ∀ e ∈ newEffects w w', remains w' e = false

/-- The way from the account on is followed to its end, or else neither an
account nor a port is taken. -/
def Settled (accepted : Bool) (reserved completed : Prop) : Prop :=
  (reserved ∧ completed) ∨ (accepted = false ∧ ¬ reserved)

theorem nothingLeft_of_tokens {w w' : World} (tokens : OnlyTokens w w') : NothingLeft w w' := by
  intro _ e he
  rw [newEffects_of_same tokens.trace] at he
  simp at he

section Account

variable {w w₁ w₂ : World} {sam dn : String} {k : Nat}

theorem newEffects_created (tokens : OnlyTokens w w₁) (created : Created sam dn k w₁ w₂) {w' : World}
    {effects : List Effect} (h : w'.trace = w₂.trace ++ effects) :
    newEffects w w' = List.replicate k (.accountCreated sam) ++ effects :=
  newEffects_of_append (by rw [h, created.trace, tokens.trace, List.append_assoc])

theorem started_created (k : Nat) (sam : String) (effects : List Effect) :
    started (List.replicate k (.accountCreated sam) ++ effects) = started effects := by
  have quiet : started (List.replicate k (.accountCreated sam)) = [] := by
    refine started_quiet (fun e he => ?_)
    cases List.eq_of_mem_replicate he
    rfl
  rw [started_append, quiet, List.nil_append]

/-- The request ends right after the creation of its account. -/
theorem nothingLeft_created (tokens : OnlyTokens w w₁) (created : Created sam dn k w₁ w₂) :
    NothingLeft w w₂ ↔ k = 0 := by
  have log : newEffects w w₂ = List.replicate k (.accountCreated sam) ++ [] :=
    newEffects_created tokens created (by simp)
  rw [NothingLeft, log, started_created]
  constructor
  · intro undone
    by_contra hk
    have gone := undone rfl (.accountCreated sam) (by simp [hk])
    have listed : (sam, dn) ∈ names w₂.ad := by
      rw [created.names]
      exact List.mem_append_right _ (List.mem_replicate.mpr ⟨hk, rfl⟩)
    obtain ⟨a, ha, heq⟩ := List.mem_map.mp listed
    cases heq
    have there : remains w₂ (.accountCreated a.sam) = true :=
      List.any_eq_true.mpr ⟨a, ha, nameEq_refl _⟩
    rw [there] at gone
    cases gone
  · rintro rfl _ e he
    simp at he

def keepsPorts : World → World → Prop := Keeps (fun w => w.db.ports)

/-- Nothing that follows the reservation gives the port back. -/
theorem nothingLeft_opens {c : PortCalls} {ok : Prop} {P : Nat → Container → Prop} {p : Run Page}
    (tokens : OnlyTokens w w₁) (created : Created sam dn k w₁ w₂)
    (ports : w₂.db.ports = w.db.ports) (opens : Opens keepsPorts c ok P p) :
    NothingLeft w (p.run w₂).2 ↔
      (allocates c w = true ∧ ok) ∨ (k = 0 ∧ ¬ allocates c w = true) := by
  rw [← allocates_congr c ports]
  rcases opens w₂ with ⟨no, same⟩ | ⟨yes, row, q, hrun, starts⟩
  · rw [same, nothingLeft_created tokens created, no]
    simp
  · obtain ⟨kept, effects, htrace, hout⟩ := starts (reserve row w₂)
    have log : newEffects w (q.run (reserve row w₂)).2 =
        List.replicate k (.accountCreated sam) ++ (.portReserved row.portnum :: effects) :=
      newEffects_created tokens created (by rw [htrace]; simp [reserve])
    rw [hrun, NothingLeft, log, started_created, yes]
    simp only [true_and, not_true, and_false, or_false]
    rcases hout with ⟨hok, ct, one, -⟩ | ⟨hno, none⟩
    · have some : started (Effect.portReserved row.portnum :: effects) = [ct] := one
      simp [hok, some]
    · refine ⟨fun undone => ?_, fun hok => absurd hok hno⟩
      have gone := undone none (.portReserved row.portnum) (by simp)
      have held : row ∈ (q.run (reserve row w₂)).2.db.ports := by
        rw [show (q.run (reserve row w₂)).2.db.ports = _ from kept]
        exact List.mem_append_right _ (List.mem_singleton_self row)
      have there : remains (q.run (reserve row w₂)).2 (.portReserved row.portnum) = true :=
        List.any_eq_true.mpr ⟨row, held, beq_self_eq_true _⟩
      rw [there] at gone
      cases gone

end Account

/-! ## The three handlers -/

theorem keepsPorts_quiet : Quiet keepsPorts := fun _ _ _ _ _ _ _ => rfl

theorem keepsPorts_trans (s t r : World) (h : keepsPorts s t) (h' : keepsPorts t r) :
    keepsPorts s r := Eq.trans h' h

theorem keepsPorts_engine : IgnoresEngine keepsPorts := fun _ _ _ _ => rfl

theorem keepsPorts_permits (s : ProconsulSession) : Permits keepsPorts s :=
  ⟨fun _ => rfl, fun _ => rfl⟩

/-- The body decides what is left, once there is an account. -/
theorem nothingLeft_withAccount {cfg : Config} {c : CreateCalls} {au : Option AuthUser} {gate : Gate}
    {body : ADUser → Run Page} {w : World} {reserved completed : Prop}
    (tokens : gate.Steps OnlyTokens)
    (h : ∀ w₁ sam dn k w₂, OnlyTokens w w₁ → Created sam dn k w₁ w₂ → w₂.db.ports = w.db.ports →
      (NothingLeft w ((body (randomizedUser cfg c sam)).run w₂).2 ↔
        (reserved ∧ completed) ∨ (k = 0 ∧ ¬ reserved))) :
    NothingLeft w ((withAccount cfg c au gate body).run w).2 ↔
      ∀ w₁ u w₂, gate.run w = (.ok none, w₁) →
        (createRandomizedADUser cfg c au).run w₁ = (.ok (some u), w₂) →
        Settled (accepted cfg c) reserved completed := by
  rcases withAccount_cases cfg c au tokens body w with ⟨only, hno⟩ |
      ⟨w₁, sam, dn, k, w₂, passed, only, hcreate, created, made, hend⟩
  · refine ⟨fun _ w₁ u w₂ hg hc => absurd hc (hno w₁ u w₂ hg), fun _ => nothingLeft_of_tokens only⟩
  · have ports : w₂.db.ports = w.db.ports := by
      have kept := keeps_run (quiet_createRandomizedADUser keepsPorts_quiet cfg c au) w₁
      rw [hcreate] at kept
      obtain ⟨tokens, rfl⟩ := only
      exact kept
    have none : k = 0 ↔ accepted cfg c = false := by
      rw [← Bool.not_eq_true, ← made, not_not]
    rw [hend, h w₁ sam dn k w₂ only created ports, none]
    constructor
    · intro settled _ _ _ _ _
      exact settled
    · intro settled
      exact settled w₁ _ w₂ passed hcreate

/-- A `/usersession` request that passes its gate and gets an account object
has a host and a display name, finds a port and succeeds in all the rest. -/
def UserSettled (cfg : Config) (c : UserCalls) (req : Request) (form : UserSessionRequest)
    (w : World) : Prop :=
  ∀ w₁ u w₂, (userGate c req form).run w = (.ok none, w₁) →
    (createRandomizedADUser cfg c.create (some req.authUser)).run w₁ = (.ok (some u), w₂) →
    Settled (accepted cfg c.create)
      (form.targetFQDN.isSome = true ∧ form.displayName.isSome = true ∧
        allocates c.opening.port w = true)
      (c.opening.write.succeed = true ∧ c.finish.write.succeed = true ∧
        c.finish.launch.container.succeed cfg = true)

/-- The host and the display name are read before the gate here, and the
registration as a Domain Admin has to succeed as well. -/
def DomainSettled (cfg : Config) (c : DomainCalls) (req : Request) (form : DomainAdminRequest)
    (w : World) : Prop :=
  ∀ target displayName, form.targetFQDN = some target → form.displayName = some displayName →
    ∀ w₁ u w₂, (domainGate c req form (keepOnly hostChar target)).run w = (.ok none, w₁) →
    (createRandomizedADUser cfg c.create (some req.authUser)).run w₁ = (.ok (some u), w₂) →
    Settled (accepted cfg c.create) (allocates c.opening.port w = true)
      (c.opening.write.succeed = true ∧ c.register.write = false ∧
        c.finish.write.succeed = true ∧ c.finish.launch.container.succeed cfg = true)

def DelegatedSettled (cfg : Config) (c : DelegatedCalls) (req : Request)
    (form : DelegatedAdminRequest) (w : World) : Prop :=
  ∀ host displayName, form.hostName = some host → form.displayName = some displayName →
    ∀ w₁ u w₂, (delegatedGate c req form (keepOnly hostChar host)).run w = (.ok none, w₁) →
    (createRandomizedADUser cfg c.create (some req.authUser)).run w₁ = (.ok (some u), w₂) →
    Settled (accepted cfg c.create) (allocates c.opening.port w = true)
      (c.opening.write.succeed = true ∧ c.finish.write.succeed = true ∧
        c.finish.launch.container.succeed cfg = true)

theorem nothingLeft_user_iff (cfg : Config) (c : UserCalls) (req : Request)
    (form : UserSessionRequest) (w : World) :
    NothingLeft w ((handleUserSessionPost cfg c req form).run w).2 ↔
      UserSettled cfg c req form w := by
  refine nothingLeft_withAccount (steps_inOrder (onlyTokens_userGates c req form)) ?_
  intro w₁ sam dn k w₂ only created ports
  cases hosted : form.targetFQDN with
  | none =>
    have ends : ((userSession cfg c req form (randomizedUser cfg c.create sam)).run w₂).2 = w₂ := by
      rw [userSession, hosted]
      cases form.displayName <;> rfl
    rw [ends, nothingLeft_created only created]
    simp
  | some target =>
    cases displayed : form.displayName with
    | none =>
      rw [userSession_unnamed displayed, nothingLeft_created only created]
      simp
    | some displayName =>
      rw [nothingLeft_opens only created ports (opens_userSession keepsPorts_quiet keepsPorts_trans
        keepsPorts_engine hosted displayed rfl (fun _ s' _ => keepsPorts_permits s'))]
      simp

theorem nothingLeft_domain_iff (cfg : Config) (c : DomainCalls) (req : Request)
    (form : DomainAdminRequest) (w : World) :
    NothingLeft w ((handleDomainAdminPost cfg c req form).run w).2 ↔
      DomainSettled cfg c req form w := by
  rw [handleDomainAdminPost]
  cases hosted : form.targetFQDN with
  | none => exact ⟨fun _ => by simp [DomainSettled, hosted], fun _ => nothingLeft_of_tokens (.refl w)⟩
  | some target =>
    cases displayed : form.displayName with
    | none =>
      exact ⟨fun _ => by simp [DomainSettled, displayed], fun _ => nothingLeft_of_tokens (.refl w)⟩
    | some displayName =>
      refine (nothingLeft_withAccount
        (steps_inOrder (onlyTokens_domainGates c req form (keepOnly hostChar target)))
        (fun w₁ sam dn k w₂ only created ports => nothingLeft_opens only created ports
          (opens_domainSession keepsPorts_quiet keepsPorts_trans keepsPorts_engine rfl
            (fun _ s' _ => keepsPorts_permits s')))).trans ?_
      simp [DomainSettled, domainGate, hosted, displayed]

theorem nothingLeft_delegated_iff (cfg : Config) (c : DelegatedCalls) (req : Request)
    (form : DelegatedAdminRequest) (w : World) :
    NothingLeft w ((handleDelegatedAdminPost cfg c req form).run w).2 ↔
      DelegatedSettled cfg c req form w := by
  rw [handleDelegatedAdminPost]
  cases hosted : form.hostName with
  | none =>
    exact ⟨fun _ => by simp [DelegatedSettled, hosted], fun _ => nothingLeft_of_tokens (.refl w)⟩
  | some host =>
    cases displayed : form.displayName with
    | none =>
      exact ⟨fun _ => by simp [DelegatedSettled, displayed], fun _ => nothingLeft_of_tokens (.refl w)⟩
    | some displayName =>
      refine (nothingLeft_withAccount
        (steps_inOrder (onlyTokens_delegatedGates c req form (keepOnly hostChar host)))
        (fun w₁ sam dn k w₂ only created ports => nothingLeft_opens only created ports
          (opens_delegatedSession keepsPorts_quiet keepsPorts_trans keepsPorts_engine rfl
            (fun _ s' _ => keepsPorts_permits s')))).trans ?_
      simp [DelegatedSettled, delegatedGate, hosted, displayed]

/-- A request leaves nothing behind exactly when it is refused or gets no
account object, or runs through to its container, or fails before any account
and any port is taken. -/
theorem session_creation_settled_iff (cfg : Config) (req : Request) (w : World) :
    (∀ c form, NothingLeft w ((handleUserSessionPost cfg c req form).run w).2 ↔
      UserSettled cfg c req form w) ∧
    (∀ c form, NothingLeft w ((handleDomainAdminPost cfg c req form).run w).2 ↔
      DomainSettled cfg c req form w) ∧
    (∀ c form, NothingLeft w ((handleDelegatedAdminPost cfg c req form).run w).2 ↔
      DelegatedSettled cfg c req form w) :=
  ⟨fun c form => nothingLeft_user_iff cfg c req form w,
    fun c form => nothingLeft_domain_iff cfg c req form w,
    fun c form => nothingLeft_delegated_iff cfg c req form w⟩

/-- All 49 displays are in use. -/
def exhaustedSite : World :=
  { sampleSite with
    db := { sampleSite.db with ports := candidates.map (fun i => ⟨i, none, none, none⟩) } }

theorem exhausted_ports_leave_account :
    ¬ NothingLeft exhaustedSite ((handleUserSessionPost sampleConfig
      (.noOutage "ab3de6fgh-eas" "secret" "vncsecret") sampleRequest sampleForm).run
        exhaustedSite).2 := by
  intro settled
  have gone := settled (by decide +kernel) (.accountCreated "ab3de6fgh-eas") (by decide +kernel)
  exact absurd gone (by decide +kernel)

end AllOrNothing
