import Proconsul.Starting
import Mathlib.Tactic.IntervalCases

/-!
# Which host a new session reaches

Every creating handler filters characters out of the requested name and
compares it with the hosts its user is mapped to. Two handlers compare the
filtered name, the other two the raw one, and those two also keep the five
characters between `Z` and `a` that no host name has. The result says for all
four exactly when a container can only reach a host its user was checked for.
-/

namespace HostAuthorization

open Program Schema Text Surroundings Access Hosts Accounts Sessions Handlers Starting

/-! ## What a passed gate proves -/

/-- The check of `/usersession`: mapped to the user or to one of the groups. -/
def UserMapped (w : World) (au : AuthUser) (host : String) : Prop :=
  host ∈ hostsForEppn w.db w.ad au.uid ∨
    ∃ m ∈ au.memberships, host ∈ hostsForGroupUrn w.db w.ad m

/-- The check of `/staticsession`. -/
def StaticMapped (w : World) (au : AuthUser) (host : String) : Prop :=
  host ∈ hostsForStatic w.db au.uid

/-- The check of `/deladmin`. -/
def Delegated (w : World) (au : AuthUser) (host : String) : Prop :=
  administers w.db w.ad au host = true

/-- The check of `/domainadmin`. -/
def DomainAllowed (w : World) (au : AuthUser) (host : String) : Prop :=
  grants w.db "da" au = true ∧ some host ∈ w.db.domainAdminHosts

theorem userHostAllowed_mapped {c : UserHostCalls} {au : AuthUser} {target : Option String}
    {w w' : World} (h : (userHostAllowed c au target).run w = (.ok true, w')) :
    ∃ host, target = some host ∧ UserMapped w au host := by
  obtain ⟨hs, hrun, sub, -⟩ := run_fqdnsForEppn c.explicit au.uid w
  rw [userHostAllowed, Prog.run_bind_ok hrun] at h
  split at h
  · rename_i found
    obtain ⟨host, rfl, hmem⟩ := (Option.any_eq_true _ _).mp found
    exact ⟨host, rfl, .inl (sub (List.contains_iff_mem.mp hmem))⟩
  · obtain ⟨g, hg, hrun'⟩ := Prog.run_anyM_true (fun g _ => Prog.run_unchanged
      (Prog.steps_bind (reads_fqdnsForGroupUrn _ _) (fun _ => Prog.steps_pure _)) w) h
    obtain ⟨hs', hrun'', sub', -⟩ := run_fqdnsForGroupUrn (c.group g.2) g.1 w
    rw [Prog.run_bind_ok hrun''] at hrun'
    have found := Except.ok.inj (Prod.mk.inj hrun').1
    obtain ⟨host, rfl, hmem⟩ := (Option.any_eq_true _ _).mp found
    exact ⟨host, rfl, .inr ⟨g.1, List.fst_mem_of_mem_zipIdx hg, sub' (List.contains_iff_mem.mp hmem)⟩⟩

theorem passes_app {c : AccessCalls} {au : AuthUser} {message : String} {w w' : World}
    (h : (refuseUnless (canUseApp c au) message).run w = (.ok none, w')) :
    ∃ uid, au.uid = some uid ∧ uid ≠ "" := by
  obtain ⟨b, hb, granted⟩ := run_canUseApp c au w
  have allowed := refuseUnless_passes h
  rw [hb] at allowed
  cases allowed
  have known := granted rfl
  rw [grants, Bool.and_eq_true, Bool.not_eq_true'] at known
  exact uidMissing_iff.mp known.1

/-- The exemption of the empty user id is never reached: such a user may not log in. -/
theorem userGate_passes {c : UserCalls} {req : Request} {form : UserSessionRequest} {w w' : World}
    (h : (userGate c req form).run w = (.ok none, w')) :
    ∃ host, form.targetFQDN = some host ∧ UserMapped w req.authUser host := by
  have passed := inOrder_passes (onlyTokens_userGates c req form) h
  obtain ⟨_, _, -, happ⟩ := passed _ List.mem_cons_self
  obtain ⟨uid, known, nonempty⟩ := passes_app happ
  obtain ⟨w₁, w₂, ⟨tokens, rfl⟩, hhost⟩ := passed _ (List.mem_cons_of_mem _ List.mem_cons_self)
  simp only [userHostGate, known, if_neg nonempty] at hhost
  rw [Prog.run_bind] at hhost
  rcases hr : (userHostAllowed c.hosts req.authUser form.targetFQDN).run
    { w with db := { w.db with csrfTokens := tokens } } with ⟨e | allowed, w₃⟩
  · rw [hr] at hhost
    cases hhost
  · cases allowed with
    | true =>
      obtain ⟨host, given, mapped⟩ := userHostAllowed_mapped hr
      exact ⟨host, given, mapped⟩
    | false =>
      rw [hr] at hhost
      cases ht : form.targetFQDN with
      | none =>
        rw [ht] at hhost
        cases hhost
      | some target =>
        rw [ht] at hhost
        cases hhost

theorem staticGate_passes {c : StaticCalls} {req : Request} {form : StaticUserSessionRequest}
    {w w' : World} (h : (staticGate c req form).run w = (.ok none, w')) :
    ∃ host, form.targetFQDN = some host ∧ StaticMapped w req.authUser host := by
  have passed := inOrder_passes (onlyTokens_staticGates c req form) h
  obtain ⟨_, _, -, happ⟩ := passed _ List.mem_cons_self
  obtain ⟨uid, known, nonempty⟩ := passes_app happ
  obtain ⟨w₁, w₂, ⟨tokens, rfl⟩, hhost⟩ := passed _ (List.mem_cons_of_mem _ List.mem_cons_self)
  have allowed := refuseUnless_passes hhost
  simp only [staticHostAllowed, known, if_neg nonempty] at allowed
  rw [Prog.run_bind_ok (run_fqdnsForStatic _ _ _)] at allowed
  have found := Except.ok.inj (Prod.mk.inj allowed).1
  obtain ⟨host, given, hmem⟩ := (Option.any_eq_true _ _).mp found
  refine ⟨host, given, ?_⟩
  rw [StaticMapped, known]
  cases hf : c.hosts <;> simp [hf] at hmem
  exact hmem

theorem delegatedGate_passes {c : DelegatedCalls} {req : Request} {form : DelegatedAdminRequest}
    {host : String} {w w' : World} (h : (delegatedGate c req form host).run w = (.ok none, w')) :
    Delegated w req.authUser host := by
  have passed := inOrder_passes (onlyTokens_delegatedGates c req form host) h
  obtain ⟨w₁, w₂, ⟨tokens, rfl⟩, hhost⟩ := passed _ (List.mem_cons_of_mem _ List.mem_cons_self)
  obtain ⟨b, hb, backed⟩ := run_canAdminFQDN c.admin req.authUser host
    { w with db := { w.db with csrfTokens := tokens } }
  have allowed := refuseUnless_passes hhost
  rw [hb] at allowed
  cases allowed
  exact backed rfl

theorem domainGate_passes {c : DomainCalls} {req : Request} {form : DomainAdminRequest}
    {host : String} {w w' : World} (h : (domainGate c req form host).run w = (.ok none, w')) :
    DomainAllowed w req.authUser host := by
  have passed := inOrder_passes (onlyTokens_domainGates c req form host) h
  obtain ⟨w₁, w₂, ⟨tokens, rfl⟩, hda⟩ := passed _ (List.mem_cons_of_mem _ List.mem_cons_self)
  obtain ⟨w₃, w₄, ⟨tokens', rfl⟩, hhost⟩ := passed _ (List.mem_cons_of_mem _ (List.mem_cons_of_mem _
    (List.mem_cons_of_mem _ List.mem_cons_self)))
  obtain ⟨b, hb, granted⟩ := run_canUseDA c.da req.authUser
    { w with db := { w.db with csrfTokens := tokens } }
  have allowed := refuseUnless_passes hda
  rw [hb] at allowed
  cases allowed
  have listed := refuseUnless_passes hhost
  rw [Prog.run_bind_ok (run_getDomainAdminFQDNs _ _)] at listed
  have found := Except.ok.inj (Prod.mk.inj listed).1
  refine ⟨granted rfl, ?_⟩
  cases hf : c.hosts <;> simp [hf] at found
  exact found

/-! ## Characters that only the loose class lets through -/

def misfit (c : Char) : Bool := ['[', '\\', ']', '^', '`'].contains c

theorem looseHostChar_eq (c : Char) : looseHostChar c = (hostChar c || misfit c) := by
  by_cases between : 91 ≤ c.toNat ∧ c.toNat ≤ 96
  · obtain ⟨low, high⟩ := between
    have hc : c = Char.ofNat c.toNat := (Char.ofNat_toNat c).symm
    generalize c.toNat = n at hc low high
    subst hc
    interval_cases n <;> decide
  · have alpha : c.isAlpha = (decide ('A'.val ≤ c.val ∧ c.val ≤ 'Z'.val) ||
        (decide ('a'.val ≤ c.val) && decide (c.val ≤ 'z'.val))) := rfl
    have letter : looseLetter c = c.isAlpha := by
      rw [alpha, Bool.eq_iff_iff]
      simp only [looseLetter, Bool.and_eq_true, Bool.or_eq_true, decide_eq_true_eq,
        UInt32.le_iff_toNat_le]
      change 65 ≤ c.toNat ∧ c.toNat ≤ 122 ↔
        (65 ≤ c.toNat ∧ c.toNat ≤ 90) ∨ (97 ≤ c.toNat ∧ c.toNat ≤ 122)
      omega
    have fits : misfit c = false := by
      rw [misfit, List.contains_eq_mem, decide_eq_false_iff_not]
      intro h
      apply between
      simp only [List.mem_cons, List.not_mem_nil, or_false] at h
      rcases h with rfl | rfl | rfl | rfl | rfl <;> decide
    rw [looseHostChar, hostChar, letter, fits, Char.isAlphanum, Bool.or_false]

theorem hostChar_of_misfit {c : Char} (h : misfit c = true) : hostChar c = false := by
  rw [misfit, List.contains_iff_mem] at h
  simp only [List.mem_cons, List.not_mem_nil, or_false] at h
  rcases h with rfl | rfl | rfl | rfl | rfl <;> decide

/-- The requested name has no misfit, and if the filter shortens it then the
shortened name is one the user may reach as well. -/
def Fits (allowed : String → Prop) (target : String) : Prop :=
  (∀ c ∈ target.toList, misfit c = false) ∧
    ((∃ c ∈ target.toList, looseHostChar c = false) → allowed (keepOnly looseHostChar target))

theorem fits_iff {allowed : String → Prop} {target : String} (checked : allowed target) :
    Fits allowed target ↔ allowed (keepOnly looseHostChar target) ∧
      ∀ c ∈ (keepOnly looseHostChar target).toList, hostChar c = true := by
  constructor
  · rintro ⟨fit, shortened⟩
    refine ⟨?_, fun c hc => ?_⟩
    · by_cases loose : ∃ c ∈ target.toList, looseHostChar c = false
      · exact shortened loose
      · rw [keepOnly_eq_self]
        · exact checked
        · intro c hc
          by_contra hl
          exact loose ⟨c, hc, by simpa using hl⟩
    · obtain ⟨hmem, hl⟩ := mem_keepOnly.mp hc
      rwa [looseHostChar_eq, fit c hmem, Bool.or_false] at hl
  · rintro ⟨mapped, legal⟩
    refine ⟨fun c hc => ?_, fun _ => mapped⟩
    by_contra hm
    have hm' : misfit c = true := by simpa using hm
    have kept : c ∈ (keepOnly looseHostChar target).toList :=
      mem_keepOnly.mpr ⟨hc, by rw [looseHostChar_eq, hm', Bool.or_true]⟩
    exact absurd (legal c kept) (by simp [hostChar_of_misfit hm'])

/-! ## Hosts in the log -/

/-- Hosts written to `sessions`. -/
def sessionHosts (effects : List Effect) : List (Option String) :=
  effects.filterMap (fun e => match e with
    | .sessionInserted row => some row.fqdn
    | .sessionUpdated fqdn => some fqdn
    | _ => none)

/-- A container that the execution started connects to the host that was
written to `sessions`; the host is allowed and has only legal characters. -/
def OnAllowedHost (allowed : String → Prop) (w w' : World) : Prop :=
  ∀ c ∈ started (newEffects w w'),
    (∀ f ∈ sessionHosts (newEffects w w'), f = some c.rhostname) ∧ allowed c.rhostname ∧
      ∀ ch ∈ c.rhostname.toList, hostChar ch = true

/-- No session row is written but for this host. -/
def WritesHost (host : String) (w w' : World) : Prop :=
  ∃ effects, w'.trace = w.trace ++ effects ∧ ∀ f ∈ sessionHosts effects, f = some host

theorem sessionHosts_append (es es' : List Effect) :
    sessionHosts (es ++ es') = sessionHosts es ++ sessionHosts es' :=
  List.filterMap_append

theorem sessionHosts_eq_nil {effects : List Effect}
    (other : ∀ e ∈ effects, Effect.quiet e = true ∨ Effect.ofEngine e = true) :
    sessionHosts effects = [] := by
  rw [sessionHosts, List.filterMap_eq_nil_iff]
  intro e he
  have := other e he
  cases e <;> simp_all [Effect.quiet, Effect.ofEngine]

section WritesHost

variable (host : String)

theorem writesHost_trans (w w' w'' : World) (h : WritesHost host w w') (h' : WritesHost host w' w'') :
    WritesHost host w w'' := by
  obtain ⟨es, hes, hs⟩ := h
  obtain ⟨es', hes', hs'⟩ := h'
  refine ⟨es ++ es', by rw [hes', hes, List.append_assoc], ?_⟩
  rw [sessionHosts_append]
  exact List.forall_mem_append.mpr ⟨hs, hs'⟩

theorem writesHost_quiet : Quiet (WritesHost host) := by
  intro w accounts log admins tokens effects quiet
  refine ⟨effects, rfl, ?_⟩
  rw [sessionHosts_eq_nil (fun e he => .inl (quiet e he))]
  simp

theorem writesHost_engine : IgnoresEngine (WritesHost host) := by
  intro w engine effects ofEngine
  refine ⟨effects, rfl, ?_⟩
  rw [sessionHosts_eq_nil (fun e he => .inr (ofEngine e he))]
  simp

theorem writesHost_permits {host : String} {s : ProconsulSession} (h : s.fqdn = some host) :
    Permits (WritesHost host) s := by
  refine ⟨fun w => ⟨_, rfl, ?_⟩, fun w => ⟨_, rfl, ?_⟩⟩ <;> simp [sessionHosts, sessionRow, h]

end WritesHost

/-- No port is taken, no session row written and no container started. -/
def Before (w w' : World) : Prop :=
  w'.db.ports = w.db.ports ∧
    ∃ effects, w'.trace = w.trace ++ effects ∧ started effects = [] ∧ sessionHosts effects = []

theorem before_quiet : Quiet Before := fun _ _ _ _ _ effects quiet =>
  ⟨rfl, effects, rfl, started_quiet quiet, sessionHosts_eq_nil (fun e he => .inl (quiet e he))⟩

theorem before_trans (w w' w'' : World) (h : Before w w') (h' : Before w' w'') : Before w w'' := by
  obtain ⟨hp, es, hes, hs, hh⟩ := h
  obtain ⟨hp', es', hes', hs', hh'⟩ := h'
  refine ⟨hp'.trans hp, es ++ es', by rw [hes', hes, List.append_assoc], ?_, ?_⟩
  · rw [started_append, hs, hs', List.nil_append]
  · rw [sessionHosts_append, hh, hh', List.nil_append]

theorem onAllowedHost_of_before {allowed : String → Prop} {w w' : World} (before : Before w w') :
    OnAllowedHost allowed w w' := by
  obtain ⟨-, es, hes, hs, -⟩ := before
  intro c hc
  rw [newEffects_of_append hes, hs] at hc
  simp at hc

/-- From the port on: the one container that starts is on the session's host. -/
theorem onAllowedHost_opens {allowed : String → Prop} {host : String} {w w₂ : World} {c : PortCalls}
    {ok : Prop} {s : ProconsulSession} {p : Run Page} (before : Before w w₂)
    (hosted : s.fqdn = some host)
    (opens : Opens (WritesHost host) c ok (fun port => Serves { s with novncPort := port }) p) :
    OnAllowedHost allowed w (p.run w₂).2 ↔
      (allocates c w = true → ok → allowed host ∧ ∀ ch ∈ host.toList, hostChar ch = true) := by
  rw [← allocates_congr c before.1]
  rcases opens w₂ with ⟨no, same⟩ | ⟨yes, row, q, hrun, starts⟩
  · rw [same, no]
    exact ⟨by simp, fun _ => onAllowedHost_of_before before⟩
  · obtain ⟨-, pre, hpre, hs, hh⟩ := before
    obtain ⟨⟨es, hes, hosts⟩, es', hes', hout⟩ := starts (reserve row w₂)
    cases List.append_cancel_left (hes.symm.trans hes')
    have log : newEffects w (q.run (reserve row w₂)).2 =
        (pre ++ [.portReserved row.portnum]) ++ es :=
      newEffects_of_append (by rw [hes]; simp [reserve, hpre])
    have quietStart : started [Effect.portReserved row.portnum] = [] := rfl
    have quietHosts : sessionHosts [Effect.portReserved row.portnum] = [] := rfl
    rw [hrun, OnAllowedHost, log, started_append, started_append, sessionHosts_append,
      sessionHosts_append, hs, hh, yes, quietStart, quietHosts]
    simp only [List.nil_append]
    rcases hout with ⟨hok, ct, one, serves⟩ | ⟨hno, none⟩
    · have reached : ct.rhostname = host := by
        rw [serves.rhostname]
        exact congrArg javaString hosted
      rw [one]
      simp only [List.mem_singleton, forall_eq, reached, hok, true_imp_iff]
      exact ⟨fun h => h.2, fun h => ⟨hosts, h⟩⟩
    · rw [none]
      simp [hno]

/-! ## The four handlers -/

theorem onAllowedHost_withAccount {allowed : String → Prop} {cfg : Config} {c : CreateCalls}
    {au : Option AuthUser} {gate : Gate} {body : ADUser → Run Page} {w : World} {cond : Prop}
    (tokens : gate.Steps OnlyTokens)
    (h : ∀ w₁ u w₂, gate.run w = (.ok none, w₁) → Before w w₂ →
      (OnAllowedHost allowed w ((body u).run w₂).2 ↔ cond)) :
    OnAllowedHost allowed w ((withAccount cfg c au gate body).run w).2 ↔
      ∀ w₁ u w₂, gate.run w = (.ok none, w₁) →
        (createRandomizedADUser cfg c au).run w₁ = (.ok (some u), w₂) → cond := by
  rcases withAccount_cases cfg c au tokens body w with ⟨only, hno⟩ |
      ⟨w₁, sam, dn, k, w₂, passed, only, hcreate, -, -, hend⟩
  · exact ⟨fun _ w₁ u w₂ hg hc => absurd hc (hno w₁ u w₂ hg),
      fun _ => onAllowedHost_of_before (before_quiet.onlyTokens only)⟩
  · have created := Prog.run_related before_quiet.refl before_trans
      (quiet_createRandomizedADUser before_quiet cfg c au) w₁
    rw [hcreate] at created
    rw [hend, h w₁ _ w₂ passed (before_trans _ _ _ (before_quiet.onlyTokens only) created)]
    exact ⟨fun hc _ _ _ _ _ => hc, fun hc => hc w₁ _ w₂ passed hcreate⟩

/-- The request runs through to its container only with a name that fits. -/
def UserFits (cfg : Config) (c : UserCalls) (req : Request) (form : UserSessionRequest)
    (w : World) : Prop :=
  ∀ w₁ u w₂, (userGate c req form).run w = (.ok none, w₁) →
    (createRandomizedADUser cfg c.create (some req.authUser)).run w₁ = (.ok (some u), w₂) →
    ∀ target displayName, form.targetFQDN = some target → form.displayName = some displayName →
    allocates c.opening.port w = true →
    c.opening.write.succeed = true ∧ c.finish.write.succeed = true ∧
      c.finish.launch.container.succeed cfg = true →
    Fits (UserMapped w req.authUser) target

def StaticFits (cfg : Config) (c : StaticCalls) (req : Request) (form : StaticUserSessionRequest)
    (w : World) : Prop :=
  ∀ w₁, (staticGate c req form).run w = (.ok none, w₁) →
    ∀ target displayName, form.targetFQDN = some target → form.displayName = some displayName →
    allocates c.opening.port w = true →
    c.opening.write.succeed = true ∧ c.launch.container.succeed cfg = true →
    Fits (StaticMapped w req.authUser) target

theorem onAllowedHost_user_iff (cfg : Config) (c : UserCalls) (req : Request)
    (form : UserSessionRequest) (w : World) :
    OnAllowedHost (UserMapped w req.authUser) w ((handleUserSessionPost cfg c req form).run w).2 ↔
      UserFits cfg c req form w := by
  refine onAllowedHost_withAccount (steps_inOrder (onlyTokens_userGates c req form)) ?_
  intro w₁ u w₂ passed before
  obtain ⟨target, hosted, mapped⟩ := userGate_passes passed
  cases displayed : form.displayName with
  | none =>
    rw [userSession_unnamed displayed]
    exact ⟨by simp, fun _ => onAllowedHost_of_before before⟩
  | some displayName =>
    rw [onAllowedHost_opens before rfl (opens_userSession (writesHost_quiet _)
      (writesHost_trans _) (writesHost_engine _) hosted displayed rfl
      (fun _ s' same => writesHost_permits same.fqdn)), ← fits_iff mapped, hosted]
    simp

theorem onAllowedHost_static_iff (cfg : Config) (c : StaticCalls) (req : Request)
    (form : StaticUserSessionRequest) (w : World) :
    OnAllowedHost (StaticMapped w req.authUser) w
        ((handleStaticSessionPost cfg c req form).run w).2 ↔ StaticFits cfg c req form w := by
  rw [StaticFits]
  rcases handleStaticSessionPost_cases cfg c req form w with ⟨tokens, refused⟩ |
    ⟨w₁, passed, tokens, hend⟩
  · have before := before_quiet.onlyTokens tokens
    exact ⟨fun _ w₁ passed => absurd passed (refused w₁), fun _ => onAllowedHost_of_before before⟩
  · obtain ⟨target, hosted, mapped⟩ := staticGate_passes passed
    obtain ⟨u, w₂, hrun, before, -⟩ := (delivers_getStaticADUser before_quiet before_trans cfg
      c.mapping c.password req.authUser form.targetFQDN).run w₁
    have before₂ := before_trans _ _ _ (before_quiet.onlyTokens tokens) before
    rw [hend, Prog.run_bind_ok hrun, passed]
    cases displayed : form.displayName with
    | none =>
      rw [staticSession_unnamed displayed]
      exact ⟨by simp, fun _ => onAllowedHost_of_before before₂⟩
    | some displayName =>
      rw [onAllowedHost_opens before₂ rfl (opens_staticSession (writesHost_quiet _)
        (writesHost_trans _) (writesHost_engine _) hosted displayed rfl
        (fun _ s' same => writesHost_permits same.fqdn)), ← fits_iff mapped, hosted]
      simp

/-- Filtered before it is checked, a name needs no condition. -/
theorem onAllowedHost_delegated (cfg : Config) (c : DelegatedCalls) (req : Request)
    (form : DelegatedAdminRequest) (w : World) :
    OnAllowedHost (Delegated w req.authUser) w
      ((handleDelegatedAdminPost cfg c req form).run w).2 := by
  rw [handleDelegatedAdminPost]
  cases hosted : form.hostName with
  | none => exact onAllowedHost_of_before (before_quiet.refl w)
  | some host =>
    cases displayed : form.displayName with
    | none => exact onAllowedHost_of_before (before_quiet.refl w)
    | some displayName =>
      refine (onAllowedHost_withAccount
        (steps_inOrder (onlyTokens_delegatedGates c req form (keepOnly hostChar host)))
        (fun w₁ u w₂ passed before => iff_true_intro ?_)).mpr (fun _ _ _ _ _ => trivial)
      rw [onAllowedHost_opens before rfl (opens_delegatedSession (writesHost_quiet _)
        (writesHost_trans _) (writesHost_engine _) rfl
        (fun _ s' same => writesHost_permits same.fqdn))]
      exact fun _ _ => ⟨delegatedGate_passes passed, fun ch hch => (mem_keepOnly.mp hch).2⟩

theorem onAllowedHost_domain (cfg : Config) (c : DomainCalls) (req : Request)
    (form : DomainAdminRequest) (w : World) :
    OnAllowedHost (DomainAllowed w req.authUser) w
      ((handleDomainAdminPost cfg c req form).run w).2 := by
  rw [handleDomainAdminPost]
  cases hosted : form.targetFQDN with
  | none => exact onAllowedHost_of_before (before_quiet.refl w)
  | some target =>
    cases displayed : form.displayName with
    | none => exact onAllowedHost_of_before (before_quiet.refl w)
    | some displayName =>
      refine (onAllowedHost_withAccount
        (steps_inOrder (onlyTokens_domainGates c req form (keepOnly hostChar target)))
        (fun w₁ u w₂ passed before => iff_true_intro ?_)).mpr (fun _ _ _ _ _ => trivial)
      rw [onAllowedHost_opens before rfl (opens_domainSession (writesHost_quiet _)
        (writesHost_trans _) (writesHost_engine _) rfl
        (fun _ s' same => writesHost_permits same.fqdn))]
      exact fun _ _ => ⟨domainGate_passes passed, fun ch hch => (mem_keepOnly.mp hch).2⟩

/-- The two handlers that compare the filtered name always keep to the
allowed hosts; the other two exactly when no request with an unfitting name
runs through to its container. -/
theorem new_sessions_on_allowed_hosts_iff (cfg : Config) (req : Request) (w : World) :
    (∀ c form, OnAllowedHost (UserMapped w req.authUser) w
        ((handleUserSessionPost cfg c req form).run w).2 ↔ UserFits cfg c req form w) ∧
    (∀ c form, OnAllowedHost (StaticMapped w req.authUser) w
        ((handleStaticSessionPost cfg c req form).run w).2 ↔ StaticFits cfg c req form w) ∧
    (∀ c form, OnAllowedHost (Delegated w req.authUser) w
        ((handleDelegatedAdminPost cfg c req form).run w).2) ∧
    (∀ c form, OnAllowedHost (DomainAllowed w req.authUser) w
        ((handleDomainAdminPost cfg c req form).run w).2) :=
  ⟨fun c form => onAllowedHost_user_iff cfg c req form w,
    fun c form => onAllowedHost_static_iff cfg c req form w,
    fun c form => onAllowedHost_delegated cfg c req form w,
    fun c form => onAllowedHost_domain cfg c req form w⟩

/-- Pat is mapped to a host with a port number. -/
def portSite : World :=
  { sampleSite with
    db := { sampleSite.db with
      explicitHosts := [⟨some "pat@dom.ain", some "db.dom.ain:3390", none⟩] } }

def portSession : World :=
  ((handleUserSessionPost sampleConfig (.noOutage "ab3de6fgh-eas" "secret" "vncsecret") sampleRequest
    ⟨some "db.dom.ain:3390", some "db", some "T1"⟩).run portSite).2

/-- The container connects to `db.dom.ain3390`, a name Pat is not mapped to. -/
theorem filtered_host_unmapped :
    ¬ OnAllowedHost (UserMapped portSite sampleRequest.authUser) portSite portSession := by
  intro allowed
  have reached : (started (newEffects portSite portSession)).map Container.rhostname =
      ["db.dom.ain3390"] := by decide +kernel
  obtain ⟨c, hc, hname⟩ := List.mem_map.mp (reached ▸ List.mem_singleton_self _)
  have mapped := (allowed c hc).2.1
  rw [hname] at mapped
  rcases mapped with direct | ⟨m, hm, -⟩
  · exact absurd direct (by decide)
  · exact absurd hm List.not_mem_nil

end HostAuthorization
