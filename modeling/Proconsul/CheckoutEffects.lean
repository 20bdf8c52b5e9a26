import Proconsul.Checkout

/-!
# What one checkout request leaves behind

The log entries of `handleCheckOutPost` in the order they are made, and the
row it adds to `checkout`. Two questions are settled from them: when an
account reaches the Domain Admin group without having been registered, and in
which runs of requests every account stays within reach of the expiry sweep.
Both hold for all failures of all calls.
-/

namespace CheckoutEffects

open Program Schema Text Surroundings Access Hosts Accounts Sessions Handlers Checkout

/-! ## Order of log entries -/

section Order

universe u
variable {ε : Type u} {P : ε → Prop} {d : ε}

/-- Every entry satisfying `P` comes after an entry `d`. -/
def Preceded (P : ε → Prop) (d : ε) (log : List ε) : Prop :=
  ∀ pre e post, log = pre ++ e :: post → P e → d ∈ pre

theorem preceded_nil : Preceded P d [] := by
  intro pre e post h
  simp at h

theorem preceded_append {xs ys : List ε} :
    Preceded P d (xs ++ ys) ↔ Preceded P d xs ∧ (d ∈ xs ∨ Preceded P d ys) := by
  constructor
  · intro h
    refine ⟨fun pre e post hx he => h pre e (post ++ ys) (by simp [hx]) he, ?_⟩
    by_cases hd : d ∈ xs
    · exact .inl hd
    · refine .inr (fun pre e post hy he => ?_)
      have mem := h (xs ++ pre) e post (by simp [hy]) he
      exact (List.mem_append.mp mem).resolve_left hd
  · rintro ⟨hx, hy⟩ pre e post heq he
    rcases List.append_eq_append_iff.mp heq with ⟨as, rfl, hys⟩ | ⟨bs, rfl, hbs⟩
    · rcases hy with hd | hy
      · exact List.mem_append_left _ hd
      · exact List.mem_append_right _ (hy as e post hys he)
    · cases bs with
      | nil =>
        rcases hy with hd | hy
        · simpa using hd
        · have mem := hy [] e post (by simpa using hbs.symm) he
          simp at mem
      | cons b bs =>
        obtain ⟨rfl, rfl⟩ := List.cons.inj hbs
        exact hx pre e bs rfl he

theorem preceded_of_forall_not {log : List ε} (h : ∀ e ∈ log, ¬ P e) : Preceded P d log := by
  rintro pre e post rfl he
  exact absurd he (h e (by simp))

theorem preceded_iff_of_not_mem {log : List ε} (h : d ∉ log) :
    Preceded P d log ↔ ∀ e ∈ log, ¬ P e := by
  refine ⟨fun hp e he hPe => ?_, preceded_of_forall_not⟩
  obtain ⟨pre, post, rfl⟩ := List.append_of_mem he
  exact h (List.mem_append_left _ (hp pre e post rfl hPe))

end Order

/-! ## The groups a request adds, in order -/

/-- One group addition and whether a registration was stored just before it. -/
structure Add where
  registers : Bool
  urn : String
  calls : GroupCalls

def requestAdds (cfg : Config) (c : CheckoutCalls) (form : CheckedOutCredRequest) : List Add :=
  (requestedGroups form).zipIdx.map (fun g =>
    ⟨g.1 = cfg.dagroup && !(c.register g.2).write, g.1, c.group g.2⟩)

/-- The requested groups, then the default group. -/
def adds (cfg : Config) (c : CheckoutCalls) (form : CheckedOutCredRequest) : List Add :=
  requestAdds cfg c form ++ [⟨false, cfg.defgroupdn, c.default⟩]

def addEffects (cfg : Config) (sam : Option String) (ad : Directory) (a : Add) : List Effect :=
  (if a.registers then [.daStored sam] else []) ++ groupEffects cfg a.calls sam a.urn ad

theorem groupEffects_congr {ad ad' : Directory} (hn : names ad' = names ad)
    (hg : ad'.groups = ad.groups) (cfg : Config) (c : GroupCalls) (sam : Option String)
    (urn : String) : groupEffects cfg c sam urn ad' = groupEffects cfg c sam urn ad := by
  rw [groupEffects, groupEffects, accountDns_of_names hn, hg]

theorem addEffects_congr {ad ad' : Directory} (hn : names ad' = names ad)
    (hg : ad'.groups = ad.groups) (cfg : Config) (sam : Option String) :
    addEffects cfg sam ad' = addEffects cfg sam ad := by
  funext a
  rw [addEffects, addEffects, groupEffects_congr hn hg]

theorem run_makeUserAuthorizedDA (c : AdminCalls) (u : ADUser) (authu : Option AuthUser)
    (clientip : Option String) (w : World) :
    ∃ w', (makeUserAuthorizedDA c u authu clientip).run w = (.ok (!c.write), w') ∧
      names w'.ad = names w.ad ∧ w'.ad.groups = w.ad.groups ∧
      w'.trace = w.trace ++ if c.write then [] else [.daStored u.sAMAccountName] := by
  rw [makeUserAuthorizedDA, Prog.run_orElse, Prog.run_bind, run_execute rfl]
  cases c.write with
  | true => exact ⟨w, rfl, rfl, rfl, by simp⟩
  | false =>
    obtain ⟨w', hlog, same⟩ := run_audit c.audit "makeActiveDA" (authu.bind AuthUser.uid) none
      u.sAMAccountName none clientip { w with
        db := { w.db with activeDomainAdmins := w.db.activeDomainAdmins ++
          [⟨u.sAMAccountName, some c.now, some 0⟩] }
        trace := w.trace ++ [.daStored u.sAMAccountName] }
    refine ⟨w', ?_, same.names, same.groups, same.trace⟩
    simp only [Bool.false_eq_true, if_false]
    rw [Prog.run_bind_ok hlog]
    rfl

/-- The applying loop logs `addEffects`, group by group. -/
theorem run_assignGroups (cfg : Config) (c : CheckoutCalls) (au : AuthUser) (addr : Option String)
    (gs : List (String × Nat)) (u : ADUser) (w : World) :
    ∃ u' w', (gs.foldlM (assignGroup cfg c au addr) u).run w = (.ok u', w') ∧
      SameUser u (some u') ∧ names w'.ad = names w.ad ∧ w'.ad.groups = w.ad.groups ∧
      w'.trace = w.trace ++ (gs.map (fun g => (⟨g.1 = cfg.dagroup && !(c.register g.2).write, g.1,
        c.group g.2⟩ : Add))).flatMap (addEffects cfg u.sAMAccountName w.ad) := by
  induction gs generalizing u w with
  | nil => exact ⟨u, w, rfl, .refl u, rfl, rfl, by simp⟩
  | cons g gs ih =>
    have one : ∃ u' w', (assignGroup cfg c au addr u g).run w = (.ok u', w') ∧
        SameUser u (some u') ∧ names w'.ad = names w.ad ∧ w'.ad.groups = w.ad.groups ∧
        w'.trace = w.trace ++ addEffects cfg u.sAMAccountName w.ad
          ⟨g.1 = cfg.dagroup && !(c.register g.2).write, g.1, c.group g.2⟩ := by
      rw [assignGroup]
      by_cases hda : g.1 = cfg.dagroup
      · obtain ⟨w₁, hreg, hn, hg, ht⟩ :=
          run_makeUserAuthorizedDA (c.register g.2) u (some au) addr w
        obtain ⟨u', w₂, hadd, hu, hn', hg', ht'⟩ :=
          run_addGroupToADUser cfg (c.group g.2) g.1 u (some au) addr w₁
        refine ⟨u', w₂, ?_, hu, hn'.trans hn, hg'.trans hg, ?_⟩
        · rw [if_pos hda, Prog.run_bind_ok hreg, Prog.run_bind_ok hadd]
          rfl
        · rw [ht', ht, groupEffects_congr hn hg, addEffects, List.append_assoc]
          cases hw : (c.register g.2).write <;> simp [hda]
      · obtain ⟨u', w₂, hadd, hu, hn', hg', ht'⟩ :=
          run_addGroupToADUser cfg (c.group g.2) g.1 u (some au) addr w
        refine ⟨u', w₂, ?_, hu, hn', hg', ?_⟩
        · rw [if_neg hda, Prog.run_bind_ok hadd]
          rfl
        · rw [ht', addEffects]
          simp [hda]
    obtain ⟨u₁, w₁, hrun, hu, hn, hg, ht⟩ := one
    obtain ⟨u₂, w₂, hrun', hu', hn', hg', ht'⟩ := ih u₁ w₁
    refine ⟨u₂, w₂, ?_, hu.trans hu', hn'.trans hn, hg'.trans hg, ?_⟩
    · rw [List.foldlM_cons, Prog.run_bind_ok hrun, hrun']
    · obtain ⟨_, h, hsam, -⟩ := hu
      cases h
      rw [ht', ht, hsam, addEffects_congr hn hg, List.map_cons, List.flatMap_cons, List.append_assoc]

theorem run_storeCheckedOutUser (fails : Bool) (row : CheckoutRow) (w : World) :
    (storeCheckedOutUser fails row).run w = (.ok (!fails), if fails then w else
      { w with db := { w.db with checkout := w.db.checkout ++ [row] } }) := by
  rw [storeCheckedOutUser, Prog.run_orElse, Prog.run_bind, run_execute rfl]
  cases fails <;> simp

theorem quiet_checkout : Quiet (Keeps (fun w => w.db.checkout)) := by
  intro w accounts log admins tokens effects _
  rfl

theorem quiet_assignGroup {R : World → World → Prop} (quiet : Quiet R) (cfg : Config)
    (c : CheckoutCalls) (au : AuthUser) (addr : Option String) (u : ADUser) (g : String × Nat) :
    (assignGroup cfg c au addr u g).Steps R := by
  have add : ∀ u, ((addGroupToADUser cfg (c.group g.2) (some g.1) (some u) (some au) addr >>=
      fun o => pure (o.getD u)) : Run ADUser).Steps R :=
    fun u => Prog.steps_bind (quiet_addGroupToADUser quiet _ _ _ _ _ _) (fun _ => Prog.steps_pure _)
  rw [assignGroup]
  split
  · exact Prog.steps_bind (quiet_makeUserAuthorizedDA quiet _ _ _ _) (fun _ => add u)
  · exact add u

theorem run_limitHosts (cfg : Config) (c : CheckoutCalls) (au : AuthUser) (addr : Option String)
    (hosts : List (String × Nat)) (u : ADUser) (w : World) :
    ∃ w', (hosts.foldlM (fun u h => addWorkstationToADUser cfg (c.workstation h.2) h.1 u (some au)
        addr) u).run w = (.ok u, w') ∧ SameAccounts w w' ∧ w'.db.checkout = w.db.checkout := by
  have delivers := Prog.delivers_foldlM SameAccounts.refl (fun _ _ _ h h' => SameAccounts.trans h h')
    (Q := fun u' => u' = u) (f := fun u h => addWorkstationToADUser cfg (c.workstation h.2) h.1 u
      (some au) addr) (fun u' h hu' => hu' ▸ delivers_addWorkstationToADUser cfg _ _ _ _ _) hosts rfl
  obtain ⟨u', w', hrun, same, rfl⟩ := delivers.run w
  have kept := keeps_run (Prog.steps_foldlM (f := fun u (h : String × Nat) =>
    addWorkstationToADUser cfg (c.workstation h.2) h.1 u (some au) addr)
    (fun _ _ => quiet_addWorkstationToADUser quiet_checkout _ _ _ _ _ _) hosts u') w
  rw [hrun] at kept
  exact ⟨w', hrun, same, kept⟩

/-- After the account exists: the groups are added in order, and the row is
stored exactly when a host field was sent and the insert succeeds. -/
theorem run_registerCheckout (cfg : Config) (c : CheckoutCalls) (req : Request)
    (form : CheckedOutCredRequest) (u : ADUser) (w : World) :
    ∃ r w', (registerCheckout cfg c req form u).run w = (r, w') ∧ names w'.ad = names w.ad ∧
      w'.trace = w.trace ++ (adds cfg c form).flatMap (addEffects cfg u.sAMAccountName w.ad) ∧
      w'.db.checkout = w.db.checkout ++
        if form.targetHost.isSome && !c.store then [checkoutRow c req form u] else [] := by
  obtain ⟨u₁, w₁, hassign, hu₁, hn₁, hg₁, ht₁⟩ := run_assignGroups cfg c req.authUser req.remoteAddr
    (requestedGroups form).zipIdx u w
  obtain ⟨u₂, w₂, hdefault, hu₂, hn₂, hg₂, ht₂⟩ := run_addGroupToADUser cfg c.default
    cfg.defgroupdn u₁ (some req.authUser) req.remoteAddr w₁
  have kept₁ : w₁.db.checkout = w.db.checkout := by
    have kept := keeps_run (Prog.steps_foldlM (fun u g =>
      quiet_assignGroup quiet_checkout cfg c req.authUser req.remoteAddr u g)
      (requestedGroups form).zipIdx u) w
    rwa [hassign] at kept
  have kept₂ : w₂.db.checkout = w₁.db.checkout := by
    have kept := keeps_run (quiet_addGroupToADUser quiet_checkout cfg c.default
      (some cfg.defgroupdn) (some u₁) (some req.authUser) req.remoteAddr) w₁
    rwa [hdefault] at kept
  obtain ⟨_, h₁, hsam₁, -⟩ := hu₁
  cases h₁
  obtain ⟨_, h₂, hsam₂, -⟩ := hu₂
  cases h₂
  have trace : w₂.trace = w.trace ++
      (adds cfg c form).flatMap (addEffects cfg u.sAMAccountName w.ad) := by
    rw [ht₂, ht₁, hsam₁, groupEffects_congr hn₁ hg₁, adds, List.flatMap_append, requestAdds,
      List.append_assoc]
    simp [addEffects]
  rw [registerCheckout]
  dsimp only
  rw [Prog.run_bind_ok hassign, Prog.run_bind_ok hdefault]
  cases hhost : form.targetHost with
  | none =>
    refine ⟨_, w₂, rfl, hn₂.trans hn₁, trace, ?_⟩
    rw [kept₂, kept₁, Option.isSome_none, Bool.false_and, if_neg Bool.false_ne_true, List.append_nil]
  | some limithost =>
    obtain ⟨w₃, hlimit, same, kept₃⟩ := run_limitHosts cfg c req.authUser req.remoteAddr
      (javaSplit ',' limithost).zipIdx u₂ w₂
    refine ⟨_, _, (Prog.run_bind_ok hlimit).trans
      (Prog.run_bind_ok (run_storeCheckedOutUser c.store _ w₃)), ?_⟩
    have row : checkoutRow c req form u₂ = checkoutRow c req form u := by
      rw [checkoutRow, checkoutRow, hsam₂, hsam₁]
    cases c.store with
    | true =>
      refine ⟨same.names.trans (hn₂.trans hn₁), same.trace.trans trace, ?_⟩
      refine (kept₃.trans (kept₂.trans kept₁)).trans ?_
      simp
    | false =>
      refine ⟨same.names.trans (hn₂.trans hn₁), same.trace.trans trace, ?_⟩
      rw [← row]
      exact congrArg (· ++ [checkoutRow c req form u₂]) (kept₃.trans (kept₂.trans kept₁))

/-! ## The handler as a whole -/

theorem onlyTokens_checkoutGates (cfg : Config) (c : CheckoutCalls) (req : Request)
    (form : CheckedOutCredRequest) : ∀ g ∈ checkoutGates cfg c req form, g.Steps OnlyTokens := by
  intro g hg
  simp only [checkoutGates, List.mem_cons] at hg
  rcases hg with rfl | rfl | hg
  · refine onlyTokens_refuseUnless (Prog.steps_bind (reads_canUseApp _ _) (fun b => ?_)) _
    cases b with
    | false => exact Prog.steps_pure _
    | true => exact reads_canUseCO _ _
  · exact onlyTokens_csrfGate _ _ _ _
  · obtain ⟨x, -, rfl⟩ := List.mem_map.mp hg
    rw [groupGate]
    split
    · exact onlyTokens_refuseUnless (reads_canUseDA _ _) _
    · exact onlyTokens_refuseUnless
        (Prog.steps_bind (reads_groupDnsForEppn _ _) (fun _ => Prog.steps_pure _)) _

theorem handleCheckOutPost_cases (cfg : Config) (c : CheckoutCalls) (req : Request)
    (form : CheckedOutCredRequest) (w : World) :
    (OnlyTokens w ((handleCheckOutPost cfg c req form).run w).2 ∧
      ∀ w₁ u w₂, (inOrder (checkoutGates cfg c req form)).run w = (.ok none, w₁) →
        (createRandomizedADUser cfg c.create none).run w₁ ≠ (.ok (some u), w₂)) ∨
    ∃ w₁ sam dn k w₂, (inOrder (checkoutGates cfg c req form)).run w = (.ok none, w₁) ∧
      OnlyTokens w w₁ ∧
      (createRandomizedADUser cfg c.create none).run w₁ =
        (.ok (some (randomizedUser cfg c.create sam)), w₂) ∧ Created sam dn k w₁ w₂ ∧
      (k ≠ 0 ↔ accepted cfg c.create = true) ∧
      (handleCheckOutPost cfg c req form).run w =
        (registerCheckout cfg c req form (randomizedUser cfg c.create sam)).run w₂ :=
  withAccount_cases cfg c.create none (steps_inOrder (onlyTokens_checkoutGates cfg c req form))
    (registerCheckout cfg c req form) w

/-! ## Domain Admin rights -/

/-- The entry puts an account into the configured group, as the directory compares names. -/
def IntoDa (cfg : Config) (e : Effect) : Prop :=
  ∃ sam g, e = .groupAdded sam g ∧ dnEq g cfg.dagroup = true

/-- Whoever is put into the Domain Admin group was registered before, on
behalf of a requester entitled to it. -/
def DaChecked (cfg : Config) (db : Database) (au : AuthUser) (effects : List Effect) : Prop :=
  ∀ pre sam g post, effects = pre ++ .groupAdded sam g :: post → dnEq g cfg.dagroup = true →
    grants db "da" au = true ∧ .daStored (some sam) ∈ pre

/-- The addition is for the Domain Admin group, in whatever spelling, and at
least one controller is reached and does not refuse it. -/
def landsInDa (cfg : Config) (a : Add) : Bool :=
  dnEq (groupDn cfg a.urn) cfg.dagroup && !a.calls.find &&
    (List.range cfg.dcs).any (fun i => !a.calls.controller i)

/-- Going through the additions in order, none lands in the Domain Admin group
before a registration has been stored. -/
def registeredFirst (cfg : Config) : Bool → List Add → Bool
  | _, [] => true
  | registered, a :: rest =>
    (!landsInDa cfg a || registered || a.registers) &&
      registeredFirst cfg (registered || a.registers) rest

theorem mem_groupEffects {cfg : Config} {c : GroupCalls} {sam : Option String} {urn : String}
    {ad : Directory} {e : Effect} (h : e ∈ groupEffects cfg c sam urn ad) :
    e = .groupAdded (javaString sam) (groupDn cfg urn) := by
  rw [groupEffects] at h
  split at h
  · obtain ⟨i, -, rfl⟩ := List.mem_map.mp h
    rfl
  · simp at h

theorem daStored_mem_addEffects {cfg : Config} {sam : Option String} {ad : Directory} {a : Add}
    {s : Option String} : .daStored s ∈ addEffects cfg sam ad a ↔ a.registers = true ∧ s = sam := by
  have none : .daStored s ∉ groupEffects cfg a.calls sam a.urn ad := by
    intro h
    cases mem_groupEffects h
  rw [addEffects, List.mem_append, or_iff_left none]
  cases a.registers <;> simp

theorem groupAdded_mem_addEffects {cfg : Config} {sam : Option String} {ad : Directory} {a : Add}
    {s g : String} : .groupAdded s g ∈ addEffects cfg sam ad a ↔
      .groupAdded s g ∈ groupEffects cfg a.calls sam a.urn ad := by
  rw [addEffects, List.mem_append]
  cases a.registers <;> simp

/-- With the account and the group in place, an addition that should land does. -/
theorem intoDa_addEffects {cfg : Config} {sam : Option String} {ad : Directory} {a : Add}
    (present : (accountDns ad sam).head?.isSome = true)
    (grouped : ad.groups.any (fun g => dnEq g cfg.dagroup) = true) :
    (∃ e ∈ addEffects cfg sam ad a, IntoDa cfg e) ↔ landsInDa cfg a = true := by
  constructor
  · rintro ⟨e, he, s, g, rfl, hda⟩
    have hg := groupAdded_mem_addEffects.mp he
    cases mem_groupEffects hg
    rw [groupEffects] at hg
    split at hg
    · rename_i reached
      obtain ⟨i, hi, -⟩ := List.mem_map.mp hg
      rw [List.mem_filter] at hi
      simp only [Bool.and_eq_true] at reached
      rw [landsInDa, hda, reached.1.1]
      exact List.any_eq_true.mpr ⟨i, hi⟩
    · simp at hg
  · intro lands
    rw [landsInDa, Bool.and_eq_true, Bool.and_eq_true] at lands
    obtain ⟨⟨hda, hfind⟩, hany⟩ := lands
    obtain ⟨i, hi, hok⟩ := List.any_eq_true.mp hany
    have existing : ad.groups.any (fun g => dnEq g (groupDn cfg a.urn)) = true := by
      obtain ⟨g, hg, hgda⟩ := List.any_eq_true.mp grouped
      exact List.any_eq_true.mpr ⟨g, hg, dnEq_trans hgda (dnEq_symm hda)⟩
    refine ⟨.groupAdded (javaString sam) (groupDn cfg a.urn), ?_, _, _, rfl, hda⟩
    rw [addEffects, groupEffects, hfind, present, existing]
    exact List.mem_append_right _ (List.mem_map.mpr ⟨i, List.mem_filter.mpr ⟨hi, hok⟩, rfl⟩)

theorem preceded_addEffects {cfg : Config} {sam : Option String} {ad : Directory} {a : Add}
    (present : (accountDns ad sam).head?.isSome = true)
    (grouped : ad.groups.any (fun g => dnEq g cfg.dagroup) = true) :
    Preceded (IntoDa cfg) (.daStored sam) (addEffects cfg sam ad a) ↔
      (landsInDa cfg a = true → a.registers = true) := by
  have landing := intoDa_addEffects (a := a) present grouped
  cases hr : a.registers with
  | true =>
    simp only [implies_true, iff_true]
    rw [addEffects, hr, if_pos rfl, preceded_append]
    refine ⟨preceded_of_forall_not ?_, .inl (List.mem_singleton_self _)⟩
    rintro e he ⟨s, g, rfl, -⟩
    simp at he
  | false =>
    have none : .daStored sam ∉ addEffects cfg sam ad a := by
      rw [daStored_mem_addEffects, hr]
      simp
    rw [preceded_iff_of_not_mem none, ← landing]
    simp

theorem registeredFirst_iff {cfg : Config} {sam : Option String} {ad : Directory}
    (present : (accountDns ad sam).head?.isSome = true)
    (grouped : ad.groups.any (fun g => dnEq g cfg.dagroup) = true) (registered : Bool)
    (as : List Add) :
    (registered = true ∨ Preceded (IntoDa cfg) (.daStored sam)
      (as.flatMap (addEffects cfg sam ad))) ↔ registeredFirst cfg registered as = true := by
  induction as generalizing registered with
  | nil => simp [registeredFirst, preceded_nil]
  | cons a as ih =>
    rw [List.flatMap_cons, preceded_append, preceded_addEffects present grouped,
      daStored_mem_addEffects, registeredFirst, Bool.and_eq_true, ← ih]
    cases registered <;> cases a.registers <;> cases landsInDa cfg a <;> simp

/-- Without the account or the group nothing is added to the group. -/
theorem not_intoDa_addEffects {cfg : Config} {sam : Option String} {ad : Directory}
    (missing : ¬ ((accountDns ad sam).head?.isSome = true ∧
      ad.groups.any (fun g => dnEq g cfg.dagroup) = true)) (a : Add) :
    ∀ e ∈ addEffects cfg sam ad a, ¬ IntoDa cfg e := by
  rintro e he ⟨s, g, rfl, hda⟩
  have hg := groupAdded_mem_addEffects.mp he
  cases mem_groupEffects hg
  rw [groupEffects] at hg
  split at hg
  · rename_i reached
    simp only [Bool.and_eq_true] at reached
    obtain ⟨x, hx, hxg⟩ := List.any_eq_true.mp reached.2
    exact missing ⟨reached.1.2, List.any_eq_true.mpr ⟨x, hx, dnEq_trans hxg hda⟩⟩
  · simp at hg

/-- A registration in the list means that the gates let a Domain Admin through. -/
theorem grants_of_registers {cfg : Config} {c : CheckoutCalls} {req : Request}
    {form : CheckedOutCredRequest} {w w₁ : World}
    (passed : (inOrder (checkoutGates cfg c req form)).run w = (.ok none, w₁)) {a : Add}
    (ha : a ∈ adds cfg c form) (registers : a.registers = true) :
    grants w.db "da" req.authUser = true := by
  rw [adds, List.mem_append, requestAdds] at ha
  rcases ha with ha | ha
  · obtain ⟨g, hg, rfl⟩ := List.mem_map.mp ha
    simp only [Bool.and_eq_true, decide_eq_true_eq] at registers
    have member : groupGate cfg c req.authUser g ∈ checkoutGates cfg c req form :=
      List.mem_cons_of_mem _ (List.mem_cons_of_mem _ (List.mem_map_of_mem hg))
    obtain ⟨w₂, w₃, ⟨tokens, rfl⟩, hrun⟩ := inOrder_passes
      (onlyTokens_checkoutGates cfg c req form) passed _ member
    rw [groupGate, if_pos registers.1] at hrun
    have allowed := refuseUnless_passes hrun
    obtain ⟨b, hb, granted⟩ := run_canUseDA (c.da g.2) req.authUser
      { w with db := { w.db with csrfTokens := tokens } }
    rw [hb] at allowed
    cases allowed
    exact granted rfl
  · cases List.mem_singleton.mp ha
    cases registers

section Log

variable {cfg : Config} {db : Database} {au : AuthUser} {sam : String} {k : Nat} {ad : Directory}
variable {as : List Add}

/-- Creation, then the additions: the part of the log that a request writes. -/
def requestLog (cfg : Config) (sam : String) (k : Nat) (ad : Directory) (as : List Add) :
    List Effect :=
  List.replicate k (.accountCreated sam) ++ as.flatMap (addEffects cfg (some sam) ad)

theorem groupAdded_mem_requestLog {s g : String} (h : .groupAdded s g ∈ requestLog cfg sam k ad as) :
    s = sam ∧ ∃ a ∈ as, .groupAdded s g ∈ addEffects cfg (some sam) ad a := by
  rcases List.mem_append.mp h with h | h
  · cases List.eq_of_mem_replicate h
  · obtain ⟨a, ha, hmem⟩ := List.mem_flatMap.mp h
    refine ⟨?_, a, ha, hmem⟩
    cases mem_groupEffects (groupAdded_mem_addEffects.mp hmem)
    rfl

theorem daStored_mem_requestLog (h : .daStored (some sam) ∈ requestLog cfg sam k ad as) :
    ∃ a ∈ as, a.registers = true := by
  rcases List.mem_append.mp h with h | h
  · cases List.eq_of_mem_replicate h
  · obtain ⟨a, ha, hmem⟩ := List.mem_flatMap.mp h
    exact ⟨a, ha, (daStored_mem_addEffects.mp hmem).1⟩

theorem preceded_requestLog :
    Preceded (IntoDa cfg) (.daStored (some sam)) (requestLog cfg sam k ad as) ↔
      Preceded (IntoDa cfg) (.daStored (some sam)) (as.flatMap (addEffects cfg (some sam) ad)) := by
  have quiet : Preceded (IntoDa cfg) (.daStored (some sam))
      (List.replicate k (Effect.accountCreated sam)) := by
    refine preceded_of_forall_not ?_
    rintro e he ⟨_, _, rfl, -⟩
    cases List.eq_of_mem_replicate he
  have fresh : Effect.daStored (some sam) ∉ List.replicate k (.accountCreated sam) := by
    intro h
    cases List.eq_of_mem_replicate h
  rw [requestLog, preceded_append]
  simp only [quiet, fresh, true_and, false_or]

theorem daChecked_requestLog_iff
    (granted : ∀ a ∈ as, a.registers = true → grants db "da" au = true) :
    DaChecked cfg db au (requestLog cfg sam k ad as) ↔
      ((accountDns ad (some sam)).head?.isSome = true →
        ad.groups.any (fun g => dnEq g cfg.dagroup) = true →
        registeredFirst cfg false as = true) := by
  constructor
  · intro h present grouped
    refine (registeredFirst_iff present grouped false as).mp
      (.inr ((preceded_requestLog (k := k)).mp ?_))
    rintro pre e post heq ⟨s, g, rfl, hda⟩
    have logged : .groupAdded s g ∈ requestLog cfg sam k ad as := by rw [heq]; simp
    cases (groupAdded_mem_requestLog logged).1
    exact (h pre sam g post heq hda).2
  · intro cond pre s g post heq hda
    have into : IntoDa cfg (.groupAdded s g) := ⟨s, g, rfl, hda⟩
    have logged : .groupAdded s g ∈ requestLog cfg sam k ad as := by rw [heq]; simp
    obtain ⟨rfl, a, -, hadd⟩ := groupAdded_mem_requestLog logged
    by_cases reach : (accountDns ad (some s)).head?.isSome = true ∧
        ad.groups.any (fun g => dnEq g cfg.dagroup) = true
    · have ordered := ((registeredFirst_iff reach.1 reach.2 false as).mpr
        (cond reach.1 reach.2)).resolve_left (by simp)
      have stored := preceded_requestLog.mpr ordered pre _ post heq into
      have registered : .daStored (some s) ∈ requestLog cfg s k ad as := by
        rw [heq]
        exact List.mem_append_left _ stored
      obtain ⟨a', ha', registers⟩ := daStored_mem_requestLog registered
      exact ⟨granted a' ha' registers, stored⟩
    · exact absurd into (not_intoDa_addEffects reach a _ hadd)

end Log

/-- Pat may check out credentials and is mapped to the Domain Admin group, but
in capitals, while the configuration has it in small letters. -/
def respelledGroup : World :=
  { World.empty with
    db := { Database.empty with
      accessUser := [⟨some "pat@dom.ain", some "proconsul"⟩, ⟨some "pat@dom.ain", some "co"⟩]
      csrfTokens := [⟨some "S1", some "T1", 0⟩]
      explicitGroups := [⟨some "pat@dom.ain", some "CN=Domain Admins,CN=Users,DC=dom,DC=ain"⟩] }
    ad := { World.empty.ad with
      groups := ["cn=Domain Admins,cn=Users,dc=dom,dc=ain", "cn=proconsul,dc=dom,dc=ain"] } }

def respelledRequest : CheckedOutCredRequest where
  targetHost := some "host1.dom.ain"
  lifetime := 4
  reason := some "patching"
  csrfToken := some "T1"
  groups := some ["CN=Domain Admins|CN=Users|DC=dom|DC=ain"]

/-- Each account that a request has created and that still exists is named by
a checkout the sweep can find. -/
def Covered (w : World) : Prop :=
  ∀ sam, .accountCreated sam ∈ w.trace → (∃ a ∈ w.ad.accounts, nameEq a.sam sam = true) →
    ∃ r ∈ w.db.checkout, sqlEq r.aduser (some sam) = true ∧ sqlEq r.status (some "active") = true

/-- If the request comes to create an account and a controller takes it, then
it names a host and the insert into `checkout` succeeds. -/
def Recorded (cfg : Config) (c : CheckoutCalls) (req : Request) (form : CheckedOutCredRequest)
    (w : World) : Prop :=
  ∀ w₁ u w₂, (inOrder (checkoutGates cfg c req form)).run w = (.ok none, w₁) →
    (createRandomizedADUser cfg c.create none).run w₁ = (.ok (some u), w₂) →
    accepted cfg c.create = true → form.targetHost.isSome = true ∧ c.store = false

/-- One request, from beginning to end, with any failures that `Recorded` permits. -/
def RecordedStep (cfg : Config) (w w' : World) : Prop :=
  ∃ c req form, Recorded cfg c req form w ∧ w' = ((handleCheckOutPost cfg c req form).run w).2

theorem covered_of_same {w w' : World} (trace : w'.trace = w.trace)
    (accounts : w'.ad.accounts = w.ad.accounts) (rows : w'.db.checkout = w.db.checkout)
    (h : Covered w) : Covered w' := by
  intro sam
  rw [trace, accounts, rows]
  exact h sam

theorem exists_name_iff {ad : Directory} {sam : String} :
    (∃ a ∈ ad.accounts, nameEq a.sam sam = true) ↔ ∃ p ∈ names ad, nameEq p.1 sam = true := by
  simp [names]

theorem created_not_mem_addEffects {cfg : Config} {sam : Option String} {ad : Directory}
    {as : List Add} {s : String} : .accountCreated s ∉ as.flatMap (addEffects cfg sam ad) := by
  intro h
  obtain ⟨a, -, ha⟩ := List.mem_flatMap.mp h
  rcases List.mem_append.mp ha with ha | ha
  · cases hr : a.registers <;> simp [hr] at ha
  · cases mem_groupEffects ha

/-- The new account, if there is one, comes with an active row; the old ones keep theirs. -/
theorem covered_append {w w' : World} {sam dn : String} {k : Nat} {rows : List CheckoutRow}
    (logged : ∀ s, .accountCreated s ∈ w'.trace →
      .accountCreated s ∈ w.trace ∨ .accountCreated s ∈ List.replicate k (Effect.accountCreated sam))
    (named : names w'.ad = names w.ad ++ List.replicate k (sam, dn))
    (kept : w'.db.checkout = w.db.checkout ++ rows)
    (recorded : k ≠ 0 → ∃ r ∈ rows, r.aduser = some sam ∧ r.status = some "active")
    (h : Covered w) : Covered w' := by
  have fresh : ∀ s, k ≠ 0 → nameEq sam s = true → ∃ r ∈ w'.db.checkout,
      sqlEq r.aduser (some s) = true ∧ sqlEq r.status (some "active") = true := by
    intro s hk heq
    obtain ⟨r, hr, hu, hs⟩ := recorded hk
    refine ⟨r, kept ▸ List.mem_append_right _ hr, ?_, by rw [hs]; exact sqlEq_refl _⟩
    rw [hu]
    exact beq_iff_eq.mpr (sqlKey_of_nameEq heq)
  intro s hlog hex
  rcases logged s hlog with hold | hnew
  · obtain ⟨p, hp, heq⟩ := exists_name_iff.mp hex
    rw [named] at hp
    rcases List.mem_append.mp hp with hp | hp
    · obtain ⟨r, hr, hrow⟩ := h s hold (exists_name_iff.mpr ⟨p, hp, heq⟩)
      exact ⟨r, kept ▸ List.mem_append_left _ hr, hrow⟩
    · obtain ⟨hk, rfl⟩ := List.mem_replicate.mp hp
      exact fresh s hk heq
  · obtain ⟨hk, hs⟩ := List.mem_replicate.mp hnew
    cases hs
    exact fresh sam hk (nameEq_refl sam)

theorem covered_step {cfg : Config} {w w' : World} (h : Covered w) (step : RecordedStep cfg w w') :
    Covered w' := by
  obtain ⟨c, req, form, recorded, rfl⟩ := step
  rcases handleCheckOutPost_cases cfg c req form w with ⟨⟨tokens, same⟩, -⟩ |
      ⟨w₁, sam, dn, k, w₂, passed, ⟨tokens, rfl⟩, hcreate, created, made, hend⟩
  · rw [same]
    exact covered_of_same rfl rfl rfl h
  · obtain ⟨r, w₃, hreg, hnames, htrace, hrows⟩ := run_registerCheckout cfg c req form
      (randomizedUser cfg c.create sam) w₂
    have kept : w₂.db.checkout = w.db.checkout := by
      have kept := keeps_run (quiet_createRandomizedADUser quiet_checkout cfg c.create none)
        { w with db := { w.db with csrfTokens := tokens } }
      rwa [hcreate] at kept
    rw [hend, hreg]
    refine covered_append ?_ (hnames.trans created.names) (hrows.trans (congrArg (· ++ _) kept))
      ?_ h
    · intro s hs
      rw [htrace, created.trace, List.append_assoc] at hs
      rcases List.mem_append.mp hs with hs | hs
      · exact .inl hs
      · exact .inr ((List.mem_append.mp hs).resolve_right created_not_mem_addEffects)
    · intro hk
      obtain ⟨host, store⟩ := recorded _ _ w₂ passed hcreate (made.mp hk)
      rw [host, store]
      exact ⟨_, List.mem_singleton_self _, rfl, rfl⟩

/-- Runs of requests each of which, where it creates an account, names a host
and gets its row stored, leave every such account to the sweep. -/
theorem checkouts_covered (cfg : Config) {w w' : World} (fresh : w.trace = [])
    (requests : Relation.ReflTransGen (RecordedStep cfg) w w') : Covered w' := by
  induction requests with
  | refl =>
    intro sam hlog
    simp [fresh] at hlog
  | tail _ last ih => exact covered_step ih last

/-- Pat may check out credentials. -/
def checkoutSite : World :=
  { World.empty with
    db := { Database.empty with
      accessUser := [⟨some "pat@dom.ain", some "proconsul"⟩, ⟨some "pat@dom.ain", some "co"⟩]
      csrfTokens := [⟨some "S1", some "T1", 0⟩] } }

def checkoutRequest (targetHost : Option String) : CheckedOutCredRequest where
  targetHost := targetHost
  lifetime := 4
  reason := some "patching"
  csrfToken := some "T1"
  groups := none

def afterCheckout (targetHost : Option String) : World :=
  ((handleCheckOutPost sampleConfig (.noOutage "ab3de6fgh-eas" "secret" 0) sampleRequest
    (checkoutRequest targetHost)).run checkoutSite).2

theorem checkout_with_host_covered :
    .accountCreated "ab3de6fgh-eas" ∈ (afterCheckout (some "host1.dom.ain")).trace ∧
      Covered (afterCheckout (some "host1.dom.ain")) := by
  refine ⟨by decide +kernel, checkouts_covered sampleConfig (w := checkoutSite) rfl
    (Relation.ReflTransGen.single ⟨.noOutage "ab3de6fgh-eas" "secret" 0, sampleRequest,
      checkoutRequest (some "host1.dom.ain"), ?_, rfl⟩)⟩
  intro _ _ _ _ _ _
  exact ⟨rfl, rfl⟩

/-- Without the host field the request raises with its account already in the directory. -/
theorem checkout_without_host_uncovered : ¬ Covered (afterCheckout none) := by
  intro covered
  have named := covered "ab3de6fgh-eas" (by decide +kernel) (by decide +kernel)
  exact absurd named (by decide +kernel)

end CheckoutEffects
