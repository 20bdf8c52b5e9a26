import Proconsul.Accounts

/-!
# The account object against the controllers

A change of an account is offered to every domain controller in turn and the
refusals are dropped; afterwards the object in memory is updated in any case.
Here is said when the object runs ahead of the directory: for the membership
list, for the password and for the `created` flag.

An answer is what the controller asked says. Nothing is said about
replication, and nothing about what the callers do with the object.
-/

namespace HonestAccounts

open Program Schema Text Surroundings Hosts Accounts

/-! ## Asking the controllers in turn -/

/-- Some controller takes the change when they are asked in turn. -/
def SomeAccepts (call : Nat → Run Unit) : List Nat → World → Prop
  | [], _ => False
  | i :: dcs, w => ((call i).run w).1 = .ok () ∨ SomeAccepts call dcs ((call i).run w).2

/-- Under an invariant of the pass, only the controllers' own answers count. -/
theorem someAccepts_iff {call : Nat → Run Unit} {answers : Nat → Prop} {I : World → Prop}
    (kept : ∀ i w, I w → I ((call i).run w).2)
    (answered : ∀ i w, I w → (((call i).run w).1 = .ok () ↔ answers i))
    (dcs : List Nat) {w : World} (holds : I w) :
    SomeAccepts call dcs w ↔ ∃ i ∈ dcs, answers i := by
  induction dcs generalizing w with
  | nil => simp [SomeAccepts]
  | cons i dcs ih =>
    rw [SomeAccepts, answered i w holds, ih (kept i w holds)]
    simp

/-! ## Memberships -/

/-- Offering the new member to controller `i`. -/
def offerMember (cfg : Config) (c : GroupCalls) (urn : String) (u : ADUser) (userDn : String)
    (i : Nat) : Run Unit :=
  modify (c.controller i) (addMember (javaString u.sAMAccountName) userDn (groupDn cfg urn))

/-- The list of memberships grows only if a controller accepted the member. -/
def MembershipsHonest (cfg : Config) (c : GroupCalls) (urn : String) (u : ADUser)
    (au : Option AuthUser) (clientip : Option String) (w : World) : Prop :=
  ∀ u', ((addGroupToADUser cfg c (some urn) (some u) au clientip).run w).1 = .ok (some u') →
    u'.memberships ≠ u.memberships →
    ∃ userDn, (accountDns w.ad u.sAMAccountName).head? = some userDn ∧
      SomeAccepts (offerMember cfg c urn u userDn) (List.range cfg.dcs) w

theorem someAccepts_member (cfg : Config) (c : GroupCalls) (urn : String) (u : ADUser)
    {userDn : String} {w : World} (found : (accountDns w.ad u.sAMAccountName).head? = some userDn) :
    SomeAccepts (offerMember cfg c urn u userDn) (List.range cfg.dcs) w ↔
      ∃ i < cfg.dcs, c.controller i = false ∧ w.ad.groups.any (fun g => dnEq g (groupDn cfg urn)) := by
  let Present (t : World) : Prop :=
    (∃ p ∈ names t.ad, p.2 = userDn) ∧ t.ad.groups = w.ad.groups
  have kept : ∀ i t, Present t → Present ((offerMember cfg c urn u userDn i).run t).2 := by
    rintro i t ⟨present, groups⟩
    obtain ⟨ad, sameNames, sameGroups, hrun⟩ := run_addMember present (c.controller i)
      (javaString u.sAMAccountName) (groupDn cfg urn)
    rw [offerMember, hrun]
    split
    · exact ⟨present, groups⟩
    · exact ⟨sameNames ▸ present, sameGroups.trans groups⟩
  have answered : ∀ i t, Present t → (((offerMember cfg c urn u userDn i).run t).1 = .ok () ↔
      c.controller i = false ∧ w.ad.groups.any (fun g => dnEq g (groupDn cfg urn))) := by
    rintro i t ⟨present, groups⟩
    obtain ⟨ad, -, -, hrun⟩ := run_addMember present (c.controller i)
      (javaString u.sAMAccountName) (groupDn cfg urn)
    rw [offerMember, hrun, ← groups]
    cases c.controller i <;> cases t.ad.groups.any (fun g => dnEq g (groupDn cfg urn)) <;> simp
  rw [someAccepts_iff kept answered _ ⟨mem_names_of_head found, rfl⟩]
  simp only [List.mem_range]

/-- What the object says after the pass. -/
theorem memberships_after (cfg : Config) (c : GroupCalls) (urn : String) (u : ADUser)
    (au : Option AuthUser) (clientip : Option String) {userDn : String} {w : World}
    (answers : c.find = false) (found : (accountDns w.ad u.sAMAccountName).head? = some userDn) :
    ((addGroupToADUser cfg c (some urn) (some u) au clientip).run w).1 = .ok (some
      (if u.memberships.contains urn then u
        else { u with memberships := u.memberships ++ [urn] })) := by
  obtain ⟨w', pass, -⟩ := run_addOnControllers c (javaString u.sAMAccountName) (groupDn cfg urn)
    (fun i => audit (c.audit i) "addGroup" (au.bind AuthUser.uid) none u.sAMAccountName (some urn)
      clientip) (fun i w => run_audit _ _ _ _ _ _ _ w) (List.range cfg.dcs) (mem_names_of_head found)
  replace pass : (onControllers cfg _).run w = (.ok (), w') := pass
  rw [addGroupToADUser, Prog.run_orElse, Prog.run_bind]
  simp only [search, Prog.run_atom, answers, found, Bool.false_eq_true, if_false]
  rw [Prog.run_bind_ok pass]
  cases u.memberships.contains urn <;> rfl

theorem memberships_unasked (cfg : Config) (c : GroupCalls) (urn : String) (u : ADUser)
    (au : Option AuthUser) (clientip : Option String) {w : World}
    (missed : c.find = true ∨ (accountDns w.ad u.sAMAccountName).head? = none) :
    ((addGroupToADUser cfg c (some urn) (some u) au clientip).run w).1 = .ok (some u) := by
  rw [addGroupToADUser, Prog.run_orElse, Prog.run_bind]
  rcases missed with raised | missing
  · simp [search, raised]
  · cases c.find <;> simp [search, missing]

theorem membershipsHonest_iff (cfg : Config) (c : GroupCalls) (urn : String) (u : ADUser)
    (au : Option AuthUser) (clientip : Option String) (w : World) :
    MembershipsHonest cfg c urn u au clientip w ↔
      c.find = true ∨ (accountDns w.ad u.sAMAccountName).head? = none ∨ urn ∈ u.memberships ∨
        ∃ i < cfg.dcs, c.controller i = false ∧
          w.ad.groups.any (fun g => dnEq g (groupDn cfg urn)) := by
  rw [← or_assoc, MembershipsHonest]
  by_cases missed : c.find = true ∨ (accountDns w.ad u.sAMAccountName).head? = none
  · rw [memberships_unasked cfg c urn u au clientip missed]
    refine iff_of_true ?_ (.inl missed)
    simp
  · rw [or_iff_right missed]
    rw [not_or] at missed
    obtain ⟨userDn, found⟩ := Option.ne_none_iff_exists'.mp missed.2
    rw [memberships_after cfg c urn u au clientip (Bool.eq_false_iff.mpr missed.1) found,
      ← someAccepts_member cfg c urn u found]
    by_cases listed : urn ∈ u.memberships
    · simp [listed]
    · simp [listed, found]

/-! ## Passwords -/

/-- Offering the new password to controller `i`. -/
def offerPassword (c : PasswordCalls) (adDn : String) (i : Nat) : Run Unit :=
  modify (c.controller i) (changeAccount adDn (fun x => { x with password := some c.password }))

/-- The object's password changes only if a controller accepted the new one. -/
def PasswordHonest (cfg : Config) (c : PasswordCalls) (adu : ADUser) (w : World) : Prop :=
  ∀ u', ((setRandomADPassword cfg c adu).run w).1 = .ok u' → u'.adPassword ≠ adu.adPassword →
    ∃ adDn, (accountDns w.ad adu.sAMAccountName).head? = some adDn ∧
      SomeAccepts (offerPassword c adDn) (List.range cfg.dcs) w

theorem run_offerPassword (c : PasswordCalls) {adDn : String} {w : World}
    (present : ∃ p ∈ names w.ad, p.2 = adDn) (i : Nat) :
    ((offerPassword c adDn i).run w).1 = .ok () ↔ c.controller i = false := by
  obtain ⟨p, hp, rfl⟩ := present
  obtain ⟨a, ha, rfl⟩ := List.mem_map.mp hp
  have found : w.ad.accounts.any (fun x => dnEq x.dn a.dn) = true :=
    List.any_eq_true.mpr ⟨a, ha, dnEq_refl _⟩
  have accepted : ∃ ad, changeAccount a.dn (fun x => { x with password := some c.password }) w.ad =
      some (ad, []) := ⟨_, if_pos found⟩
  obtain ⟨ad, accepted⟩ := accepted
  rw [offerPassword, run_modify _ accepted]
  cases c.controller i <;> simp

theorem someAccepts_password (cfg : Config) (c : PasswordCalls) (adu : ADUser) {adDn : String}
    {w : World} (found : (accountDns w.ad adu.sAMAccountName).head? = some adDn) :
    SomeAccepts (offerPassword c adDn) (List.range cfg.dcs) w ↔
      ∃ i < cfg.dcs, c.controller i = false := by
  have kept : ∀ i t, (∃ p ∈ names t.ad, p.2 = adDn) →
      ∃ p ∈ names ((offerPassword c adDn i).run t).2.ad, p.2 = adDn := by
    intro i t present
    have same := Prog.run_related SameAccounts.refl (fun _ _ _ h h' => SameAccounts.trans h h')
      (sameAccounts_changeAccount (c.controller i) adDn
        (f := fun x => { x with password := some c.password }) (fun _ => ⟨rfl, rfl⟩)) t
    rw [offerPassword, same.names]
    exact present
  rw [someAccepts_iff kept (fun i t present => run_offerPassword c present i) _
    (mem_names_of_head found)]
  simp only [List.mem_range]

theorem password_after (cfg : Config) (c : PasswordCalls) (adu : ADUser) {adDn : String} {w : World}
    (answers : c.find = false) (found : (accountDns w.ad adu.sAMAccountName).head? = some adDn) :
    ((setRandomADPassword cfg c adu).run w).1 = .ok { adu with adPassword := some c.password } := by
  obtain ⟨w', pass, -⟩ := run_changeOnControllers cfg c.controller adDn
    (f := fun x => { x with password := some c.password }) (fun _ => ⟨rfl, rfl⟩) w
  rw [setRandomADPassword, Prog.run_orElse, Prog.run_bind]
  simp only [search, Prog.run_atom, answers, found, Bool.false_eq_true, if_false]
  rw [Prog.run_bind_ok pass]
  rfl

theorem password_unasked (cfg : Config) (c : PasswordCalls) (adu : ADUser) {w : World}
    (missed : c.find = true ∨ (accountDns w.ad adu.sAMAccountName).head? = none) :
    ((setRandomADPassword cfg c adu).run w).1 = .ok adu := by
  rw [setRandomADPassword, Prog.run_orElse, Prog.run_bind]
  rcases missed with raised | missing
  · simp [search, raised]
  · cases c.find <;> simp [search, missing]

theorem passwordHonest_iff (cfg : Config) (c : PasswordCalls) (adu : ADUser) (w : World) :
    PasswordHonest cfg c adu w ↔
      c.find = true ∨ (accountDns w.ad adu.sAMAccountName).head? = none ∨
        adu.adPassword = some c.password ∨ ∃ i < cfg.dcs, c.controller i = false := by
  rw [← or_assoc, PasswordHonest]
  by_cases missed : c.find = true ∨ (accountDns w.ad adu.sAMAccountName).head? = none
  · rw [password_unasked cfg c adu missed]
    refine iff_of_true ?_ (.inl missed)
    simp
  · rw [or_iff_right missed]
    rw [not_or] at missed
    obtain ⟨adDn, found⟩ := Option.ne_none_iff_exists'.mp missed.2
    rw [password_after cfg c adu (Bool.eq_false_iff.mpr missed.1) found,
      ← someAccepts_password cfg c adu found]
    by_cases drawn : adu.adPassword = some c.password
    · simp [drawn]
    · simp [drawn, found, eq_comm]

/-! ## Creation -/

/-- An account of that name is in the directory, or some controller answers
that it has one. -/
def OnSomeController (cfg : Config) (c : CreateCalls) (sam : String) (ad : Directory) : Prop :=
  (∃ p ∈ names ad, nameEq p.1 sam = true) ∨ ∃ i < cfg.dcs, (c.controller i).available = some false

/-- The object is marked as created only if the account exists somewhere. -/
def CreatedHonest (cfg : Config) (c : CreateCalls) (au : Option AuthUser) (u : ADUser)
    (w : World) : Prop :=
  ∀ u' w', (createAdUser cfg c au u).run w = (.ok (some u'), w') → u'.created = true →
    OnSomeController cfg c (javaString u'.sAMAccountName) w'.ad

theorem onSomeController_after {cfg : Config} {c : CreateCalls} {sam dn : String} {w w' : World}
    (created : Created sam dn (creations c.controller false (List.range cfg.dcs)) w w') :
    OnSomeController cfg c sam w'.ad ↔ OnSomeController cfg c sam w.ad ∨ accepted cfg c = true := by
  rw [accepted, ← creations_ne_zero]
  have listed : (∃ p ∈ names w'.ad, nameEq p.1 sam = true) ↔ (∃ p ∈ names w.ad, nameEq p.1 sam = true) ∨
      creations c.controller false (List.range cfg.dcs) ≠ 0 := by
    rw [created.names]
    constructor
    · rintro ⟨p, hp, same⟩
      rcases List.mem_append.mp hp with old | new
      · exact .inl ⟨p, old, same⟩
      · exact .inr (List.mem_replicate.mp new).1
    · rintro (⟨p, hp, same⟩ | some_created)
      · exact ⟨p, List.mem_append_left _ hp, same⟩
      · exact ⟨(sam, dn), List.mem_append_right _ (List.mem_replicate.mpr ⟨some_created, rfl⟩),
          nameEq_refl sam⟩
  rw [OnSomeController, OnSomeController, listed]
  exact or_right_comm

theorem createdHonest_iff (cfg : Config) (c : CreateCalls) (au : Option AuthUser) (u : ADUser)
    (w : World) :
    CreatedHonest cfg c au u w ↔
      given u.sAMAccountName = none ∨ given u.adDomain = none ∨
        OnSomeController cfg c (javaString u.sAMAccountName) w.ad ∨ accepted cfg c = true := by
  cases named : given u.sAMAccountName with
  | none =>
    refine iff_of_true ?_ (.inl rfl)
    intro u' w' hrun _
    simp [createAdUser, named] at hrun
  | some sam =>
    cases placed : given u.adDomain with
    | none =>
      refine iff_of_true ?_ (.inr (.inl rfl))
      intro u' w' hrun _
      simp [createAdUser, named, placed] at hrun
    | some domain =>
      obtain ⟨w', hrun, created⟩ := run_createAdUser cfg c au named placed w
      have name : javaString u.sAMAccountName = sam := by
        rw [(Option.filter_eq_some_iff.mp named).1]
        rfl
      rw [or_iff_right (by simp), or_iff_right (by simp), name, ← onSomeController_after created]
      constructor
      · intro honest
        have exists_after := honest _ _ hrun rfl
        rwa [name] at exists_after
      · intro exists_after u' t again _
        cases hrun.symm.trans again
        rw [name]
        exact exists_after

/-! ## The three objects together -/

/-- The object in memory claims no more than some controller did exactly when
the pass over the controllers was not made, had nothing to tell the object, or
was accepted somewhere. -/
theorem object_follows_controllers_iff (cfg : Config) (w : World) :
    (∀ c urn u au clientip, MembershipsHonest cfg c urn u au clientip w ↔
      c.find = true ∨ (accountDns w.ad u.sAMAccountName).head? = none ∨ urn ∈ u.memberships ∨
        ∃ i < cfg.dcs, c.controller i = false ∧
          w.ad.groups.any (fun g => dnEq g (groupDn cfg urn))) ∧
    (∀ c adu, PasswordHonest cfg c adu w ↔
      c.find = true ∨ (accountDns w.ad adu.sAMAccountName).head? = none ∨
        adu.adPassword = some c.password ∨ ∃ i < cfg.dcs, c.controller i = false) ∧
    (∀ c au u, CreatedHonest cfg c au u w ↔
      given u.sAMAccountName = none ∨ given u.adDomain = none ∨
        OnSomeController cfg c (javaString u.sAMAccountName) w.ad ∨ accepted cfg c = true) := by
  refine ⟨?_, ?_, ?_⟩
  · intro c urn u au clientip
    exact membershipsHonest_iff cfg c urn u au clientip w
  · intro c adu
    exact passwordHonest_iff cfg c adu w
  · intro c au u
    exact createdHonest_iff cfg c au u w

/-- A directory with one account and the Domain Admins group. -/
def oneAccount : World :=
  { World.empty with ad := {
      accounts := [⟨"pc0001", "cn=pc0001,ou=proconsul,dc=dom,dc=ain", some "old", 512, [], none, none⟩]
      groups := [sampleConfig.dagroup]
      computers := [] } }

def oneUser : ADUser where
  sAMAccountName := some "pc0001"
  adPassword := some "old"
  adDomain := some "dom.ain"
  adOu := some "ou=proconsul,dc=dom,dc=ain"
  memberships := []
  created := false

/-- The search is answered, and then no controller can be reached. -/
def unreachable : CreateCalls :=
  { CreateCalls.noOutage "pc0001" "new" (by decide) with
    controller := fun _ => ⟨none, true, true, true, true⟩ }

theorem unreachable_controllers_claimed :
    ¬ MembershipsHonest sampleConfig ⟨false, fun _ => true, fun _ => false⟩ sampleConfig.dagroup
        oneUser none none oneAccount ∧
    ¬ PasswordHonest sampleConfig ⟨false, fun _ => true, "new"⟩ oneUser oneAccount ∧
    ¬ CreatedHonest sampleConfig unreachable none oneUser World.empty := by
  refine ⟨?_, ?_, ?_⟩
  · rw [membershipsHonest_iff]
    decide +kernel
  · rw [passwordHonest_iff]
    decide +kernel
  · rw [createdHonest_iff]
    simp [OnSomeController, names, World.empty, accepted, unreachable, CreateCalls.noOutage,
      ControllerAnswers.accepts, oneUser, given]

end HonestAccounts
