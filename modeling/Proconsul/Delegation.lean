import Mathlib.Data.List.TakeWhile
import Proconsul.HostAuthorization

/-!
# The groups of a delegated administrator

A request to `/deladmin` adds its session account to up to five groups. Three
do not depend on who asks: the default group, the host access group and the
gateway group. The fourth is found by walking from the host's OU towards the
root until some OU has a managing group; the fifth is the role group of the
form, which the gate compares with the groups of the user's delegated OUs.

The walk is not told about the user. It stops at the lowest OU above the host
that is mapped, which lies beneath every mapped OU delegated to the user and
above one that is not.
-/

namespace Delegation

open Program Schema Text Surroundings Hosts Accounts Sessions Handlers HostAuthorization
open Starting (started mem_started)

/-! ## The tree of organisational units -/

theorem foldCase_dropComponent {s : String} (h : containsChar s ',' = true) :
    ∃ front, ',' ∉ front ∧ foldCase s = front ++ ',' :: foldCase (dropComponent s) := by
  have comma : ',' ∈ s.toList := List.contains_iff_mem.mp h
  obtain ⟨rest, split⟩ : ∃ rest, s.toList.dropWhile (· != ',') = ',' :: rest := by
    generalize s.toList = cs at comma
    induction cs with
    | nil => cases comma
    | cons c cs ih =>
      by_cases hc : c = ','
      · exact ⟨cs, by simp [hc]⟩
      · rcases List.mem_cons.mp comma with rfl | later
        · exact absurd rfl hc
        · simpa [List.dropWhile_cons, hc] using ih later
  have parts : s.toList = s.toList.takeWhile (· != ',') ++ ',' :: rest := by
    rw [← split, List.takeWhile_append_dropWhile]
  refine ⟨(s.toList.takeWhile (· != ',')).map upper, ?_, ?_⟩
  · intro mem
    obtain ⟨c, hc, raised⟩ := List.mem_map.mp mem
    have passed := List.mem_takeWhile_imp hc
    rw [(upper_eq_low (by decide)).mp raised] at passed
    cases passed
  · have dropped : foldCase (dropComponent s) = rest.map upper := by
      simp [dropComponent, h, foldCase, split]
    rw [dropped, foldCase]
    conv_lhs => rw [parts, List.map_append, List.map_cons]
    rfl

theorem underBase_iff {base dn : String} :
    underBase base dn = true ↔
      foldCase dn = foldCase base ∨ (',' :: foldCase base) <:+ foldCase dn := by
  simp [underBase]

@[simp] theorem underBase_refl (ou : String) : underBase ou ou = true :=
  underBase_iff.mpr (.inl rfl)

theorem underBase_trans {a b c : String} (hab : underBase a b = true) (hbc : underBase b c = true) :
    underBase a c = true := by
  rw [underBase_iff] at *
  rcases hbc with same | inside
  · rwa [same]
  · rcases hab with same | deeper
    · exact .inr (same ▸ inside)
    · have tail : foldCase b <:+ ',' :: foldCase b := List.suffix_cons _ _
      exact .inr (deeper.trans (tail.trans inside))

theorem underBase_dropComponent {s : String} (h : containsChar s ',' = true) :
    underBase (dropComponent s) s = true := by
  obtain ⟨front, -, parts⟩ := foldCase_dropComponent h
  exact underBase_iff.mpr (.inr ⟨front, parts.symm⟩)

theorem suffix_of_comma {x front rest : List Char} (plain : ',' ∉ front)
    (h : (',' :: x) <:+ front ++ ',' :: rest) : (',' :: x) <:+ ',' :: rest := by
  induction front with
  | nil => exact h
  | cons c front ih =>
    rw [List.mem_cons, not_or] at plain
    rw [List.cons_append, List.suffix_cons_iff] at h
    rcases h with whole | later
    · exact absurd (List.cons.inj whole).1 plain.1
    · exact ih plain.2 later

/-- An OU above `s` other than `s` itself is above what remains of `s` without its first
component. -/
theorem underBase_of_dropComponent {d s : String} (h : containsChar s ',' = true)
    (above : underBase d s = true) (other : foldCase s ≠ foldCase d) :
    underBase d (dropComponent s) = true := by
  obtain ⟨front, plain, parts⟩ := foldCase_dropComponent h
  rw [underBase_iff] at *
  rcases above with same | inside
  · exact absurd same other
  · rw [parts] at inside
    rcases List.suffix_cons_iff.mp (suffix_of_comma plain inside) with whole | deeper
    · exact .inl (List.cons.inj whole).2.symm
    · exact .inr deeper

/-! ## Delegations, mapped groups and the walk -/

/-- The OUs that `delegate_groups` gives to one of the user's groups. -/
def delegatedOus (db : Database) (au : AuthUser) : List String :=
  au.memberships.flatMap (fun g => (delegations db g).filterMap DelegateRow.ou)

/-- What `groupDnForOu` answers when its query does not fail. -/
def mappedGroup (ouGroup : List OuGroupRow) (ou : String) : Option String :=
  (ouGroup.filter (fun r => sqlEq (some r.ou) (some ou))).getLast?.bind OuGroupRow.groupdn

/-- What `ouForFqdn` answers when its search does not fail. -/
def hostOu (computers : List Computer) (fqdn : Option String) : Option String :=
  (computers.filter (fun c => c.dnsHostName.any (finds (javaString fqdn)))).getLast?.map
    (fun c => dropComponent c.dn)

theorem mappedGroup_congr (ouGroup : List OuGroupRow) {a b : String}
    (h : foldCase a = foldCase b) : mappedGroup ouGroup a = mappedGroup ouGroup b := by
  have same : sqlKey a = sqlKey b := sqlKey_of_nameEq (beq_iff_eq.mpr h)
  have pointwise : (fun r : OuGroupRow => sqlEq (some r.ou) (some a)) =
      fun r => sqlEq (some r.ou) (some b) := by
    funext r
    simp [sqlEq, same]
  rw [mappedGroup, pointwise, mappedGroup]

theorem run_groupDnForOu (fails : Bool) (ou : String) (w : World) :
    (groupDnForOu fails ou).run w =
      (.ok (if fails then none else mappedGroup w.db.ouGroup ou), w) := by
  rw [groupDnForOu, Prog.run_orElse, run_query rfl]
  cases fails <;> rfl

theorem run_ouForFqdn (fails : Bool) (fqdn : Option String) (w : World) :
    (ouForFqdn fails fqdn).run w =
      (.ok (if fails then none else hostOu w.ad.computers fqdn), w) := by
  rw [ouForFqdn, Prog.run_orElse]
  cases fails <;> rfl

/-- `g` is mapped to an OU above `ou`. Unless a lookup fails, no mapped OU above `ou` is lower. -/
def LowestMapped (ouGroup : List OuGroupRow) (fails : Nat → Bool) (ou g : String) : Prop :=
  ∃ o, underBase o ou = true ∧ mappedGroup ouGroup o = some g ∧
    ((∀ i, fails i = false) →
      ∀ d, underBase d ou = true → (mappedGroup ouGroup d).isSome → underBase d o = true)

theorem run_walkUp (fails : Nat → Bool) (steps i : Nat) (ou : String) (w : World) :
    ∃ r, (walkUp fails steps i ou).run w = (.ok r, w) ∧
      ∀ g, r = some g → LowestMapped w.db.ouGroup fails ou g := by
  induction steps generalizing i ou with
  | zero => exact ⟨none, rfl, by simp⟩
  | succ steps ih =>
    rw [walkUp]
    split
    · rename_i comma
      rw [Prog.run_bind_ok (run_groupDnForOu _ _ _)]
      obtain ⟨r, hrun, spec⟩ := ih (i + 1) (dropComponent ou)
      -- the walk goes on above `ou`; what it finds there is above `ou` too
      have onward : (¬ (∀ i, fails i = false) ∨ mappedGroup w.db.ouGroup ou = none) →
          ∀ g, r = some g → LowestMapped w.db.ouGroup fails ou g := by
        intro cause g hg
        obtain ⟨o, above, mapped, lowest⟩ := spec g hg
        refine ⟨o, underBase_trans above (underBase_dropComponent comma), mapped, ?_⟩
        intro calm d hd known
        rcases cause with outage | unmapped
        · exact absurd calm outage
        · refine lowest calm d (underBase_of_dropComponent comma hd ?_) known
          intro same
          rw [← mappedGroup_congr _ same, unmapped] at known
          cases known
      cases hf : fails i with
      | true =>
        refine ⟨r, hrun, onward (.inl (fun calm => ?_))⟩
        rw [calm i] at hf
        cases hf
      | false =>
        simp only [Bool.false_eq_true, if_false]
        cases hm : mappedGroup w.db.ouGroup ou with
        | none => exact ⟨r, hrun, onward (.inr hm)⟩
        | some g =>
          refine ⟨some g, rfl, ?_⟩
          rintro _ ⟨rfl⟩
          exact ⟨ou, underBase_refl ou, hm, fun _ d hd _ => hd⟩
    · exact ⟨none, rfl, by simp⟩

/-- The managing group that `groupDnForFQDN` finds for a host. -/
def Managing (ouGroup : List OuGroupRow) (computers : List Computer) (fails : Nat → Bool)
    (host g : String) : Prop :=
  ∃ ou, hostOu computers (some host) = some ou ∧ LowestMapped ouGroup fails ou g

theorem run_groupDnForFQDN (find : Bool) (fails : Nat → Bool) (host : String) (w : World) :
    ∃ r, (groupDnForFQDN find fails (some host)).run w = (.ok r, w) ∧
      ∀ g, r = some g → Managing w.db.ouGroup w.ad.computers fails host g := by
  rw [groupDnForFQDN, Prog.run_bind_ok (run_ouForFqdn _ _ _)]
  cases find with
  | true => exact ⟨none, rfl, by simp⟩
  | false =>
    simp only [Bool.false_eq_true, if_false]
    cases hou : hostOu w.ad.computers (some host) with
    | none => exact ⟨none, rfl, by simp⟩
    | some ou =>
      obtain ⟨r, hrun, spec⟩ := run_walkUp fails (ou.length + 1) 0 ou w
      exact ⟨r, hrun, fun g hg => ⟨ou, hou, spec g hg⟩⟩

/-! ## The role group -/

/-- The group, up to case, of an OU equal to or beneath one delegated to the user. -/
def Entrusted (db : Database) (au : AuthUser) (urn : String) : Prop :=
  ∃ d ∈ delegatedOus db au, ∃ o, underBase d o = true ∧
    ∃ g, mappedGroup db.ouGroup o = some g ∧ equalsIgnoreCase urn g = true

/-- The loop collects delegated OUs, and all of them unless a query raises. -/
theorem run_collectOus (fails : Nat → Bool) (gs : List (String × Nat)) (retval : List String)
    (w : World) :
    ∃ ous, (collectOus fails gs retval).run w = (.ok ous, w) ∧
      (∀ o ∈ ous, o ∈ retval ∨ ∃ g ∈ gs, o ∈ (delegations w.db g.1).filterMap DelegateRow.ou) ∧
      ((∀ i, fails i = false) →
        ous = retval ++ gs.flatMap (fun g => (delegations w.db g.1).filterMap DelegateRow.ou)) := by
  induction gs generalizing retval with
  | nil => exact ⟨retval, rfl, fun o ho => .inl ho, fun _ => (List.append_nil _).symm⟩
  | cons g rest ih =>
    rw [collectOus, Prog.run_bind, Prog.run_attempt, run_query rfl]
    cases hf : fails g.2 with
    | true =>
      refine ⟨retval, rfl, fun o ho => .inl ho, fun calm => ?_⟩
      rw [calm] at hf
      cases hf
    | false =>
      obtain ⟨ous, hrun, spec, all⟩ := ih (retval ++ (delegations w.db g.1).filterMap DelegateRow.ou)
      refine ⟨ous, hrun, fun o ho => ?_, fun calm => ?_⟩
      · rcases spec o ho with old | ⟨g', hg', mem⟩
        · rcases List.mem_append.mp old with before | here
          · exact .inl before
          · exact .inr ⟨g, List.mem_cons_self, here⟩
        · exact .inr ⟨g', List.mem_cons_of_mem g hg', mem⟩
      · rw [all calm, List.flatMap_cons, List.append_assoc]

theorem run_delegatedOusForUser (fails : Nat → Bool) (au : AuthUser) (w : World) :
    ∃ r, (delegatedOusForUser fails au).run w = (.ok r, w) ∧
      (∀ ous, r = some ous → ∀ o ∈ ous, o ∈ delegatedOus w.db au) ∧
      ((∀ i, fails i = false) → r.getD [] = delegatedOus w.db au) := by
  rw [delegatedOusForUser]
  split
  · rename_i groupless
    refine ⟨none, rfl, by simp, fun _ => ?_⟩
    rw [delegatedOus, List.isEmpty_iff.mp groupless]
    rfl
  · obtain ⟨ous, hrun, spec, all⟩ := run_collectOus fails au.memberships.zipIdx [] w
    refine ⟨some ous, by rw [Prog.run_bind_ok hrun]; rfl, ?_, fun calm => ?_⟩
    · rintro _ ⟨rfl⟩ o ho
      rcases spec o ho with none | ⟨g, hg, mem⟩
      · cases none
      · exact List.mem_flatMap.mpr ⟨g.1, List.fst_mem_of_mem_zipIdx hg, mem⟩
    · rw [Option.getD_some, all calm, List.nil_append, delegatedOus,
        flatMap_zipIdx_fst au.memberships (fun g => (delegations w.db g).filterMap DelegateRow.ou)]

/-- A loop whose every pass adds at most the group of its OU, and adds it if `calm`. -/
theorem run_collectGroups {f : List (Option String) → String × Nat → Run (List (Option String))}
    {w : World} {calm : Prop} (pass : ∀ retval o, ∃ r, (f retval o).run w = (.ok r, w) ∧
      (∀ g, some g ∈ r → some g ∈ retval ∨ mappedGroup w.db.ouGroup o.1 = some g) ∧
      (calm → retval ⊆ r ∧ mappedGroup w.db.ouGroup o.1 ∈ r))
    (managed : List (String × Nat)) (retval : List (Option String)) :
    ∃ r, (managed.foldlM f retval).run w = (.ok r, w) ∧
      (∀ g, some g ∈ r →
        some g ∈ retval ∨ ∃ o ∈ managed, mappedGroup w.db.ouGroup o.1 = some g) ∧
      (calm → retval ⊆ r ∧ ∀ o ∈ managed, mappedGroup w.db.ouGroup o.1 ∈ r) := by
  induction managed generalizing retval with
  | nil => exact ⟨retval, rfl, fun g hg => .inl hg, fun _ => ⟨fun _ hg => hg, by simp⟩⟩
  | cons o managed ih =>
    obtain ⟨r, hrun, spec, added⟩ := pass retval o
    obtain ⟨r', hrun', spec', added'⟩ := ih r
    refine ⟨r', by rw [List.foldlM_cons, Prog.run_bind_ok hrun, hrun'], fun g hg => ?_, fun h => ?_⟩
    · rcases spec' g hg with old | ⟨o', ho', mapped⟩
      · rcases spec g old with older | here
        · exact .inl older
        · exact .inr ⟨o, List.mem_cons_self, here⟩
      · exact .inr ⟨o', List.mem_cons_of_mem o ho', mapped⟩
    · obtain ⟨kept, here⟩ := added h
      obtain ⟨kept', later⟩ := added' h
      exact ⟨fun _ hg => kept' (kept hg), List.forall_mem_cons.mpr ⟨kept' here, later⟩⟩

/-- One pass looks its OU up three times, and any of the three may fail. -/
theorem addsGroup (fails : Nat → Bool) (w : World) (retval : List (Option String))
    (o : String × Nat) :
    ∃ r, (do
        if retval.contains (← groupDnForOu (fails (3 * o.2)) o.1) then return retval
        else
          let _ ← groupDnForOu (fails (3 * o.2 + 1)) o.1
          return retval ++ [← groupDnForOu (fails (3 * o.2 + 2)) o.1] :
            Run (List (Option String))).run w = (.ok r, w) ∧
      (∀ g, some g ∈ r → some g ∈ retval ∨ mappedGroup w.db.ouGroup o.1 = some g) ∧
      ((∀ i, fails i = false) → retval ⊆ r ∧ mappedGroup w.db.ouGroup o.1 ∈ r) := by
  rw [Prog.run_bind_ok (run_groupDnForOu _ _ _)]
  generalize hfirst : (if fails (3 * o.2) then none else mappedGroup w.db.ouGroup o.1) = first
  split
  · rename_i known
    refine ⟨retval, rfl, fun g hg => .inl hg, fun calm => ⟨fun _ hg => hg, ?_⟩⟩
    rw [calm, if_neg (by simp)] at hfirst
    rw [hfirst]
    exact List.contains_iff_mem.mp known
  · refine ⟨_, by rw [Prog.run_bind_ok (run_groupDnForOu _ _ _),
      Prog.run_bind_ok (run_groupDnForOu _ _ _)]; rfl, fun g hg => ?_, fun calm => ?_⟩
    · rcases List.mem_append.mp hg with before | here
      · exact .inl before
      · have value := List.mem_singleton.mp here
        split at value
        · cases value
        · exact .inr value.symm
    · rw [calm, if_neg (by simp)]
      exact ⟨List.subset_append_left _ _, List.mem_append_right _ List.mem_cons_self⟩

theorem run_groupDNsForDelegate (ous fails : Nat → Bool) (au : AuthUser) (w : World) :
    ∃ r, (groupDNsForDelegate ous fails au).run w = (.ok r, w) ∧
      (∀ groups, r = some groups → ∀ g, some g ∈ groups →
        ∃ d ∈ delegatedOus w.db au, mappedGroup w.db.ouGroup d = some g) ∧
      ((∀ i, ous i = false) → (∀ i, fails i = false) →
        ∀ d ∈ delegatedOus w.db au, mappedGroup w.db.ouGroup d ∈ r.getD []) := by
  obtain ⟨r, hous, delegated, all⟩ := run_delegatedOusForUser ous au w
  rw [groupDNsForDelegate, Prog.run_bind_ok hous]
  cases r with
  | none =>
    refine ⟨none, rfl, by simp, fun calm _ d mem => ?_⟩
    rw [← all calm] at mem
    cases mem
  | some managed =>
    dsimp only
    split
    · rename_i empty
      refine ⟨none, rfl, by simp, fun calm _ d mem => ?_⟩
      rw [← all calm, Option.getD_some, List.isEmpty_iff.mp empty] at mem
      cases mem
    · obtain ⟨groups, hrun, spec, added⟩ := run_collectGroups (w := w) (f := fun retval o => do
          if retval.contains (← groupDnForOu (fails (3 * o.2)) o.1) then return retval
          else
            let _ ← groupDnForOu (fails (3 * o.2 + 1)) o.1
            return retval ++ [← groupDnForOu (fails (3 * o.2 + 2)) o.1])
          (addsGroup fails w) managed.zipIdx []
      refine ⟨some groups, by rw [Prog.run_bind_ok hrun]; rfl, ?_, fun calm answered d mem => ?_⟩
      · rintro _ ⟨rfl⟩ g hg
        rcases spec g hg with none | ⟨o, ho, mapped⟩
        · cases none
        · exact ⟨o.1, delegated managed rfl o.1 (List.fst_mem_of_mem_zipIdx ho), mapped⟩
      · rw [← all calm, Option.getD_some] at mem
        obtain ⟨i, hi⟩ := List.getElem?_of_mem mem
        exact (added answered).2 (d, i) (List.mk_mem_zipIdx_iff_getElem?.mpr hi)

/-- A role group that passes the check belongs to a delegated OU. -/
theorem roleGroupAllowed_entrusted {c : DelegatedCalls} {au : AuthUser} {urn : String}
    {w w' : World} (h : (roleGroupAllowed c au (some urn)).run w = (.ok true, w')) :
    Entrusted w.db au urn := by
  obtain ⟨r, hrun, mapped, -⟩ := run_groupDNsForDelegate c.ous c.ouGroups au w
  rw [roleGroupAllowed, Prog.run_bind_ok hrun] at h
  cases r with
  | none => cases h
  | some allowable =>
    have found : allowable.any (fun allowed => (some urn).all (fun role =>
        allowed.any (fun a => equalsIgnoreCase role a))) = true :=
      Except.ok.inj (Prod.mk.inj h).1
    obtain ⟨allowed, mem, claimed⟩ := List.any_eq_true.mp found
    obtain ⟨g, rfl, same⟩ := (Option.any_eq_true _ _).mp (by simpa using claimed)
    obtain ⟨d, delegated, hg⟩ := mapped allowable rfl g mem
    exact ⟨d, delegated, d, underBase_refl d, g, hg, same⟩

theorem delegatedGate_entrusted {c : DelegatedCalls} {req : Request} {form : DelegatedAdminRequest}
    {host : String} {w w' : World} (h : (delegatedGate c req form host).run w = (.ok none, w'))
    {urn : String} (role : form.roleGroup = some urn) : Entrusted w.db req.authUser urn := by
  have passed := inOrder_passes (onlyTokens_delegatedGates c req form host) h
  obtain ⟨w₁, w₂, ⟨tokens, rfl⟩, hrole⟩ := passed _ (List.mem_cons_of_mem _ (List.mem_cons_of_mem _
    List.mem_cons_self))
  have allowed := refuseUnless_passes hrole
  rw [role] at allowed
  have entrusted := roleGroupAllowed_entrusted allowed
  exact entrusted

/-! ## What a request adds -/

/-- The tables and computers that decide about groups. -/
structure Rules where
  ouGroup : List OuGroupRow
  hostAccessGroup : List HostAccessRow
  hostGateway : List GatewayRow
  computers : List Computer

def rules (w : World) : Rules := ⟨w.db.ouGroup, w.db.hostAccessGroup, w.db.hostGateway, w.ad.computers⟩

/-- The group of a host access rule that matches the host by name or by its OU. -/
def HostAccess (cfg : Config) (r : Rules) (host g : String) : Prop :=
  ∃ row ∈ r.hostAccessGroup, row.groupdn.map (groupDn cfg) = some g ∧
    (sqlEq row.fqdn (some host) = true ∨
      ∃ ou, hostOu r.computers (some host) = some ou ∧ ouEndsLike ou row = true)

/-- The group of a gateway rule for the host. -/
def GatewayAccess (cfg : Config) (r : Rules) (host g : String) : Prop :=
  ∃ row ∈ r.hostGateway, row.groupdn.map (groupDn cfg) = some g ∧ sqlEq row.fqdn (some host) = true

/-- The five reasons for which a request adds a group. -/
inductive Reason (cfg : Config) (walk : Nat → Bool) (host : String) (role : Option String)
    (r : Rules) (g : String) : Prop where
  | default (h : g = groupDn cfg cfg.defgroupdn)
  | hostAccess (h : HostAccess cfg r host g)
  | gateway (h : GatewayAccess cfg r host g)
  | managing (urn : String) (name : g = groupDn cfg urn)
      (h : Managing r.ouGroup r.computers walk host urn)
  | role (urn : String) (name : g = groupDn cfg urn) (h : role = some urn)

def addedGroups (effects : List Effect) : List String :=
  effects.filterMap (fun e => match e with
    | .groupAdded _ g => some g
    | _ => none)

section Grants

variable (cfg : Config) (walk : Nat → Bool) (host : String) (role : Option String)

/-- The rules stay as they are, and every group added has its reason in them. -/
def Grants (w w' : World) : Prop :=
  rules w' = rules w ∧ ∃ effects, w'.trace = w.trace ++ effects ∧
    ∀ g ∈ addedGroups effects, Reason cfg walk host role (rules w) g

variable {cfg walk host role}

theorem grants_refl (w : World) : Grants cfg walk host role w w :=
  ⟨rfl, [], (List.append_nil _).symm, by simp [addedGroups]⟩

theorem grants_trans (w w' w'' : World) (h : Grants cfg walk host role w w')
    (h' : Grants cfg walk host role w' w'') : Grants cfg walk host role w w'' := by
  obtain ⟨same, effects, ht, reasons⟩ := h
  obtain ⟨same', effects', ht', reasons'⟩ := h'
  refine ⟨same'.trans same, effects ++ effects', by rw [ht', ht, List.append_assoc], ?_⟩
  intro g hg
  rw [addedGroups, List.filterMap_append, List.mem_append] at hg
  rcases hg with first | second
  · exact reasons g first
  · rw [← same]
    exact reasons' g second

/-- A step that adds no group. -/
theorem grants_of_trace {w w' : World} (same : rules w' = rules w) {effects : List Effect}
    (trace : w'.trace = w.trace ++ effects) (none : addedGroups effects = []) :
    Grants cfg walk host role w w' :=
  ⟨same, effects, trace, by rw [none]; simp⟩

theorem grants_logs : Logs (Grants cfg walk host role) where
  refl := grants_refl
  append _ _ := grants_of_trace rfl (List.append_nil _).symm rfl

theorem grants_permits (s : ProconsulSession) : Permits (Grants cfg walk host role) s where
  insert _ := grants_of_trace rfl rfl rfl
  update _ := grants_of_trace rfl rfl rfl

theorem keepsRules_quiet : Quiet (Keeps rules) := fun _ _ _ _ _ _ _ => rfl

theorem addedGroups_engine {effects : List Effect}
    (engine : ∀ e ∈ effects, Effect.ofEngine e = true) : addedGroups effects = [] := by
  refine List.filterMap_eq_nil_iff.mpr (fun e he => ?_)
  have kind := engine e he
  cases e with
  | groupAdded sam g => cases kind
  | accountCreated | accountDeleted | daStored | portReserved | sessionInserted | sessionUpdated |
    containerCreated | containerStarted | cleaned => rfl

theorem grants_serves : Serves (Grants cfg walk host role) where
  logs := grants_logs
  port _ _ := grants_of_trace rfl rfl rfl
  session := grants_permits
  engine _ _ _ engine := grants_of_trace rfl rfl (addedGroups_engine engine)

/-- Adding a group for which there is a reason. -/
theorem grants_addGroupToADUser (c : GroupCalls) {urn : Option String} (u : ADUser)
    (au : Option AuthUser) (clientip : Option String) {w : World}
    (reason : ∀ g, urn = some g → Reason cfg walk host role (rules w) (groupDn cfg g)) :
    Grants cfg walk host role w
      ((addGroupToADUser cfg c urn (some u) au clientip).run w).2 := by
  cases urn with
  | none => exact grants_refl w
  | some urn =>
    have same := keeps_run (quiet_addGroupToADUser keepsRules_quiet cfg c (some urn) (some u) au
      clientip) w
    obtain ⟨u', w', hrun, -, -, -, trace⟩ := run_addGroupToADUser cfg c urn u au clientip w
    rw [hrun] at same ⊢
    refine ⟨same, _, trace, fun g hg => ?_⟩
    obtain ⟨e, he, hval⟩ := List.mem_filterMap.mp hg
    rw [groupEffects] at he
    split at he
    · obtain ⟨i, -, rfl⟩ := List.mem_map.mp he
      cases hval
      exact reason urn rfl
    · cases he

theorem run_hostAccessRule {c : HostGroupCalls} {w w' : World} {row : HostAccessRow}
    (h : (hostAccessRule c (some host)).run w = (.ok (some row), w')) :
    w' = w ∧ row ∈ w.db.hostAccessGroup ∧ (sqlEq row.fqdn (some host) = true ∨
      ∃ ou, hostOu w.ad.computers (some host) = some ou ∧ ouEndsLike ou row = true) := by
  rw [hostAccessRule, Prog.run_bind, run_query rfl] at h
  cases hb : c.byName with
  | true =>
    rw [hb] at h
    cases h
  | false =>
    rw [hb] at h
    simp only [Bool.false_eq_true, if_false] at h
    cases hn : (w.db.hostAccessGroup.filter (fun r => sqlEq r.fqdn (some host))).head? with
    | some r =>
      rw [hn] at h
      cases h
      obtain ⟨mem, named⟩ := List.mem_filter.mp (List.mem_of_mem_head? hn)
      exact ⟨rfl, mem, .inl named⟩
    | none =>
      rw [hn] at h
      dsimp only at h
      rw [Prog.run_bind_ok (run_ouForFqdn _ _ _)] at h
      cases hou : (if c.ou then none else hostOu w.ad.computers (some host)) with
      | none =>
        rw [hou] at h
        cases h
      | some ou =>
        have place : hostOu w.ad.computers (some host) = some ou := by
          split at hou
          · cases hou
          · exact hou
        rw [hou] at h
        dsimp only at h
        rw [run_query rfl] at h
        split at h
        · cases h
        · obtain ⟨found, rfl⟩ := Prod.mk.inj h
          obtain ⟨mem, like⟩ := List.mem_filter.mp (List.mem_of_mem_head? (Except.ok.inj found))
          exact ⟨rfl, mem, .inr ⟨ou, place, like⟩⟩

theorem grants_addHostAccessGroup (c : HostGroupCalls) (u : ADUser) (w : World) :
    Grants cfg walk host role w ((addHostAccessGroup cfg c (some u) (some host)).run w).2 := by
  rw [addHostAccessGroup, Prog.run_orElse_state, Prog.run_bind]
  have same := Prog.run_unchanged (reads_hostAccessRule c (some host)) w
  rcases hr : (hostAccessRule c (some host)).run w with ⟨e | rule, w'⟩
  · rw [hr] at same
    exact same ▸ grants_refl _
  · cases rule with
    | none =>
      rw [hr] at same
      exact same ▸ grants_refl _
    | some row =>
      obtain ⟨rfl, mem, matched⟩ := run_hostAccessRule hr
      refine grants_addGroupToADUser c.group u none none (fun g hg => ?_)
      exact .hostAccess ⟨row, mem, by rw [hg]; rfl, matched⟩

theorem grants_addGatewayAccessGroup (c : GatewayGroupCalls) (u : ADUser) (w : World) :
    Grants cfg walk host role w ((addGatewayAccessGroup cfg c (some u) (some host)).run w).2 := by
  rw [addGatewayAccessGroup, Prog.run_orElse_state, Prog.run_bind, run_query rfl]
  cases c.rule with
  | true => exact grants_refl w
  | false =>
    simp only [Bool.false_eq_true, if_false]
    cases hg : (w.db.hostGateway.filter (fun r => sqlEq r.fqdn (some host))).head? with
    | none => exact grants_refl w
    | some row =>
      obtain ⟨mem, named⟩ := List.mem_filter.mp (List.mem_of_mem_head? hg)
      refine grants_addGroupToADUser c.group u none none (fun g hg => ?_)
      exact .gateway ⟨row, mem, by rw [hg]; rfl, named⟩

theorem grants_addManagingGroup (find : Bool) (c : GroupCalls) (u : ADUser) (au : AuthUser)
    (addr : Option String) (w : World) :
    Grants cfg walk host role w ((do
      let managing ← groupDnForFQDN find walk (some host)
      addGroupToADUser cfg c managing (some u) (some au) addr : Run (Option ADUser)).run w).2 := by
  obtain ⟨r, hrun, spec⟩ := run_groupDnForFQDN find walk host w
  rw [Prog.run_bind_ok hrun]
  exact grants_addGroupToADUser c u (some au) addr (fun g hg => .managing g rfl (spec g hg))

/-- No group addition answers null, so that nothing is ever undone. -/
theorem grants_orUndo {c : DeleteCalls} {au : AuthUser} {addr : Option String} {before u : ADUser}
    {message : String} {add : Run (Option ADUser)} {next : ADUser → Run (Page ⊕ Option ADUser)}
    (hadd : ∀ w, Grants cfg walk host role w (add.run w).2) (same : add.Returns (SameUser u))
    (hnext : ∀ u' w, Grants cfg walk host role w ((next u').run w).2) (w : World) :
    Grants cfg walk host role w ((orUndo cfg c au addr before message add next).run w).2 := by
  refine Prog.related_bind grants_trans hadd same ?_ w
  rintro _ ⟨u', rfl, -⟩ w'
  exact hnext u' w'

theorem grants_delegatedGroups (c : DelegatedCalls) (au : AuthUser) (u : ADUser)
    (addr : Option String) (w : World) :
    Grants cfg c.walk host role w ((delegatedGroups cfg c au host role u addr).run w).2 := by
  refine Prog.related_bind grants_trans (fun w => grants_addGroupToADUser c.default u (some au) addr
    (fun g hg => .default (by cases hg; rfl))) (returns_addGroupToADUser _ _ _ _ _ _) ?_ w
  rintro _ ⟨u₁, rfl, -⟩ w₁
  refine grants_orUndo (grants_addHostAccessGroup c.host u₁) (returns_addHostAccessGroup _ _ _ _) ?_ w₁
  intro u₂ w₂
  refine grants_orUndo (grants_addManagingGroup c.findOu c.managing u₂ au addr)
    (Prog.returns_bind (Prog.returns_any _) (fun _ _ => returns_addGroupToADUser _ _ _ _ _ _)) ?_ w₂
  intro u₃ w₃
  refine grants_orUndo (fun w => grants_addGroupToADUser c.role u₃ (some au) addr
    (fun g hg => .role g rfl hg)) (returns_addGroupToADUser _ _ _ _ _ _) ?_ w₃
  intro u₄ w₄
  refine Prog.related_bind grants_trans (grants_addGatewayAccessGroup c.gateway u₄)
    (Prog.returns_any _) (fun _ _ w => grants_refl w) w₄

theorem grants_delegatedSession (c : DelegatedCalls) (req : Request) (form : DelegatedAdminRequest)
    (displayName : String) (u : ADUser) (w : World) :
    Grants cfg c.walk host form.roleGroup w
      ((delegatedSession cfg c req form host displayName u).run w).2 := by
  have opening : ∀ s w, Grants cfg c.walk host form.roleGroup w
      ((openSession c.opening s req.remoteAddr).run w).2 := fun s w =>
    Prog.run_related grants_refl grants_trans (steps_openSession grants_serves _ _ _) w
  refine Prog.related_bind grants_trans (opening _) (Prog.returns_any _) (fun s _ w₁ => ?_) w
  refine Prog.related_bind grants_trans (grants_delegatedGroups c req.authUser u req.remoteAddr)
    (Prog.returns_any _) (fun r _ w₂ => ?_) w₁
  cases r with
  | inl page => exact grants_refl w₂
  | inr o =>
    exact Prog.run_related grants_refl grants_trans
      (steps_finishSession grants_serves _ _ _ _ _ _) w₂

end Grants

/-- The host as the handler uses it. -/
def targetHost (form : DelegatedAdminRequest) : String := keepOnly hostChar (form.hostName.getD "")

theorem addedGroups_created (k : Nat) (sam : String) :
    addedGroups (List.replicate k (.accountCreated sam)) = [] := by
  induction k with
  | zero => rfl
  | succ k ih => exact ih

theorem rules_of_onlyTokens {w w' : World} (h : OnlyTokens w w') : rules w' = rules w := by
  obtain ⟨tokens, rfl⟩ := h
  rfl

/-- The host is a computer beneath an OU delegated to the user. -/
def HostDelegated (w : World) (au : AuthUser) (host : String) : Prop :=
  ∃ d ∈ delegatedOus w.db au, ∃ m ∈ w.ad.computers, underBase d m.dn = true ∧
    m.dnsHostName.map toLowerCase = some host

/-- The check of the host reads one row of each group, and that row delegates its OU. -/
theorem hostDelegated_of_gate {w : World} {au : AuthUser} {host : String}
    (h : Delegated w au host) : HostDelegated w au host := by
  obtain ⟨g, member, covered⟩ := List.any_eq_true.mp h
  rw [covers, List.contains_iff_mem] at covered
  cases first : (delegations w.db g).head? with
  | none => simp [first] at covered
  | some row =>
    cases named : row.ou with
    | none => simp [first, named] at covered
    | some d =>
      have listed : host ∈ hostsUnder w.ad d := by simpa [first, named] using covered
      obtain ⟨m, found, name⟩ := List.mem_filterMap.mp listed
      obtain ⟨known, beneath⟩ := List.mem_filter.mp found
      have row_mem : row ∈ delegations w.db g := List.mem_of_mem_head? first
      refine ⟨d, List.mem_flatMap.mpr ⟨g, member, ?_⟩, m, known, beneath, name⟩
      exact List.mem_filterMap.mpr ⟨row, row_mem, named⟩

/-- Every group added has one of the five reasons, a role group belongs to a delegated OU, and
the host lies beneath one. -/
theorem reason_of_added (cfg : Config) (c : DelegatedCalls) (req : Request)
    (form : DelegatedAdminRequest) (w : World) {g : String}
    (added : g ∈ addedGroups (newEffects w ((handleDelegatedAdminPost cfg c req form).run w).2)) :
    Reason cfg c.walk (targetHost form) form.roleGroup (rules w) g ∧
      (∀ urn, form.roleGroup = some urn → Entrusted w.db req.authUser urn) ∧
      HostDelegated w req.authUser (targetHost form) := by
  have nothing : ∀ w', OnlyTokens w w' → g ∉ addedGroups (newEffects w w') := by
    intro w' tokens hg
    rw [newEffects_of_same tokens.trace] at hg
    cases hg
  rw [handleDelegatedAdminPost] at added
  cases hosted : form.hostName with
  | none =>
    rw [hosted] at added
    exact absurd added (nothing w (.refl w))
  | some name =>
    cases displayed : form.displayName with
    | none =>
      rw [hosted, displayed] at added
      exact absurd added (nothing w (.refl w))
    | some displayName =>
      rw [hosted, displayed] at added
      rcases withAccount_cases cfg c.create (some req.authUser)
          (steps_inOrder (onlyTokens_delegatedGates c req form (keepOnly hostChar name)))
          (delegatedSession cfg c req form (keepOnly hostChar name)
            (keepOnly displayChar displayName)) w with
        ⟨tokens, -⟩ | ⟨w₁, sam, dn, k, w₂, passed, tokens, creates, created, -, hrun⟩
      · exact absurd added (nothing _ tokens)
      · have grants : Grants cfg c.walk (keepOnly hostChar name) form.roleGroup w₂
            ((delegatedSession cfg c req form (keepOnly hostChar name)
              (keepOnly displayChar displayName) (randomizedUser cfg c.create sam)).run w₂).2 :=
          grants_delegatedSession c req form _ _ w₂
        have same : rules w₂ = rules w := by
          have kept := keeps_run (quiet_createRandomizedADUser keepsRules_quiet cfg c.create
            (some req.authUser)) w₁
          rw [creates] at kept
          exact kept.trans (rules_of_onlyTokens tokens)
        obtain ⟨-, effects, trace, reasons⟩ := grants
        have all : newEffects w ((delegatedSession cfg c req form (keepOnly hostChar name)
            (keepOnly displayChar displayName) (randomizedUser cfg c.create sam)).run w₂).2 =
            List.replicate k (.accountCreated sam) ++ effects := by
          refine newEffects_of_append ?_
          rw [trace, created.trace, tokens.trace, List.append_assoc]
        replace added : g ∈ addedGroups (List.replicate k (.accountCreated sam) ++ effects) := by
          rw [← all, ← hrun]
          exact added
        rw [addedGroups, List.filterMap_append, ← addedGroups, ← addedGroups, addedGroups_created,
          List.nil_append] at added
        have reason := reasons g added
        rw [same] at reason
        rw [targetHost, hosted]
        exact ⟨reason, fun urn role => delegatedGate_entrusted passed role,
          hostDelegated_of_gate (delegatedGate_passes passed)⟩

/-- Beyond the groups that do not depend on the user, a request adds the group of an OU at or
beneath one delegated to the user, or the group of the lowest mapped OU above the host, and then
the host itself lies beneath an OU delegated to the user. -/
theorem delegated_groups_follow_tree (cfg : Config) (c : DelegatedCalls) (req : Request)
    (form : DelegatedAdminRequest) (w : World) (sam g : String)
    (added : .groupAdded sam g ∈ newEffects w ((handleDelegatedAdminPost cfg c req form).run w).2) :
    g = groupDn cfg cfg.defgroupdn ∨ HostAccess cfg (rules w) (targetHost form) g ∨
      GatewayAccess cfg (rules w) (targetHost form) g ∨
      ∃ urn, g = groupDn cfg urn ∧ (Entrusted w.db req.authUser urn ∨
        Managing w.db.ouGroup w.ad.computers c.walk (targetHost form) urn ∧
          HostDelegated w req.authUser (targetHost form)) := by
  have mem : g ∈ addedGroups (newEffects w ((handleDelegatedAdminPost cfg c req form).run w).2) :=
    List.mem_filterMap.mpr ⟨_, added, rfl⟩
  obtain ⟨reason, entrusted, delegated⟩ := reason_of_added cfg c req form w mem
  cases reason with
  | default h => exact .inl h
  | hostAccess h => exact .inr (.inl h)
  | gateway h => exact .inr (.inr (.inl h))
  | managing urn name h => exact .inr (.inr (.inr ⟨urn, name, .inr ⟨h, delegated⟩⟩))
  | role urn name h => exact .inr (.inr (.inr ⟨urn, name, .inl (entrusted urn h)⟩))

/-! ## A group from above the delegation -/

/-- Pat's group is a delegate for the labs, which have no managing group; all of engineering
has one. -/
def labSite : World :=
  { World.empty with
    db := { Database.empty with
      accessUser := [⟨some "pat@dom.ain", some "proconsul"⟩]
      csrfTokens := [⟨some "S1", some "T1", 0⟩]
      delegateGroups := [⟨some "urn:labs", some "ou=labs,ou=eng,dc=dom"⟩]
      ouGroup := [⟨"ou=eng,dc=dom", some "cn=engineering"⟩] }
    ad := ⟨[], ["cn=engineering"], [⟨"lab1", "cn=lab1,ou=labs,ou=eng,dc=dom", some "lab1.dom.ain"⟩]⟩ }

def labRequest : Request := { sampleRequest with isMemberOf := some "urn:labs" }

def labForm : DelegatedAdminRequest :=
  ⟨some "lab1.dom.ain", some "ou=labs,ou=eng,dc=dom", none, some "lab1", some "T1"⟩

def labSession : World :=
  ((handleDelegatedAdminPost sampleConfig (.noOutage "ab3de6fgh-eas" "secret" "vncsecret") labRequest
    labForm).run labSite).2

theorem length_sqlKey {d o : String} (above : underBase d o = true)
    (tight : ∃ c cs, (foldCase d).reverse = c :: cs ∧ c ≠ ' ') :
    (sqlKey o).length = (foldCase o).length := by
  obtain ⟨c, cs, ends, visible⟩ := tight
  have tail : foldCase d <:+ foldCase o := by
    rcases underBase_iff.mp above with same | inside
    · rw [same]
    · exact (List.suffix_cons _ _).trans inside
  obtain ⟨front, parts⟩ := tail
  have kept : ((foldCase o).reverse.dropWhile (· == ' ')) = (foldCase o).reverse := by
    rw [← parts, List.reverse_append, ends, List.cons_append]
    exact List.dropWhile_cons_of_neg (by simpa using visible)
  rw [sqlKey, kept, List.reverse_reverse, List.length_map]

/-- No OU at or beneath the labs has a group. -/
theorem labs_unmapped {o : String} (beneath : underBase "ou=labs,ou=eng,dc=dom" o = true) :
    mappedGroup labSite.db.ouGroup o = none := by
  have whole : (sqlKey o).length = (foldCase o).length :=
    length_sqlKey beneath ⟨'M', _, rfl, by decide⟩
  have long : 21 ≤ (foldCase o).length := by
    rcases underBase_iff.mp beneath with same | inside
    · rw [same]
      decide
    · exact (Nat.le_of_lt (by decide)).trans inside.length_le
  have differs : sqlEq (some "ou=eng,dc=dom") (some o) = false := by
    rw [Bool.eq_false_iff]
    intro same
    have keys : sqlKey "ou=eng,dc=dom" = sqlKey o := beq_iff_eq.mp same
    rw [← whole, ← keys] at long
    exact absurd long (by decide)
  simp [mappedGroup, labSite, differs]

theorem labSession_engineering :
    .groupAdded "ab3de6fgh-eas" "cn=engineering" ∈ newEffects labSite labSession := by
  decide +kernel

theorem managing_group_above_delegation :
    (∃ container, .containerStarted container ∈ newEffects labSite labSession) ∧
      .groupAdded "ab3de6fgh-eas" "cn=engineering" ∈ newEffects labSite labSession ∧
      "cn=engineering" ≠ groupDn sampleConfig sampleConfig.defgroupdn ∧
      ¬ HostAccess sampleConfig (rules labSite) (targetHost labForm) "cn=engineering" ∧
      ¬ GatewayAccess sampleConfig (rules labSite) (targetHost labForm) "cn=engineering" ∧
      ¬ ∃ urn, "cn=engineering" = groupDn sampleConfig urn ∧
        Entrusted labSite.db labRequest.authUser urn := by
  refine ⟨?_, labSession_engineering, by decide +kernel, ?_, ?_, ?_⟩
  · have one : (started (newEffects labSite labSession)).length = 1 := by decide +kernel
    obtain ⟨container, only⟩ := List.length_eq_one_iff.mp one
    refine ⟨container, mem_started.mp ?_⟩
    rw [only]
    exact List.mem_singleton_self container
  · rintro ⟨row, mem, -⟩
    cases mem
  · rintro ⟨row, mem, -⟩
    cases mem
  · rintro ⟨urn, -, d, delegated, o, beneath, g, mapped, -⟩
    have only : delegatedOus labSite.db labRequest.authUser = ["ou=labs,ou=eng,dc=dom"] := by
      decide +kernel
    rw [only] at delegated
    cases List.mem_singleton.mp delegated
    rw [labs_unmapped beneath] at mapped
    cases mapped

theorem lab_group_follows_tree :
    .groupAdded "ab3de6fgh-eas" "cn=engineering" ∈ newEffects labSite labSession ∧
      ("cn=engineering" = groupDn sampleConfig sampleConfig.defgroupdn ∨
        HostAccess sampleConfig (rules labSite) (targetHost labForm) "cn=engineering" ∨
        GatewayAccess sampleConfig (rules labSite) (targetHost labForm) "cn=engineering" ∨
        ∃ urn, "cn=engineering" = groupDn sampleConfig urn ∧
          (Entrusted labSite.db labRequest.authUser urn ∨
            Managing labSite.db.ouGroup labSite.ad.computers (fun _ => false) (targetHost labForm)
              urn ∧ HostDelegated labSite labRequest.authUser (targetHost labForm))) :=
  ⟨labSession_engineering, delegated_groups_follow_tree sampleConfig
    (.noOutage "ab3de6fgh-eas" "secret" "vncsecret") labRequest labForm labSite "ab3de6fgh-eas"
    "cn=engineering" labSession_engineering⟩

end Delegation
