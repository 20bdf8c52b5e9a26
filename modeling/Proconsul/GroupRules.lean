import Proconsul.Delegation

/-!
# Groups that rules give to a session account

Three tables map users, group URNs and entitlements to directory groups, and
`host_access_group` maps hosts and OUs. The results compare, when every call
succeeds, the groups that a session account is added to with the groups the
rules name. A value with colons in a rule stands for a path of organisational
units, as it does everywhere in `addGroupToADUser`; a null value names no
group. Distinguished names are compared component by component, cut at commas
that are not escaped; blanks around a comma count.
-/

namespace GroupRules

open Program Schema Text Surroundings Access Hosts Accounts Sessions Handlers Delegation
open Starting (started mem_started)

/-! ## Rules and lookups -/

/-- The values that a mapping table has for a group URN or an entitlement. -/
def mappedValues (rows : List GroupMapRow) (value : String) : List (Option String) :=
  (rows.filter (fun r => sqlEq r.subject (some value))).map GroupMapRow.groupdn

def groupDnsFor (fails : Bool) (t : Table) (subject : String) (rows : Database → List GroupMapRow)
    (value : String) : Run (List (Option String)) :=
  Prog.orElse (query fails t ["groupdn", subject] (fun db => mappedValues (rows db) value)) []

def groupDnsForGroupUrn (fails : Bool) (urn : String) : Run (List (Option String)) :=
  groupDnsFor fails .groupGroup "groupurn" Database.groupGroup urn

def groupDnsForEntitlement (fails : Bool) (entitlement : String) : Run (List (Option String)) :=
  groupDnsFor fails .entitlementGroups "entitlement" Database.entitlementGroups entitlement

/-- The tables and computers that the group phase of a request reads. -/
structure Mapping where
  explicitGroups : List ExplicitGroupRow
  hostAccessGroup : List HostAccessRow
  hostGateway : List GatewayRow
  computers : List Computer

def mapping (w : World) : Mapping :=
  ⟨w.db.explicitGroups, w.db.hostAccessGroup, w.db.hostGateway, w.ad.computers⟩

def explicitValues (m : Mapping) (eppn : Option String) : List (Option String) :=
  (m.explicitGroups.filter (fun r => sqlEq r.eppn eppn)).map ExplicitGroupRow.groupdn

/-- The row that the first query of `addHostAccessGroup` yields. -/
def ruleByName (m : Mapping) (fqdn : Option String) : Option HostAccessRow :=
  (m.hostAccessGroup.filter (fun r => sqlEq r.fqdn fqdn)).head?

/-- The row that its second query yields. -/
def ruleByOu (m : Mapping) (fqdn : Option String) : Option HostAccessRow :=
  (hostOu m.computers fqdn).bind (fun tou => (m.hostAccessGroup.filter (ouEndsLike tou)).head?)

def hostRule (m : Mapping) (fqdn : Option String) : Option HostAccessRow :=
  (ruleByName m fqdn).or (ruleByOu m fqdn)

def gatewayRule (m : Mapping) (fqdn : Option String) : Option GatewayRow :=
  (m.hostGateway.filter (fun r => sqlEq r.fqdn fqdn)).head?

/-- The groups that values of a rule table name. -/
def groupsOf (cfg : Config) (values : List (Option String)) : List String :=
  values.filterMap (Option.map (groupDn cfg))

/-- One of the names is a name of the group. -/
def Lists (names : List String) (group : String) : Prop := ∃ g ∈ names, dnEq g group = true

theorem mem_groupsOf {cfg : Config} {values : List (Option String)} {g : String} :
    g ∈ groupsOf cfg values ↔ ∃ v, some v ∈ values ∧ groupDn cfg v = g := by
  simp [groupsOf, List.mem_filterMap]

theorem groupsOf_append (cfg : Config) (vs vs' : List (Option String)) :
    groupsOf cfg (vs ++ vs') = groupsOf cfg vs ++ groupsOf cfg vs' :=
  List.filterMap_append

theorem lists_append {names names' : List String} {group : String} :
    Lists (names ++ names') group ↔ Lists names group ∨ Lists names' group := by
  simp only [Lists, List.mem_append]
  constructor
  · rintro ⟨g, here | there, same⟩
    · exact .inl ⟨g, here, same⟩
    · exact .inr ⟨g, there, same⟩
  · rintro (⟨g, here, same⟩ | ⟨g, there, same⟩)
    · exact ⟨g, .inl here, same⟩
    · exact ⟨g, .inr there, same⟩

theorem Lists.congr {names : List String} {g group : String} (same : dnEq g group = true)
    (h : Lists names g) : Lists names group := by
  obtain ⟨n, mem, eq⟩ := h
  exact ⟨n, mem, dnEq_trans eq same⟩

theorem lists_of_mem {names : List String} {g : String} (mem : g ∈ names) : Lists names g :=
  ⟨g, mem, dnEq_refl g⟩

/-! ## Calls that succeed -/

structure GroupCalls.Succeed (c : GroupCalls) : Prop where
  find : c.find = false
  controller : ∀ i, c.controller i = false

structure HostGroupCalls.Succeed (c : HostGroupCalls) : Prop where
  byName : c.byName = false
  ou : c.ou = false
  byOu : c.byOu = false
  group : GroupCalls.Succeed c.group

structure GatewayGroupCalls.Succeed (c : GatewayGroupCalls) : Prop where
  rule : c.rule = false
  group : GroupCalls.Succeed c.group

/-- Writing to the audit log may still fail. -/
structure UserGroupCalls.Succeed (c : UserGroupCalls) : Prop where
  default : GroupCalls.Succeed c.default
  host : HostGroupCalls.Succeed c.host
  explicit : c.explicit = false
  group : ∀ i, GroupCalls.Succeed (c.group i)
  gateway : GatewayGroupCalls.Succeed c.gateway

/-- The directory knows the groups and the account. -/
structure Known (sam : Option String) (groups : List String) (w : World) : Prop where
  account : (accountDns w.ad sam).head?.isSome = true
  groups : ∀ g ∈ groups, w.ad.groups.any (fun known => dnEq known g) = true

/-! ## Joining groups -/

/-- The rules and the accounts stay, and exactly these groups are logged as joined. -/
structure Joins (groups : List String) (w w' : World) : Prop where
  mapping : mapping w' = mapping w
  names : names w'.ad = names w.ad
  known : w'.ad.groups = w.ad.groups
  trace : ∃ effects, w'.trace = w.trace ++ effects ∧ ∀ g, g ∈ addedGroups effects ↔ g ∈ groups

theorem Joins.refl (w : World) : Joins [] w w :=
  ⟨rfl, rfl, rfl, [], (List.append_nil _).symm, fun _ => Iff.rfl⟩

theorem Joins.trans {groups groups' : List String} {w w' w'' : World} (h : Joins groups w w')
    (h' : Joins groups' w' w'') : Joins (groups ++ groups') w w'' := by
  obtain ⟨effects, ht, exactly⟩ := h.trace
  obtain ⟨effects', ht', exactly'⟩ := h'.trace
  refine ⟨h'.mapping.trans h.mapping, h'.names.trans h.names, h'.known.trans h.known,
    effects ++ effects', by rw [ht', ht, List.append_assoc], ?_⟩
  intro g
  rw [addedGroups, List.filterMap_append, List.mem_append, List.mem_append, ← addedGroups,
    ← addedGroups, exactly, exactly']

theorem Known.joins {sam : Option String} {groups groups' : List String} {w w' : World}
    (known : Known sam groups w) (h : Joins groups' w w') : Known sam groups w' := by
  constructor
  · rw [accountDns_of_names h.names]
    exact known.account
  · rw [h.known]
    exact known.groups

theorem Known.mono {sam : Option String} {groups groups' : List String} {w : World}
    (known : Known sam groups w) (sub : groups' ⊆ groups) : Known sam groups' w :=
  ⟨known.account, fun g hg => known.groups g (sub hg)⟩

/-- The program answers the same user again, and exactly these groups have been joined. -/
def Enrolls (groups : List String) (u : ADUser) (p : Run (Option ADUser)) (w : World) : Prop :=
  ∃ u' w', p.run w = (.ok (some u'), w') ∧ SameUser u (some u') ∧ Joins groups w w'

theorem enrolls_pure (u : ADUser) (w : World) : Enrolls [] u (pure (some u)) w :=
  ⟨u, w, rfl, .refl u, .refl w⟩

theorem enrolls_bind {groups groups' : List String} {u : ADUser} {p : Run (Option ADUser)}
    {f : Option ADUser → Run (Option ADUser)} {w : World} (hp : Enrolls groups u p w)
    (hf : ∀ u' w', SameUser u (some u') → Joins groups w w' → Enrolls groups' u' (f (some u')) w') :
    Enrolls (groups ++ groups') u (p >>= f) w := by
  obtain ⟨u₁, w₁, hrun, same, joins⟩ := hp
  obtain ⟨u₂, w₂, hrun', same', joins'⟩ := hf u₁ w₁ same joins
  exact ⟨u₂, w₂, (Prog.run_bind_ok hrun).trans hrun', same.trans same', joins.trans joins'⟩

theorem enrolls_orElse {groups : List String} {u : ADUser} {p : Run (Option ADUser)}
    {fallback : Option ADUser} {w : World} (hp : Enrolls groups u p w) :
    Enrolls groups u (Prog.orElse p fallback) w := by
  obtain ⟨u', w', hrun, same, joins⟩ := hp
  exact ⟨u', w', by rw [Prog.run_orElse, hrun], same, joins⟩

theorem keepsMapping_quiet : Quiet (Keeps mapping) := fun _ _ _ _ _ _ _ => rfl

theorem mem_addedGroups_groupEffects {cfg : Config} {c : GroupCalls} {sam : Option String}
    {urn : String} {w : World} (succeed : GroupCalls.Succeed c)
    (known : Known sam [groupDn cfg urn] w) {g : String} :
    g ∈ addedGroups (groupEffects cfg c sam urn w.ad) ↔ g ∈ [groupDn cfg urn] := by
  have found := known.groups _ (List.mem_singleton_self _)
  have effects : groupEffects cfg c sam urn w.ad = (List.range cfg.dcs).map
      (fun _ => .groupAdded (javaString sam) (groupDn cfg urn)) := by
    simp [groupEffects, succeed.find, succeed.controller, known.account, found]
  rw [effects, addedGroups, List.filterMap_map, List.mem_filterMap, List.mem_singleton]
  constructor
  · rintro ⟨i, -, name⟩
    exact (Option.some.inj name).symm
  · rintro rfl
    exact ⟨0, List.mem_range.mpr cfg.dcs_pos, rfl⟩

theorem enrolls_addGroupToADUser (cfg : Config) {c : GroupCalls} (succeed : GroupCalls.Succeed c)
    (urn : Option String) (u : ADUser) (au : Option AuthUser) (clientip : Option String) {w : World}
    (known : Known u.sAMAccountName (groupsOf cfg [urn]) w) :
    Enrolls (groupsOf cfg [urn]) u (addGroupToADUser cfg c urn (some u) au clientip) w := by
  cases urn with
  | none => exact enrolls_pure u w
  | some urn =>
    have same := keeps_run (quiet_addGroupToADUser keepsMapping_quiet cfg c (some urn) (some u) au
      clientip) w
    obtain ⟨u', w', hrun, kept, hnames, hgroups, trace⟩ :=
      run_addGroupToADUser cfg c urn u au clientip w
    rw [hrun] at same
    exact ⟨u', w', hrun, kept, same, hnames, hgroups, _, trace,
      fun g => mem_addedGroups_groupEffects succeed known⟩

/-! ## Host access rules -/

theorem run_hostRule {c : HostGroupCalls} (succeed : HostGroupCalls.Succeed c) (fqdn : Option String)
    (w : World) : (hostAccessRule c fqdn).run w = (.ok (hostRule (mapping w) fqdn), w) := by
  have byName : (w.db.hostAccessGroup.filter (fun r => sqlEq r.fqdn fqdn)).head? =
      ruleByName (mapping w) fqdn := rfl
  have place : hostOu (mapping w).computers fqdn = hostOu w.ad.computers fqdn := rfl
  rw [hostAccessRule, Prog.run_bind, run_query rfl, succeed.byName]
  simp only [Bool.false_eq_true, if_false, byName]
  cases picked : ruleByName (mapping w) fqdn with
  | some r => simp [hostRule, picked]
  | none =>
    dsimp only
    rw [Prog.run_bind_ok (run_ouForFqdn _ _ _), succeed.ou, hostRule, picked, Option.none_or, ruleByOu,
      place]
    simp only [Bool.false_eq_true, if_false]
    cases hostOu w.ad.computers fqdn with
    | none => rfl
    | some tou =>
      dsimp only
      rw [run_query rfl, succeed.byOu]
      rfl

/-- The groups of the rule that `addHostAccessGroup` takes. -/
def hostGroups (cfg : Config) (m : Mapping) (fqdn : Option String) : List String :=
  groupsOf cfg [(hostRule m fqdn).bind HostAccessRow.groupdn]

theorem enrolls_addHostAccessGroup (cfg : Config) {c : HostGroupCalls}
    (succeed : HostGroupCalls.Succeed c) (u : ADUser) (fqdn : Option String) {w : World}
    (known : Known u.sAMAccountName (hostGroups cfg (mapping w) fqdn) w) :
    Enrolls (hostGroups cfg (mapping w) fqdn) u (addHostAccessGroup cfg c (some u) fqdn) w := by
  apply enrolls_orElse
  rw [Enrolls, Prog.run_bind_ok (run_hostRule succeed fqdn w)]
  rw [hostGroups] at known ⊢
  cases picked : hostRule (mapping w) fqdn with
  | none => exact enrolls_pure u w
  | some row =>
    rw [picked] at known
    exact enrolls_addGroupToADUser cfg succeed.group row.groupdn u none none known

/-- Pieces of a DN between commas that no backslash precedes. -/
def splitUnescaped : List Char → List (List Char)
  | [] => [[]]
  | '\\' :: c :: rest => extend ['\\', c] (splitUnescaped rest)
  | ',' :: rest => [] :: splitUnescaped rest
  | c :: rest => extend [c] (splitUnescaped rest)
where
  extend (front : List Char) : List (List Char) → List (List Char)
    | [] => [front]
    | piece :: pieces => (front ++ piece) :: pieces

/-- The empty name is the root of the tree. -/
def components (dn : String) : List (List Char) :=
  if dn = "" then [] else splitUnescaped (foldCase dn)

/-- The entry lies in that OU or in one beneath it. -/
def holds (ou dn : String) : Bool := (components ou).isSuffixOf (components dn).tail

/-- The rule names the host, or the OU of its computer object or an ancestor of that. -/
def applies (computers : List Computer) (host : String) (r : HostAccessRow) : Bool :=
  sqlEq r.fqdn (some host) || r.ou.any (fun ou => computers.any (fun c =>
    c.dnsHostName.any (finds host) && holds ou c.dn))

/-- The groups of all rules for the host. -/
def applicableGroups (cfg : Config) (m : Mapping) (host : String) : List String :=
  groupsOf cfg ((m.hostAccessGroup.filter (applies m.computers host)).map HostAccessRow.groupdn)

/-- The group of every rule for the host is the group of the row that the
queries yield, and a row that is found by its OU names the group of some rule
for the host. -/
structure RowSuffices (cfg : Config) (m : Mapping) (host : String) : Prop where
  taken : ∀ g ∈ applicableGroups cfg m host, Lists (hostGroups cfg m (some host)) g
  meant : ruleByName m (some host) = none →
    ∀ row, ruleByOu m (some host) = some row → ∀ v, row.groupdn = some v →
      Lists (applicableGroups cfg m host) (groupDn cfg v)

/-- A row found by name is a rule for the host. -/
theorem mem_applicable_of_byName {cfg : Config} {m : Mapping} {host v : String} {row : HostAccessRow}
    (picked : ruleByName m (some host) = some row) (value : row.groupdn = some v) :
    groupDn cfg v ∈ applicableGroups cfg m host := by
  obtain ⟨mem, named⟩ := List.mem_filter.mp (List.mem_of_mem_head? picked)
  have rule : row ∈ m.hostAccessGroup.filter (applies m.computers host) :=
    List.mem_filter.mpr ⟨mem, by simp [applies, named]⟩
  exact mem_groupsOf.mpr ⟨v, value ▸ List.mem_map_of_mem rule, rfl⟩

theorem mem_hostGroups {cfg : Config} {m : Mapping} {fqdn : Option String} {g : String} :
    g ∈ hostGroups cfg m fqdn ↔
      ∃ row, hostRule m fqdn = some row ∧ ∃ v, row.groupdn = some v ∧ groupDn cfg v = g := by
  rw [hostGroups, mem_groupsOf]
  constructor
  · rintro ⟨v, mem, rfl⟩
    obtain ⟨row, picked, value⟩ := Option.bind_eq_some_iff.mp (List.mem_singleton.mp mem).symm
    exact ⟨row, picked, v, value, rfl⟩
  · rintro ⟨row, picked, v, value, rfl⟩
    exact ⟨v, by simp [picked, value], rfl⟩

theorem rowSuffices_iff {cfg : Config} {m : Mapping} {host : String} :
    (∀ g, Lists (hostGroups cfg m (some host)) g ↔ Lists (applicableGroups cfg m host) g) ↔
      RowSuffices cfg m host := by
  constructor
  · intro agree
    constructor
    · intro g mem
      exact (agree g).mpr (lists_of_mem mem)
    · intro unnamed row picked v value
      apply (agree _).mp
      apply lists_of_mem
      exact mem_hostGroups.mpr ⟨row, by rw [hostRule, unnamed, picked]; rfl, v, value, rfl⟩
  · intro suffices' g
    constructor
    · rintro ⟨n, mem, same⟩
      obtain ⟨row, picked, v, value, rfl⟩ := mem_hostGroups.mp mem
      apply Lists.congr same
      cases named : ruleByName m (some host) with
      | some first =>
        rw [hostRule, named] at picked
        cases picked
        exact lists_of_mem (mem_applicable_of_byName named value)
      | none =>
        rw [hostRule, named] at picked
        exact suffices'.meant named row picked v value
    · rintro ⟨n, mem, same⟩
      exact Lists.congr same (suffices'.taken n mem)

theorem Enrolls.added {groups : List String} {u : ADUser} {p : Run (Option ADUser)} {w : World}
    (h : Enrolls groups u p w) (g : String) :
    Lists (addedGroups (newEffects w (p.run w).2)) g ↔ Lists groups g := by
  obtain ⟨u', w', hrun, -, joins⟩ := h
  obtain ⟨effects, trace, exactly⟩ := joins.trace
  rw [hrun, newEffects_of_append trace]
  simp only [Lists, exactly]

/-- When all calls succeed, a user of the host is added to the groups of exactly its rules, if and
only if the one row that the queries yield speaks for all of them. -/
theorem host_access_groups_exact_iff (cfg : Config) (c : HostGroupCalls) (u : ADUser) (host : String)
    (w : World) (succeed : HostGroupCalls.Succeed c)
    (known : Known u.sAMAccountName (hostGroups cfg (mapping w) (some host)) w) :
    (∀ g, Lists (addedGroups (newEffects w
          ((addHostAccessGroup cfg c (some u) (some host)).run w).2)) g ↔
        Lists (applicableGroups cfg (mapping w) host) g) ↔
      RowSuffices cfg (mapping w) host := by
  rw [← rowSuffices_iff]
  have enrolls := enrolls_addHostAccessGroup cfg succeed u (some host) known
  simp only [enrolls.added]

/-- A lab machine, and a session account that may be added to two groups. -/
def labRules (rows : List HostAccessRow) : World :=
  { World.empty with
    db := { Database.empty with hostAccessGroup := rows }
    ad := ⟨[⟨"u1", "cn=u1,dc=d", none, 512, [], none, none⟩], ["cn=a", "cn=b"],
      [⟨"lab1", "cn=lab1,ou=labs,dc=d", some "lab1.d"⟩]⟩ }

def labUser : ADUser := ⟨some "u1", none, some "d", none, [], true⟩

theorem succeed_noOutage : GroupCalls.Succeed .noOutage := ⟨rfl, fun _ => rfl⟩

/-- One rule, for all labs. -/
def oneRule : World := labRules [⟨none, some "OU=Labs,dc=d", some "cn=b"⟩]

theorem lab_rule_exact : applicableGroups sampleConfig (mapping oneRule) "lab1.d" = ["cn=b"] ∧
    ∀ g, Lists (addedGroups (newEffects oneRule
      ((addHostAccessGroup sampleConfig .noOutage (some labUser) (some "lab1.d")).run oneRule).2)) g ↔
    Lists (applicableGroups sampleConfig (mapping oneRule) "lab1.d") g := by
  have picked : hostGroups sampleConfig (mapping oneRule) (some "lab1.d") = ["cn=b"] := by
    decide +kernel
  have rules : applicableGroups sampleConfig (mapping oneRule) "lab1.d" = ["cn=b"] := by
    decide +kernel
  refine ⟨rules, (host_access_groups_exact_iff sampleConfig .noOutage labUser "lab1.d" oneRule
    ⟨rfl, rfl, rfl, succeed_noOutage⟩ ⟨by decide +kernel, by decide +kernel⟩).mpr ⟨?_, ?_⟩⟩
  · rw [picked, rules]
    exact fun g => lists_of_mem
  · intro _ row found v value
    have group : groupDn sampleConfig v ∈ hostGroups sampleConfig (mapping oneRule) (some "lab1.d") :=
      mem_hostGroups.mpr ⟨row, found, v, value, rfl⟩
    rw [picked] at group
    rw [rules]
    exact lists_of_mem group

/-- A rule for the machine itself and one for all labs. -/
def twoRules : World :=
  labRules [⟨some "lab1.d", none, some "cn=a"⟩, ⟨none, some "OU=Labs,dc=d", some "cn=b"⟩]

/-- The rule by name hides the rule of the OU. -/
theorem second_rule_hidden : ¬ ∀ g, Lists (addedGroups (newEffects twoRules
      ((addHostAccessGroup sampleConfig .noOutage (some labUser) (some "lab1.d")).run twoRules).2)) g ↔
    Lists (applicableGroups sampleConfig (mapping twoRules) "lab1.d") g := by
  intro agree
  have added : addedGroups (newEffects twoRules ((addHostAccessGroup sampleConfig .noOutage
      (some labUser) (some "lab1.d")).run twoRules).2) = ["cn=a"] := by decide +kernel
  have wanted : "cn=b" ∈ applicableGroups sampleConfig (mapping twoRules) "lab1.d" := by
    decide +kernel
  obtain ⟨g, mem, same⟩ := (agree "cn=b").mpr (lists_of_mem wanted)
  rw [added] at mem
  cases List.mem_singleton.mp mem
  exact absurd same (by decide +kernel)

/-! ## The groups of a user session -/

def gatewayGroups (cfg : Config) (m : Mapping) (fqdn : Option String) : List String :=
  groupsOf cfg [(gatewayRule m fqdn).bind GatewayRow.groupdn]

/-- The groups that do not come from the mapping tables. -/
def otherGroups (cfg : Config) (m : Mapping) (fqdn : Option String) : List String :=
  groupsOf cfg [some cfg.defgroupdn] ++ hostGroups cfg m fqdn ++ gatewayGroups cfg m fqdn

def explicitlyMapped (cfg : Config) (w : World) (au : AuthUser) : List String :=
  groupsOf cfg (explicitValues (mapping w) au.uid)

/-- Mapped to the user's groups and entitlements. -/
def otherwiseMapped (cfg : Config) (w : World) (au : AuthUser) : List String :=
  groupsOf cfg (au.memberships.flatMap (mappedValues w.db.groupGroup) ++
    au.entitlements.flatMap (mappedValues w.db.entitlementGroups))

/-- The two lookups that no handler calls would answer just that. -/
theorem run_groupDnsFor (w : World) :
    (∀ urn, (groupDnsForGroupUrn false urn).run w = (.ok (mappedValues w.db.groupGroup urn), w)) ∧
      ∀ entitlement, (groupDnsForEntitlement false entitlement).run w =
        (.ok (mappedValues w.db.entitlementGroups entitlement), w) := by
  constructor
  · intro urn
    rw [groupDnsForGroupUrn, groupDnsFor, Prog.run_orElse, run_query rfl]
    rfl
  · intro entitlement
    rw [groupDnsForEntitlement, groupDnsFor, Prog.run_orElse, run_query rfl]
    rfl

theorem enrolls_addGatewayAccessGroup (cfg : Config) {c : GatewayGroupCalls}
    (succeed : GatewayGroupCalls.Succeed c) (u : ADUser) (fqdn : Option String) {w : World}
    (known : Known u.sAMAccountName (gatewayGroups cfg (mapping w) fqdn) w) :
    Enrolls (gatewayGroups cfg (mapping w) fqdn) u (addGatewayAccessGroup cfg c (some u) fqdn) w := by
  have found : (w.db.hostGateway.filter (fun r => sqlEq r.fqdn fqdn)).head? =
      gatewayRule (mapping w) fqdn := rfl
  apply enrolls_orElse
  rw [Enrolls, Prog.run_bind, run_query rfl, succeed.rule]
  simp only [Bool.false_eq_true, if_false, found]
  rw [gatewayGroups] at known ⊢
  cases picked : gatewayRule (mapping w) fqdn with
  | none => exact enrolls_pure u w
  | some row =>
    rw [picked] at known
    exact enrolls_addGroupToADUser cfg succeed.group row.groupdn u none none known

/-- The loop over the explicitly mapped values. -/
theorem enrolls_values (cfg : Config) {c : Nat → GroupCalls} (succeed : ∀ i, GroupCalls.Succeed (c i))
    (au : Option AuthUser) (addr : Option String) (values : List (Option String × Nat)) (u : ADUser)
    {w : World} (known : Known u.sAMAccountName (groupsOf cfg (values.map Prod.fst)) w) :
    Enrolls (groupsOf cfg (values.map Prod.fst)) u
      (values.foldlM (fun u dn => addGroupToADUser cfg (c dn.2) dn.1 u au addr) (some u)) w := by
  induction values generalizing u w with
  | nil => exact enrolls_pure u w
  | cons v values ih =>
    have parts : groupsOf cfg ((v :: values).map Prod.fst) =
        groupsOf cfg [v.1] ++ groupsOf cfg (values.map Prod.fst) :=
      groupsOf_append cfg [v.1] (values.map Prod.fst)
    rw [parts] at known ⊢
    rw [List.foldlM_cons]
    apply enrolls_bind
    · apply enrolls_addGroupToADUser cfg (succeed v.2)
      exact known.mono (List.subset_append_left _ _)
    · rintro u' w' ⟨_, ⟨rfl⟩, sam, -⟩ joins
      apply ih
      rw [sam]
      exact (known.mono (List.subset_append_right _ _)).joins joins

/-- The groups of a user session, in the order in which they are added. -/
def sessionGroups (cfg : Config) (m : Mapping) (au : AuthUser) (fqdn : Option String) : List String :=
  groupsOf cfg [some cfg.defgroupdn] ++ (hostGroups cfg m fqdn ++
    (groupsOf cfg (explicitValues m au.uid) ++ gatewayGroups cfg m fqdn))

theorem run_groupDnsForEppn (eppn : Option String) (w : World) :
    (groupDnsForEppn false eppn).run w = (.ok (explicitValues (mapping w) eppn), w) := by
  rw [groupDnsForEppn, Prog.run_orElse, run_query rfl]
  rfl

theorem enrolls_userGroups (cfg : Config) {c : UserGroupCalls} (succeed : UserGroupCalls.Succeed c)
    (au : AuthUser) (fqdn : Option String) (u : ADUser) (addr : Option String) {w : World}
    (known : Known u.sAMAccountName (sessionGroups cfg (mapping w) au fqdn) w) :
    Enrolls (sessionGroups cfg (mapping w) au fqdn) u (userGroups cfg c au fqdn u addr) w := by
  rw [sessionGroups] at known ⊢
  apply enrolls_bind
  · apply enrolls_addGroupToADUser cfg succeed.default
    exact known.mono (List.subset_append_left _ _)
  rintro u₁ w₁ ⟨_, ⟨rfl⟩, sam₁, -⟩ joins₁
  have known₁ := (known.mono (List.subset_append_right _ _)).joins joins₁
  rw [← sam₁, ← joins₁.mapping] at known₁
  rw [← joins₁.mapping]
  apply enrolls_bind
  · apply enrolls_addHostAccessGroup cfg succeed.host
    exact known₁.mono (List.subset_append_left _ _)
  rintro u₂ w₂ ⟨_, ⟨rfl⟩, sam₂, -⟩ joins₂
  have known₂ := (known₁.mono (List.subset_append_right _ _)).joins joins₂
  rw [← sam₂, ← joins₂.mapping] at known₂
  rw [← joins₂.mapping, Enrolls, succeed.explicit, Prog.run_bind_ok (run_groupDnsForEppn au.uid w₂)]
  have values := List.zipIdx_map_fst 0 (explicitValues (mapping w₂) au.uid)
  apply enrolls_bind
  · have loop := enrolls_values cfg succeed.group (some au) addr
      (explicitValues (mapping w₂) au.uid).zipIdx u₂ (w := w₂)
    rw [values] at loop
    exact loop (known₂.mono (List.subset_append_left _ _))
  rintro u₃ w₃ ⟨_, ⟨rfl⟩, sam₃, -⟩ joins₃
  have known₃ := (known₂.mono (List.subset_append_right _ _)).joins joins₃
  rw [← sam₃, ← joins₃.mapping] at known₃
  rw [← joins₃.mapping]
  exact enrolls_addGatewayAccessGroup cfg succeed.gateway u₃ fqdn known₃

/-! ### The request around the group phase -/

/-- Nothing is joined and no account changes. -/
theorem joins_none {w w' : World} (same : mapping w' = mapping w) (ad : w'.ad = w.ad)
    {effects : List Effect} (trace : w'.trace = w.trace ++ effects) (none : addedGroups effects = []) :
    Joins [] w w' :=
  ⟨same, by rw [ad], by rw [ad], effects, trace, by simp [none]⟩

theorem joins_serves : Serves (Joins []) where
  logs := ⟨Joins.refl, fun _ _ => joins_none rfl rfl (List.append_nil _).symm rfl⟩
  port _ _ := joins_none rfl rfl rfl rfl
  session _ := ⟨fun _ => joins_none rfl rfl rfl rfl, fun _ => joins_none rfl rfl rfl rfl⟩
  engine _ _ _ engine := joins_none rfl rfl rfl (addedGroups_engine engine)

theorem joins_run {α : Type} {p : Run α} (steps : p.Steps (Joins [])) (w : World) :
    Joins [] w (p.run w).2 :=
  Prog.run_related Joins.refl (fun _ _ _ h h' => h.trans h') steps w

/-- The body of a request that completes joins exactly `sessionGroups`. -/
theorem joins_userSession {cfg : Config} {c : UserCalls} {req : Request} {form : UserSessionRequest}
    {u : ADUser} {w : World} (succeed : UserGroupCalls.Succeed c.groups)
    (known : Known u.sAMAccountName (sessionGroups cfg (mapping w) req.authUser form.targetFQDN) w)
    {page : Page} (completed : ((userSession cfg c req form u).run w).1 = .ok page) :
    Joins (sessionGroups cfg (mapping w) req.authUser form.targetFQDN) w
      ((userSession cfg c req form u).run w).2 := by
  unfold userSession at completed ⊢
  cases displayed : form.displayName with
  | none =>
    rw [displayed] at completed
    cases completed
  | some displayName =>
    rw [displayed] at completed
    cases hosted : form.targetFQDN with
    | none =>
      rw [hosted] at completed
      cases completed
    | some target =>
      rw [hosted] at completed known
      change ((openSession c.opening _ req.remoteAddr >>= _).run w).1 = .ok page at completed
      change Joins _ w ((openSession c.opening _ req.remoteAddr >>= _).run w).2
      have opening := joins_run (steps_openSession joins_serves c.opening (newSession req.authUser
        (some (keepOnly looseHostChar target)) c.vncPassword u (keepOnly displayChar displayName)
        "user" none none) req.remoteAddr) w
      rw [Prog.run_bind] at completed ⊢
      rcases hopen : (openSession c.opening (newSession req.authUser
        (some (keepOnly looseHostChar target)) c.vncPassword u (keepOnly displayChar displayName)
        "user" none none) req.remoteAddr).run w with ⟨e | s, w₁⟩
      · rw [hopen] at completed
        cases completed
      · rw [hopen] at opening
        have known₁ := known.joins opening
        rw [← opening.mapping] at known₁
        obtain ⟨u', w₂, hrun, -, joins⟩ := enrolls_userGroups cfg succeed req.authUser (some target) u
          req.remoteAddr known₁
        have closing := joins_run (steps_finishSession joins_serves cfg c.finish
          (largeOr req.resolution) s (some u') req.remoteAddr) w₂
        have all := (opening.trans joins).trans closing
        rw [List.nil_append, List.append_nil, opening.mapping] at all
        dsimp only
        rw [Prog.run_bind_ok hrun]
        exact all

/-- The session account of a request that is accepted and completes joins exactly `sessionGroups`. -/
theorem added_by_request {cfg : Config} {c : UserCalls} {req : Request} {form : UserSessionRequest}
    {w : World} (passes : ((userGate c req form).run w).1 = .ok none) {page : Page}
    (completed : ((handleUserSessionPost cfg c req form).run w).1 = .ok page)
    (created : accepted cfg c.create = true) (succeed : UserGroupCalls.Succeed c.groups)
    (groups : ∀ g ∈ sessionGroups cfg (mapping w) req.authUser form.targetFQDN,
      w.ad.groups.any (fun known => dnEq known g) = true) (g : String) :
    g ∈ addedGroups (newEffects w ((handleUserSessionPost cfg c req form).run w).2) ↔
      g ∈ sessionGroups cfg (mapping w) req.authUser form.targetFQDN := by
  have tokens := onlyTokens_run (steps_inOrder (onlyTokens_userGates c req form)) w
  rw [handleUserSessionPost, withAccount, Prog.run_bind] at completed ⊢
  rcases hgate : (userGate c req form).run w with ⟨r, w₁⟩
  rw [hgate] at passes completed
  replace tokens : OnlyTokens w w₁ := by
    rw [← userGate, hgate] at tokens
    exact tokens
  cases passes
  dsimp only at completed ⊢
  have kept := keeps_run (quiet_createRandomizedADUser keepsMapping_quiet cfg c.create
    (some req.authUser)) w₁
  rcases run_createRandomizedADUser cfg c.create (some req.authUser) w₁ with
    hnone | ⟨sam, k, w₂, -, hrun, h, hk⟩
  · rw [Prog.run_bind_ok hnone] at completed
    cases completed
  · rw [Prog.run_bind_ok hrun] at completed ⊢
    rw [hrun] at kept
    obtain ⟨tokenRows, rfl⟩ := tokens
    have same : mapping w₂ = mapping w := kept
    have known : Known (randomizedUser cfg c.create sam).sAMAccountName
        (sessionGroups cfg (mapping w₂) req.authUser form.targetFQDN) w₂ := by
      refine ⟨accountDns_created h (hk.mpr created), ?_⟩
      rw [same, h.groups]
      exact groups
    have joins := joins_userSession succeed known completed
    obtain ⟨effects, trace, exactly⟩ := joins.trace
    have log : newEffects w ((userSession cfg c req form (randomizedUser cfg c.create sam)).run w₂).2 =
        List.replicate k (.accountCreated sam) ++ effects :=
      newEffects_of_append (by rw [trace, h.trace, List.append_assoc])
    change g ∈ addedGroups (newEffects w ((userSession cfg c req form
      (randomizedUser cfg c.create sam)).run w₂).2) ↔ _
    rw [log, addedGroups, List.filterMap_append, ← addedGroups, ← addedGroups, addedGroups_created,
      List.nil_append, exactly, same]

theorem lists_sessionGroups {cfg : Config} {w : World} {au : AuthUser} {fqdn : Option String}
    {g : String} : Lists (sessionGroups cfg (mapping w) au fqdn) g ↔
      Lists (otherGroups cfg (mapping w) fqdn) g ∨ Lists (explicitlyMapped cfg w au) g := by
  simp only [sessionGroups, otherGroups, explicitlyMapped, lists_append]
  tauto

/-- When all calls succeed, the account of a completed request is added to all groups that its user
is mapped to, and to no others apart from the default, host access and gateway groups, if and only
if everything mapped to a membership or an entitlement is one of those or mapped to the user. -/
theorem session_groups_complete_iff (cfg : Config) (c : UserCalls) (req : Request)
    (form : UserSessionRequest) (w : World) (page : Page)
    (passes : ((userGate c req form).run w).1 = .ok none)
    (completed : ((handleUserSessionPost cfg c req form).run w).1 = .ok page)
    (created : accepted cfg c.create = true) (succeed : UserGroupCalls.Succeed c.groups)
    (groups : ∀ g ∈ sessionGroups cfg (mapping w) req.authUser form.targetFQDN,
      w.ad.groups.any (fun known => dnEq known g) = true) :
    (∀ g, ¬ Lists (otherGroups cfg (mapping w) form.targetFQDN) g →
      (Lists (addedGroups (newEffects w ((handleUserSessionPost cfg c req form).run w).2)) g ↔
        Lists (explicitlyMapped cfg w req.authUser ++ otherwiseMapped cfg w req.authUser) g)) ↔
      ∀ g ∈ otherwiseMapped cfg w req.authUser,
        Lists (otherGroups cfg (mapping w) form.targetFQDN) g ∨
          Lists (explicitlyMapped cfg w req.authUser) g := by
  have added : ∀ g, Lists (addedGroups (newEffects w
      ((handleUserSessionPost cfg c req form).run w).2)) g ↔
      Lists (otherGroups cfg (mapping w) form.targetFQDN) g ∨
        Lists (explicitlyMapped cfg w req.authUser) g := by
    intro g
    rw [← lists_sessionGroups]
    simp only [Lists, added_by_request passes completed created succeed groups]
  constructor
  · intro complete g mapped
    by_cases other : Lists (otherGroups cfg (mapping w) form.targetFQDN) g
    · exact .inl other
    · have mem : Lists (explicitlyMapped cfg w req.authUser ++ otherwiseMapped cfg w req.authUser) g :=
        lists_append.mpr (.inr (lists_of_mem mapped))
      exact (added g).mp ((complete g other).mpr mem)
  · intro covered g other
    rw [added, lists_append]
    constructor
    · rintro (exempt | explicit)
      · exact absurd exempt other
      · exact .inl explicit
    · rintro (explicit | ⟨n, mapped, same⟩)
      · exact .inr explicit
      · rcases covered n mapped with exempt | explicit
        · exact .inl (exempt.congr same)
        · exact .inr (explicit.congr same)

/-- Pat's site with a group for her team, mapped to the team and perhaps to her. -/
def teamSite (explicit : List ExplicitGroupRow) : World :=
  { sampleSite with
    db := { sampleSite.db with
      explicitGroups := explicit
      groupGroup := [⟨some "urn:team", some "cn=team"⟩] }
    ad := ⟨[], ["cn=proconsul,dc=dom,dc=ain", "cn=team"], []⟩ }

def teamRequest : Request := { sampleRequest with isMemberOf := some "urn:team" }

def teamCalls : UserCalls := .noOutage "ab3de6fgh-eas" "secret" "vncsecret"

def afterSession (w : World) : World :=
  ((handleUserSessionPost sampleConfig teamCalls teamRequest sampleForm).run w).2

def sessionPage : Page :=
  .redirect "https://pc.dom.ain/vnc.html?encrypt=1&autoconnect=1&port=5903&password=vncsecret"

/-- The team's group is mapped to Pat as well. -/
def bothMapped : World := teamSite [⟨some "pat@dom.ain", some "CN=Team"⟩]

theorem team_and_user_mapped :
    otherwiseMapped sampleConfig bothMapped teamRequest.authUser = ["cn=team"] ∧
    ∀ g, ¬ Lists (otherGroups sampleConfig (mapping bothMapped) sampleForm.targetFQDN) g →
      (Lists (addedGroups (newEffects bothMapped (afterSession bothMapped))) g ↔
        Lists (explicitlyMapped sampleConfig bothMapped teamRequest.authUser ++
          otherwiseMapped sampleConfig bothMapped teamRequest.authUser) g) := by
  have only : otherwiseMapped sampleConfig bothMapped teamRequest.authUser = ["cn=team"] := by
    decide +kernel
  refine ⟨only, (session_groups_complete_iff sampleConfig teamCalls teamRequest sampleForm bothMapped
    sessionPage (by decide +kernel) (by decide +kernel) (by decide +kernel) ⟨succeed_noOutage,
      ⟨rfl, rfl, rfl, succeed_noOutage⟩, rfl, fun _ => succeed_noOutage, rfl, succeed_noOutage⟩
    (by decide +kernel)).mpr ?_⟩
  intro g mapped
  rw [only] at mapped
  cases List.mem_singleton.mp mapped
  exact .inr ⟨"CN=Team", by decide +kernel, by decide +kernel⟩

/-- Pat is in the team, and her session account is not added to the team's group. -/
theorem team_group_missing :
    ((handleUserSessionPost sampleConfig teamCalls teamRequest sampleForm).run (teamSite [])).1 =
        .ok sessionPage ∧
      "cn=team" ∈ otherwiseMapped sampleConfig (teamSite []) teamRequest.authUser ∧
      ¬ Lists (otherGroups sampleConfig (mapping (teamSite [])) sampleForm.targetFQDN) "cn=team" ∧
      ¬ Lists (addedGroups (newEffects (teamSite []) (afterSession (teamSite [])))) "cn=team" := by
  have default : ∀ names, names = ["cn=proconsul,dc=dom,dc=ain"] → ¬ Lists names "cn=team" := by
    rintro _ rfl ⟨g, mem, same⟩
    cases List.mem_singleton.mp mem
    exact absurd same (by decide)
  exact ⟨by decide +kernel, by decide +kernel, default _ (by decide +kernel),
    default _ (by decide +kernel)⟩

end GroupRules
