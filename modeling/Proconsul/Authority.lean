import Proconsul.TwoRuns
import Proconsul.Permanence
import Proconsul.ConsoleWrites

/-!
# Who changes the rights of a user

Both applications run beside each other on one database. A rule is about a user if
its subject is their name, one of their groups or one of their entitlements, and what
the main application decides about a user it decides from such rules. The console
changes a rule only for an administrator, and only if the request carries the subject
as one of its values. Whatever else is requested, the rights of the user stay.

Which groups and gateways belong to a host, and which hosts Domain Admins may use, is
not decided about a user and not considered.
-/

namespace Authority

open Program Schema Text Surroundings Access Hosts Accounts Handlers Cleanup Lifecycle Interleaving
  TwoRuns MainPage AdminConsole ConsoleWrites Application Permanence

/-! ## Rules about a user -/

/-- The value names the user, one of their groups or one of their entitlements. -/
def subject (au : AuthUser) (v : Option String) : Bool :=
  sqlEq v au.uid || au.memberships.any (fun g => sqlEq v (some g)) ||
    au.entitlements.any (fun e => sqlEq v (some e))

/-- The tables reduced to what is about the user. -/
def about (au : AuthUser) (db : Database) : Database :=
  { standing db with
    accessGroups := db.accessGroups.filter (fun r => subject au (some r.groupurn))
    accessUser := db.accessUser.filter (fun r => subject au r.eppn)
    domainAdminHosts := []
    entitlementGroups := db.entitlementGroups.filter (fun r => subject au r.subject)
    entitlementHost := db.entitlementHost.filter (fun r => subject au r.subject)
    entitlements := db.entitlements.filter (fun r => subject au (some r.entitlement))
    explicitGroups := db.explicitGroups.filter (fun r => subject au r.eppn)
    explicitHosts := db.explicitHosts.filter (fun r => subject au r.subject)
    groupGroup := db.groupGroup.filter (fun r => subject au r.subject)
    groupHost := db.groupHost.filter (fun r => subject au r.subject)
    hostAccessGroup := [], hostGateway := []
    posixuser := db.posixuser.filter (fun r => subject au (some r.uid)) }

def sight (au : AuthUser) (w : World) : Database × List Computer := (about au w.db, w.ad.computers)

theorem subject_none (au : AuthUser) : subject au none = false := by
  simp [subject, sqlEq]

/-- Equal values name the same. -/
theorem subject_congr {a b : Option String} (same : sqlEq a b = true) (au : AuthUser) :
    subject au a = subject au b := by
  have swap : ∀ c, sqlEq a c = sqlEq b c := by
    intro c
    rw [Bool.eq_iff_iff]
    exact ⟨sqlEq_trans (sqlEq_symm same), sqlEq_trans same⟩
  simp only [subject, swap]

theorem subject_uid (au : AuthUser) {v : Option String} (h : sqlEq v au.uid = true) :
    subject au v = true := by
  simp [subject, h]

theorem subject_membership {au : AuthUser} {g : String} (hg : g ∈ au.memberships)
    {v : Option String} (h : sqlEq v (some g) = true) : subject au v = true := by
  have found : au.memberships.any (fun g => sqlEq v (some g)) = true :=
    List.any_eq_true.mpr ⟨g, hg, h⟩
  simp [subject, found]

theorem subject_entitlement {au : AuthUser} {e : String} (he : e ∈ au.entitlements)
    {v : Option String} (h : sqlEq v (some e) = true) : subject au v = true := by
  have found : au.entitlements.any (fun e => sqlEq v (some e)) = true :=
    List.any_eq_true.mpr ⟨e, he, h⟩
  simp [subject, found]

/-- What the main application leaves standing includes all rules. -/
theorem about_of_standing {au : AuthUser} {db db' : Database} (same : standing db' = standing db) :
    about au db' = about au db := by
  have whole : ∀ db, about au db = about au (standing db) := fun _ => rfl
  rw [whole db', whole db, same]

theorem sight_of_stands {au : AuthUser} {w w' : World} (stands : Stands w w') :
    sight au w' = sight au w := by
  rw [sight, sight, about_of_standing stands.policy, stands.computers]

/-! ## What a request can change -/

/-- None of the values that were sent names the user or something of theirs. -/
def Silent (au : AuthUser) (p : Parameters) : Prop := ∀ e ∈ p.entries, subject au (some e.2) = false

theorem Silent.field {au : AuthUser} {p : Parameters} (silent : Silent au p) (name : String) :
    subject au (p.getParameter name) = false := by
  cases sent : p.getParameter name with
  | none => exact subject_none au
  | some v =>
    obtain ⟨e, found, rfl⟩ := Option.map_eq_some_iff.mp sent
    exact silent e (List.mem_of_find?_eq_some found)

/-- A deletion by fields that do not name the user leaves the rules about them. -/
def Spares (au : AuthUser) (d : Deletion) : Prop :=
  ∀ field db, (∀ name, subject au (field name) = false) → about au (d.remove field db) = about au db

theorem other_of_eq {au : AuthUser} {field : String → Option String}
    (silent : ∀ name, subject au (field name) = false) {v : Option String} {name : String} {b : Bool}
    (chosen : (sqlEq v (field name) && b) = true) : subject au v = false := by
  rw [Bool.and_eq_true] at chosen
  rw [subject_congr chosen.1, silent]

section Tables

variable {au : AuthUser} {db : Database}

theorem about_accessUser {rows : List AccessUserRow}
    (same : rows.filter (fun r => subject au r.eppn) =
      db.accessUser.filter (fun r => subject au r.eppn)) :
    about au { db with accessUser := rows } = about au db := by
  unfold about
  dsimp only
  rw [same]
  rfl

theorem about_accessGroups {rows : List AccessGroupRow}
    (same : rows.filter (fun r => subject au (some r.groupurn)) =
      db.accessGroups.filter (fun r => subject au (some r.groupurn))) :
    about au { db with accessGroups := rows } = about au db := by
  unfold about
  dsimp only
  rw [same]
  rfl

theorem about_entitlements {rows : List EntitlementRow}
    (same : rows.filter (fun r => subject au (some r.entitlement)) =
      db.entitlements.filter (fun r => subject au (some r.entitlement))) :
    about au { db with entitlements := rows } = about au db := by
  unfold about
  dsimp only
  rw [same]
  rfl

theorem about_explicitGroups {rows : List ExplicitGroupRow}
    (same : rows.filter (fun r => subject au r.eppn) =
      db.explicitGroups.filter (fun r => subject au r.eppn)) :
    about au { db with explicitGroups := rows } = about au db := by
  unfold about
  dsimp only
  rw [same]
  rfl

theorem about_groupGroup {rows : List GroupMapRow}
    (same : rows.filter (fun r => subject au r.subject) =
      db.groupGroup.filter (fun r => subject au r.subject)) :
    about au { db with groupGroup := rows } = about au db := by
  unfold about
  dsimp only
  rw [same]
  rfl

theorem about_entitlementGroups {rows : List GroupMapRow}
    (same : rows.filter (fun r => subject au r.subject) =
      db.entitlementGroups.filter (fun r => subject au r.subject)) :
    about au { db with entitlementGroups := rows } = about au db := by
  unfold about
  dsimp only
  rw [same]
  rfl

theorem about_explicitHosts {rows : List HostMapRow}
    (same : rows.filter (fun r => subject au r.subject) =
      db.explicitHosts.filter (fun r => subject au r.subject)) :
    about au { db with explicitHosts := rows } = about au db := by
  unfold about
  dsimp only
  rw [same]
  rfl

theorem about_groupHost {rows : List HostMapRow}
    (same : rows.filter (fun r => subject au r.subject) =
      db.groupHost.filter (fun r => subject au r.subject)) :
    about au { db with groupHost := rows } = about au db := by
  unfold about
  dsimp only
  rw [same]
  rfl

theorem about_entitlementHost {rows : List HostMapRow}
    (same : rows.filter (fun r => subject au r.subject) =
      db.entitlementHost.filter (fun r => subject au r.subject)) :
    about au { db with entitlementHost := rows } = about au db := by
  unfold about
  dsimp only
  rw [same]
  rfl

theorem about_posixuser {rows : List PosixRow}
    (same : rows.filter (fun r => subject au (some r.uid)) =
      db.posixuser.filter (fun r => subject au (some r.uid))) :
    about au { db with posixuser := rows } = about au db := by
  unfold about
  dsimp only
  rw [same]
  rfl

end Tables

theorem spares_hostAndGateway {au : AuthUser} {d : Deletion}
    (mem : d ∈ hostGroupDeletions ++ gatewayDeletions) : Spares au d := by
  intro field db _
  simp only [hostGroupDeletions, gatewayDeletions, List.cons_append, List.nil_append,
    List.mem_cons, List.not_mem_nil, or_false] at mem
  rcases mem with rfl | rfl | rfl <;> rfl

theorem spares_posix {au : AuthUser} {d : Deletion} (mem : d ∈ posixDeletions) : Spares au d := by
  intro field db silent
  obtain rfl := List.mem_singleton.mp mem
  exact about_posixuser (filter_deleteWhere (fun r chosen =>
    (subject_congr chosen au).trans (silent "uname")))

theorem spares_groups {au : AuthUser} {d : Deletion} (mem : d ∈ groupDeletions) : Spares au d := by
  intro field db silent
  simp only [groupDeletions, List.mem_cons, List.not_mem_nil, or_false] at mem
  rcases mem with rfl | rfl | rfl
  · exact about_explicitGroups (filter_deleteWhere (fun r chosen => other_of_eq silent chosen))
  · exact about_groupGroup (filter_deleteWhere (fun r chosen => other_of_eq silent chosen))
  · exact about_entitlementGroups (filter_deleteWhere (fun r chosen => other_of_eq silent chosen))

theorem spares_hosts {au : AuthUser} {d : Deletion} (mem : d ∈ hostDeletions) : Spares au d := by
  intro field db silent
  have dropped : ∀ {name : String} {target : HostMapRow → Option String} {value : String}
      {rows : List HostMapRow}, (dropHosts name target value field rows).filter
        (fun r => subject au r.subject) = rows.filter (fun r => subject au r.subject) :=
    filter_deleteWhere (fun r chosen => other_of_eq silent chosen)
  simp only [hostDeletions, List.mem_cons, List.not_mem_nil, or_false] at mem
  rcases mem with rfl | rfl | rfl | rfl | rfl | rfl
  · exact about_explicitHosts dropped
  · exact about_explicitHosts dropped
  · exact about_groupHost dropped
  · exact about_groupHost dropped
  · exact about_entitlementHost dropped
  · exact about_entitlementHost dropped

theorem spares_domainAdminHosts {au : AuthUser} {d : Deletion} (mem : d ∈ domainAdminHostDeletions) :
    Spares au d := by
  intro field db _
  obtain rfl := List.mem_singleton.mp mem
  rfl

theorem spares_rules {au : AuthUser} {stem type : String} {d : Deletion}
    (mem : d ∈ ruleDeletions stem type) : Spares au d := by
  intro field db silent
  simp only [ruleDeletions, List.mem_cons, List.not_mem_nil, or_false] at mem
  rcases mem with rfl | rfl | rfl
  · exact about_accessUser (filter_deleteWhere (fun r chosen => other_of_eq silent chosen))
  · exact about_accessGroups (filter_deleteWhere (fun r chosen => other_of_eq silent chosen))
  · exact about_entitlements (filter_deleteWhere (fun r chosen => other_of_eq silent chosen))

/-- One lemma for the rows of all deletion loops. -/
theorem spares_deletions {au : AuthUser} {panel : Panel} {d : Deletion} (hd : d ∈ deletions panel) :
    Spares au d := by
  cases panel with
  | hostAndGatewayDetails => exact spares_hostAndGateway hd
  | posixUsers => exact spares_posix hd
  | windowsUsers => exact spares_groups hd
  | hostMgt =>
    rcases List.mem_append.mp hd with hosts | admins
    · exact spares_hosts hosts
    · exact spares_domainAdminHosts admins
  | accessControl => rcases List.mem_append.mp hd with login | admin <;> exact spares_rules ‹_›

theorem about_of_write {au : AuthUser} {p : Parameters} (silent : Silent au p) {panel : Panel}
    {db db' : Database} (written : Write p panel db db') : about au db' = about au db := by
  cases written with
  | delete hd num => exact spares_deletions hd _ _ (fun name => silent.field _)
  | hostAccess row => rfl
  | gateway row => rfl
  | posix user free => exact about_posixuser (filter_append_row (user ▸ silent.field "user"))
  | explicitGroup rhs => exact about_explicitGroups (filter_append_row (silent.field "lhs"))
  | groupGroup rhs => exact about_groupGroup (filter_append_row (silent.field "lhs"))
  | entitlementGroup rhs => exact about_entitlementGroups (filter_append_row (silent.field "lhs"))
  | explicitHost fqdn ou => exact about_explicitHosts (filter_append_row (silent.field "lhs"))
  | groupHost fqdn ou => exact about_groupHost (filter_append_row (silent.field "lhs"))
  | entitlementHost fqdn ou => exact about_entitlementHost (filter_append_row (silent.field "lhs"))
  | domainAdminHost fqdn => rfl
  | userRule property type => exact about_accessUser (filter_append_row (silent.field property))
  | groupRule given type free => exact about_accessGroups (filter_append_row (given ▸ silent.field _))
  | entitlementRule given type free =>
    exact about_entitlements (filter_append_row (given ▸ silent.field _))

theorem keeps_refl {au : AuthUser} (w : World) : Keeps (sight au) w w := rfl

theorem steps_silent {config : AdminConfig} {request : AdminRequest} (c : ConsoleCalls)
    {au : AuthUser} (silent : Silent au request.parameters) (panel : Panel) :
    (post config c request panel).Steps (Keeps (sight au)) := by
  refine Prog.steps_mono ?_ (steps_writes config c request panel)
  rintro w w' (rfl | ⟨db, written, rfl⟩)
  · rfl
  · exact Prod.ext (about_of_write silent written) rfl

/-! ## What is decided from the rules about a user -/

theorem filter_subset {ρ : Type} {keep sel : ρ → Bool} (rows : List ρ)
    (sub : ∀ r, sel r = true → keep r = true) : (rows.filter keep).filter sel = rows.filter sel := by
  rw [List.filter_filter]
  refine List.filter_congr (fun r _ => ?_)
  cases selected : sel r with
  | false => rfl
  | true => rw [sub r selected, Bool.and_true]

theorem any_subset {ρ : Type} {keep sel : ρ → Bool} (rows : List ρ)
    (sub : ∀ r, sel r = true → keep r = true) : (rows.filter keep).any sel = rows.any sel := by
  rw [Bool.eq_iff_iff, List.any_eq_true, List.any_eq_true]
  constructor
  · rintro ⟨r, hr, chosen⟩
    exact ⟨r, List.mem_of_mem_filter hr, chosen⟩
  · rintro ⟨r, hr, chosen⟩
    exact ⟨r, List.mem_filter.mpr ⟨hr, sub r chosen⟩, chosen⟩

section Decisions

variable {au : AuthUser}

/-- The program cannot tell apart what is alike to the user. -/
abbrev Decided (au : AuthUser) {α : Type} (p : Run α) : Prop := Alike (Keeps (sight au)) Eq p p

theorem decided_query {α : Type} (fails : Bool) (t : Table) (named : List String)
    {read : Database → α} (seen : ∀ db, read (about au db) = read db) :
    Decided au (query fails t named read) := by
  refine alike_atom (fun w w' same => ?_)
  have rules : about au w'.db = about au w.db := congrArg Prod.fst same
  split
  · exact ⟨same, rfl⟩
  · refine ⟨same, ?_⟩
    change read w.db = read w'.db
    rw [← seen w.db, ← rules, seen]

theorem decided_search {α : Type} (fails : Bool) {read : Directory → α}
    (seen : ∀ ad ad' : Directory, ad'.computers = ad.computers → read ad = read ad') :
    Decided au (search fails read) := by
  refine alike_atom (fun w w' same => ?_)
  have computers : w'.ad.computers = w.ad.computers := congrArg Prod.snd same
  split
  · exact ⟨same, rfl⟩
  · exact ⟨same, seen w.ad w'.ad computers⟩

theorem decided_deref (s : Option String) : Decided au (deref s) := by
  cases s with
  | none => exact alike_throwing _
  | some v => exact alike_pure rfl

theorem decided_bind {α β : Type} {p : Run α} {f : α → Run β} (first : Decided au p)
    (rest : ∀ a, Decided au (f a)) : Decided au (p >>= f) := by
  refine alike_bind first ?_
  rintro a _ rfl
  exact rest a

theorem decided_orElse {α : Type} {p : Run α} (h : Decided au p) (fallback : α) :
    Decided au (Prog.orElse p fallback) := alike_orElse h rfl

theorem decided_foldlM {α γ : Type} {f : α → γ → Run α} {xs : List γ}
    (pass : ∀ x ∈ xs, ∀ a, Decided au (f a x)) (a : α) : Decided au (xs.foldlM f a) := by
  refine alike_foldlM (fun x hx b _ same => ?_) rfl
  subst same
  exact pass x hx b

theorem mem_of_numbered {γ : Type} {xs : List γ} {e : γ × Nat} (he : e ∈ xs.zipIdx) : e.1 ∈ xs :=
  List.fst_mem_of_mem_zipIdx he

/-! ### Login, checkout and Domain Admin rules -/

theorem decided_userBlock (fails : Bool) (purpose : String) :
    Decided au (userBlock fails purpose au) := by
  refine decided_orElse (decided_bind (decided_query _ _ _ (fun db => ?_)) (fun _ => alike_pure rfl)) _
  refine any_subset db.accessUser (fun r chosen => ?_)
  exact subject_uid au (Bool.and_eq_true_iff.mp chosen).1

theorem decided_entitlementQuery (fails : Bool) {e : String} (he : e ∈ au.entitlements) :
    Decided au (entitlementQuery fails e) :=
  decided_query _ _ _ (fun db => any_subset db.entitlements (fun _ chosen =>
    subject_entitlement he chosen))

theorem decided_entitlementBlockDA (fails : Nat → Bool) : Decided au (entitlementBlockDA fails au) := by
  rw [entitlementBlockDA]
  split
  · exact alike_pure rfl
  · refine decided_orElse (decided_bind (alike_anyM (fun e he => ?_)) (fun _ => alike_pure rfl)) _
    exact decided_entitlementQuery _ (mem_of_numbered he)

theorem decided_entitlementBlockApp (fails : Nat → Bool) :
    Decided au (entitlementBlockApp fails au) := by
  rw [entitlementBlockApp]
  split
  · exact alike_pure rfl
  · refine decided_orElse (decided_bind (alike_forM (fun e he => ?_)) (fun _ => alike_pure rfl)) _
    exact decided_bind (decided_entitlementQuery _ (mem_of_numbered he)) (fun _ => alike_pure rfl)

theorem decided_groupBlock (fails : Nat → Bool) (purpose : String) :
    Decided au (groupBlock fails purpose au) := by
  rw [groupBlock]
  split
  · exact alike_pure rfl
  · refine decided_orElse (alike_anyM (fun g hg => decided_query _ _ _ (fun db => ?_))) _
    refine any_subset db.accessGroups (fun r chosen => ?_)
    exact subject_membership (mem_of_numbered hg) (Bool.and_eq_true_iff.mp chosen).1

theorem decided_inTurn {user entitlement : Run (Option Bool)} {group : Run Bool}
    (hu : Decided au user) (he : Decided au entitlement) (hg : Decided au group) :
    Decided au (inTurn au user entitlement group) := by
  rw [inTurn]
  split
  · exact alike_pure rfl
  · refine decided_bind hu (fun b => ?_)
    cases b with
    | some b => exact alike_pure rfl
    | none =>
      refine decided_bind he (fun b => ?_)
      cases b with
      | some b => exact alike_pure rfl
      | none => exact hg

theorem decided_canUseCO (fails : Bool) : Decided au (canUseCO fails au) := by
  rw [canUseCO]
  split
  · exact alike_pure rfl
  · refine decided_bind (decided_userBlock _ _) (fun b => ?_)
    cases b <;> exact alike_pure rfl

theorem decided_canUseApp (c : AccessCalls) : Decided au (canUseApp c au) :=
  decided_inTurn (decided_userBlock c.user _) (decided_entitlementBlockApp c.entitlement)
    (decided_groupBlock c.group _)

theorem decided_canUseDA (c : AccessCalls) : Decided au (canUseDA c au) :=
  decided_inTurn (decided_userBlock c.user _) (decided_entitlementBlockDA c.entitlement)
    (decided_groupBlock c.group _)

/-! ### Hosts -/

theorem decided_fqdnsForOu (fails : Bool) (ou : Option String) : Decided au (fqdnsForOu fails ou) := by
  refine decided_orElse (decided_bind (decided_deref ou) (fun base => ?_)) _
  refine decided_search _ (fun ad ad' computers => ?_)
  rw [hostsUnder, hostsUnder, computers]

theorem decided_fqdnsFor (c : HostCalls) (t : Table) (name : String)
    {select : Database → List HostMapRow} (seen : ∀ db, select (about au db) = select db) :
    Decided au (fqdnsFor c t name select) := by
  refine decided_orElse (decided_bind (decided_query _ _ _ seen) (fun rows => ?_)) _
  refine decided_foldlM (fun r _ retval => ?_) _
  rw [addRow]
  cases given r.1.ou with
  | none => exact alike_pure rfl
  | some ou => exact decided_bind (decided_fqdnsForOu _ _) (fun _ => alike_pure rfl)

theorem decided_fqdnsForEppn (c : HostCalls) : Decided au (fqdnsForEppn c au.uid) :=
  decided_fqdnsFor c _ _ (fun db => filter_subset db.explicitHosts (fun _ => subject_uid au))

theorem decided_fqdnsForGroupUrn (c : HostCalls) {g : String} (hg : g ∈ au.memberships) :
    Decided au (fqdnsForGroupUrn c g) :=
  decided_fqdnsFor c _ _ (fun db => filter_subset db.groupHost (fun _ => subject_membership hg))

theorem decided_fqdnsForEntitlement (c : HostCalls) {e : String} (he : e ∈ au.entitlements) :
    Decided au (fqdnsForEntitlement c e) :=
  decided_fqdnsFor c _ _ (fun db => filter_subset db.entitlementHost (fun _ => subject_entitlement he))

theorem decided_userHostGate (c : UserHostCalls) (target : Option String) :
    Decided au (userHostGate c au target) := by
  rw [userHostGate]
  split
  · exact alike_pure rfl
  · split
    · exact alike_pure rfl
    · have allowed : Decided au (userHostAllowed c au target) := by
        refine decided_bind (decided_fqdnsForEppn _) (fun hosts => ?_)
        split
        · exact alike_pure rfl
        · exact alike_anyM (fun g hg => decided_bind
            (decided_fqdnsForGroupUrn _ (mem_of_numbered hg)) (fun _ => alike_pure rfl))
      refine decided_bind allowed (fun found => ?_)
      split
      · exact alike_pure rfl
      · exact decided_bind (decided_deref target) (fun _ => alike_pure rfl)

theorem decided_offeredHosts (c : OfferCalls) : Decided au (offeredHosts c au) := by
  refine decided_bind (decided_fqdnsForEppn _) (fun hosts => ?_)
  refine decided_bind (decided_foldlM (fun g hg hosts => ?_) _) (fun hosts => ?_)
  · exact decided_bind (decided_fqdnsForGroupUrn _ (mem_of_numbered hg)) (fun _ => alike_pure rfl)
  · exact decided_foldlM (fun e he hosts => decided_bind
      (decided_fqdnsForEntitlement _ (mem_of_numbered he)) (fun _ => alike_pure rfl)) _

/-- Delegations are in tables that no request changes. -/
theorem decided_canAdminFQDN (c : DelegateCalls) (fqdn : String) :
    Decided au (canAdminFQDN c au fqdn) := by
  rw [canAdminFQDN]
  split
  · exact alike_pure rfl
  · refine decided_orElse (alike_anyM (fun g _ => ?_)) _
    refine decided_bind (decided_query _ _ _ (fun _ => rfl)) (fun row => ?_)
    cases row with
    | none => exact alike_pure rfl
    | some r => exact decided_bind (decided_fqdnsForOu _ _) (fun _ => alike_pure rfl)

theorem decided_fqdnsForStatic (fails : Bool) : Decided au (fqdnsForStatic fails au.uid) :=
  decided_orElse (decided_query _ _ _ (fun _ => rfl)) _

/-! ### Groups and attributes of accounts -/

theorem decided_groupDnsForEppn (fails : Bool) : Decided au (groupDnsForEppn fails au.uid) := by
  refine decided_orElse (decided_query _ _ _ (fun db => ?_)) _
  exact congrArg (List.map ExplicitGroupRow.groupdn)
    (filter_subset db.explicitGroups (fun _ => subject_uid au))

theorem decided_posixFor (fails : Bool) : Decided au (posixFor fails (some au)) := by
  refine decided_orElse (decided_query _ _ _ (fun db => ?_)) _
  exact congrArg List.getLast? (filter_subset db.posixuser (fun _ => subject_uid au))

end Decisions

/-! ## Both applications on one database -/

/-- A request changes nothing about the user: it is not an administrator's, or it does not name
them or anything of theirs. -/
def Harmless (config : AdminConfig) (au : AuthUser) (panel : Panel) (request : AdminRequest) : Prop :=
  empowered config request.remoteUser panel = true → Silent au request.parameters

/-- The main application, and the console with requests of the kind `Posted`. -/
inductive OnSite (config : AdminConfig) (cfg : Config) (adbase : String)
    (Posted : Panel → AdminRequest → Prop) : Run Unit → Prop where
  | served {p : Run Unit} (h : Served cfg adbase p) : OnSite config cfg adbase Posted p
  | posted (c : ConsoleCalls) {panel : Panel} {request : AdminRequest}
      (h : Posted panel request) :
      OnSite config cfg adbase Posted (answered (post config c request panel))

theorem steps_onSite {config : AdminConfig} {cfg : Config} {adbase : String} {au : AuthUser}
    {p : Run Unit} (h : OnSite config cfg adbase (Harmless config au) p) :
    p.Steps (Keeps (sight au)) := by
  cases h with
  | served served =>
    exact Prog.steps_mono (fun _ _ => sight_of_stands) (steps_served stands_admits served)
  | posted c harmless =>
    rename_i panel request
    refine steps_answered ?_
    cases let_in : empowered config request.remoteUser panel with
    | false => exact (reads_unempowered c let_in).steps keeps_refl
    | true => exact steps_silent c (harmless let_in) panel

/-- What is decided about the user and given to them, in every case of failure. -/
structure SameRights (au : AuthUser) (w w' : World) : Prop where
  login : ∀ c, ((canUseApp c au).run w').1 = ((canUseApp c au).run w).1
  domainAdmin : ∀ c, ((canUseDA c au).run w').1 = ((canUseDA c au).run w).1
  checkout : ∀ fails, ((canUseCO fails au).run w').1 = ((canUseCO fails au).run w).1
  host : ∀ c target, ((userHostGate c au target).run w').1 = ((userHostGate c au target).run w).1
  offered : ∀ c, ((offeredHosts c au).run w').1 = ((offeredHosts c au).run w).1
  administered : ∀ c fqdn, ((canAdminFQDN c au fqdn).run w').1 = ((canAdminFQDN c au fqdn).run w).1
  static : ∀ fails, ((fqdnsForStatic fails au.uid).run w').1 = ((fqdnsForStatic fails au.uid).run w).1
  groups : ∀ fails, ((groupDnsForEppn fails au.uid).run w').1 =
    ((groupDnsForEppn fails au.uid).run w).1
  posix : ∀ fails, ((posixFor fails (some au)).run w').1 = ((posixFor fails (some au)).run w).1

theorem sameRights_of_sight {au : AuthUser} {w w' : World} (same : Keeps (sight au) w w') :
    SameRights au w w' where
  login c := ((decided_canUseApp c).answer same).symm
  domainAdmin c := ((decided_canUseDA c).answer same).symm
  checkout fails := ((decided_canUseCO fails).answer same).symm
  host c target := ((decided_userHostGate c target).answer same).symm
  offered c := ((decided_offeredHosts c).answer same).symm
  administered c fqdn := ((decided_canAdminFQDN c fqdn).answer same).symm
  static fails := ((decided_fqdnsForStatic fails).answer same).symm
  groups fails := ((decided_groupDnsForEppn fails).answer same).symm
  posix fails := ((decided_posixFor fails).answer same).symm

/-- In every run of both applications in which no administrator's request names the user or
anything of theirs, the rights of the user stay what they were. -/
theorem rights_need_administrator {config : AdminConfig} {cfg : Config} {adbase : String}
    (au : AuthUser) {start : World} {P P' : Pool World Exn Unit}
    (reach : Reachable (OnSite config cfg adbase (Harmless config au)) Docker (fun _ _ => True) start P)
    (later : Continues (OnSite config cfg adbase (Harmless config au)) Docker (fun _ _ => True) P P') :
    SameRights au P.shared P'.shared := by
  have trans : ∀ w w' w'', Keeps (sight au) w w' → Keeps (sight au) w' w'' → Keeps (sight au) w w'' :=
    fun _ _ _ first second => second.trans first
  have programs : ∀ p, OnSite config cfg adbase (Harmless config au) p → p.Steps (Keeps (sight au)) :=
    fun p allowed => steps_onSite allowed
  have moves : ∀ w w', Docker w w' → Keeps (sight au) w w' :=
    fun _ _ moved => sight_of_stands (stands_docker moved)
  have none : ∀ p ∈ (⟨start, []⟩ : Pool World Exn Unit).threads, p.Steps (Keeps (sight au)) := by
    intro p hp
    cases hp
  have first : Continues (OnSite config cfg adbase (Harmless config au)) Docker (fun _ _ => True)
      ⟨start, []⟩ P := reach
  obtain ⟨-, running⟩ := continues_steps programs moves keeps_refl trans none first
  exact sameRights_of_sight (continues_steps programs moves keeps_refl trans running later).1

/-- A general administrator lets Ann log in, with a request that nowhere names Pat. -/
def annAdded : AdminRequest where
  remoteUser := some "root@x"
  parameters := ⟨[("addformsubmitted", "1"), ("typeselector", "eppn"),
    ("userproperty", "ann@dom.ain")], by decide⟩

/-- Pat herself asks for the rights of a Domain Admin. -/
def patAdded : AdminRequest where
  remoteUser := some "pat@dom.ain"
  parameters := ⟨[("adddaformsubmitted", "1"), ("daselector", "eppn"),
    ("daproperty", "pat@dom.ain")], by decide⟩

def consoleAdmins : AdminConfig := ⟨some "root@x", none, none, none⟩

/-- Pat opens a session beside the two requests. -/
def patAmongRequests : Pool World Exn Unit :=
  ⟨sampleSite, [patOpens "ab3de6fgh-eas",
    answered (post consoleAdmins .noOutage patAdded .accessControl),
    answered (post consoleAdmins .noOutage annAdded .accessControl)]⟩

/-- Ann gets her rule, and Pat's rights are what they were. -/
theorem pats_rights_stay :
    let P := (List.replicate 9 0 ++ [1, 2] ++ List.replicate 31 0).foldl Pool.turn patAmongRequests
    P.shared.db.accessUser.map AccessUserRow.eppn = [some "pat@dom.ain", some "ann@dom.ain"] ∧
      SameRights sampleRequest.authUser sampleSite P.shared := by
  have strange : Harmless consoleAdmins sampleRequest.authUser .accessControl patAdded := by
    intro let_in
    cases let_in
  have apart : Harmless consoleAdmins sampleRequest.authUser .accessControl annAdded := by
    intro _
    unfold Silent
    decide +kernel
  have asked : Reachable
      (OnSite consoleAdmins sampleConfig sampleConfig.targetbase
        (Harmless consoleAdmins sampleRequest.authUser))
      Docker (fun _ _ => True) sampleSite patAmongRequests :=
    reachable_spawn (reachable_spawn (reachable_spawn .refl (.served (.session (.user _ _ _))) trivial)
      (.posted _ strange) trivial) (.posted _ apart) trivial
  have later : Continues
      (OnSite consoleAdmins sampleConfig sampleConfig.targetbase
        (Harmless consoleAdmins sampleRequest.authUser))
      Docker (fun _ _ => True) patAmongRequests
      ((List.replicate 9 0 ++ [1, 2] ++ List.replicate 31 0).foldl Pool.turn patAmongRequests) :=
    continues_turns (patAmongRequests.along_true _)
  exact ⟨by decide +kernel, rights_need_administrator _ asked later⟩

end Authority
