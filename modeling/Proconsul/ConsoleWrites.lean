import Proconsul.AdminConsole

/-!
# What a request to the console can write

The five POST handlers change the database by one statement at a time, and `Write`
lists what a statement of each panel can be: a branch of one of its deletion loops,
or the row that its form describes. A statement about everything that is ever posted
is then a statement about this list.

Which of the statements a request leads to, and in which order, is not said here.
-/

namespace ConsoleWrites

open Program Schema Text Surroundings AdminConsole

def deletions : Panel → List Deletion
  | .hostAndGatewayDetails => hostGroupDeletions ++ gatewayDeletions
  | .posixUsers => posixDeletions
  | .windowsUsers => groupDeletions
  | .hostMgt => hostDeletions ++ domainAdminHostDeletions
  | .accessControl => loginDeletions ++ domainAdminDeletions

/-- One statement of a panel, with the parameters of the request. -/
inductive Write (p : Parameters) : Panel → Database → Database → Prop where
  | delete {panel : Panel} {d : Deletion} (hd : d ∈ deletions panel) (num : String) (db : Database) :
      Write p panel db (d.remove (fun name => p.getParameter (name ++ num)) db)
  | hostAccess (row : HostAccessRow) (db : Database) :
      Write p .hostAndGatewayDetails db { db with hostAccessGroup := db.hostAccessGroup ++ [row] }
  | gateway (row : GatewayRow) (db : Database) :
      Write p .hostAndGatewayDetails db { db with hostGateway := db.hostGateway ++ [row] }
  | posix {row : PosixRow} (user : p.getParameter "user" = some row.uid) {db : Database}
      (free : db.posixuser.any (fun r => sqlEq (some r.uid) (some row.uid)) = false) :
      Write p .posixUsers db { db with posixuser := db.posixuser ++ [row] }
  | explicitGroup (rhs : Option String) (db : Database) :
      Write p .windowsUsers db
        { db with explicitGroups := db.explicitGroups ++ [⟨p.getParameter "lhs", rhs⟩] }
  | groupGroup (rhs : Option String) (db : Database) :
      Write p .windowsUsers db { db with groupGroup := db.groupGroup ++ [⟨p.getParameter "lhs", rhs⟩] }
  | entitlementGroup (rhs : Option String) (db : Database) :
      Write p .windowsUsers db
        { db with entitlementGroups := db.entitlementGroups ++ [⟨p.getParameter "lhs", rhs⟩] }
  | explicitHost (fqdn ou : Option String) (db : Database) :
      Write p .hostMgt db
        { db with explicitHosts := db.explicitHosts ++ [⟨p.getParameter "lhs", fqdn, ou⟩] }
  | groupHost (fqdn ou : Option String) (db : Database) :
      Write p .hostMgt db { db with groupHost := db.groupHost ++ [⟨p.getParameter "lhs", fqdn, ou⟩] }
  | entitlementHost (fqdn ou : Option String) (db : Database) :
      Write p .hostMgt db
        { db with entitlementHost := db.entitlementHost ++ [⟨p.getParameter "lhs", fqdn, ou⟩] }
  | domainAdminHost (fqdn : Option String) (db : Database) :
      Write p .hostMgt db { db with domainAdminHosts := db.domainAdminHosts ++ [fqdn] }
  | userRule (property type : String) (db : Database) :
      Write p .accessControl db
        { db with accessUser := db.accessUser ++ [⟨p.getParameter property, some type⟩] }
  | groupRule {property urn : String} (given : p.getParameter property = some urn) (type : String)
      {db : Database}
      (free : db.accessGroups.any (fun r => sqlEq (some r.groupurn) (some urn)) = false) :
      Write p .accessControl db
        { db with accessGroups := db.accessGroups ++ [⟨urn, none, some type⟩] }
  | entitlementRule {property entitlement : String} (given : p.getParameter property = some entitlement)
      (type : String) {db : Database}
      (free : db.entitlements.any (fun r => sqlEq (some r.entitlement) (some entitlement)) = false) :
      Write p .accessControl db { db with entitlements := db.entitlements ++
        [⟨entitlement, some type⟩] }

/-- A single step of a handler: nothing, or one statement. -/
def Writes (p : Parameters) (panel : Panel) (w w' : World) : Prop :=
  w' = w ∨ ∃ db, Write p panel w.db db ∧ w' = { w with db := db }

variable {p : Parameters} {panel : Panel}

theorem writes_refl (w : World) : Writes p panel w w := .inl rfl

theorem steps_deletions (c : ConsoleCalls) {rules : List Deletion}
    (own : ∀ d ∈ rules, d ∈ deletions panel) :
    (deleteMarked c rules p).Steps (Writes p panel) := by
  refine Prog.steps_forM (fun e => ?_) _
  split
  · exact Prog.steps_pure _
  · rename_i d num chosen
    refine steps_execute writes_refl _ _ _
      (fun w => .inr ⟨_, .delete (own d (mem_of_branch chosen)) num _, ?_⟩)
    simp

theorem steps_insertion (fails : Bool) {write : Database → Option Database}
    (listed : ∀ db db', write db = some db' → Write p panel db db') :
    (insertInto fails write).Steps (Writes p panel) :=
  steps_insertInto writes_refl fails (fun w db written => .inr ⟨db, listed w.db db written, rfl⟩)

/-- An insertion that cannot be refused. -/
theorem steps_insertion_some (fails : Bool) {write : Database → Database}
    (listed : ∀ db, Write p panel db (write db)) :
    (insertInto fails (fun db => some (write db))).Steps (Writes p panel) := by
  refine steps_insertion fails (fun db db' written => ?_)
  cases written
  exact listed db

/-- An insertion with a primary key. -/
theorem steps_insertion_key (fails : Bool) {key : Option String} {taken : Database → String → Bool}
    {write : String → Database → Database}
    (listed : ∀ k db, key = some k → taken db k = false → Write p panel db (write k db)) :
    (insertInto fails (fun db => do
      let k ← key
      if taken db k then none else some (write k db))).Steps (Writes p panel) := by
  refine steps_insertion fails (fun db db' written => ?_)
  obtain ⟨k, given, inserted⟩ := Option.bind_eq_some_iff.mp written
  split at inserted
  · cases inserted
  · rename_i free
    cases inserted
    exact listed k db given (Bool.eq_false_iff.mpr free)

/-! ## Tables without a form -/

/-- The database without the tables that the console writes to. -/
def unlisted (db : Database) : Database :=
  { db with
    accessGroups := [], accessUser := [], domainAdminHosts := [], entitlementGroups := []
    entitlementHost := [], entitlements := [], explicitGroups := [], explicitHosts := []
    groupGroup := [], groupHost := [], hostAccessGroup := [], hostGateway := [], posixuser := [] }

theorem unlisted_remove {panel : Panel} {d : Deletion} (hd : d ∈ deletions panel)
    (field : String → Option String) (db : Database) : unlisted (d.remove field db) = unlisted db := by
  cases panel with
  | hostAndGatewayDetails =>
    simp only [deletions, hostGroupDeletions, gatewayDeletions, List.cons_append, List.nil_append,
      List.mem_cons, List.not_mem_nil, or_false] at hd
    rcases hd with rfl | rfl | rfl <;> rfl
  | posixUsers =>
    obtain rfl := List.mem_singleton.mp hd
    rfl
  | windowsUsers =>
    simp only [deletions, groupDeletions, List.mem_cons, List.not_mem_nil, or_false] at hd
    rcases hd with rfl | rfl | rfl <;> rfl
  | hostMgt =>
    simp only [deletions, hostDeletions, domainAdminHostDeletions, List.cons_append, List.nil_append,
      List.mem_cons, List.not_mem_nil, or_false] at hd
    rcases hd with rfl | rfl | rfl | rfl | rfl | rfl | rfl <;> rfl
  | accessControl =>
    simp only [deletions, loginDeletions, domainAdminDeletions, ruleDeletions, List.cons_append,
      List.nil_append, List.mem_cons, List.not_mem_nil, or_false] at hd
    rcases hd with rfl | rfl | rfl | rfl | rfl | rfl <;> rfl

theorem unlisted_write {db db' : Database} (h : Write p panel db db') : unlisted db' = unlisted db := by
  cases h with
  | delete hd num => exact unlisted_remove hd _ _
  | _ => rfl

/-! ## The five forms -/

theorem steps_hostAndGatewayForms (c : ConsoleCalls) :
    (hostAndGatewayForms c p).Steps (Writes p .hostAndGatewayDetails) := by
  rw [hostAndGatewayForms]
  split
  · exact steps_deletions c (fun d hd => List.mem_append_left _ hd)
  · split
    · exact steps_deletions c (fun d hd => List.mem_append_right _ hd)
    · split
      · refine Prog.steps_bind (steps_deref _) (fun lhsselector => ?_)
        dsimp only
        split
        · exact steps_insertion_some _ (fun db => .hostAccess _ db)
        · split
          · exact steps_insertion_some _ (fun db => .hostAccess _ db)
          · exact Prog.steps_pure _
      · split
        · exact steps_insertion_some _ (fun db => .gateway _ db)
        · exact Prog.steps_pure _

theorem steps_posixForms (c : ConsoleCalls) : (posixForms c p).Steps (Writes p .posixUsers) := by
  rw [posixForms]
  split
  · exact steps_deletions c (fun d hd => hd)
  · split
    · refine Prog.steps_bind (steps_parseInt _) (fun uidnumber => ?_)
      refine Prog.steps_bind (steps_parseInt _) (fun gidnumber => ?_)
      exact steps_insertion_key _ (fun uid db given free => .posix given free)
    · exact Prog.steps_pure _

theorem steps_windowsForms (c : ConsoleCalls) : (windowsForms c p).Steps (Writes p .windowsUsers) := by
  rw [windowsForms]
  split
  · exact steps_deletions c (fun d hd => hd)
  · split
    · refine Prog.steps_bind (steps_deref _) (fun lhsselector => ?_)
      dsimp only
      split
      · exact steps_insertion_some _ (fun db => .explicitGroup _ db)
      · split
        · exact steps_insertion_some _ (fun db => .groupGroup _ db)
        · split
          · exact steps_insertion_some _ (fun db => .entitlementGroup _ db)
          · exact Prog.steps_pure _
    · exact Prog.steps_pure _

theorem steps_insertHost (c : ConsoleCalls) {write : HostMapRow → Database → Database}
    (listed : ∀ fqdn ou db, Write p panel db (write ⟨p.getParameter "lhs", fqdn, ou⟩ db)) :
    (insertHost c p write).Steps (Writes p panel) := by
  refine Prog.steps_bind (steps_deref _) (fun rhsselector => ?_)
  dsimp only
  split
  · exact steps_insertion_some _ (fun db => listed _ _ db)
  · split
    · exact steps_insertion_some _ (fun db => listed _ _ db)
    · exact Prog.steps_pure _

theorem steps_hostForms (c : ConsoleCalls) : (hostForms c p).Steps (Writes p .hostMgt) := by
  rw [hostForms]
  split
  · exact steps_deletions c (fun d hd => List.mem_append_left _ hd)
  · split
    · refine Prog.steps_bind (steps_deref _) (fun lhsselector => ?_)
      split
      · exact steps_insertHost c (fun _ _ db => .explicitHost _ _ db)
      · split
        · exact steps_insertHost c (fun _ _ db => .groupHost _ _ db)
        · split
          · exact steps_insertHost c (fun _ _ db => .entitlementHost _ _ db)
          · exact Prog.steps_pure _
    · split
      · exact steps_deletions c (fun d hd => List.mem_append_right _ hd)
      · split
        · exact steps_insertion_some _ (fun db => .domainAdminHost _ db)
        · exact Prog.steps_pure _

theorem steps_addRule (c : ConsoleCalls) (selector property type : String) :
    (addRule c p selector property type).Steps (Writes p .accessControl) := by
  refine Prog.steps_bind (steps_deref _) (fun selectedType => ?_)
  split
  · exact steps_insertion_some _ (fun db => .userRule _ _ db)
  · split
    · exact steps_insertion_key _ (fun urn db given free => .groupRule given type free)
    · split
      · exact steps_insertion_key _ (fun e db given free => .entitlementRule given type free)
      · exact Prog.steps_pure _

theorem steps_accessForms (c : ConsoleCalls) : (accessForms c p).Steps (Writes p .accessControl) := by
  rw [accessForms]
  split
  · exact steps_addRule c _ _ _
  · split
    · exact steps_addRule c _ _ _
    · split
      · exact steps_deletions c (fun d hd => List.mem_append_left _ hd)
      · split
        · exact steps_deletions c (fun d hd => List.mem_append_right _ hd)
        · exact Prog.steps_pure _

/-- The list is complete. -/
theorem steps_writes (config : AdminConfig) (c : ConsoleCalls) (request : AdminRequest)
    (panel : Panel) :
    (post config c request panel).Steps (Writes request.parameters panel) := by
  cases panel with
  | hostAndGatewayDetails =>
    exact steps_gated writes_refl (reads_isAdmin config request)
      (steps_updating (steps_hostAndGatewayForms c) _) (Prog.steps_pure _)
  | windowsUsers =>
    exact steps_gated writes_refl (reads_isAdmin config request)
      (steps_updating (steps_windowsForms c) _) (Prog.steps_pure _)
  | posixUsers =>
    refine steps_gated writes_refl (reads_isSubAdmin _ config request) ?_ (Prog.steps_pure _)
    exact Prog.steps_tryCatch (Prog.steps_bind (steps_connected (steps_posixForms c))
      (fun _ => Prog.steps_pure _)) (fun _ => Prog.steps_pure _)
  | hostMgt =>
    exact steps_gated writes_refl (reads_isSubAdmin _ config request)
      (steps_updating (steps_hostForms c) _) (Prog.steps_pure _)
  | accessControl =>
    refine Prog.steps_bind ((reads_refusedAC config request).steps writes_refl) (fun refused => ?_)
    cases refused with
    | true => exact Prog.steps_pure _
    | false => exact steps_updating (steps_accessForms c) _

/-! ## Who is let in -/

/-- An administrator of the panel: of its own list, if it has one, or of the general one. -/
def empowered (config : AdminConfig) (user : Option String) : Panel → Bool
  | .hostAndGatewayDetails | .windowsUsers => listed config.pcadminlist user
  | .posixUsers => listed config.posixadmins user || listed config.pcadminlist user
  | .hostMgt => listed config.targetsystemadmins user || listed config.pcadminlist user
  | .accessControl => listed config.loginadmins user || listed config.pcadminlist user

/-- Whoever is not let in changes nothing. -/
theorem reads_unempowered {config : AdminConfig} {request : AdminRequest} (c : ConsoleCalls)
    {panel : Panel} (stranger : empowered config request.remoteUser panel = false) :
    (post config c request panel).Reads := by
  cases panel with
  | hostAndGatewayDetails =>
    exact reads_closed (reads_isAdmin config request) (returns_isAdmin stranger) (Prog.steps_pure _)
  | windowsUsers =>
    exact reads_closed (reads_isAdmin config request) (returns_isAdmin stranger) (Prog.steps_pure _)
  | posixUsers =>
    obtain ⟨own, general⟩ := Bool.or_eq_false_iff.mp stranger
    exact reads_closed (reads_isSubAdmin _ config request) (returns_isSubAdmin general own)
      (Prog.steps_pure _)
  | hostMgt =>
    obtain ⟨own, general⟩ := Bool.or_eq_false_iff.mp stranger
    exact reads_closed (reads_isSubAdmin _ config request) (returns_isSubAdmin general own)
      (Prog.steps_pure _)
  | accessControl =>
    obtain ⟨own, general⟩ := Bool.or_eq_false_iff.mp stranger
    refine Prog.steps_bind_returns (reads_refusedAC config request) (returns_refusedAC general)
      (fun refused admitted => ?_)
    cases refused with
    | true => exact Prog.steps_pure _
    | false =>
      obtain ⟨⟨delete, add⟩, strangers⟩ := admitted rfl
      obtain ⟨addLogin, deleteLogin⟩ := strangers own
      exact steps_updating (reads_accessForms delete add addLogin deleteLogin) _

end ConsoleWrites
