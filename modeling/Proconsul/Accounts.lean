import Proconsul.Hosts

/-!
# Directory accounts

Creating, deleting and changing the accounts that sessions and checkouts run
under. Every change is sent to each domain controller in turn and a
controller's exception is ignored, so the outcome is a matter of which calls
answered. Waiting for replication has no effect of its own and is not a step.
-/

namespace Accounts

open Program Schema Text Surroundings Hosts

/-! ## Directory changes -/

def changeAccount (dn : String) (f : Account → Account) (ad : Directory) :
    Option (Directory × List Effect) :=
  if ad.accounts.any (fun a => dnEq a.dn dn) then
    some ({ ad with accounts := updateWhere (fun a => dnEq a.dn dn) f ad.accounts }, [])
  else none

/-- `createSubcontext`. A controller that has not yet seen the account accepts it again. -/
def addAccount (a : Account) (ad : Directory) : Option (Directory × List Effect) :=
  some ({ ad with accounts := ad.accounts ++ [a] }, [.accountCreated a.sam])

/-- `destroySubcontext` succeeds also when there is nothing of that name. -/
def destroySubcontext (dn : String) (ad : Directory) : Option (Directory × List Effect) :=
  some ({ ad with accounts := deleteWhere (fun a => dnEq a.dn dn) ad.accounts },
    (ad.accounts.filter (fun a => dnEq a.dn dn)).map (fun a => .accountDeleted a.sam))

/-- Adding a member needs the group and the account to exist. -/
def addMember (sam userDn groupDN : String) (ad : Directory) : Option (Directory × List Effect) :=
  if ad.groups.any (fun g => dnEq g groupDN) && ad.accounts.any (fun a => dnEq a.dn userDn) then
    let join (a : Account) : Account := { a with memberOf := a.memberOf ++ [groupDN] }
    some ({ ad with accounts := updateWhere (fun a => dnEq a.dn userDn) join ad.accounts },
      [.groupAdded sam groupDN])
  else none

/-- The accounts a search for a name returns. Others than those of exactly that name come up only
where the name reads as a pattern, and then there is no account of that name. -/
def found (accounts : List Account) (name : String) : List Account :=
  accounts.filter (fun a => nameEq a.sam name) ++
    accounts.filter (fun a => !nameEq a.sam name && finds name a.sam)

def accountDns (ad : Directory) (sam : Option String) : List String :=
  (found ad.accounts (javaString sam)).map Account.dn

theorem mem_found {accounts : List Account} {name : String} {a : Account} :
    a ∈ found accounts name ↔ a ∈ accounts ∧ finds name a.sam = true := by
  rw [found, List.mem_append, List.mem_filter, List.mem_filter]
  cases same : nameEq a.sam name with
  | true => simp [finds_of_nameEq same]
  | false => simp

theorem found_plain {name : String} (plain : plainName name = true) (accounts : List Account) :
    found accounts name = accounts.filter (fun a => nameEq a.sam name) := by
  rw [found]
  simp [finds_plainName plain]

/-- `modifyAttributes` on every controller, exceptions ignored. -/
def onControllers (cfg : Config) (call : Nat → Run Unit) : Run Unit :=
  (List.range cfg.dcs).forM (fun i => Prog.orElse (call i) ())

/-! ## Creation -/

/-- What one controller answers while an account is created. `available` is
`none` when the lookup raises, `environment` is the log line that asks the new
connection for its URL before `userCreated` is set. -/
structure ControllerAnswers where
  available : Option Bool
  create : Bool
  environment : Bool
  password : Bool
  control : Bool
  deriving DecidableEq, Repr

structure CreateCalls where
  names : Nat → String
  drawn : ∀ i, plainName (names i) = true
  lookup : Nat → Bool
  password : String
  posix : Bool
  controller : Nat → ControllerAnswers
  audit : Bool

/-- A name that is drawn for Pat. -/
theorem plainName_pats : plainName "ab3de6fgh-eas" = true := by decide

/-- Every controller sees the name as free and accepts everything. -/
def CreateCalls.noOutage (name password : String)
    (drawn : plainName name = true := by exact plainName_pats) : CreateCalls where
  names := fun _ => name
  drawn := fun _ => drawn
  lookup := fun _ => false
  password := password
  posix := false
  controller := fun _ => ⟨some true, false, false, false, false⟩
  audit := false

/-- The search for a drawn name, which is no pattern. -/
def isSamaccountnameAvailable (fails : Bool) (sam : String) : Run Bool :=
  if sam = "" then pure false
  else search fails (fun ad => !ad.accounts.any (fun a => nameEq a.sam sam))

/-- Candidates `i`, `i + 1`, ... until one is free. The lookup of the last
retry cannot save the call any more: its counter has run out. -/
def nextName (c : CreateCalls) : Nat → Nat → Run String
  | 0, _ => Prog.throwing (.runtimeException "Unable to find unused sAMAccountName value")
  | tries + 1, i => do
    if ← isSamaccountnameAvailable (c.lookup i) (c.names i) then return c.names i
    else nextName c tries (i + 1)

def getRandomSamaccountname (c : CreateCalls) : Run String := nextName c 10 0

/-- The creating pass over one controller; the answer is the new `userCreated`. -/
def createOn (a : Account) (answers : ControllerAnswers) (userCreated : Bool) : Run Bool :=
  if answers.available = some true ∧ userCreated = false then do
    match ← Prog.attempt (modify answers.create (addAccount a)) with
    | none => return false
    | some () => return !answers.environment
  else pure userCreated

def newAccount (u : ADUser) (sam : String) (posix : Option PosixRow) : Account where
  sam := sam
  dn := "cn=" ++ sam ++ "," ++ javaString u.adOu
  password := none
  userAccountControl := 544
  memberOf := []
  userWorkstations := none
  posix := posix

/-- POSIX attributes are looked up only for a known user, and a failure is ignored. -/
def posixFor (fails : Bool) : Option AuthUser → Run (Option PosixRow)
  | none => pure none
  | some au => Prog.orElse (query fails .posixuser ["uid"] (fun db =>
      (db.posixuser.filter (fun r => sqlEq (some r.uid) au.uid)).getLast?)) none

/-- Both overloads; they differ in the POSIX lookup and in the audit row. -/
def createAdUser (cfg : Config) (c : CreateCalls) (au : Option AuthUser) (u : ADUser) :
    Run (Option ADUser) := do
  match given u.sAMAccountName, given u.adDomain with
  | some sam, some _ =>
    let posix ← posixFor c.posix au
    let a := newAccount u sam posix
    let _ ← (List.range cfg.dcs).foldlM (fun created i => createOn a (c.controller i) created) false
    onControllers cfg (fun i => modify (c.controller i).password
      (changeAccount a.dn (fun x => { x with password := u.adPassword })))
    onControllers cfg (fun i => modify (c.controller i).control
      (changeAccount a.dn (fun x => { x with userAccountControl := 512 })))
    match au with
    | some au => audit c.audit "createADUser" au.uid none (some sam) none none
    | none => audit c.audit "createADUser" (some sam) none none none none
    return some { u with created := true }
  | _, _ => return none

def createRandomizedADUser (cfg : Config) (c : CreateCalls) (au : Option AuthUser) :
    Run (Option ADUser) := do
  match ← Prog.attempt (getRandomSamaccountname c) with
  | none => return none
  | some userid =>
    createAdUser cfg c au
      { sAMAccountName := some userid
        adPassword := some c.password
        adDomain := some cfg.domain
        adOu := some cfg.targetbase
        memberships := []
        created := false }

/-! ## Deletion -/

/-- `controller k i` is the delete of the `k`-th DN on controller `i`. -/
structure DeleteCalls where
  find : Bool
  controller : Nat → Nat → Bool
  audit : Bool

def DeleteCalls.noOutage : DeleteCalls := ⟨false, fun _ _ => false, false⟩

def deleteAdUser (cfg : Config) (c : DeleteCalls) (u : ADUser) (au : Option AuthUser)
    (clientip : Option String) : Run (Option ADUser) := do
  match given u.sAMAccountName, given u.adDomain with
  | some sam, some _ =>
    Prog.orElse (do
      let dns ← search c.find (fun ad => accountDns ad (some sam))
      dns.zipIdx.forM (fun d => (List.range cfg.dcs).forM (fun i =>
        modify (c.controller d.2 i) (destroySubcontext d.1)))
      audit c.audit ("Deleted ad user " ++ sam) (au.bind AuthUser.uid) none (some sam) none clientip
      return some u) none
  | _, _ => return none

/-! ## Passwords -/

structure PasswordCalls where
  find : Bool
  controller : Nat → Bool
  password : String

def PasswordCalls.noOutage (password : String) : PasswordCalls := ⟨false, fun _ => false, password⟩

/-- The object takes the new password whether or not any controller did. -/
def setRandomADPassword (cfg : Config) (c : PasswordCalls) (adu : ADUser) : Run ADUser :=
  Prog.orElse (do
    match (← search c.find (fun ad => accountDns ad adu.sAMAccountName)).head? with
    | none => return adu
    | some adDn =>
      onControllers cfg (fun i => modify (c.controller i)
        (changeAccount adDn (fun x => { x with password := some c.password })))
      return { adu with adPassword := some c.password }) adu

/-- The account mapped to a user on a host; without one the name stays null. -/
def getStaticADUser (cfg : Config) (fails : Bool) (c : PasswordCalls) (au : AuthUser)
    (fqdn : Option String) : Run ADUser := do
  let userid ← Prog.orElse (query fails .staticHost ["targetuser", "eppn", "fqdn"] (fun db =>
    (db.staticHost.filter (fun r => sqlEq r.eppn au.uid && sqlEq r.fqdn fqdn)).getLast?.bind
      StaticHostRow.targetuser)) none
  setRandomADPassword cfg c
    { sAMAccountName := userid
      adPassword := none
      adDomain := some cfg.domain
      adOu := some (cfg.staticbase.getD ("ou=static," ++ cfg.targetbase))
      memberships := []
      created := true }

/-! ## Groups -/

structure GroupCalls where
  find : Bool
  controller : Nat → Bool
  audit : Nat → Bool

def GroupCalls.noOutage : GroupCalls := ⟨false, fun _ => false, fun _ => false⟩

/-- A name with colons is a path of organisational units, read outside in. -/
def groupDn (cfg : Config) (urn : String) : String :=
  if containsChar urn ':' then
    "cn=ad_admins," ++ (javaSplit ':' urn).foldl (fun dn part => "ou=" ++ part ++ "," ++ dn)
      cfg.orgbase
  else urn

def addGroupToADUser (cfg : Config) (c : GroupCalls) (urn : Option String) (u : Option ADUser)
    (au : Option AuthUser) (clientip : Option String) : Run (Option ADUser) := do
  match urn, u with
  | some urn, some u =>
    Prog.orElse (do
      match (← search c.find (fun ad => accountDns ad u.sAMAccountName)).head? with
      | none => return some u
      | some userDn =>
        onControllers cfg (fun i => do
          modify (c.controller i) (addMember (javaString u.sAMAccountName) userDn (groupDn cfg urn))
          audit (c.audit i) "addGroup" (au.bind AuthUser.uid) none u.sAMAccountName (some urn)
            clientip)
        if u.memberships.contains urn then return some u
        else return some { u with memberships := u.memberships ++ [urn] }) (some u)
  | _, _ => return u

structure HostGroupCalls where
  byName : Bool
  ou : Bool
  byOu : Bool
  group : GroupCalls

def HostGroupCalls.noOutage : HostGroupCalls := ⟨false, false, false, .noOutage⟩

/-- `upper(tou) like concat('%', upper(ou))`; a null `ou` matches nothing. -/
def ouEndsLike (tou : String) (r : HostAccessRow) : Bool :=
  r.ou.any (fun ou => like ('%' :: foldCase ou) (foldCase tou))

/-- The rule found for the host by name, or else by the OU it lives in. -/
def hostAccessRule (c : HostGroupCalls) (fqdn : Option String) : Run (Option HostAccessRow) := do
  match ← query c.byName .hostAccessGroup ["groupdn", "fqdn"] (fun db =>
      (db.hostAccessGroup.filter (fun r => sqlEq r.fqdn fqdn)).head?) with
  | some r => return some r
  | none =>
    match ← ouForFqdn c.ou fqdn with
    | none => return none
    | some tou => query c.byOu .hostAccessGroup ["groupdn", "ou"] (fun db =>
        (db.hostAccessGroup.filter (ouEndsLike tou)).head?)

def addHostAccessGroup (cfg : Config) (c : HostGroupCalls) (u : Option ADUser)
    (fqdn : Option String) : Run (Option ADUser) :=
  Prog.orElse (do
    match ← hostAccessRule c fqdn with
    | none => return u
    | some r => addGroupToADUser cfg c.group r.groupdn u none none) u

structure GatewayGroupCalls where
  rule : Bool
  group : GroupCalls

def GatewayGroupCalls.noOutage : GatewayGroupCalls := ⟨false, .noOutage⟩

def addGatewayAccessGroup (cfg : Config) (c : GatewayGroupCalls) (u : Option ADUser)
    (fqdn : Option String) : Run (Option ADUser) :=
  Prog.orElse (do
    match ← query c.rule .hostGateway ["groupdn", "fqdn"] (fun db =>
        (db.hostGateway.filter (fun r => sqlEq r.fqdn fqdn)).head?) with
    | none => return u
    | some r => addGroupToADUser cfg c.group r.groupdn u none none) u

/-! ## Workstations -/

structure WorkstationCalls where
  find : Bool
  computer : Bool
  current : Bool
  controller : Nat → Bool
  audit : Nat → Bool

def WorkstationCalls.noOutage : WorkstationCalls :=
  ⟨false, false, false, fun _ => false, fun _ => false⟩

def workstationChar (c : Char) : Bool :=
  c.isAlphanum || c == '.' || c == ',' || c == '_' || c == '-'

/-- `userWorkstations` holds one value: adding to an account that has one is refused. -/
def setWorkstations (userDn pre : String) (ad : Directory) : Option (Directory × List Effect) :=
  if containsChar pre ',' ||
      !ad.accounts.any (fun a => dnEq a.dn userDn && a.userWorkstations.isSome) then
    changeAccount userDn (fun a => { a with userWorkstations := some pre }) ad
  else none

def addWorkstationToADUser (cfg : Config) (c : WorkstationCalls) (fqdn : String) (u : ADUser)
    (au : Option AuthUser) (clientip : Option String) : Run ADUser := do
  let host := keepOnly (· != ' ') fqdn
  if host = "" ∨ !host.toList.all workstationChar then return u
  else
    Prog.orElse (do
      match (← search c.find (fun ad => accountDns ad u.sAMAccountName)).head? with
      | none => return u
      | some userDn =>
        let uws ← Prog.orElse (search c.computer (fun ad =>
          (ad.computers.filter (fun m => m.dnsHostName.any (fun h => nameEq h host))).getLast?.map
            Computer.cn)) none
        match given uws with
        | none => return u
        | some uws =>
          let current ← Prog.orElse (search c.current (fun ad =>
            (ad.accounts.filter (fun a => dnEq a.dn userDn)).head?.bind Account.userWorkstations)) none
          let pre := match given current with
            | none => uws
            | some pre => pre ++ "," ++ uws
          onControllers cfg (fun i => do
            modify (c.controller i) (setWorkstations userDn pre)
            audit (c.audit i) "limitWS" (au.bind AuthUser.uid) (some uws) u.sAMAccountName none
              clientip)
          return u) u

/-! ## Registered Domain Admins -/

structure AdminCalls where
  write : Bool
  audit : Bool
  now : Int

def AdminCalls.noOutage (now : Int) : AdminCalls := ⟨false, false, now⟩

def makeUserAuthorizedDA (c : AdminCalls) (u : ADUser) (authu : Option AuthUser)
    (clientip : Option String) : Run Bool :=
  Prog.orElse (do
    execute c.write .activeDomainAdmins [] (fun db =>
      ({ db with activeDomainAdmins := db.activeDomainAdmins ++
        [⟨u.sAMAccountName, some c.now, some 0⟩] }, [.daStored u.sAMAccountName]))
    audit c.audit "makeActiveDA" (authu.bind AuthUser.uid) none u.sAMAccountName none clientip
    return true) false

def removeAuthorizedDA (c : AdminCalls) (u : ADUser) (authu : Option AuthUser)
    (clientip : Option String) : Run Bool :=
  Prog.orElse (do
    execute c.write .activeDomainAdmins ["disabletime", "samaccountname"] (fun db =>
      let disabled := updateWhere (fun r => sqlEq r.samaccountname u.sAMAccountName)
        (fun r => { r with disabletime := some c.now }) db.activeDomainAdmins
      ({ db with activeDomainAdmins := disabled }, []))
    audit c.audit "removeActiveDA" (authu.bind AuthUser.uid) none u.sAMAccountName none clientip
    return true) false

/-! ## What account operations leave alone -/

theorem reads_getRandomSamaccountname (c : CreateCalls) : (getRandomSamaccountname c).Reads := by
  have names : ∀ tries i, (nextName c tries i).Reads := by
    intro tries
    induction tries with
    | zero => exact fun i => Prog.steps_throwing _
    | succ tries ih =>
      intro i
      refine Prog.steps_bind ?_ (fun free => ?_)
      · rw [isSamaccountnameAvailable]
        split
        · exact Prog.steps_pure _
        · exact reads_search _ _
      · cases free with
        | false => exact ih (i + 1)
        | true => exact Prog.steps_pure _
  exact names 10 0

section Footprint

variable {R : World → World → Prop} (quiet : Quiet R)

theorem steps_onControllers {R : World → World → Prop} (cfg : Config) {call : Nat → Run Unit}
    (h : ∀ i, (call i).Steps R) : (onControllers cfg call).Steps R :=
  Prog.steps_forM (fun i => Prog.steps_orElse (h i) ()) _

theorem changeAccount_accounts {dn : String} {f : Account → Account} {ad ad' : Directory}
    {effects : List Effect} (h : changeAccount dn f ad = some (ad', effects)) :
    ad' = { ad with accounts := ad'.accounts } ∧ effects = [] := by
  rw [changeAccount] at h
  split at h
  · cases h
    exact ⟨rfl, rfl⟩
  · cases h

theorem reads_posixFor (fails : Bool) (au : Option AuthUser) : (posixFor fails au).Reads := by
  cases au with
  | none => exact Prog.steps_pure _
  | some au => exact Prog.steps_orElse (reads_query _ _ _ _) _

/-- The change touches nothing but the password and the control flags. -/
def ChangesCredential (f : Account → Account) : Prop :=
  ∀ a, f a = { a with password := (f a).password, userAccountControl := (f a).userAccountControl }

theorem steps_createOn {R : World → World → Prop} {a : Account} {answers : ControllerAnswers}
    (add : (modify answers.create (addAccount a)).Steps R) (userCreated : Bool) :
    (createOn a answers userCreated).Steps R := by
  rw [createOn]
  split
  · refine Prog.steps_bind (Prog.steps_attempt add) (fun r => ?_)
    cases r <;> exact Prog.steps_pure _
  · exact Prog.steps_pure _

theorem steps_createAdUser {R : World → World → Prop} (logs : Logs R)
    (add : ∀ fails a, a.userWorkstations = none → (modify fails (addAccount a)).Steps R)
    (change : ∀ fails dn f, ChangesCredential f → (modify fails (changeAccount dn f)).Steps R)
    (cfg : Config)
    (c : CreateCalls) (au : Option AuthUser) (u : ADUser) : (createAdUser cfg c au u).Steps R := by
  rw [createAdUser]
  split
  · refine Prog.steps_bind ((reads_posixFor _ _).steps logs.refl) (fun posix => ?_)
    refine Prog.steps_bind (Prog.steps_foldlM (fun created i => steps_createOn (add _ _ rfl) _) _ _)
      (fun _ => ?_)
    refine Prog.steps_bind (steps_onControllers cfg (fun i => change _ _ _ (fun _ => rfl)))
      (fun _ => ?_)
    refine Prog.steps_bind (steps_onControllers cfg (fun i => change _ _ _ (fun _ => rfl)))
      (fun _ => ?_)
    cases au with
    | none => exact Prog.steps_bind (steps_audit logs _ _ _ _ _ _ _) (fun _ => Prog.steps_pure _)
    | some au => exact Prog.steps_bind (steps_audit logs _ _ _ _ _ _ _) (fun _ => Prog.steps_pure _)
  · exact Prog.steps_pure _

theorem steps_createRandomizedADUser {R : World → World → Prop} (logs : Logs R)
    (add : ∀ fails a, a.userWorkstations = none → (modify fails (addAccount a)).Steps R)
    (change : ∀ fails dn f, ChangesCredential f → (modify fails (changeAccount dn f)).Steps R)
    (cfg : Config)
    (c : CreateCalls) (au : Option AuthUser) : (createRandomizedADUser cfg c au).Steps R := by
  refine Prog.steps_bind (Prog.steps_attempt
    ((reads_getRandomSamaccountname c).steps logs.refl)) (fun r => ?_)
  cases r with
  | none => exact Prog.steps_pure _
  | some userid => exact steps_createAdUser logs add change _ _ _ _

theorem steps_deleteAdUser {R : World → World → Prop} (logs : Logs R)
    (destroy : ∀ fails dn, (modify fails (destroySubcontext dn)).Steps R) (cfg : Config)
    (c : DeleteCalls) (u : ADUser) (au : Option AuthUser) (clientip : Option String) :
    (deleteAdUser cfg c u au clientip).Steps R := by
  rw [deleteAdUser]
  split
  · refine Prog.steps_orElse (Prog.steps_bind ((reads_search _ _).steps logs.refl) ?_) _
    intro dns
    refine Prog.steps_bind (Prog.steps_forM (fun d => Prog.steps_forM (fun i => destroy _ _) _) _)
      (fun _ => ?_)
    exact Prog.steps_bind (steps_audit logs _ _ _ _ _ _ _) (fun _ => Prog.steps_pure _)
  · exact Prog.steps_pure _

theorem steps_setRandomADPassword {R : World → World → Prop} (refl : ∀ w, R w w)
    (change : ∀ fails dn f, ChangesCredential f → (modify fails (changeAccount dn f)).Steps R)
    (cfg : Config)
    (c : PasswordCalls) (adu : ADUser) : (setRandomADPassword cfg c adu).Steps R := by
  refine Prog.steps_orElse (Prog.steps_bind ((reads_search _ _).steps refl) ?_) _
  intro dns
  cases dns.head? with
  | none => exact Prog.steps_pure _
  | some adDn =>
    exact Prog.steps_bind (steps_onControllers cfg (fun i => change _ _ _ (fun _ => rfl)))
      (fun _ => Prog.steps_pure _)

theorem steps_getStaticADUser {R : World → World → Prop} (refl : ∀ w, R w w)
    (change : ∀ fails dn f, ChangesCredential f → (modify fails (changeAccount dn f)).Steps R)
    (cfg : Config)
    (fails : Bool) (c : PasswordCalls) (au : AuthUser) (fqdn : Option String) :
    (getStaticADUser cfg fails c au fqdn).Steps R :=
  Prog.steps_bind (Prog.steps_orElse ((reads_query _ _ _ _).steps refl) _)
    (fun _ => steps_setRandomADPassword refl change _ _ _)

theorem reads_hostAccessRule (c : HostGroupCalls) (fqdn : Option String) :
    (hostAccessRule c fqdn).Reads := by
  refine Prog.steps_bind (reads_query _ _ _ _) (fun row => ?_)
  cases row with
  | some r => exact Prog.steps_pure _
  | none =>
    refine Prog.steps_bind (reads_ouForFqdn _ _) (fun tou => ?_)
    cases tou with
    | none => exact Prog.steps_pure _
    | some tou => exact reads_query _ _ _ _

theorem steps_addGroupToADUser {R : World → World → Prop} (refl : ∀ w, R w w)
    (add : ∀ fails sam userDn groupDN, (modify fails (addMember sam userDn groupDN)).Steps R)
    (log : ∀ fails event a h u g i, (audit fails event a h u g i).Steps R) (cfg : Config)
    (c : GroupCalls) (urn : Option String) (u : Option ADUser) (au : Option AuthUser)
    (clientip : Option String) : (addGroupToADUser cfg c urn u au clientip).Steps R := by
  rcases urn with _ | urn <;> rcases u with _ | u
  any_goals exact Prog.steps_pure _
  · refine Prog.steps_orElse (Prog.steps_bind ((reads_search _ _).steps refl) ?_) _
    intro dns
    cases dns.head? with
    | none => exact Prog.steps_pure _
    | some userDn =>
      refine Prog.steps_bind (steps_onControllers cfg (fun i => ?_)) (fun _ => ?_)
      · exact Prog.steps_bind (add _ _ _ _) (fun _ => log _ _ _ _ _ _ _)
      · split <;> exact Prog.steps_pure _

theorem steps_addHostAccessGroup {R : World → World → Prop} (refl : ∀ w, R w w)
    (add : ∀ fails sam userDn groupDN, (modify fails (addMember sam userDn groupDN)).Steps R)
    (log : ∀ fails event a h u g i, (audit fails event a h u g i).Steps R) (cfg : Config)
    (c : HostGroupCalls) (u : Option ADUser) (fqdn : Option String) :
    (addHostAccessGroup cfg c u fqdn).Steps R := by
  refine Prog.steps_orElse (Prog.steps_bind ((reads_hostAccessRule _ _).steps refl)
    (fun rule => ?_)) _
  cases rule with
  | none => exact Prog.steps_pure _
  | some r => exact steps_addGroupToADUser refl add log _ _ _ _ _ _

theorem steps_addGatewayAccessGroup {R : World → World → Prop} (refl : ∀ w, R w w)
    (add : ∀ fails sam userDn groupDN, (modify fails (addMember sam userDn groupDN)).Steps R)
    (log : ∀ fails event a h u g i, (audit fails event a h u g i).Steps R) (cfg : Config)
    (c : GatewayGroupCalls) (u : Option ADUser) (fqdn : Option String) :
    (addGatewayAccessGroup cfg c u fqdn).Steps R := by
  refine Prog.steps_orElse (Prog.steps_bind ((reads_query _ _ _ _).steps refl) (fun rule => ?_)) _
  cases rule with
  | none => exact Prog.steps_pure _
  | some r => exact steps_addGroupToADUser refl add log _ _ _ _ _ _

theorem steps_addWorkstationToADUser {R : World → World → Prop} (refl : ∀ w, R w w)
    (set : ∀ fails userDn pre, (modify fails (setWorkstations userDn pre)).Steps R)
    (log : ∀ fails event a h u g i, (audit fails event a h u g i).Steps R) (cfg : Config)
    (c : WorkstationCalls) (fqdn : String) (u : ADUser) (au : Option AuthUser)
    (clientip : Option String) : (addWorkstationToADUser cfg c fqdn u au clientip).Steps R := by
  rw [addWorkstationToADUser]
  dsimp only
  split
  · exact Prog.steps_pure _
  · refine Prog.steps_orElse (Prog.steps_bind ((reads_search _ _).steps refl) ?_) _
    intro dns
    cases dns.head? with
    | none => exact Prog.steps_pure _
    | some userDn =>
      refine Prog.steps_bind (Prog.steps_orElse ((reads_search _ _).steps refl) _) (fun uws => ?_)
      cases given uws with
      | none => exact Prog.steps_pure _
      | some uws =>
        refine Prog.steps_bind (Prog.steps_orElse ((reads_search _ _).steps refl) _) (fun _ => ?_)
        exact Prog.steps_bind (steps_onControllers cfg (fun i => Prog.steps_bind (set _ _ _)
          (fun _ => log _ _ _ _ _ _ _))) (fun _ => Prog.steps_pure _)

include quiet

theorem quiet_changeAccount (fails : Bool) (dn : String) (f : Account → Account) :
    (modify fails (changeAccount dn f)).Steps R := by
  refine quiet_modify quiet fails (fun ad ad' effects h => ?_)
  obtain ⟨had, rfl⟩ := changeAccount_accounts h
  exact ⟨had, by simp⟩

theorem quiet_addAccount (fails : Bool) (a : Account) : (modify fails (addAccount a)).Steps R := by
  refine quiet_modify quiet fails (fun ad ad' effects h => ?_)
  cases h
  exact ⟨rfl, by simp [Effect.quiet]⟩

theorem quiet_destroySubcontext (fails : Bool) (dn : String) :
    (modify fails (destroySubcontext dn)).Steps R := by
  refine quiet_modify quiet fails (fun ad ad' effects h => ?_)
  cases h
  refine ⟨rfl, fun e he => ?_⟩
  obtain ⟨a, -, rfl⟩ := List.mem_map.mp he
  rfl

theorem quiet_addMember (fails : Bool) (sam userDn groupDN : String) :
    (modify fails (addMember sam userDn groupDN)).Steps R := by
  refine quiet_modify quiet fails (fun ad ad' effects h => ?_)
  rw [addMember] at h
  split at h
  · cases h
    exact ⟨rfl, by simp [Effect.quiet]⟩
  · cases h

theorem quiet_setWorkstations (fails : Bool) (userDn pre : String) :
    (modify fails (setWorkstations userDn pre)).Steps R := by
  refine quiet_modify quiet fails (fun ad ad' effects h => ?_)
  rw [setWorkstations] at h
  split at h
  · obtain ⟨had, rfl⟩ := changeAccount_accounts h
    exact ⟨had, by simp⟩
  · cases h

theorem quiet_createRandomizedADUser (cfg : Config) (c : CreateCalls) (au : Option AuthUser) :
    (createRandomizedADUser cfg c au).Steps R :=
  steps_createRandomizedADUser quiet.logs (fun _ _ _ => quiet_addAccount quiet _ _)
    (fun _ _ _ _ => quiet_changeAccount quiet _ _ _) _ _ _

theorem quiet_deleteAdUser (cfg : Config) (c : DeleteCalls) (u : ADUser) (au : Option AuthUser)
    (clientip : Option String) : (deleteAdUser cfg c u au clientip).Steps R :=
  steps_deleteAdUser quiet.logs (quiet_destroySubcontext quiet) _ _ _ _ _

theorem quiet_setRandomADPassword (cfg : Config) (c : PasswordCalls) (adu : ADUser) :
    (setRandomADPassword cfg c adu).Steps R :=
  steps_setRandomADPassword quiet.refl (fun _ _ _ _ => quiet_changeAccount quiet _ _ _) _ _ _

theorem quiet_getStaticADUser (cfg : Config) (fails : Bool) (c : PasswordCalls) (au : AuthUser)
    (fqdn : Option String) : (getStaticADUser cfg fails c au fqdn).Steps R :=
  steps_getStaticADUser quiet.refl (fun _ _ _ _ => quiet_changeAccount quiet _ _ _) _ _ _ _ _

theorem quiet_addGroupToADUser (cfg : Config) (c : GroupCalls) (urn : Option String)
    (u : Option ADUser) (au : Option AuthUser) (clientip : Option String) :
    (addGroupToADUser cfg c urn u au clientip).Steps R :=
  steps_addGroupToADUser quiet.refl (quiet_addMember quiet) (quiet_audit quiet) _ _ _ _ _ _

theorem quiet_addHostAccessGroup (cfg : Config) (c : HostGroupCalls) (u : Option ADUser)
    (fqdn : Option String) : (addHostAccessGroup cfg c u fqdn).Steps R :=
  steps_addHostAccessGroup quiet.refl (quiet_addMember quiet) (quiet_audit quiet) _ _ _ _

theorem quiet_addGatewayAccessGroup (cfg : Config) (c : GatewayGroupCalls) (u : Option ADUser)
    (fqdn : Option String) : (addGatewayAccessGroup cfg c u fqdn).Steps R :=
  steps_addGatewayAccessGroup quiet.refl (quiet_addMember quiet) (quiet_audit quiet) _ _ _ _

theorem quiet_makeUserAuthorizedDA (c : AdminCalls) (u : ADUser) (authu : Option AuthUser)
    (clientip : Option String) : (makeUserAuthorizedDA c u authu clientip).Steps R := by
  refine Prog.steps_orElse (Prog.steps_bind (steps_execute quiet.refl _ _ _ (fun w => ?_))
    (fun _ => Prog.steps_bind (quiet_audit quiet _ _ _ _ _ _ _) (fun _ => Prog.steps_pure _))) _
  exact quiet w w.ad.accounts w.db.auditLog _ w.db.csrfTokens _ (by simp [Effect.quiet])

theorem quiet_addWorkstationToADUser (cfg : Config) (c : WorkstationCalls) (fqdn : String)
    (u : ADUser) (au : Option AuthUser) (clientip : Option String) :
    (addWorkstationToADUser cfg c fqdn u au clientip).Steps R :=
  steps_addWorkstationToADUser quiet.refl (quiet_setWorkstations quiet) (quiet_audit quiet) _ _ _ _ _ _

end Footprint

/-! ## What account operations achieve -/

/-- Name and DN of every account, the part of an account that identifies it. -/
def names (ad : Directory) : List (String × String) := ad.accounts.map (fun a => (a.sam, a.dn))

/-- The same accounts and groups exist, and nothing was logged. -/
structure SameAccounts (w w' : World) : Prop where
  names : names w'.ad = names w.ad
  groups : w'.ad.groups = w.ad.groups
  trace : w'.trace = w.trace

theorem SameAccounts.refl (w : World) : SameAccounts w w := ⟨rfl, rfl, rfl⟩

theorem SameAccounts.trans {w w' w'' : World} (h : SameAccounts w w') (h' : SameAccounts w' w'') :
    SameAccounts w w'' :=
  ⟨h'.names.trans h.names, h'.groups.trans h.groups, h'.trace.trans h.trace⟩

theorem names_updateWhere {sel : Account → Bool} {f : Account → Account} (ad : Directory)
    (same : ∀ a, (f a).sam = a.sam ∧ (f a).dn = a.dn) :
    names { ad with accounts := updateWhere sel f ad.accounts } = names ad :=
  map_updateWhere (fun a => Prod.ext (same a).1 (same a).2) ad.accounts

theorem sameAccounts_changeAccount (fails : Bool) (dn : String) {f : Account → Account}
    (same : ∀ a, (f a).sam = a.sam ∧ (f a).dn = a.dn) :
    (modify fails (changeAccount dn f)).Steps SameAccounts := by
  refine steps_modify SameAccounts.refl fails ?_
  intro w ad effects h
  rw [changeAccount] at h
  split at h
  · cases h
    exact ⟨names_updateWhere w.ad same, rfl, List.append_nil _⟩
  · cases h

theorem sameAccounts_audit (fails : Bool) (event : String)
    (authUser targetHost targetUser targetGroup clientIp : Option String) :
    (audit fails event authUser targetHost targetUser targetGroup clientIp).Steps SameAccounts :=
  steps_audit ⟨SameAccounts.refl, fun _ _ => ⟨rfl, rfl, rfl⟩⟩ fails event _ _ _ _ _

theorem run_audit (fails : Bool) (event : String)
    (authUser targetHost targetUser targetGroup clientIp : Option String) (w : World) :
    ∃ w', (audit fails event authUser targetHost targetUser targetGroup clientIp).run w =
      (.ok (), w') ∧ SameAccounts w w' := by
  have delivers := Prog.delivers_orElse SameAccounts.refl (fun _ _ _ h h' => SameAccounts.trans h h')
    (sameAccounts_audit fails event authUser targetHost targetUser targetGroup clientIp)
    (Prog.returns_any _)
  obtain ⟨_, w', hrun, same, _⟩ := delivers.run w
  exact ⟨w', hrun, same⟩

/-! ### Workstations -/

theorem sameAccounts_setWorkstations (fails : Bool) (userDn pre : String) :
    (modify fails (setWorkstations userDn pre)).Steps SameAccounts := by
  refine steps_modify SameAccounts.refl fails ?_
  intro w ad effects h
  rw [setWorkstations] at h
  split at h
  · rw [changeAccount] at h
    split at h
    · cases h
      exact ⟨names_updateWhere w.ad (fun _ => ⟨rfl, rfl⟩), rfl, List.append_nil _⟩
    · cases h
  · cases h

/-- Restricting an account to a host never raises and hands the object back. -/
theorem delivers_addWorkstationToADUser (cfg : Config) (c : WorkstationCalls) (fqdn : String)
    (u : ADUser) (au : Option AuthUser) (clientip : Option String) :
    (addWorkstationToADUser cfg c fqdn u au clientip).Delivers SameAccounts True
      (fun u' => u' = u) := by
  have steps := steps_addWorkstationToADUser SameAccounts.refl sameAccounts_setWorkstations
    sameAccounts_audit cfg c fqdn u au clientip
  rw [addWorkstationToADUser] at steps ⊢
  dsimp only at steps ⊢
  split
  · exact Prog.delivers_pure SameAccounts.refl rfl
  · rename_i legal
    rw [if_neg legal] at steps
    refine Prog.delivers_orElse SameAccounts.refl (fun _ _ _ h h' => SameAccounts.trans h h') steps
      (Prog.returns_orElse (Prog.returns_bind (Prog.returns_any _) (fun dns _ => ?_)) rfl)
    cases dns.head? with
    | none => exact Prog.returns_pure rfl
    | some userDn =>
      refine Prog.returns_bind (Prog.returns_any _) (fun uws _ => ?_)
      cases given uws with
      | none => exact Prog.returns_pure rfl
      | some uws =>
        exact Prog.returns_bind (Prog.returns_any _) (fun _ _ =>
          Prog.returns_bind (Prog.returns_any _) (fun _ _ => Prog.returns_pure rfl))

/-! ### Creation -/

/-- The object that `createRandomizedADUser` returns for the name it found. -/
def randomizedUser (cfg : Config) (c : CreateCalls) (sam : String) : ADUser where
  sAMAccountName := some sam
  adPassword := some c.password
  adDomain := some cfg.domain
  adOu := some cfg.targetbase
  memberships := []
  created := true

/-- Where `createRandomizedADUser` puts the account. -/
def accountDn (cfg : Config) (sam : String) : String := "cn=" ++ sam ++ "," ++ cfg.targetbase

/-- `w'` has `k` more accounts of that name, each of them logged. -/
structure Created (sam dn : String) (k : Nat) (w w' : World) : Prop where
  names : names w'.ad = names w.ad ++ List.replicate k (sam, dn)
  groups : w'.ad.groups = w.ad.groups
  trace : w'.trace = w.trace ++ List.replicate k (.accountCreated sam)

theorem Created.of_same {sam dn : String} {k : Nat} {w w' w'' : World}
    (h : Created sam dn k w w') (same : SameAccounts w' w'') : Created sam dn k w w'' :=
  ⟨same.names.trans h.names, same.groups.trans h.groups, same.trace.trans h.trace⟩

theorem Created.append {sam dn : String} {k k' : Nat} {w w' w'' : World}
    (h : Created sam dn k w w') (h' : Created sam dn k' w' w'') : Created sam dn (k + k') w w'' where
  names := by rw [h'.names, h.names, List.append_assoc, List.replicate_append_replicate]
  groups := h'.groups.trans h.groups
  trace := by rw [h'.trace, h.trace, List.append_assoc, List.replicate_append_replicate]

/-- The controller takes the name for free and accepts the account. -/
def ControllerAnswers.accepts (answers : ControllerAnswers) : Bool :=
  answers.available = some true && !answers.create

/-- Some controller takes the account, so that one is created. -/
def accepted (cfg : Config) (c : CreateCalls) : Bool :=
  (List.range cfg.dcs).any (fun i => (c.controller i).accepts)

/-- How many accounts a pass over the controllers creates, given whether
`userCreated` is already set. -/
def creations (answers : Nat → ControllerAnswers) : Bool → List Nat → Nat
  | _, [] => 0
  | true, _ :: dcs => creations answers true dcs
  | false, i :: dcs =>
    if (answers i).accepts then creations answers (!(answers i).environment) dcs + 1
    else creations answers false dcs

theorem creations_true (answers : Nat → ControllerAnswers) (dcs : List Nat) :
    creations answers true dcs = 0 := by
  induction dcs with
  | nil => rfl
  | cons i dcs ih => exact ih

theorem creations_ne_zero (answers : Nat → ControllerAnswers) (dcs : List Nat) :
    creations answers false dcs ≠ 0 ↔ dcs.any (fun i => (answers i).accepts) = true := by
  induction dcs with
  | nil => simp [creations]
  | cons i dcs ih =>
    rw [creations, List.any_cons]
    by_cases taken : (answers i).accepts = true
    · simp [taken]
    · simpa [taken] using ih

theorem run_createOn (a : Account) (answers : ControllerAnswers) (created : Bool) (w : World) :
    ∃ w', (createOn a answers created).run w =
        (.ok (created || (answers.accepts && !answers.environment)), w') ∧
      Created a.sam a.dn (if !created && answers.accepts then 1 else 0) w w' := by
  have same : Created a.sam a.dn 0 w w := ⟨by simp, rfl, by simp⟩
  rw [createOn, ControllerAnswers.accepts]
  split
  · rename_i asked
    rw [Prog.run_bind, Prog.run_attempt, run_modify _ rfl]
    cases answers.create with
    | true => exact ⟨w, by simp [asked], by simpa using same⟩
    | false =>
      refine ⟨⟨w.clock, w.db, ⟨w.ad.accounts ++ [a], w.ad.groups, w.ad.computers⟩, w.engine, w.scripts,
        w.trace ++ [.accountCreated a.sam]⟩, by simp [asked], ?_⟩
      constructor <;> simp [asked, names]
  · rename_i unasked
    cases created with
    | true => exact ⟨w, by simp, by simpa using same⟩
    | false =>
      have unavailable : answers.available ≠ some true := fun h => unasked ⟨h, rfl⟩
      exact ⟨w, by simp [unavailable], by simpa [unavailable] using same⟩

theorem run_createOnAll (a : Account) (answers : Nat → ControllerAnswers) (dcs : List Nat)
    (created : Bool) (w : World) :
    ∃ b w', (dcs.foldlM (fun created i => createOn a (answers i) created) created).run w =
      (.ok b, w') ∧ Created a.sam a.dn (creations answers created dcs) w w' := by
  induction dcs generalizing created w with
  | nil => exact ⟨_, w, rfl, ⟨by simp [creations], rfl, by simp [creations]⟩⟩
  | cons i dcs ih =>
    obtain ⟨w', hrun, one⟩ := run_createOn a (answers i) created w
    obtain ⟨b, w'', hrun', rest⟩ := ih (created || ((answers i).accepts && !(answers i).environment)) w'
    refine ⟨b, w'', ?_, ?_⟩
    · rw [List.foldlM_cons, Prog.run_bind_ok hrun, hrun']
    · have both := one.append rest
      cases created with
      | true => simpa [creations] using both
      | false =>
        cases taken : (answers i).accepts with
        | true => simpa [creations, taken, Nat.add_comm] using both
        | false => simpa [creations, taken] using both

theorem run_changeOnControllers (cfg : Config) (fails : Nat → Bool) (dn : String)
    {f : Account → Account} (same : ∀ a, (f a).sam = a.sam ∧ (f a).dn = a.dn) (w : World) :
    ∃ w', (onControllers cfg (fun i => modify (fails i) (changeAccount dn f))).run w =
      (.ok (), w') ∧ SameAccounts w w' := by
  have delivers := Prog.delivers_forM SameAccounts.refl (fun _ _ _ h h' => SameAccounts.trans h h')
    (Q := fun _ => True) trivial (fun i => Prog.delivers_orElse SameAccounts.refl
      (fun _ _ _ h h' => SameAccounts.trans h h')
      (Prog.steps_orElse (sameAccounts_changeAccount (fails i) dn same) ())
      (Prog.returns_any _)) (List.range cfg.dcs)
  obtain ⟨_, w', hrun, h, _⟩ := delivers.run w
  exact ⟨w', hrun, h⟩

theorem run_posixFor (fails : Bool) (au : Option AuthUser) (w : World) :
    ∃ posix, (posixFor fails au).run w = (.ok posix, w) := by
  cases au with
  | none => exact ⟨none, rfl⟩
  | some au =>
    rw [posixFor, Prog.run_orElse, run_query rfl]
    cases fails <;> exact ⟨_, rfl⟩

theorem run_createAdUser (cfg : Config) (c : CreateCalls) (au : Option AuthUser) {u : ADUser}
    {sam domain : String} (named : given u.sAMAccountName = some sam)
    (placed : given u.adDomain = some domain) (w : World) :
    ∃ w', (createAdUser cfg c au u).run w = (.ok (some { u with created := true }), w') ∧
      Created sam ("cn=" ++ sam ++ "," ++ javaString u.adOu)
        (creations c.controller false (List.range cfg.dcs)) w w' := by
  obtain ⟨posix, hposix⟩ := run_posixFor c.posix au w
  obtain ⟨b, w₁, hcreate, h₁⟩ := run_createOnAll (newAccount u sam posix) c.controller
    (List.range cfg.dcs) false w
  obtain ⟨w₂, hpassword, h₂⟩ := run_changeOnControllers cfg (fun i => (c.controller i).password)
    (newAccount u sam posix).dn (f := fun x => { x with password := u.adPassword })
    (fun _ => ⟨rfl, rfl⟩) w₁
  obtain ⟨w₃, hcontrol, h₃⟩ := run_changeOnControllers cfg (fun i => (c.controller i).control)
    (newAccount u sam posix).dn (f := fun x => { x with userAccountControl := 512 })
    (fun _ => ⟨rfl, rfl⟩) w₂
  rw [createAdUser, named, placed]
  dsimp only
  rw [Prog.run_bind_ok hposix, Prog.run_bind_ok hcreate, Prog.run_bind_ok hpassword,
    Prog.run_bind_ok hcontrol]
  have h := (h₁.of_same h₂).of_same h₃
  cases au with
  | none =>
    obtain ⟨w₄, haudit, h₄⟩ := run_audit c.audit "createADUser" (some sam) none none none none w₃
    exact ⟨w₄, Prog.run_bind_ok haudit, h.of_same h₄⟩
  | some au =>
    obtain ⟨w₄, haudit, h₄⟩ := run_audit c.audit "createADUser" au.uid none (some sam) none none w₃
    exact ⟨w₄, Prog.run_bind_ok haudit, h.of_same h₄⟩

/-- Creation never raises; it answers null only without having done anything. -/
theorem run_createRandomizedADUser (cfg : Config) (c : CreateCalls) (au : Option AuthUser)
    (w : World) :
    (createRandomizedADUser cfg c au).run w = (.ok none, w) ∨
      ∃ sam k w', (getRandomSamaccountname c).run w = (.ok sam, w) ∧
        (createRandomizedADUser cfg c au).run w =
        (.ok (some (randomizedUser cfg c sam)), w') ∧ Created sam (accountDn cfg sam) k w w' ∧
        (k ≠ 0 ↔ accepted cfg c = true) := by
  have reads := Prog.run_unchanged (reads_getRandomSamaccountname c) w
  rw [createRandomizedADUser, Prog.run_bind, Prog.run_attempt]
  rcases hn : (getRandomSamaccountname c).run w with ⟨e | sam, t⟩
  · rw [hn] at reads
    obtain rfl : t = w := reads
    exact .inl rfl
  · rw [hn] at reads
    obtain rfl : t = w := reads
    by_cases named : sam = "" ∨ cfg.domain = ""
    · refine .inl ?_
      rcases named with h | h <;> simp [createAdUser, given, h]
    · rw [not_or] at named
      obtain ⟨w', hrun, h⟩ := run_createAdUser cfg c au (u := ⟨some sam, some c.password,
        some cfg.domain, some cfg.targetbase, [], false⟩) (given_some named.1)
        (given_some named.2) t
      exact .inr ⟨sam, _, w', rfl, hrun, h, creations_ne_zero c.controller (List.range cfg.dcs)⟩

/-! ### Groups -/

/-- Not null, and still the account it was. -/
def SameUser (u : ADUser) (o : Option ADUser) : Prop :=
  ∃ u', o = some u' ∧ u'.sAMAccountName = u.sAMAccountName ∧ u'.adPassword = u.adPassword ∧
    u'.adDomain = u.adDomain

theorem SameUser.refl (u : ADUser) : SameUser u (some u) := ⟨u, rfl, rfl, rfl, rfl⟩

theorem SameUser.trans {u v : ADUser} {o : Option ADUser} (h : SameUser u (some v))
    (h' : SameUser v o) : SameUser u o := by
  obtain ⟨_, hv, hs, hp, hd⟩ := h
  cases hv
  obtain ⟨u', rfl, hs', hp', hd'⟩ := h'
  exact ⟨u', rfl, hs'.trans hs, hp'.trans hp, hd'.trans hd⟩

theorem returns_addGroupToADUser (cfg : Config) (c : GroupCalls) (urn : Option String) (u : ADUser)
    (au : Option AuthUser) (clientip : Option String) :
    (addGroupToADUser cfg c urn (some u) au clientip).Returns (SameUser u) := by
  cases urn with
  | none => exact Prog.returns_pure (.refl u)
  | some urn =>
    refine Prog.returns_orElse (Prog.returns_bind (Prog.returns_any _) (fun dns _ => ?_)) (.refl u)
    cases dns.head? with
    | none => exact Prog.returns_pure (.refl u)
    | some userDn =>
      refine Prog.returns_bind (Prog.returns_any _) (fun _ _ => ?_)
      split
      · exact Prog.returns_pure (.refl u)
      · exact Prog.returns_pure ⟨_, rfl, rfl, rfl, rfl⟩

theorem returns_addHostAccessGroup (cfg : Config) (c : HostGroupCalls) (u : ADUser)
    (fqdn : Option String) : (addHostAccessGroup cfg c (some u) fqdn).Returns (SameUser u) := by
  refine Prog.returns_orElse (Prog.returns_bind (Prog.returns_any _) (fun rule _ => ?_)) (.refl u)
  cases rule with
  | none => exact Prog.returns_pure (.refl u)
  | some r => exact returns_addGroupToADUser _ _ _ _ _ _

theorem returns_addGatewayAccessGroup (cfg : Config) (c : GatewayGroupCalls) (u : ADUser)
    (fqdn : Option String) : (addGatewayAccessGroup cfg c (some u) fqdn).Returns (SameUser u) := by
  refine Prog.returns_orElse (Prog.returns_bind (Prog.returns_any _) (fun rule _ => ?_)) (.refl u)
  cases rule with
  | none => exact Prog.returns_pure (.refl u)
  | some r => exact returns_addGroupToADUser _ _ _ _ _ _

/-- What adding a group to an existing account logs: one entry for each
controller that accepts the new member. -/
def groupEffects (cfg : Config) (c : GroupCalls) (sam : Option String) (urn : String)
    (ad : Directory) : List Effect :=
  if !c.find && (accountDns ad sam).head?.isSome &&
      ad.groups.any (fun g => dnEq g (groupDn cfg urn)) then
    ((List.range cfg.dcs).filter (fun i => !c.controller i)).map
      (fun _ => .groupAdded (javaString sam) (groupDn cfg urn))
  else []

theorem accountDns_of_names {ad ad' : Directory} (h : names ad' = names ad) (sam : Option String) :
    accountDns ad' sam = accountDns ad sam := by
  have dns : ∀ ad, accountDns ad sam =
      ((names ad).filter (fun p => nameEq p.1 (javaString sam)) ++ (names ad).filter (fun p =>
        !nameEq p.1 (javaString sam) && finds (javaString sam) p.1)).map Prod.snd := by
    intro ad
    simp [accountDns, found, names, List.filter_map, Function.comp_def]
  rw [dns, dns, h]

theorem accountDns_created {sam dn : String} {k : Nat} {w w' : World} (created : Created sam dn k w w')
    (some_created : k ≠ 0) : (accountDns w'.ad (some sam)).head?.isSome = true := by
  have mem : (sam, dn) ∈ names w'.ad := by
    rw [created.names]
    exact List.mem_append_right _ (List.mem_replicate.mpr ⟨some_created, rfl⟩)
  obtain ⟨a, ha, name⟩ := List.mem_map.mp mem
  have listed : a.dn ∈ accountDns w'.ad (some sam) := by
    refine List.mem_map_of_mem (mem_found.mpr ⟨ha, finds_of_nameEq ?_⟩)
    rw [(Prod.mk.inj name).1]
    exact nameEq_refl sam
  cases dns : accountDns w'.ad (some sam) with
  | nil =>
    rw [dns] at listed
    cases listed
  | cons d ds => rfl

theorem mem_names_of_head {ad : Directory} {sam : Option String} {dn : String}
    (h : (accountDns ad sam).head? = some dn) : ∃ p ∈ names ad, p.2 = dn := by
  obtain ⟨a, ha, rfl⟩ := List.mem_map.mp (List.mem_of_mem_head? h)
  exact ⟨(a.sam, a.dn), List.mem_map.mpr ⟨a, (mem_found.mp ha).1, rfl⟩, rfl⟩

theorem run_addMember {w : World} {userDn : String} (present : ∃ p ∈ names w.ad, p.2 = userDn)
    (fails : Bool) (sam groupDN : String) :
    ∃ ad : Directory, names ad = names w.ad ∧ ad.groups = w.ad.groups ∧
      (modify fails (addMember sam userDn groupDN)).run w =
        if fails || !w.ad.groups.any (fun g => dnEq g groupDN) then (.error .namingException, w)
        else (.ok (), { w with ad := ad, trace := w.trace ++ [.groupAdded sam groupDN] }) := by
  obtain ⟨p, hp, rfl⟩ := present
  obtain ⟨a, ha, rfl⟩ := List.mem_map.mp hp
  have found : w.ad.accounts.any (fun x => dnEq x.dn a.dn) = true :=
    List.any_eq_true.mpr ⟨a, ha, dnEq_refl _⟩
  cases hg : w.ad.groups.any (fun g => dnEq g groupDN) with
  | false =>
    refine ⟨w.ad, rfl, rfl, ?_⟩
    rw [run_modify_none fails (by simp [addMember, hg])]
    simp
  | true =>
    let joined := updateWhere (fun x => dnEq x.dn a.dn)
      (fun x => { x with memberOf := x.memberOf ++ [groupDN] }) w.ad.accounts
    refine ⟨{ w.ad with accounts := joined }, names_updateWhere w.ad (fun _ => ⟨rfl, rfl⟩), rfl, ?_⟩
    have accepted : addMember sam a.dn groupDN w.ad =
        some ({ w.ad with accounts := joined }, [.groupAdded sam groupDN]) := by
      simp only [addMember, hg, found, Bool.and_self, if_true]
      rfl
    rw [run_modify fails accepted]
    cases fails <;> rfl

theorem run_addOnControllers (c : GroupCalls) (sam groupDN : String)
    (log : Nat → Run Unit) (calm : ∀ i w, ∃ w', (log i).run w = (.ok (), w') ∧ SameAccounts w w')
    (dcs : List Nat) {w : World} {userDn : String} (present : ∃ p ∈ names w.ad, p.2 = userDn) :
    ∃ w', (dcs.forM (fun i => Prog.orElse (do
        modify (c.controller i) (addMember sam userDn groupDN)
        log i) ())).run w = (.ok (), w') ∧
      names w'.ad = names w.ad ∧ w'.ad.groups = w.ad.groups ∧
      w'.trace = w.trace ++ if w.ad.groups.any (fun g => dnEq g groupDN) then
        (dcs.filter (fun i => !c.controller i)).map (fun _ => .groupAdded sam groupDN) else [] := by
  induction dcs generalizing w with
  | nil => exact ⟨w, rfl, rfl, rfl, by simp⟩
  | cons i dcs ih =>
    have one : ∃ w', (Prog.orElse (do
        modify (c.controller i) (addMember sam userDn groupDN)
        log i) ()).run w = (.ok (), w') ∧
        names w'.ad = names w.ad ∧ w'.ad.groups = w.ad.groups ∧
        w'.trace = w.trace ++ if c.controller i || !w.ad.groups.any (fun g => dnEq g groupDN)
          then [] else [.groupAdded sam groupDN] := by
      obtain ⟨ad, hn, hg, hrun⟩ := run_addMember present (c.controller i) sam groupDN
      rw [Prog.run_orElse, Prog.run_bind, hrun]
      cases c.controller i || !w.ad.groups.any (fun g => dnEq g groupDN) with
      | true => exact ⟨w, rfl, rfl, rfl, by simp⟩
      | false =>
        obtain ⟨w₂, hlog, same⟩ := calm i
          { w with ad := ad, trace := w.trace ++ [.groupAdded sam groupDN] }
        refine ⟨w₂, ?_, same.names.trans hn, same.groups.trans hg, by simpa using same.trace⟩
        simp [hlog]
    obtain ⟨w₁, hrun, hn, hg, ht⟩ := one
    obtain ⟨w₂, hrun', hn', hg', ht'⟩ := ih (hn ▸ present)
    refine ⟨w₂, (Prog.run_bind_ok hrun).trans hrun', hn'.trans hn, hg'.trans hg, ?_⟩
    rw [ht', ht, hg, List.append_assoc]
    cases hi : c.controller i <;> cases w.ad.groups.any (fun g => dnEq g groupDN) <;> simp [hi]

/-- Adding a group never raises, keeps the accounts and logs `groupEffects`. -/
theorem run_addGroupToADUser (cfg : Config) (c : GroupCalls) (urn : String) (u : ADUser)
    (au : Option AuthUser) (clientip : Option String) (w : World) :
    ∃ u' w', (addGroupToADUser cfg c (some urn) (some u) au clientip).run w = (.ok (some u'), w') ∧
      SameUser u (some u') ∧ names w'.ad = names w.ad ∧ w'.ad.groups = w.ad.groups ∧
      w'.trace = w.trace ++ groupEffects cfg c u.sAMAccountName urn w.ad := by
  rw [addGroupToADUser, Prog.run_orElse, Prog.run_bind, groupEffects]
  cases hf : c.find with
  | true => exact ⟨u, w, rfl, .refl u, rfl, rfl, by simp⟩
  | false =>
    cases hd : (accountDns w.ad u.sAMAccountName).head? with
    | none => exact ⟨u, w, by simp [search, hd], .refl u, rfl, rfl, by simp⟩
    | some userDn =>
      obtain ⟨w', hrun, hn, hg, ht⟩ := run_addOnControllers c (javaString u.sAMAccountName)
        (groupDn cfg urn) (fun i => audit (c.audit i) "addGroup" (au.bind AuthUser.uid) none
          u.sAMAccountName (some urn) clientip) (fun i w => run_audit _ _ _ _ _ _ _ w)
        (List.range cfg.dcs) (mem_names_of_head hd)
      replace hrun : (onControllers cfg _).run w = (.ok (), w') := hrun
      by_cases hm : u.memberships.contains urn
      · refine ⟨u, w', ?_, .refl u, hn, hg, by simpa using ht⟩
        simp only [search, Prog.run_atom, hd, Bool.false_eq_true, if_false]
        rw [Prog.run_bind_ok hrun, if_pos hm]
        rfl
      · refine ⟨{ u with memberships := u.memberships ++ [urn] }, w', ?_, ⟨_, rfl, rfl, rfl, rfl⟩, hn,
          hg, by simpa using ht⟩
        simp only [search, Prog.run_atom, hd, Bool.false_eq_true, if_false]
        rw [Prog.run_bind_ok hrun, if_neg hm]
        rfl

theorem returns_setRandomADPassword (cfg : Config) (c : PasswordCalls) (adu : ADUser) :
    (setRandomADPassword cfg c adu).Returns (fun u => u.sAMAccountName = adu.sAMAccountName) := by
  refine Prog.returns_orElse (Prog.returns_bind (Prog.returns_any _) (fun dns _ => ?_)) rfl
  cases dns.head? with
  | none => exact Prog.returns_pure rfl
  | some adDn => exact Prog.returns_bind (Prog.returns_any _) (fun _ _ => Prog.returns_pure rfl)

section Delivery

variable {R : World → World → Prop} (quiet : Quiet R)
variable (trans : ∀ s t r, R s t → R t r → R s r)

include quiet trans

theorem delivers_addGroupToADUser (cfg : Config) (c : GroupCalls) (urn : Option String) (u : ADUser)
    (au : Option AuthUser) (clientip : Option String) :
    (addGroupToADUser cfg c urn (some u) au clientip).Delivers R True (SameUser u) := by
  have steps := quiet_addGroupToADUser quiet cfg c urn (some u) au clientip
  have returns := returns_addGroupToADUser cfg c urn u au clientip
  intro w
  refine ⟨Prog.run_related quiet.refl trans steps w, .inl ⟨trivial, ?_⟩⟩
  have total : ∃ o, ((addGroupToADUser cfg c urn (some u) au clientip).run w).1 = .ok o := by
    cases urn with
    | none => exact ⟨_, rfl⟩
    | some urn =>
      obtain ⟨o, ho⟩ := Prog.run_orElse_ok _ _ w
      exact ⟨o, congrArg Prod.fst ho⟩
  obtain ⟨o, ho⟩ := total
  exact ⟨o, ho, returns.run ho⟩

theorem delivers_setRandomADPassword (cfg : Config) (c : PasswordCalls) (adu : ADUser) :
    (setRandomADPassword cfg c adu).Delivers R True
      (fun u => u.sAMAccountName = adu.sAMAccountName) := by
  intro w
  refine ⟨Prog.run_related quiet.refl trans (quiet_setRandomADPassword quiet cfg c adu) w,
    .inl ⟨trivial, ?_⟩⟩
  obtain ⟨u, hu⟩ := Prog.run_orElse_ok _ adu w
  have value := congrArg Prod.fst hu
  exact ⟨u, value, (returns_setRandomADPassword cfg c adu).run value⟩

/-- The lookup of a static account never raises. -/
theorem delivers_getStaticADUser (cfg : Config) (fails : Bool) (c : PasswordCalls) (au : AuthUser)
    (fqdn : Option String) :
    (getStaticADUser cfg fails c au fqdn).Delivers R True (fun _ => True) :=
  Prog.delivers_bind_total trans (Prog.delivers_orElse quiet.refl trans
    (Prog.steps_orElse ((reads_query _ _ _ _).steps quiet.refl) _) (Prog.returns_any _))
    (fun _ _ => (delivers_setRandomADPassword quiet trans cfg c _).mono (fun _ _ h => h)
      (fun _ _ => trivial))

theorem delivers_addHostAccessGroup (cfg : Config) (c : HostGroupCalls) (u : ADUser)
    (fqdn : Option String) :
    (addHostAccessGroup cfg c (some u) fqdn).Delivers R True (SameUser u) :=
  Prog.delivers_orElse quiet.refl trans (quiet_addHostAccessGroup quiet cfg c _ fqdn)
    (returns_addHostAccessGroup cfg c u fqdn)

theorem delivers_addGatewayAccessGroup (cfg : Config) (c : GatewayGroupCalls) (u : ADUser)
    (fqdn : Option String) :
    (addGatewayAccessGroup cfg c (some u) fqdn).Delivers R True (SameUser u) :=
  Prog.delivers_orElse quiet.refl trans (quiet_addGatewayAccessGroup quiet cfg c _ fqdn)
    (returns_addGatewayAccessGroup cfg c u fqdn)

end Delivery

end Accounts
