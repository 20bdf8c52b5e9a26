import Mathlib.Algebra.Group.Int.Defs
import Proconsul.Surroundings

/-!
# The administration console

The five POST handlers of `MainController`. Each asks first whether the
requester may use its panel, then connects to the database and performs the
one form that the request's markers select: a loop over the parameter names
that deletes the flagged rows, or a single insert.

Nothing here is a transaction: what a handler has deleted before a statement
fails stays deleted. The texts that the database driver puts into its
exceptions are not modelled.
-/

namespace AdminConsole

open Program Schema Text Surroundings

/-! ## Requests and administrators -/

/-- First values of the request's parameters, in the order of `getParameterNames`. -/
structure Parameters where
  entries : List (String × String)
  distinct : (entries.map Prod.fst).Nodup

def Parameters.getParameter (p : Parameters) (name : String) : Option String :=
  (p.entries.find? (fun e => e.1 == name)).map Prod.snd

structure AdminRequest where
  remoteUser : Option String
  parameters : Parameters

/-- Comma-separated names; only the first property is mandatory. -/
structure AdminConfig where
  pcadminlist : Option String
  loginadmins : Option String
  targetsystemadmins : Option String
  posixadmins : Option String

/-- The loop over one list. A null user raises at the first name compared. -/
def named (alist : String) (request : AdminRequest) : Run Bool :=
  (javaSplit ',' alist).anyM (fun u => do
    let user ← deref request.remoteUser
    return equalsIgnoreCase user u)

def isAdmin (config : AdminConfig) (request : AdminRequest) : Run Bool :=
  match config.pcadminlist with
  | none => Prog.throwing (.runtimeException "property: pcadminlist not found")
  | some alist => named alist request

/-- Named in a list of their own, or a general administrator. -/
def isSubAdmin (alist : Option String) (config : AdminConfig) (request : AdminRequest) :
    Run Bool := do
  match alist with
  | none => isAdmin config request
  | some alist => if ← named alist request then return true else isAdmin config request

def isDARuleAdmin (config : AdminConfig) (request : AdminRequest) : Run Bool :=
  isAdmin config request

def isLoginRuleAdmin (config : AdminConfig) (request : AdminRequest) : Run Bool :=
  isSubAdmin config.loginadmins config request

def isTargetSystemAdmin (config : AdminConfig) (request : AdminRequest) : Run Bool :=
  isSubAdmin config.targetsystemadmins config request

def isPosixAdmin (config : AdminConfig) (request : AdminRequest) : Run Bool :=
  isSubAdmin config.posixadmins config request

def isGroupAdmin (config : AdminConfig) (request : AdminRequest) : Run Bool :=
  isAdmin config request

def isTargetProvisioningAdmin (config : AdminConfig) (request : AdminRequest) : Run Bool :=
  isAdmin config request

/-! ## Statements -/

/-- Outcomes of the connection and of the statements, in the order of the parameter names. -/
structure ConsoleCalls where
  connect : Bool
  statement : Nat → Bool

def ConsoleCalls.noOutage : ConsoleCalls := ⟨false, fun _ => false⟩

/-- `insert into t values(...)`; `none` is a violated key or a null in a `NOT NULL` column. -/
def insertInto (fails : Bool) (write : Database → Option Database) : Run Unit :=
  Prog.atom (fun w =>
    if fails then (.error .sqlException, w)
    else match write w.db with
      | none => (.error .sqlException, w)
      | some db => (.ok (), { w with db := db }))

/-- A branch of a deletion loop: parameters named `flag` and a number, with the value `mark`,
delete what the equally numbered fields select. -/
structure Deletion where
  flag : String
  mark : String
  table : Table
  columns : List String
  remove : (String → Option String) → Database → Database

/-- `t.matches("^flag[0-9]*")`, and what `t.replace(flag, "")` leaves. -/
def numberAfter (flag t : String) : Option String :=
  if flag.toList.isPrefixOf t.toList && (t.toList.drop flag.length).all Char.isDigit then
    some (String.ofList (t.toList.drop flag.length))
  else none

/-- The first branch whose flag and mark fit the parameter. -/
def branch (rules : List Deletion) (entry : String × String) : Option (Deletion × String) :=
  rules.findSome? (fun d =>
    if entry.2 = d.mark then (numberAfter d.flag entry.1).map (fun num => (d, num)) else none)

def deleteMarked (c : ConsoleCalls) (rules : List Deletion) (p : Parameters) : Run Unit :=
  p.entries.zipIdx.forM (fun e =>
    match branch rules e.1 with
    | none => pure ()
    | some (d, num) => execute (c.statement e.2) d.table d.columns (fun db =>
        (d.remove (fun name => p.getParameter (name ++ num)) db, [])))

def submitted (p : Parameters) (marker : String) : Bool := p.getParameter marker == some "1"

def getMessage : Exn → String
  | .runtimeException message | .containerInit message => message
  | _ => "null"

/-- Connect, then perform the form. -/
def connected (c : ConsoleCalls) (form : Run Unit) : Run Unit := do
  if c.connect then Prog.throwing (.runtimeException "Failed connecting to database: ")
  form

/-- `catch (Exception e)` of four of the handlers. -/
def failedUpdating (e : Exn) : Run Unit :=
  Prog.throwing (.runtimeException ("Failed updating database: " ++ getMessage e))

inductive Page where
  | redirect (path : String)
  | test (message : String)
  deriving DecidableEq, Repr

def notAuthorized : Page := .test "You are not authorized to perform that operation."

/-! ## Hosts and gateways -/

def hostGroupDeletions : List Deletion :=
  [{ flag := "delhgrp", mark := "1", table := .hostAccessGroup, columns := ["fqdn", "groupdn"]
     remove := fun field db => { db with
       hostAccessGroup := deleteWhere
         (fun r => sqlEq r.fqdn (field "hostfqdn") && sqlEq r.groupdn (field "hgrp"))
         db.hostAccessGroup } },
   { flag := "delogrp", mark := "1", table := .hostAccessGroup, columns := ["ou", "groupdn"]
     remove := fun field db => { db with
       hostAccessGroup := deleteWhere
         (fun r => sqlEq r.ou (field "oudn") && sqlEq r.groupdn (field "ogrp"))
         db.hostAccessGroup } }]

def gatewayDeletions : List Deletion :=
  [{ flag := "delgw", mark := "1", table := .hostGateway, columns := ["fqdn", "gateway", "groupdn"]
     remove := fun field db => { db with
       hostGateway := deleteWhere
         (fun r => sqlEq r.fqdn (field "tfqdn") && sqlEq r.gateway (field "hgw") &&
           sqlEq r.groupdn (field "hgwg"))
         db.hostGateway } }]

def addHostAccess (c : ConsoleCalls) (p : Parameters) : Run Unit := do
  let lhsselector ← deref (p.getParameter "lhsselector")
  let add (fqdn ou : Option String) : Run Unit := insertInto (c.statement 0) (fun db =>
    some { db with hostAccessGroup := db.hostAccessGroup ++ [⟨fqdn, ou, p.getParameter "rhs"⟩] })
  if lhsselector = "fqdn" then add (p.getParameter "lhs") none
  else if lhsselector = "ou" then add none (p.getParameter "lhs")

def addGateway (c : ConsoleCalls) (p : Parameters) : Run Unit :=
  insertInto (c.statement 0) (fun db => some { db with hostGateway := db.hostGateway ++
    [⟨p.getParameter "lhs", p.getParameter "rhs", p.getParameter "other"⟩] })

def hostAndGatewayForms (c : ConsoleCalls) (p : Parameters) : Run Unit :=
  if submitted p "groupformsubmitted" then deleteMarked c hostGroupDeletions p
  else if submitted p "gwformsubmitted" then deleteMarked c gatewayDeletions p
  else if submitted p "addhostmapformsubmitted" then addHostAccess c p
  else if submitted p "addgwformsubmitted" then addGateway c p
  else pure ()

def handlePostOfHostAndGatewayDetails (config : AdminConfig) (c : ConsoleCalls)
    (request : AdminRequest) : Run Page := do
  if ← isTargetProvisioningAdmin config request then
    Prog.tryCatch (connected c (hostAndGatewayForms c request.parameters)) failedUpdating
    return .redirect "/admin/host_and_gateway_details"
  else return notAuthorized

/-! ## POSIX users -/

/-- `Integer.parseInt`, with the messages of Java 7. -/
def parseInt (s : Option String) : Run Int :=
  let digits : List Char → Option Nat := fun cs =>
    if cs.isEmpty || !cs.all Char.isDigit then none
    else some (cs.foldl (fun n d => 10 * n + (d.toNat - '0'.toNat)) 0)
  let value : Option Int := match (s.getD "").toList with
    | '-' :: cs => (digits cs).map (fun n => -(n : Int))
    | '+' :: cs => (digits cs).map Int.ofNat
    | cs => (digits cs).map Int.ofNat
  match value.filter (fun n => -2 ^ 31 ≤ n ∧ n < 2 ^ 31) with
  | some n => pure n
  | none => Prog.throwing (.runtimeException
      (match s with
        | none => "null"
        | some text => "For input string: \"" ++ text ++ "\""))

def posixDeletions : List Deletion :=
  [{ flag := "uidnumber", mark := "", table := .posixuser, columns := ["uid"]
     remove := fun field db => { db with
       posixuser := deleteWhere (fun r => sqlEq (some r.uid) (field "uname")) db.posixuser } }]

/-- `uid` is the primary key. -/
def addPosixUser (c : ConsoleCalls) (p : Parameters) : Run Unit := do
  let uidnumber ← parseInt (p.getParameter "uidnumber")
  let gidnumber ← parseInt (p.getParameter "gidnumber")
  insertInto (c.statement 0) (fun db => do
    let uid ← p.getParameter "user"
    if db.posixuser.any (fun r => sqlEq (some r.uid) (some uid)) then none
    else some { db with posixuser := db.posixuser ++ [⟨uid, uidnumber, gidnumber,
      p.getParameter "homedirectory", p.getParameter "loginshell"⟩] })

def posixForms (c : ConsoleCalls) (p : Parameters) : Run Unit :=
  if submitted p "pformsubmitted" then deleteMarked c posixDeletions p
  else if submitted p "addformsubmitted" then addPosixUser c p
  else pure ()

/-- The only handler that shows an exception instead of passing it on. -/
def handlePostOfPosixUsers (config : AdminConfig) (c : ConsoleCalls) (request : AdminRequest) :
    Run Page := do
  if ← isPosixAdmin config request then
    Prog.tryCatch (do
      connected c (posixForms c request.parameters)
      return .redirect "/admin/posix_users")
      (fun e => pure (.test ("Failed updating database: " ++ getMessage e)))
  else return .test "You are not authorized to perform that operation"

/-! ## Groups of dynamic users -/

def groupDeletions : List Deletion :=
  [{ flag := "delugrp", mark := "1", table := .explicitGroups, columns := ["eppn", "groupdn"]
     remove := fun field db => { db with
       explicitGroups := deleteWhere
         (fun r => sqlEq r.eppn (field "uname") && sqlEq r.groupdn (field "ugrp"))
         db.explicitGroups } },
   { flag := "delggrp", mark := "1", table := .groupGroup, columns := ["groupurn", "groupdn"]
     remove := fun field db => { db with
       groupGroup := deleteWhere
         (fun r => sqlEq r.subject (field "gname") && sqlEq r.groupdn (field "ggrp"))
         db.groupGroup } },
   { flag := "delegrp", mark := "1", table := .entitlementGroups
     columns := ["entitlement", "groupdn"]
     remove := fun field db => { db with
       entitlementGroups := deleteWhere
         (fun r => sqlEq r.subject (field "ename") && sqlEq r.groupdn (field "egrp"))
         db.entitlementGroups } }]

def addGroupMapping (c : ConsoleCalls) (p : Parameters) : Run Unit := do
  let lhsselector ← deref (p.getParameter "lhsselector")
  let lhs := p.getParameter "lhs"
  let rhs := p.getParameter "rhs"
  if lhsselector = "eppn" then insertInto (c.statement 0) (fun db =>
    some { db with explicitGroups := db.explicitGroups ++ [⟨lhs, rhs⟩] })
  else if lhsselector = "group" then insertInto (c.statement 0) (fun db =>
    some { db with groupGroup := db.groupGroup ++ [⟨lhs, rhs⟩] })
  else if lhsselector = "entitlement" then insertInto (c.statement 0) (fun db =>
    some { db with entitlementGroups := db.entitlementGroups ++ [⟨lhs, rhs⟩] })

def windowsForms (c : ConsoleCalls) (p : Parameters) : Run Unit :=
  if submitted p "aformsubmitted" then deleteMarked c groupDeletions p
  else if submitted p "addformsubmitted" then addGroupMapping c p
  else pure ()

def handlePostOfWindowsUsers (config : AdminConfig) (c : ConsoleCalls) (request : AdminRequest) :
    Run Page := do
  if ← isGroupAdmin config request then
    Prog.tryCatch (connected c (windowsForms c request.parameters)) failedUpdating
    return .redirect "/admin/windows_users"
  else return notAuthorized

/-! ## Target systems -/

/-- Delete the rows of one of the three host maps whose subject and whose host, or else whose OU,
are the given fields. -/
def dropHosts (subject : String) (target : HostMapRow → Option String) (value : String)
    (field : String → Option String) (rows : List HostMapRow) : List HostMapRow :=
  deleteWhere (fun r => sqlEq r.subject (field subject) && sqlEq (target r) (field value)) rows

def hostDeletions : List Deletion :=
  [{ flag := "deluhost", mark := "1", table := .explicitHosts, columns := ["eppn", "fqdn"]
     remove := fun field db => { db with
       explicitHosts := dropHosts "uname" HostMapRow.fqdn "uhost" field db.explicitHosts } },
   { flag := "deluou", mark := "1", table := .explicitHosts, columns := ["eppn", "ou"]
     remove := fun field db => { db with
       explicitHosts := dropHosts "uname" HostMapRow.ou "uou" field db.explicitHosts } },
   { flag := "delghost", mark := "1", table := .groupHost, columns := ["groupurn", "fqdn"]
     remove := fun field db => { db with
       groupHost := dropHosts "hgrp" HostMapRow.fqdn "ghost" field db.groupHost } },
   { flag := "delgou", mark := "1", table := .groupHost, columns := ["groupurn", "ou"]
     remove := fun field db => { db with
       groupHost := dropHosts "hgrp" HostMapRow.ou "gou" field db.groupHost } },
   { flag := "delehost", mark := "1", table := .entitlementHost, columns := ["entitlement", "fqdn"]
     remove := fun field db => { db with
       entitlementHost := dropHosts "hent" HostMapRow.fqdn "ehost" field db.entitlementHost } },
   { flag := "deleou", mark := "1", table := .entitlementHost, columns := ["entitlement", "ou"]
     remove := fun field db => { db with
       entitlementHost := dropHosts "hent" HostMapRow.ou "eou" field db.entitlementHost } }]

def domainAdminHostDeletions : List Deletion :=
  [{ flag := "deldah", mark := "1", table := .domainAdminHosts, columns := ["fqdn"]
     remove := fun field db => { db with
       domainAdminHosts := deleteWhere (fun fqdn => sqlEq fqdn (field "dah")) db.domainAdminHosts } }]

/-- `rhsselector` says whether the target is a host or an OU. -/
def insertHost (c : ConsoleCalls) (p : Parameters) (write : HostMapRow → Database → Database) :
    Run Unit := do
  let rhsselector ← deref (p.getParameter "rhsselector")
  let lhs := p.getParameter "lhs"
  let rhs := p.getParameter "rhs"
  if rhsselector = "fqdn" then
    insertInto (c.statement 0) (fun db => some (write ⟨lhs, rhs, none⟩ db))
  else if rhsselector = "oudn" then
    insertInto (c.statement 0) (fun db => some (write ⟨lhs, none, rhs⟩ db))

/-- `lhsselector` chooses the table; only then is the other selector asked for. -/
def addHostMapping (c : ConsoleCalls) (p : Parameters) : Run Unit := do
  let lhsselector ← deref (p.getParameter "lhsselector")
  if lhsselector = "eppn" then
    insertHost c p (fun r db => { db with explicitHosts := db.explicitHosts ++ [r] })
  else if lhsselector = "group" then
    insertHost c p (fun r db => { db with groupHost := db.groupHost ++ [r] })
  else if lhsselector = "entitlement" then
    insertHost c p (fun r db => { db with entitlementHost := db.entitlementHost ++ [r] })

def hostForms (c : ConsoleCalls) (p : Parameters) : Run Unit :=
  if submitted p "accessformsubmitted" then deleteMarked c hostDeletions p
  else if submitted p "aformsubmitted" then addHostMapping c p
  else if submitted p "daformsubmitted" then deleteMarked c domainAdminHostDeletions p
  else if submitted p "daaformsubmitted" then insertInto (c.statement 0) (fun db =>
    some { db with domainAdminHosts := db.domainAdminHosts ++ [p.getParameter "darhs"] })
  else pure ()

def handlePostOfHostMgt (config : AdminConfig) (c : ConsoleCalls) (request : AdminRequest) :
    Run Page := do
  if ← isTargetSystemAdmin config request then
    Prog.tryCatch (connected c (hostForms c request.parameters)) failedUpdating
    return .redirect "/admin/host_mgt"
  else return notAuthorized

/-! ## Access rules -/

/-- The three branches of a loop that deletes rules of one type, with the flags and fields
`stem ++ "user"`, `stem ++ "grp"` and `stem ++ "ent"`. -/
def ruleDeletions (stem type : String) : List Deletion :=
  [{ flag := "del" ++ stem ++ "user", mark := "1", table := .accessUser
     columns := ["eppn", "type"]
     remove := fun field db => { db with
       accessUser := deleteWhere
         (fun r => sqlEq r.eppn (field (stem ++ "user")) && sqlEq r.type (some type))
         db.accessUser } },
   { flag := "del" ++ stem ++ "grp", mark := "1", table := .accessGroups
     columns := ["groupurn", "type"]
     remove := fun field db => { db with
       accessGroups := deleteWhere
         (fun r => sqlEq (some r.groupurn) (field (stem ++ "grp")) && sqlEq r.type (some type))
         db.accessGroups } },
   { flag := "del" ++ stem ++ "ent", mark := "1", table := .entitlements
     columns := ["entitlement", "target"]
     remove := fun field db => { db with
       entitlements := deleteWhere
         (fun r => sqlEq (some r.entitlement) (field (stem ++ "ent")) && sqlEq r.target (some type))
         db.entitlements } }]

def loginDeletions : List Deletion := ruleDeletions "p" "proconsul"

def domainAdminDeletions : List Deletion := ruleDeletions "da" "da"

/-- `groupurn` and `entitlement` are primary keys: a subject has one rule in those two tables. -/
def addRule (c : ConsoleCalls) (p : Parameters) (selector property type : String) : Run Unit := do
  let selectedType ← deref (p.getParameter selector)
  if selectedType = "eppn" then insertInto (c.statement 0) (fun db =>
    some { db with accessUser := db.accessUser ++ [⟨p.getParameter property, some type⟩] })
  else if selectedType = "group" then insertInto (c.statement 0) (fun db => do
    let urn ← p.getParameter property
    if db.accessGroups.any (fun r => sqlEq (some r.groupurn) (some urn)) then none
    else some { db with accessGroups := db.accessGroups ++ [⟨urn, none, some type⟩] })
  else if selectedType = "entitlement" then insertInto (c.statement 0) (fun db => do
    let entitlement ← p.getParameter property
    if db.entitlements.any (fun r => sqlEq (some r.entitlement) (some entitlement)) then none
    else some { db with entitlements := db.entitlements ++ [⟨entitlement, some type⟩] })

def accessForms (c : ConsoleCalls) (p : Parameters) : Run Unit :=
  if submitted p "addformsubmitted" then addRule c p "typeselector" "userproperty" "proconsul"
  else if submitted p "adddaformsubmitted" then addRule c p "daselector" "daproperty" "da"
  else if submitted p "accessformsubmitted" then deleteMarked c loginDeletions p
  else if submitted p "daaformsubmitted" then deleteMarked c domainAdminDeletions p
  else pure ()

/-- The marker is present, with whatever value. -/
def present (p : Parameters) (marker : String) : Bool := (p.getParameter marker).isSome

/-- One of the markers is present and the requester is not entitled to it. Without a marker
the predicate is not evaluated. -/
def forbidden (p : Parameters) (marker marker' : String) (admin : Run Bool) : Run Bool :=
  if present p marker || present p marker' then do return !(← admin) else pure false

/-- The condition under which `handlePostOfAddAC` refuses. -/
def refusedAC (config : AdminConfig) (request : AdminRequest) : Run Bool := do
  let p := request.parameters
  if ← forbidden p "daaformsubmitted" "adddaformsubmitted" (isDARuleAdmin config request) then
    return true
  else
    forbidden p "addformsubmitted" "accessformsubmitted" (isLoginRuleAdmin config request)

def handlePostOfAddAC (config : AdminConfig) (c : ConsoleCalls) (request : AdminRequest) :
    Run Page := do
  if ← refusedAC config request then return notAuthorized
  else
    Prog.tryCatch (connected c (accessForms c request.parameters)) failedUpdating
    return .redirect "/admin/access_control"

/-- The five POST mappings. -/
inductive Panel where
  | hostAndGatewayDetails | posixUsers | windowsUsers | hostMgt | accessControl
  deriving DecidableEq, Repr

def post (config : AdminConfig) (c : ConsoleCalls) (request : AdminRequest) : Panel → Run Page
  | .hostAndGatewayDetails => handlePostOfHostAndGatewayDetails config c request
  | .posixUsers => handlePostOfPosixUsers config c request
  | .windowsUsers => handlePostOfWindowsUsers config c request
  | .hostMgt => handlePostOfHostMgt config c request
  | .accessControl => handlePostOfAddAC config c request

/-! ## Who is an administrator -/

/-- The user stands in the list. A missing property lists nobody. -/
def listed (alist : Option String) (user : Option String) : Bool :=
  alist.any (fun alist => user.any (fun user => (javaSplit ',' alist).any (equalsIgnoreCase user)))

theorem reads_named (alist : String) (request : AdminRequest) : (named alist request).Reads :=
  Prog.steps_anyM (fun _ => Prog.steps_bind (steps_deref _) (fun _ => Prog.steps_pure _)) _

theorem reads_isAdmin (config : AdminConfig) (request : AdminRequest) :
    (isAdmin config request).Reads := by
  rw [isAdmin]
  split
  · exact Prog.steps_throwing _
  · exact reads_named _ _

theorem reads_isSubAdmin (alist : Option String) (config : AdminConfig) (request : AdminRequest) :
    (isSubAdmin alist config request).Reads := by
  unfold isSubAdmin
  cases alist with
  | none => exact reads_isAdmin config request
  | some alist =>
    refine Prog.steps_bind (reads_named alist request) (fun found => ?_)
    cases found with
    | false => exact reads_isAdmin config request
    | true => exact Prog.steps_pure true

theorem returns_named {alist : String} {request : AdminRequest}
    (stranger : listed (some alist) request.remoteUser = false) :
    (named alist request).Returns (· = false) := by
  cases hu : request.remoteUser with
  | none =>
    rw [named]
    cases javaSplit ',' alist with
    | nil => exact rfl
    | cons u rest =>
      rw [hu]
      trivial
  | some user =>
    rw [hu] at stranger
    have differs : ∀ u ∈ javaSplit ',' alist, equalsIgnoreCase user u = false := by
      simpa [listed] using stranger
    rw [named, hu]
    generalize javaSplit ',' alist = names at differs ⊢
    induction names with
    | nil => exact rfl
    | cons u rest ih =>
      have first : equalsIgnoreCase user u = false := differs u List.mem_cons_self
      have pass : (do return equalsIgnoreCase (← deref (some user)) u : Run Bool).Returns
          (· = false) := first
      refine Prog.returns_bind pass ?_
      rintro found rfl
      exact ih (fun u' hu' => differs u' (List.mem_cons_of_mem u hu'))

theorem returns_isAdmin {config : AdminConfig} {request : AdminRequest}
    (stranger : listed config.pcadminlist request.remoteUser = false) :
    (isAdmin config request).Returns (· = false) := by
  rw [isAdmin]
  split
  · trivial
  · rename_i alist given
    rw [given] at stranger
    exact returns_named stranger

/-- In neither list: not an administrator of that panel. -/
theorem returns_isSubAdmin {alist : Option String} {config : AdminConfig} {request : AdminRequest}
    (stranger : listed config.pcadminlist request.remoteUser = false)
    (unlisted : listed alist request.remoteUser = false) :
    (isSubAdmin alist config request).Returns (· = false) := by
  unfold isSubAdmin
  cases alist with
  | none => exact returns_isAdmin stranger
  | some alist =>
    refine Prog.returns_bind (returns_named unlisted) ?_
    rintro found rfl
    exact returns_isAdmin stranger

theorem run_named {alist user : String} {request : AdminRequest}
    (known : request.remoteUser = some user) (w : World) :
    (named alist request).run w = (.ok (listed (some alist) (some user)), w) := by
  have pass : ∀ u ∈ javaSplit ',' alist,
      (do return equalsIgnoreCase (← deref request.remoteUser) u : Run Bool).run w =
        (.ok (equalsIgnoreCase user u), w) := by
    intro u _
    rw [known]
    rfl
  exact Prog.run_anyM_eq pass

/-- A general administrator is named, and is an administrator of every panel. -/
theorem run_isAdmin {config : AdminConfig} {request : AdminRequest}
    (admin : listed config.pcadminlist request.remoteUser = true) (w : World) :
    (isAdmin config request).run w = (.ok true, w) := by
  obtain ⟨alist, given, found⟩ := (Option.any_eq_true _ _).mp admin
  obtain ⟨user, known, -⟩ := (Option.any_eq_true _ _).mp found
  rw [isAdmin, given]
  dsimp only
  rw [run_named known, ← given, ← known, admin]

theorem run_isSubAdmin (alist : Option String) {config : AdminConfig} {request : AdminRequest}
    (admin : listed config.pcadminlist request.remoteUser = true) (w : World) :
    (isSubAdmin alist config request).run w = (.ok true, w) := by
  obtain ⟨general, -, found⟩ := (Option.any_eq_true _ _).mp admin
  obtain ⟨user, known, -⟩ := (Option.any_eq_true _ _).mp found
  unfold isSubAdmin
  cases alist with
  | none => exact run_isAdmin admin w
  | some alist =>
    dsimp only
    rw [Prog.run_bind_ok (run_named known w)]
    cases listed (some alist) (some user) with
    | false => exact run_isAdmin admin w
    | true => rfl

theorem run_forbidden {p : Parameters} {marker marker' : String} {admin : Run Bool} {w : World}
    (entitled : admin.run w = (.ok true, w)) :
    (forbidden p marker marker' admin).run w = (.ok false, w) := by
  rw [forbidden]
  split
  · rw [Prog.run_bind_ok entitled]
    rfl
  · rfl

theorem run_refusedAC {config : AdminConfig} {request : AdminRequest}
    (admin : listed config.pcadminlist request.remoteUser = true) (w : World) :
    (refusedAC config request).run w = (.ok false, w) := by
  have domainAdmin : (isDARuleAdmin config request).run w = (.ok true, w) := run_isAdmin admin w
  have login : (isLoginRuleAdmin config request).run w = (.ok true, w) := run_isSubAdmin _ admin w
  rw [refusedAC, Prog.run_bind_ok (run_forbidden domainAdmin)]
  exact run_forbidden login

/-! ## Deletion loops -/

theorem getParameter_of_mem {p : Parameters} {name value : String} (mem : (name, value) ∈ p.entries) :
    p.getParameter name = some value := by
  have found : ∀ entries : List (String × String), (entries.map Prod.fst).Nodup →
      (name, value) ∈ entries → entries.find? (fun e => e.1 == name) = some (name, value) := by
    intro entries
    induction entries with
    | nil => simp
    | cons e entries ih =>
      intro distinct mem
      obtain ⟨fresh, distinct⟩ := List.nodup_cons.mp distinct
      rcases List.mem_cons.mp mem with rfl | mem
      · simp
      · have other : e.1 ≠ name := by
          rintro rfl
          exact fresh (List.mem_map.mpr ⟨_, mem, rfl⟩)
        rw [List.find?_cons_of_neg (by simpa using other)]
        exact ih distinct mem
  rw [Parameters.getParameter, found p.entries p.distinct mem]
  rfl

/-- A number as the regular expressions have it. -/
def numeral (num : String) : Bool := num.toList.all Char.isDigit

theorem numberAfter_eq_some {flag t num : String} :
    numberAfter flag t = some num ↔ t = flag ++ num ∧ numeral num = true := by
  have chars : (flag ++ num).toList = flag.toList ++ num.toList := String.toList_append
  rw [numberAfter]
  constructor
  · intro h
    split at h
    · rename_i fits
      obtain ⟨front, digits⟩ := Bool.and_eq_true_iff.mp fits
      obtain ⟨rest, parts⟩ := List.isPrefixOf_iff_prefix.mp front
      have tail : t.toList.drop flag.length = rest := by
        rw [← parts, ← String.length_toList, List.drop_left]
      rw [tail] at h digits
      obtain rfl := Option.some.inj h
      refine ⟨?_, by simpa [numeral] using digits⟩
      apply String.toList_injective
      rw [← parts, String.toList_append, String.toList_ofList]
    · cases h
  · rintro ⟨rfl, digits⟩
    have tail : (flag ++ num).toList.drop flag.length = num.toList := by
      rw [chars, ← String.length_toList, List.drop_left]
    have front : flag.toList.isPrefixOf (flag ++ num).toList = true := by
      rw [List.isPrefixOf_iff_prefix, chars]
      exact List.prefix_append _ _
    rw [numeral] at digits
    rw [tail, front, Bool.true_and, if_pos digits, String.ofList_toList]

/-- No flag begins another one. -/
def Apart (rules : List Deletion) : Prop :=
  (rules.map Deletion.flag).Pairwise (fun f g => ¬ f.toList <+: g.toList ∧ ¬ g.toList <+: f.toList)

theorem not_both {f g : String} {t num num' : String}
    (differ : ¬ f.toList <+: g.toList ∧ ¬ g.toList <+: f.toList)
    (h : numberAfter f t = some num) : numberAfter g t ≠ some num' := by
  intro h'
  have front : f.toList <+: t.toList := by
    rw [(numberAfter_eq_some.mp h).1, String.toList_append]
    exact List.prefix_append _ _
  have front' : g.toList <+: t.toList := by
    rw [(numberAfter_eq_some.mp h').1, String.toList_append]
    exact List.prefix_append _ _
  rcases List.prefix_or_prefix_of_prefix front front' with short | short
  · exact differ.1 short
  · exact differ.2 short

/-- With flags apart the order of the branches does not matter. -/
theorem branch_eq_some {rules : List Deletion} (flags : Apart rules) {e : String × String}
    {d : Deletion} {num : String} :
    branch rules e = some (d, num) ↔
      d ∈ rules ∧ e.2 = d.mark ∧ numberAfter d.flag e.1 = some num := by
  induction rules with
  | nil => simp [branch]
  | cons first rules ih =>
    obtain ⟨differ, flags⟩ := List.pairwise_cons.mp flags
    have later := ih flags
    rw [branch] at later ⊢
    rw [List.findSome?_cons]
    by_cases taken : e.2 = first.mark ∧ ∃ n, numberAfter first.flag e.1 = some n
    · obtain ⟨mark, n, number⟩ := taken
      simp only [if_pos mark, number, Option.map_some, Option.some.injEq, Prod.mk.injEq,
        List.mem_cons]
      constructor
      · rintro ⟨rfl, rfl⟩
        exact ⟨.inl rfl, mark, number⟩
      · rintro ⟨rfl | mem, -, number'⟩
        · exact ⟨rfl, Option.some.inj (number.symm.trans number')⟩
        · exact absurd number' (not_both (differ d.flag (List.mem_map_of_mem mem)) number)
    · have passed : (if e.2 = first.mark then
          (numberAfter first.flag e.1).map (fun num => (first, num)) else none) = none := by
        split
        · rename_i mark
          cases number : numberAfter first.flag e.1 with
          | none => rfl
          | some n => exact absurd ⟨mark, n, number⟩ taken
        · rfl
      rw [passed]
      dsimp only
      rw [later, List.mem_cons]
      constructor
      · rintro ⟨mem, rest⟩
        exact ⟨.inr mem, rest⟩
      · rintro ⟨rfl | mem, mark, number⟩
        · exact absurd ⟨mark, num, number⟩ taken
        · exact ⟨mem, mark, number⟩

/-- The flagged rows of a request: which branch each of them takes, and its number. -/
def marked (rules : List Deletion) (p : Parameters) : List (Deletion × String) :=
  p.entries.filterMap (branch rules)

theorem mem_marked {rules : List Deletion} (flags : Apart rules) {p : Parameters} {d : Deletion}
    {num : String} : (d, num) ∈ marked rules p ↔
      d ∈ rules ∧ (d.flag ++ num, d.mark) ∈ p.entries ∧ numeral num = true := by
  rw [marked, List.mem_filterMap]
  constructor
  · rintro ⟨⟨t, value⟩, mem, chosen⟩
    obtain ⟨rule, rfl, number⟩ := (branch_eq_some flags).mp chosen
    obtain ⟨rfl, digits⟩ := numberAfter_eq_some.mp number
    exact ⟨rule, mem, digits⟩
  · rintro ⟨rule, mem, digits⟩
    refine ⟨_, mem, (branch_eq_some flags).mpr ⟨rule, rfl, ?_⟩⟩
    exact numberAfter_eq_some.mpr ⟨rfl, digits⟩

/-- What a flagged row deletes. -/
def removeMarked (p : Parameters) (db : Database) (m : Deletion × String) : Database :=
  m.1.remove (fun name => p.getParameter (name ++ m.2)) db

theorem mem_of_branch {rules : List Deletion} {e : String × String} {d : Deletion} {num : String}
    (chosen : branch rules e = some (d, num)) : d ∈ rules := by
  obtain ⟨d', mem, found⟩ := List.exists_of_findSome?_eq_some chosen
  split at found
  · obtain ⟨num', -, heq⟩ := Option.map_eq_some_iff.mp found
    cases heq
    exact mem
  · cases found

theorem run_deleteMarked {c : ConsoleCalls} {rules : List Deletion} (p : Parameters)
    (available : ∀ i, c.statement i = false)
    (known : ∀ d ∈ rules, d.table.knows d.columns = true) (w : World) :
    (deleteMarked c rules p).run w =
      (.ok (), { w with db := (marked rules p).foldl (removeMarked p) w.db }) := by
  let pass (w : World) (e : (String × String) × Nat) : World :=
    { w with db := (branch rules e.1).toList.foldl (removeMarked p) w.db }
  have loop : ∀ (entries : List (String × String)) (i : Nat) (w : World),
      (entries.zipIdx i).foldl pass w =
        { w with db := (entries.filterMap (branch rules)).foldl (removeMarked p) w.db } := by
    intro entries
    induction entries with
    | nil => exact fun _ _ => rfl
    | cons e entries ih =>
      intro i w
      rw [List.zipIdx_cons, List.foldl_cons, ih, List.filterMap_cons]
      cases chosen : branch rules e <;> simp [pass, chosen]
  rw [deleteMarked, Prog.run_forM_eq (g := pass), loop]
  · rfl
  · intro e w
    cases chosen : branch rules e.1 with
    | none => simp [pass, chosen]
    | some m => simp [pass, chosen, execute, available, known m.1 (mem_of_branch chosen), removeMarked]

/-! ## What the forms write -/

theorem submitted_present {p : Parameters} {marker : String} (h : submitted p marker = true) :
    present p marker = true := by
  rw [present, beq_iff_eq.mp h]
  rfl

section Footprint

variable {R : World → World → Prop}

theorem steps_insertInto (refl : ∀ w, R w w) (fails : Bool) {write : Database → Option Database}
    (h : ∀ (w : World) db, write w.db = some db → R w { w with db := db }) :
    (insertInto fails write).Steps R := by
  apply Prog.steps_atom
  intro w
  split
  · exact refl w
  · split
    · exact refl w
    · rename_i db written
      exact h w db written

/-- A deletion loop does what its branches do. -/
theorem steps_deleteMarked (refl : ∀ w, R w w) (c : ConsoleCalls) {rules : List Deletion}
    (p : Parameters)
    (h : ∀ d ∈ rules, ∀ field (w : World), R w { w with db := d.remove field w.db }) :
    (deleteMarked c rules p).Steps R := by
  refine Prog.steps_forM (fun e => ?_) _
  split
  · exact Prog.steps_pure _
  · rename_i d num chosen
    refine steps_execute refl _ _ _ (fun w => ?_)
    simpa using h d (mem_of_branch chosen) _ w

theorem steps_connected {c : ConsoleCalls} {form : Run Unit} (h : form.Steps R) :
    (connected c form).Steps R := by
  rw [connected]
  split
  · exact Prog.steps_throwing _
  · exact h

/-- A form behind the `catch` clause that passes exceptions on. -/
theorem steps_updating {c : ConsoleCalls} {form : Run Unit} (h : form.Steps R) (page : Page) :
    (do Prog.tryCatch (connected c form) failedUpdating; return page : Run Page).Steps R :=
  Prog.steps_bind (Prog.steps_tryCatch (steps_connected h) (fun _ => Prog.steps_throwing _))
    (fun _ => Prog.steps_pure _)

end Footprint

/-! ## Domain Admin policy -/

/-- What decides who becomes a Domain Admin and which groups a session account joins. -/
structure Policy where
  users : List AccessUserRow
  groups : List AccessGroupRow
  entitlements : List EntitlementRow
  explicitGroups : List ExplicitGroupRow
  groupGroup : List GroupMapRow
  entitlementGroups : List GroupMapRow
  hostAccessGroup : List HostAccessRow
  hostGateway : List GatewayRow
  deriving DecidableEq, Repr

def policy (w : World) : Policy where
  users := w.db.accessUser.filter (fun r => sqlEq r.type (some "da"))
  groups := w.db.accessGroups.filter (fun r => sqlEq r.type (some "da"))
  entitlements := w.db.entitlements.filter (fun r => sqlEq r.target (some "da"))
  explicitGroups := w.db.explicitGroups
  groupGroup := w.db.groupGroup
  entitlementGroups := w.db.entitlementGroups
  hostAccessGroup := w.db.hostAccessGroup
  hostGateway := w.db.hostGateway

abbrev KeepsPolicy (w w' : World) : Prop := Keeps policy w w'

theorem keepsPolicy_refl (w : World) : KeepsPolicy w w := rfl

/-- An insert into a table with a key: refused, or one more row. -/
theorem steps_insertKeyed (fails : Bool) {key : Option String} {taken : Database → String → Bool}
    {write : String → Database → Database}
    (h : ∀ k (w : World), KeepsPolicy w { w with db := write k w.db }) :
    (insertInto fails (fun db => do
      let k ← key
      if taken db k then none else some (write k db))).Steps KeepsPolicy := by
  refine steps_insertInto keepsPolicy_refl fails ?_
  intro w db written
  cases key with
  | none => cases written
  | some k =>
    change (if taken w.db k then none else some (write k w.db)) = some db at written
    split at written
    · cases written
    · cases written
      exact h k w

theorem steps_parseInt {R : World → World → Prop} (s : Option String) : (parseInt s).Steps R := by
  unfold parseInt
  dsimp only
  split
  · exact Prog.steps_pure _
  · exact Prog.steps_throwing _

theorem steps_posixForms (c : ConsoleCalls) (p : Parameters) :
    (posixForms c p).Steps KeepsPolicy := by
  rw [posixForms]
  split
  · refine steps_deleteMarked keepsPolicy_refl c p ?_
    intro d mem field w
    obtain rfl := List.mem_singleton.mp mem
    rfl
  · split
    · refine Prog.steps_bind (steps_parseInt _) (fun uidnumber => ?_)
      refine Prog.steps_bind (steps_parseInt _) (fun gidnumber => ?_)
      exact steps_insertKeyed _ (fun _ _ => rfl)
    · exact Prog.steps_pure _

theorem steps_insertRow (fails : Bool) {write : Database → Database}
    (h : ∀ w : World, KeepsPolicy w { w with db := write w.db }) :
    (insertInto fails (fun db => some (write db))).Steps KeepsPolicy := by
  refine steps_insertInto keepsPolicy_refl fails ?_
  intro w db written
  cases written
  exact h w

theorem steps_insertHost (c : ConsoleCalls) (p : Parameters)
    {write : HostMapRow → Database → Database}
    (h : ∀ r (w : World), KeepsPolicy w { w with db := write r w.db }) :
    (insertHost c p write).Steps KeepsPolicy := by
  refine Prog.steps_bind (steps_deref _) (fun rhsselector => ?_)
  dsimp only
  split
  · exact steps_insertRow _ (h _)
  · split
    · exact steps_insertRow _ (h _)
    · exact Prog.steps_pure _

theorem steps_addHostMapping (c : ConsoleCalls) (p : Parameters) :
    (addHostMapping c p).Steps KeepsPolicy := by
  refine Prog.steps_bind (steps_deref _) (fun lhsselector => ?_)
  split
  · exact steps_insertHost c p (fun _ _ => rfl)
  · split
    · exact steps_insertHost c p (fun _ _ => rfl)
    · split
      · exact steps_insertHost c p (fun _ _ => rfl)
      · exact Prog.steps_pure _

theorem steps_hostForms (c : ConsoleCalls) (p : Parameters) :
    (hostForms c p).Steps KeepsPolicy := by
  rw [hostForms]
  split
  · refine steps_deleteMarked keepsPolicy_refl c p ?_
    intro d mem field w
    simp only [hostDeletions, List.mem_cons, List.not_mem_nil, or_false] at mem
    rcases mem with rfl | rfl | rfl | rfl | rfl | rfl <;> rfl
  · split
    · exact steps_addHostMapping c p
    · split
      · refine steps_deleteMarked keepsPolicy_refl c p ?_
        intro d mem field w
        obtain rfl := List.mem_singleton.mp mem
        rfl
      · split
        · exact steps_insertRow _ (fun _ => rfl)
        · exact Prog.steps_pure _

/-! ## Login rules beside Domain Admin rules -/

theorem not_da_of_login {t : Option String} (h : sqlEq t (some "proconsul") = true) :
    sqlEq t (some "da") = false := by
  rw [Bool.eq_false_iff]
  intro da
  have both := sqlEq_trans (sqlEq_symm h) da
  revert both
  decide

/-- Deleting login rules leaves the others of the table alone. -/
theorem filter_deleteWhere_login {ρ : Type} (type : ρ → Option String) (sel : ρ → Bool)
    (rows : List ρ) :
    (deleteWhere (fun r => sel r && sqlEq (type r) (some "proconsul")) rows).filter
        (fun r => sqlEq (type r) (some "da")) =
      rows.filter (fun r => sqlEq (type r) (some "da")) := by
  rw [deleteWhere, List.filter_filter]
  refine List.filter_congr (fun r _ => ?_)
  cases hp : sqlEq (type r) (some "proconsul") with
  | false => simp
  | true => simp [not_da_of_login hp]

theorem steps_loginDeletions (c : ConsoleCalls) (p : Parameters) :
    (deleteMarked c loginDeletions p).Steps KeepsPolicy := by
  refine steps_deleteMarked keepsPolicy_refl c p ?_
  intro d mem field w
  simp only [loginDeletions, ruleDeletions, List.mem_cons, List.not_mem_nil, or_false] at mem
  rcases mem with rfl | rfl | rfl
  · simp only [Keeps, policy, filter_deleteWhere_login AccessUserRow.type]
  · simp only [Keeps, policy, filter_deleteWhere_login AccessGroupRow.type]
  · simp only [Keeps, policy, filter_deleteWhere_login EntitlementRow.target]

theorem steps_addLoginRule (c : ConsoleCalls) (p : Parameters) (selector property : String) :
    (addRule c p selector property "proconsul").Steps KeepsPolicy := by
  have login : sqlEq (some "proconsul") (some "da") = false := not_da_of_login (sqlEq_refl _)
  refine Prog.steps_bind (steps_deref _) (fun selectedType => ?_)
  split
  · refine steps_insertRow _ (fun w => ?_)
    simp [Keeps, policy, List.filter_append, login]
  · split
    · refine steps_insertKeyed _ (fun k w => ?_)
      simp [Keeps, policy, List.filter_append, login]
    · split
      · refine steps_insertKeyed _ (fun k w => ?_)
        simp [Keeps, policy, List.filter_append, login]
      · exact Prog.steps_pure _

/-! ## The gates -/

/-- A panel behind a predicate that only reads. -/
theorem steps_gated {R : World → World → Prop} (refl : ∀ w, R w w) {gate : Run Bool}
    {panel refusal : Run Page} (reads : gate.Reads) (hp : panel.Steps R) (hr : refusal.Steps R) :
    (do if ← gate then panel else refusal : Run Page).Steps R := by
  refine Prog.steps_bind (reads.steps refl) (fun admitted => ?_)
  cases admitted with
  | false => exact hr
  | true => exact hp

/-- A panel behind a predicate that is never true. -/
theorem reads_closed {gate : Run Bool} {panel refusal : Run Page} (reads : gate.Reads)
    (closed : gate.Returns (· = false)) (hr : refusal.Reads) :
    (do if ← gate then panel else refusal : Run Page).Reads := by
  refine Prog.steps_bind_returns reads closed ?_
  rintro admitted rfl
  exact hr

theorem reads_forbidden (p : Parameters) (marker marker' : String) {admin : Run Bool}
    (reads : admin.Reads) : (forbidden p marker marker' admin).Reads := by
  rw [forbidden]
  split
  · exact Prog.steps_bind reads (fun _ => Prog.steps_pure _)
  · exact Prog.steps_pure _

/-- A stranger who sends one of the markers is refused. -/
theorem returns_forbidden {p : Parameters} {marker marker' : String} {admin : Run Bool}
    (closed : admin.Returns (· = false)) :
    (forbidden p marker marker' admin).Returns
      (fun refused => refused = false → present p marker = false ∧ present p marker' = false) := by
  rw [forbidden]
  split
  · refine Prog.returns_bind closed ?_
    rintro found rfl
    exact Prog.returns_pure (fun h => by cases h)
  · rename_i absent
    refine Prog.returns_pure (fun _ => ?_)
    simpa using absent

theorem reads_refusedAC (config : AdminConfig) (request : AdminRequest) :
    (refusedAC config request).Reads := by
  refine Prog.steps_bind (reads_forbidden _ _ _ (reads_isAdmin config request)) (fun refused => ?_)
  cases refused with
  | true => exact Prog.steps_pure _
  | false => exact reads_forbidden _ _ _ (reads_isSubAdmin _ config request)

/-- Past the gate of the access panel: no Domain Admin marker for a sub-administrator, and no
marker at all for a requester in neither list. -/
theorem returns_refusedAC {config : AdminConfig} {request : AdminRequest}
    (stranger : listed config.pcadminlist request.remoteUser = false) :
    (refusedAC config request).Returns (fun refused => refused = false →
      (present request.parameters "daaformsubmitted" = false ∧
        present request.parameters "adddaformsubmitted" = false) ∧
      (listed config.loginadmins request.remoteUser = false →
        present request.parameters "addformsubmitted" = false ∧
          present request.parameters "accessformsubmitted" = false)) := by
  refine Prog.returns_bind (returns_forbidden (returns_isAdmin stranger)) (fun refused absent => ?_)
  cases refused with
  | true => exact Prog.returns_pure (fun h => by cases h)
  | false =>
    by_cases login : listed config.loginadmins request.remoteUser = false
    · refine (returns_forbidden (returns_isSubAdmin stranger login)).mono ?_
      intro second absent' admitted
      exact ⟨absent rfl, fun _ => absent' admitted⟩
    · refine (Prog.returns_any _).mono ?_
      intro second _ _
      exact ⟨absent rfl, fun h => absurd h login⟩

/-- Without its marker a form is not performed. -/
theorem not_submitted {p : Parameters} {marker : String} (h : present p marker = false) :
    submitted p marker = false := by
  rw [Bool.eq_false_iff]
  intro hs
  rw [submitted_present hs] at h
  cases h

theorem steps_accessForms {c : ConsoleCalls} {p : Parameters}
    (delete : present p "daaformsubmitted" = false) (add : present p "adddaformsubmitted" = false) :
    (accessForms c p).Steps KeepsPolicy := by
  rw [accessForms, not_submitted delete, not_submitted add]
  simp only [Bool.false_eq_true, if_false]
  split
  · exact steps_addLoginRule c p _ _
  · split
    · exact steps_loginDeletions c p
    · exact Prog.steps_pure _

theorem reads_accessForms {c : ConsoleCalls} {p : Parameters}
    (delete : present p "daaformsubmitted" = false) (add : present p "adddaformsubmitted" = false)
    (addLogin : present p "addformsubmitted" = false)
    (deleteLogin : present p "accessformsubmitted" = false) : (accessForms c p).Reads := by
  rw [accessForms, not_submitted delete, not_submitted add, not_submitted addLogin,
    not_submitted deleteLogin]
  exact Prog.steps_pure _

/-- A requester outside `pcadminlist` leaves the Domain Admin policy alone. -/
theorem steps_post {config : AdminConfig} {request : AdminRequest} (c : ConsoleCalls)
    (stranger : listed config.pcadminlist request.remoteUser = false) (panel : Panel) :
    (post config c request panel).Steps KeepsPolicy := by
  have closed : ∀ panel refusal : Run Page, refusal.Reads →
      (do if ← isAdmin config request then panel else refusal : Run Page).Steps KeepsPolicy := by
    intro panel refusal hr
    exact (reads_closed (reads_isAdmin config request) (returns_isAdmin stranger) hr).steps
      keepsPolicy_refl
  cases panel with
  | hostAndGatewayDetails => exact closed _ _ (Prog.steps_pure _)
  | windowsUsers => exact closed _ _ (Prog.steps_pure _)
  | posixUsers =>
    refine steps_gated keepsPolicy_refl (reads_isSubAdmin _ config request) ?_ (Prog.steps_pure _)
    refine Prog.steps_tryCatch (Prog.steps_bind ?_ (fun _ => Prog.steps_pure _))
      (fun _ => Prog.steps_pure _)
    exact steps_connected (steps_posixForms c _)
  | hostMgt =>
    refine steps_gated keepsPolicy_refl (reads_isSubAdmin _ config request) ?_ (Prog.steps_pure _)
    exact steps_updating (steps_hostForms c _) _
  | accessControl =>
    refine Prog.steps_bind_returns ((reads_refusedAC config request).steps keepsPolicy_refl)
      (returns_refusedAC stranger) (fun refused admitted => ?_)
    cases refused with
    | true => exact Prog.steps_pure _
    | false =>
      obtain ⟨⟨delete, add⟩, -⟩ := admitted rfl
      exact steps_updating (steps_accessForms delete add) _

/-- A requester outside all four lists changes nothing. -/
theorem reads_post {config : AdminConfig} {request : AdminRequest} (c : ConsoleCalls)
    (stranger : listed config.pcadminlist request.remoteUser = false)
    (login : listed config.loginadmins request.remoteUser = false)
    (target : listed config.targetsystemadmins request.remoteUser = false)
    (posix : listed config.posixadmins request.remoteUser = false) (panel : Panel) :
    (post config c request panel).Reads := by
  cases panel with
  | hostAndGatewayDetails =>
    exact reads_closed (reads_isAdmin config request) (returns_isAdmin stranger) (Prog.steps_pure _)
  | windowsUsers =>
    exact reads_closed (reads_isAdmin config request) (returns_isAdmin stranger) (Prog.steps_pure _)
  | posixUsers =>
    exact reads_closed (reads_isSubAdmin _ config request) (returns_isSubAdmin stranger posix)
      (Prog.steps_pure _)
  | hostMgt =>
    exact reads_closed (reads_isSubAdmin _ config request) (returns_isSubAdmin stranger target)
      (Prog.steps_pure _)
  | accessControl =>
    refine Prog.steps_bind_returns (reads_refusedAC config request) (returns_refusedAC stranger)
      (fun refused admitted => ?_)
    cases refused with
    | true => exact Prog.steps_pure _
    | false =>
      obtain ⟨⟨delete, add⟩, strangers⟩ := admitted rfl
      obtain ⟨addLogin, deleteLogin⟩ := strangers login
      exact steps_updating (reads_accessForms delete add addLogin deleteLogin) _

/-- Sub-administrators cannot reach the Domain Admin policy, and strangers reach nothing. -/
theorem subadmins_leave_domain_admin_policy (config : AdminConfig) (c : ConsoleCalls)
    (request : AdminRequest) (panel : Panel) (w : World)
    (stranger : listed config.pcadminlist request.remoteUser = false) :
    policy ((post config c request panel).run w).2 = policy w ∧
      (listed config.loginadmins request.remoteUser = false →
        listed config.targetsystemadmins request.remoteUser = false →
        listed config.posixadmins request.remoteUser = false →
        ((post config c request panel).run w).2 = w) := by
  constructor
  · exact keeps_run (steps_post c stranger panel) w
  · intro login target posix
    exact Prog.run_unchanged (reads_post c stranger login target posix panel) w

def loginAdmin : AdminConfig := ⟨some "root@x", some "Lena@x,otto@x", none, none⟩

/-- A login administrator adds a login rule and sends a Domain Admin deletion flag with it. -/
def mixedForm : AdminRequest where
  remoteUser := some "lena@x"
  parameters := ⟨[("addformsubmitted", "1"), ("typeselector", "eppn"), ("userproperty", "eve@x"),
    ("deldauser0", "1"), ("dauser0", "root@x")], by decide⟩

def ruled : World :=
  { World.empty with db := { Database.empty with accessUser := [⟨some "root@x", some "da"⟩] } }

theorem login_admin_leaves_da_rule :
    ((post loginAdmin .noOutage mixedForm .accessControl).run ruled).2.db.accessUser =
        [⟨some "root@x", some "da"⟩, ⟨some "eve@x", some "proconsul"⟩] ∧
      policy ((post loginAdmin .noOutage mixedForm .accessControl).run ruled).2 = policy ruled :=
  ⟨by decide +kernel,
    (subadmins_leave_domain_admin_policy loginAdmin .noOutage mixedForm .accessControl ruled
      (by decide +kernel)).1⟩

end AdminConsole
