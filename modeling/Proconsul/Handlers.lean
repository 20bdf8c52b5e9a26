import Proconsul.Access
import Proconsul.Sessions

/-!
# The five session handlers

`/usersession`, `/staticsession`, `/domainadmin`, `/deladmin` and `/reconnect`
as programs over the surroundings. Each handler first passes its gates, in the
order of the source; a gate either answers with an error page or lets the
request through. The character classes of the source are kept as written:
`A-z` in a class also admits the six characters between `Z` and `a`.
-/

namespace Handlers

open Program Schema Text Surroundings Access Hosts Accounts Sessions

/-! ## Requests -/

/-- What the handlers read of an `HttpServletRequest`. -/
structure Request where
  remoteUser : Option String
  isMemberOf : Option String
  entitlement : Option String
  remoteAddr : Option String
  serverName : String
  origin : Option String
  referrer : Option String
  sessionId : String
  resolution : Option String
  daresolution : Option String
  rresolution : Option String
  rdaresolution : Option String
  deriving DecidableEq, Repr

def Request.authUser (req : Request) : AuthUser where
  uid := req.remoteUser
  memberships := (req.isMemberOf.map (javaSplit ';')).getD []
  entitlements := (req.entitlement.map (javaSplit ';')).getD []

/-- A request of the user `pat` in servlet session `S1`, for concrete runs. -/
def sampleRequest : Request where
  remoteUser := some "pat@dom.ain"
  isMemberOf := none
  entitlement := none
  remoteAddr := some "10.0.0.7"
  serverName := "pc.dom.ain"
  origin := none
  referrer := none
  sessionId := "S1"
  resolution := none
  daresolution := none
  rresolution := none
  rdaresolution := none

structure UserSessionRequest where
  targetFQDN : Option String
  displayName : Option String
  csrfToken : Option String
  deriving DecidableEq, Repr

structure StaticUserSessionRequest where
  targetFQDN : Option String
  displayName : Option String
  csrfToken : Option String
  deriving DecidableEq, Repr

structure DomainAdminRequest where
  targetFQDN : Option String
  displayName : Option String
  csrfToken : Option String
  deriving DecidableEq, Repr

structure DelegatedAdminRequest where
  hostName : Option String
  orgUnit : Option String
  roleGroup : Option String
  displayName : Option String
  csrfToken : Option String
  deriving DecidableEq, Repr

structure ReconnectRequest where
  targetFQDN : Option String
  requestType : Option String
  csrfToken : Option String
  deriving DecidableEq, Repr

/-! ## Character classes -/

/-- `[A-Za-z0-9._-]`. -/
def hostChar (c : Char) : Bool := c.isAlphanum || c == '.' || c == '_' || c == '-'

/-- `A-z`. -/
def looseLetter (c : Char) : Bool := 65 ≤ c.toNat && c.toNat ≤ 122

/-- `[A-za-z0-9._-]`. -/
def looseHostChar (c : Char) : Bool :=
  looseLetter c || c.isDigit || c == '.' || c == '_' || c == '-'

/-- `[A-za-z0-9:,_@?! -]`. -/
def displayChar (c : Char) : Bool :=
  looseLetter c || c.isDigit || [':', ',', '_', '@', '?', '!', ' ', '-'].contains c

/-! ## Cross-site request checks -/

/-- `replaceAll("^.*//", "")`: what follows the last double slash. -/
def afterLastSlashes (cs : List Char) : List Char :=
  ((cs.tails.filter (fun t => ['/', '/'].isPrefixOf t)).getLast?.map (List.drop 2)).getD cs

def originHost (header : String) : String :=
  String.ofList ((afterLastSlashes header.toList).takeWhile (fun c => c != ':' && c != '/'))

def checkOrigin (req : Request) : Bool :=
  match req.origin.or req.referrer with
  | none => true
  | some header => equalsIgnoreCase req.serverName (originHost header)

structure TokenCalls where
  select : Bool
  write : Bool
  uuid : String
  now : Int

def TokenCalls.noOutage : TokenCalls := ⟨false, false, "", 0⟩

/-- A failing write does not take back the token already chosen. -/
def getSessionCSRFToken (c : TokenCalls) (req : Request) : Run (Option String) := do
  match ← Prog.attempt (query c.select .csrfTokens ["sessionId"] (fun db =>
      (db.csrfTokens.filter (fun r => sqlEq r.sessionId (some req.sessionId))).head?)) with
  | none => return none
  | some (some row) =>
    let _ ← Prog.attempt (execute c.write .csrfTokens ["lastused", "sessionId"] (fun db =>
      let used := updateWhere (fun r => sqlEq r.sessionId (some req.sessionId))
        (fun r => { r with lastused := c.now }) db.csrfTokens
      ({ db with csrfTokens := used }, [])))
    return row.csrfToken
  | some none =>
    let _ ← Prog.attempt (execute c.write .csrfTokens [] (fun db =>
      ({ db with csrfTokens := db.csrfTokens ++ [⟨some req.sessionId, some c.uuid, c.now⟩] }, [])))
    return some c.uuid

/-- The texts of the three refusals differ from handler to handler. -/
structure CsrfMessages where
  origin : String
  mismatch : String
  missing : String

/-! ## Gates -/

/-- `none` lets the request through. -/
abbrev Gate : Type := Run (Option Page)

def refuseUnless (check : Run Bool) (message : String) : Gate := do
  if ← check then return none else return some (.authzError message)

def csrfGate (c : TokenCalls) (req : Request) (token : Option String) (m : CsrfMessages) : Gate :=
  if checkOrigin req then
    match token with
    | none => pure (some (.authzError m.missing))
    | some token => do
      if (← getSessionCSRFToken c req) = some token then return none
      else return some (.authzError m.mismatch)
  else pure (some (.authzError m.origin))

/-- The first refusal of a sequence of gates. -/
def inOrder : List Gate → Gate
  | [] => pure none
  | g :: rest => do
    match ← g with
    | some page => return some page
    | none => inOrder rest

def appMessage (au : AuthUser) : String :=
  "You (" ++ javaString au.uid ++ ") are not authorized to use this application"

/-- Pass the gate, create an account and go on with it. Creation that fails
answers null, which is only noticed when the object is used. -/
def withAccount (cfg : Config) (c : CreateCalls) (au : Option AuthUser) (gate : Gate)
    (body : ADUser → Run Page) : Run Page := do
  match ← gate with
  | some page => return page
  | none =>
    let targetUser ← deref (← createRandomizedADUser cfg c au)
    body targetUser

/-! ## `/usersession` -/

structure UserHostCalls where
  explicit : HostCalls
  group : Nat → HostCalls

/-- Explicitly mapped, or mapped to one of the user's groups. -/
def userHostAllowed (c : UserHostCalls) (au : AuthUser) (target : Option String) : Run Bool := do
  let hosts ← fqdnsForEppn c.explicit au.uid
  if target.any hosts.contains then return true
  else au.memberships.zipIdx.anyM (fun g => do
    let hosts ← fqdnsForGroupUrn (c.group g.2) g.1
    return target.any hosts.contains)

/-- The empty user id is exempt. The refusal prints the name it refuses. -/
def userHostGate (c : UserHostCalls) (au : AuthUser) (target : Option String) : Gate :=
  match au.uid with
  | none => pure (some (.authzError "Anonymous access is not allowed"))
  | some uid =>
    if uid = "" then pure none
    else do
      if ← userHostAllowed c au target then return none
      else
        let name ← deref target
        return some (.authzError ("You (" ++ uid ++ ") are not authorized to use " ++
          keepOnly hostChar name))

def userCsrf : CsrfMessages where
  origin := "CSRF origin violation -- your browser is not authorized for this operation."
  mismatch := "CSRF token violation -- your browser is not authorized for this operation."
  missing := "CSRF token violation - your browser did not provide the required token for this operation."

structure UserGroupCalls where
  default : GroupCalls
  host : HostGroupCalls
  explicit : Bool
  group : Nat → GroupCalls
  gateway : GatewayGroupCalls

/-- Default group, host access group, explicitly mapped groups, gateway group. -/
def userGroups (cfg : Config) (c : UserGroupCalls) (au : AuthUser) (target : Option String)
    (u : ADUser) (addr : Option String) : Run (Option ADUser) := do
  let u ← addGroupToADUser cfg c.default (some cfg.defgroupdn) (some u) (some au) addr
  let u ← addHostAccessGroup cfg c.host u target
  let dns ← groupDnsForEppn c.explicit au.uid
  let u ← dns.zipIdx.foldlM (fun u dn => addGroupToADUser cfg (c.group dn.2) dn.1 u (some au) addr) u
  addGatewayAccessGroup cfg c.gateway u target

structure FinishCalls where
  write : WriteCalls
  launch : LaunchCalls

/-- The session takes the user with its groups, is written again and started. -/
def finishSession (cfg : Config) (c : FinishCalls) (size : Image) (s : ProconsulSession)
    (u : Option ADUser) (addr : Option String) : Run Page := do
  let u ← deref u
  let s := { s with targetUser := u }
  writeSessionToDB c.write s addr
  launch cfg c.launch size s addr

structure UserCalls where
  app : AccessCalls
  hosts : UserHostCalls
  token : TokenCalls
  vncPassword : String
  create : CreateCalls
  opening : OpenCalls
  groups : UserGroupCalls
  finish : FinishCalls

def UserCalls.noOutage (name password vncPassword : String)
    (drawn : plainName name = true := by exact plainName_pats) : UserCalls where
  app := .noOutage
  hosts := ⟨.noOutage, fun _ => .noOutage⟩
  token := .noOutage
  vncPassword := vncPassword
  create := .noOutage name password drawn
  opening := .noOutage
  groups := ⟨.noOutage, .noOutage, false, fun _ => .noOutage, .noOutage⟩
  finish := ⟨.noOutage, .noOutage⟩

/-- Pat may log in and is mapped to one host; her servlet session has a token. -/
def sampleSite : World :=
  { World.empty with
    db := { Database.empty with
      accessUser := [⟨some "pat@dom.ain", some "proconsul"⟩]
      csrfTokens := [⟨some "S1", some "T1", 0⟩]
      explicitHosts := [⟨some "pat@dom.ain", some "host1.dom.ain", none⟩] } }

def sampleForm : UserSessionRequest := ⟨some "host1.dom.ain", some "host1", some "T1"⟩

def userGates (c : UserCalls) (req : Request) (form : UserSessionRequest) :
    List Gate :=
  [refuseUnless (canUseApp c.app req.authUser) (appMessage req.authUser ++ "."),
   userHostGate c.hosts req.authUser form.targetFQDN,
   csrfGate c.token req form.csrfToken userCsrf]

def userGate (c : UserCalls) (req : Request) (form : UserSessionRequest) : Gate :=
  inOrder (userGates c req form)

def largeOr (resolution : Option String) : Image :=
  if resolution = some "large" then .large else .default

def userSession (cfg : Config) (c : UserCalls) (req : Request) (form : UserSessionRequest)
    (targetUser : ADUser) : Run Page := do
  let au := req.authUser
  let displayName ← deref form.displayName
  let targetFQDN ← deref form.targetFQDN
  let s := newSession au (some (keepOnly looseHostChar targetFQDN)) c.vncPassword targetUser
    (keepOnly displayChar displayName) "user" none none
  let s ← openSession c.opening s req.remoteAddr
  let u ← userGroups cfg c.groups au form.targetFQDN targetUser req.remoteAddr
  finishSession cfg c.finish (largeOr req.resolution) s u req.remoteAddr

def handleUserSessionPost (cfg : Config) (c : UserCalls) (req : Request)
    (form : UserSessionRequest) : Run Page :=
  withAccount cfg c.create (some req.authUser) (userGate c req form) (userSession cfg c req form)

/-! ## `/staticsession` -/

structure StaticCalls where
  app : AccessCalls
  hosts : Bool
  token : TokenCalls
  vncPassword : String
  mapping : Bool
  password : PasswordCalls
  opening : OpenCalls
  launch : LaunchCalls

def staticCsrf : CsrfMessages where
  origin := "CSRF origin violation -- your browser is not authorized for this operation."
  mismatch := "CSRF token violation -- your browser is not auhtorized for this operation."
  missing := "CSRF token violation -- your browser did not provide the required token for this operation."

def staticHostAllowed (fails : Bool) (au : AuthUser) (target : Option String) : Run Bool :=
  match au.uid with
  | none => pure false
  | some uid =>
    if uid = "" then pure true
    else do
      let hosts ← fqdnsForStatic fails (some uid)
      return target.any hosts.contains

def staticGates (c : StaticCalls) (req : Request) (form : StaticUserSessionRequest) :
    List Gate :=
  [refuseUnless (canUseApp c.app req.authUser) (appMessage req.authUser ++ "."),
   refuseUnless (staticHostAllowed c.hosts req.authUser form.targetFQDN)
     ("Access to " ++ javaString form.targetFQDN ++ " by " ++ javaString req.authUser.uid ++
       " is forbidden."),
   csrfGate c.token req form.csrfToken staticCsrf]

def staticGate (c : StaticCalls) (req : Request) (form : StaticUserSessionRequest) : Gate :=
  inOrder (staticGates c req form)

def staticSize (resolution : Option String) : Image :=
  if resolution = some "large" then .large
  else if resolution = some "vnclarge" then .vncLarge
  else if resolution = some "vncdefault" then .vncDefault
  else .default

def staticSession (cfg : Config) (c : StaticCalls) (req : Request)
    (form : StaticUserSessionRequest) (targetUser : ADUser) : Run Page := do
  let displayName ← deref form.displayName
  let targetFQDN ← deref form.targetFQDN
  let s := newSession req.authUser (some (keepOnly looseHostChar targetFQDN)) c.vncPassword
    targetUser (keepOnly displayChar displayName) "static" none none
  let s ← openSession c.opening s req.remoteAddr
  launch cfg c.launch (staticSize req.resolution) s req.remoteAddr

def handleStaticSessionPost (cfg : Config) (c : StaticCalls) (req : Request)
    (form : StaticUserSessionRequest) : Run Page := do
  match ← staticGate c req form with
  | some page => return page
  | none =>
    let targetUser ← getStaticADUser cfg c.mapping c.password req.authUser form.targetFQDN
    staticSession cfg c req form targetUser

/-! ## `/domainadmin` -/

structure DomainCalls where
  app : AccessCalls
  da : AccessCalls
  token : TokenCalls
  hosts : Bool
  vncPassword : String
  create : CreateCalls
  opening : OpenCalls
  register : AdminCalls
  group : GroupCalls
  undo : DeleteCalls
  gateway : GatewayGroupCalls
  finish : FinishCalls

def domainCsrf : CsrfMessages where
  origin := "CSRF origin violation -- your browser is not authorized for this operation."
  mismatch := "CSRF token violation -- your browser is not authorized for this operation"
  missing := "CSRF token violation -- your browser did not present the required token for this operation"

def domainGates (c : DomainCalls) (req : Request) (form : DomainAdminRequest) (host : String) :
    List Gate :=
  [refuseUnless (canUseApp c.app req.authUser) (appMessage req.authUser),
   refuseUnless (canUseDA c.da req.authUser)
     "You are not a domain admin -- this will be reported",
   csrfGate c.token req form.csrfToken domainCsrf,
   refuseUnless (do return (← getDomainAdminFQDNs c.hosts).contains (some host))
     "You may only access hosts authorized by the system for domain admin access with this feature -- access denied"]

def domainGate (c : DomainCalls) (req : Request) (form : DomainAdminRequest) (host : String) :
    Gate :=
  inOrder (domainGates c req form host)

def daUnavailable : Page :=
  .authzError "Unable to update authorization to allow DA access - try again later"

/-- Registration comes before membership; if either fails the account is deleted again. -/
def domainGroups (cfg : Config) (c : DomainCalls) (au : AuthUser) (host : String) (u : ADUser)
    (addr : Option String) : Run (Page ⊕ Option ADUser) := do
  if ← makeUserAuthorizedDA c.register u (some au) addr then
    match ← addGroupToADUser cfg c.group (some cfg.dagroup) (some u) (some au) addr with
    | none =>
      let _ ← deleteAdUser cfg c.undo u (some au) addr
      return .inl daUnavailable
    | some updated =>
      return .inr (← addGatewayAccessGroup cfg c.gateway (some updated) (some host))
  else
    let _ ← deleteAdUser cfg c.undo u (some au) addr
    return .inl daUnavailable

def domainSession (cfg : Config) (c : DomainCalls) (req : Request) (host displayName : String)
    (targetUser : ADUser) : Run Page := do
  let au := req.authUser
  let s := newSession au (some host) c.vncPassword targetUser displayName "domain" none none
  let s ← openSession c.opening s req.remoteAddr
  match ← domainGroups cfg c au host targetUser req.remoteAddr with
  | .inl page => return page
  | .inr u => finishSession cfg c.finish (largeOr req.daresolution) s u req.remoteAddr

def handleDomainAdminPost (cfg : Config) (c : DomainCalls) (req : Request)
    (form : DomainAdminRequest) : Run Page := do
  let host := keepOnly hostChar (← deref form.targetFQDN)
  let displayName := keepOnly displayChar (← deref form.displayName)
  withAccount cfg c.create (some req.authUser) (domainGate c req form host)
    (domainSession cfg c req host displayName)

/-! ## `/deladmin` -/

structure DelegatedCalls where
  app : AccessCalls
  admin : DelegateCalls
  ous : Nat → Bool
  ouGroups : Nat → Bool
  token : TokenCalls
  vncPassword : String
  create : CreateCalls
  opening : OpenCalls
  default : GroupCalls
  host : HostGroupCalls
  findOu : Bool
  walk : Nat → Bool
  managing : GroupCalls
  role : GroupCalls
  undo : DeleteCalls
  gateway : GatewayGroupCalls
  finish : FinishCalls

def DelegatedCalls.noOutage (name password vncPassword : String)
    (drawn : plainName name = true := by exact plainName_pats) : DelegatedCalls where
  app := .noOutage
  admin := .noOutage
  ous := fun _ => false
  ouGroups := fun _ => false
  token := .noOutage
  vncPassword := vncPassword
  create := .noOutage name password drawn
  opening := .noOutage
  default := .noOutage
  host := .noOutage
  findOu := false
  walk := fun _ => false
  managing := .noOutage
  role := .noOutage
  undo := .noOutage
  gateway := .noOutage
  finish := ⟨.noOutage, .noOutage⟩

def delegatedCsrf : CsrfMessages where
  origin := "CSRF origin violation -- your browser is not authorized for this operation."
  mismatch := "CSRF token violation -- your browser is not authorized for this operation."
  missing := "CSRF token violation - your browesr did not provide the required token for this operation"

/-- Without any delegated OU the list is null, and iterating over it raises. -/
def roleGroupAllowed (c : DelegatedCalls) (au : AuthUser) (roleGroup : Option String) :
    Run Bool := do
  let allowable ← deref (← groupDNsForDelegate c.ous c.ouGroups au)
  return allowable.any (fun allowed =>
    roleGroup.all (fun role => allowed.any (fun a => equalsIgnoreCase role a)))

def delegatedGates (c : DelegatedCalls) (req : Request) (form : DelegatedAdminRequest)
    (host : String) :
    List Gate :=
  [refuseUnless (canUseApp c.app req.authUser) (appMessage req.authUser),
   refuseUnless (canAdminFQDN c.admin req.authUser host)
     "You are not auhtorized to administer systems and data in this OU -- this will be reported",
   refuseUnless (roleGroupAllowed c req.authUser form.roleGroup)
     ("You are not authorized to claim the role group " ++ javaString form.roleGroup ++
       " -- this will be reported"),
   csrfGate c.token req form.csrfToken delegatedCsrf]

def delegatedGate (c : DelegatedCalls) (req : Request) (form : DelegatedAdminRequest)
    (host : String) : Gate :=
  inOrder (delegatedGates c req form host)

/-- One group of the chain; a null user means the add failed. -/
def orUndo (cfg : Config) (c : DeleteCalls) (au : AuthUser) (addr : Option String) (before : ADUser)
    (message : String) (add : Run (Option ADUser)) (next : ADUser → Run (Page ⊕ Option ADUser)) :
    Run (Page ⊕ Option ADUser) := do
  match ← add with
  | none =>
    let _ ← deleteAdUser cfg c before (some au) addr
    return .inl (.authzError message)
  | some u => next u

/-- Default group, host access group, the group managing the host's OU, the
requested role group and the gateway group. -/
def delegatedGroups (cfg : Config) (c : DelegatedCalls) (au : AuthUser) (host : String)
    (roleGroup : Option String) (u : ADUser) (addr : Option String) :
    Run (Page ⊕ Option ADUser) := do
  let defaulted ← addGroupToADUser cfg c.default (some cfg.defgroupdn) (some u) (some au) addr
  orUndo cfg c.undo au addr u
    "Unable to add group membership for RDP access -- try again later"
    (addHostAccessGroup cfg c.host defaulted (some host)) (fun updated =>
  orUndo cfg c.undo au addr updated
    "Unable to add group membership for delegated admin -- try again later"
    (do
      let managing ← groupDnForFQDN c.findOu c.walk (some host)
      addGroupToADUser cfg c.managing managing (some updated) (some au) addr) (fun updated2 =>
  orUndo cfg c.undo au addr updated2
    "Unable to add requested group membership for delegated admin -- try gain later"
    (addGroupToADUser cfg c.role roleGroup (some updated2) (some au) addr) (fun updated3 => do
  return .inr (← addGatewayAccessGroup cfg c.gateway (some updated3) (some host)))))

def delegatedSession (cfg : Config) (c : DelegatedCalls) (req : Request)
    (form : DelegatedAdminRequest) (host displayName : String) (targetUser : ADUser) :
    Run Page := do
  let au := req.authUser
  let s := newSession au (some host) c.vncPassword targetUser displayName "delegated"
    form.orgUnit form.roleGroup
  let s ← openSession c.opening s req.remoteAddr
  match ← delegatedGroups cfg c au host form.roleGroup targetUser req.remoteAddr with
  | .inl page => return page
  | .inr u => finishSession cfg c.finish .default s u req.remoteAddr

def handleDelegatedAdminPost (cfg : Config) (c : DelegatedCalls) (req : Request)
    (form : DelegatedAdminRequest) : Run Page := do
  let host := keepOnly hostChar (← deref form.hostName)
  let displayName := keepOnly displayChar (← deref form.displayName)
  withAccount cfg c.create (some req.authUser) (delegatedGate c req form host)
    (delegatedSession cfg c req form host displayName)

/-! ## `/reconnect` -/

structure ReconnectCalls where
  app : AccessCalls
  token : TokenCalls
  sessions : SessionCalls
  port : PortCalls
  startTime : String
  password : PasswordCalls
  vncPassword : String
  write : WriteCalls
  launch : LaunchCalls

def ReconnectCalls.noOutage (password vncPassword : String) : ReconnectCalls where
  app := .noOutage
  token := .noOutage
  sessions := .noOutage
  port := .noOutage
  startTime := "2024-01-01 00:00:00"
  password := .noOutage password
  vncPassword := vncPassword
  write := .noOutage
  launch := .noOutage

/-- Pat comes back to the host of `sampleForm`. -/
def sampleReconnect : ReconnectRequest := ⟨some "host1.dom.ain", none, some "T1"⟩

def reconnectCsrf : CsrfMessages where
  origin := "CSRF origin violation -- your browser is not authorized for this operation."
  mismatch := "CSRF token violation -- your browser is not authorized for this operation."
  missing := "CSRF token violation -- your browser did not send the proper token to authorize this operation."

def targetGate (form : ReconnectRequest) : Gate :=
  if given form.targetFQDN = none then pure (some (.authzError "No target system specified."))
  else if form.requestType.any (fun t => equalsIgnoreCase t "terminate") then
    pure (some (.authzError "Termination of disconnected sessions is not supported at this time -- try reconnecting and logging out to terminate the session."))
  else pure none

def reconnectGates (c : ReconnectCalls) (req : Request) (form : ReconnectRequest) :
    List Gate :=
  [targetGate form,
   refuseUnless (canUseApp c.app req.authUser) (appMessage req.authUser ++ "."),
   csrfGate c.token req form.csrfToken reconnectCsrf]

def reconnectGate (c : ReconnectCalls) (req : Request) (form : ReconnectRequest) : Gate :=
  inOrder (reconnectGates c req form)

def matchesRequest (au : AuthUser) (target : Option String) (s : ProconsulSession) : Bool :=
  s.owner.uid.any (fun o => au.uid.any (equalsIgnoreCase o)) &&
    s.fqdn.any (fun f => target.any (equalsIgnoreCase f))

/-- The last session on the requested host wins. -/
def chooseSession (au : AuthUser) (target : Option String) (psa : List ProconsulSession) :
    Option ProconsulSession :=
  (psa.filter (matchesRequest au target)).getLast?

def reconnectSize (req : Request) : Image :=
  if req.rresolution = some "large" ∨ req.rdaresolution = some "large" then .large else .default

/-- A new port, a new password for the account and a new container for a stored session. -/
def resume (cfg : Config) (c : ReconnectCalls) (size : Image) (s : ProconsulSession)
    (addr : Option String) : Run Page := do
  let port ← getVncPortNumber c.port s
  let s := { s with novncPort := port, status := .starting, startTime := some c.startTime }
  let u ← setRandomADPassword cfg c.password s.targetUser
  let s := { s with targetUser := u, vncPassword := some c.vncPassword }
  writeSessionToDB c.write s addr
  launch cfg c.launch size s addr

def handleReconnectPost (cfg : Config) (c : ReconnectCalls) (req : Request)
    (form : ReconnectRequest) : Run Page := do
  let au := req.authUser
  match ← reconnectGate c req form with
  | some page => return page
  | none =>
    let psa ← getAvailableSessions cfg c.sessions au
    match chooseSession au form.targetFQDN psa with
    | none => return .authzError "Your request cannot be processed -- either the session you are attempting to reconnect to does not exist or you are not authorized to it."
    | some s => resume cfg c (reconnectSize req) s req.remoteAddr

/-! ## Gates write nothing but tokens -/

theorem onlyTokens_of_reads {α : Type} {p : Run α} (hp : p.Reads) : p.Steps OnlyTokens :=
  hp.steps OnlyTokens.refl

theorem onlyTokens_run {α : Type} {p : Run α} (hp : p.Steps OnlyTokens) (w : World) :
    OnlyTokens w (p.run w).2 :=
  Prog.run_related OnlyTokens.refl (fun _ _ _ h h' => h.trans h') hp w

theorem onlyTokens_refuseUnless {check : Run Bool} (h : check.Reads) (message : String) :
    (refuseUnless check message).Steps OnlyTokens := by
  refine Prog.steps_bind (onlyTokens_of_reads h) (fun b => ?_)
  cases b <;> exact Prog.steps_pure _

theorem onlyTokens_getSessionCSRFToken (c : TokenCalls) (req : Request) :
    (getSessionCSRFToken c req).Steps OnlyTokens := by
  refine Prog.steps_bind (Prog.steps_attempt (onlyTokens_of_reads (reads_query _ _ _ _))) ?_
  rintro (_ | _ | row)
  · exact Prog.steps_pure _
  all_goals
    refine Prog.steps_bind (Prog.steps_attempt (steps_execute OnlyTokens.refl _ _ _ ?_))
      (fun _ => Prog.steps_pure _)
    intro w
    simp only [List.append_nil]
    exact ⟨_, rfl⟩

theorem onlyTokens_csrfGate (c : TokenCalls) (req : Request) (token : Option String)
    (m : CsrfMessages) : (csrfGate c req token m).Steps OnlyTokens := by
  unfold csrfGate
  split
  · cases token with
    | none => exact Prog.steps_pure _
    | some token =>
      refine Prog.steps_bind (onlyTokens_getSessionCSRFToken c req) (fun t => ?_)
      split <;> exact Prog.steps_pure _
  · exact Prog.steps_pure _

theorem steps_inOrder {R : World → World → Prop} {gs : List Gate} (h : ∀ g ∈ gs, g.Steps R) :
    (inOrder gs).Steps R := by
  induction gs with
  | nil => exact Prog.steps_pure _
  | cons g gs ih =>
    refine Prog.steps_bind (h g List.mem_cons_self) (fun page => ?_)
    cases page with
    | some page => exact Prog.steps_pure _
    | none => exact ih (fun g' hg' => h g' (List.mem_cons_of_mem g hg'))

theorem reads_userHostAllowed (c : UserHostCalls) (au : AuthUser) (target : Option String) :
    (userHostAllowed c au target).Reads := by
  refine Prog.steps_bind (reads_fqdnsFor _ _ _ _) (fun hosts => ?_)
  split
  · exact Prog.steps_pure _
  · exact Prog.steps_anyM (fun g => Prog.steps_bind (reads_fqdnsFor _ _ _ _)
      (fun _ => Prog.steps_pure _)) _

theorem reads_userHostGate (c : UserHostCalls) (au : AuthUser) (target : Option String) :
    (userHostGate c au target).Reads := by
  rw [userHostGate]
  split
  · exact Prog.steps_pure _
  · split
    · exact Prog.steps_pure _
    · refine Prog.steps_bind (reads_userHostAllowed _ _ _) (fun allowed => ?_)
      split
      · exact Prog.steps_pure _
      · exact Prog.steps_bind (steps_deref _) (fun _ => Prog.steps_pure _)

theorem onlyTokens_userGates (c : UserCalls) (req : Request) (form : UserSessionRequest) :
    ∀ g ∈ userGates c req form, g.Steps OnlyTokens :=
  List.forall_mem_cons.mpr ⟨onlyTokens_refuseUnless (reads_canUseApp _ _) _,
    List.forall_mem_cons.mpr ⟨onlyTokens_of_reads (reads_userHostGate _ _ _),
      List.forall_mem_singleton.mpr (onlyTokens_csrfGate _ _ _ _)⟩⟩

theorem reads_staticHostAllowed (fails : Bool) (au : AuthUser) (target : Option String) :
    (staticHostAllowed fails au target).Reads := by
  rw [staticHostAllowed]
  split
  · exact Prog.steps_pure _
  · split
    · exact Prog.steps_pure _
    · exact Prog.steps_bind (reads_fqdnsForStatic _ _) (fun _ => Prog.steps_pure _)

theorem onlyTokens_staticGates (c : StaticCalls) (req : Request)
    (form : StaticUserSessionRequest) : ∀ g ∈ staticGates c req form, g.Steps OnlyTokens :=
  List.forall_mem_cons.mpr ⟨onlyTokens_refuseUnless (reads_canUseApp _ _) _,
    List.forall_mem_cons.mpr ⟨onlyTokens_refuseUnless (reads_staticHostAllowed _ _ _) _,
      List.forall_mem_singleton.mpr (onlyTokens_csrfGate _ _ _ _)⟩⟩

theorem onlyTokens_domainGates (c : DomainCalls) (req : Request) (form : DomainAdminRequest)
    (host : String) : ∀ g ∈ domainGates c req form host, g.Steps OnlyTokens :=
  List.forall_mem_cons.mpr ⟨onlyTokens_refuseUnless (reads_canUseApp _ _) _,
    List.forall_mem_cons.mpr ⟨onlyTokens_refuseUnless (reads_canUseDA _ _) _,
      List.forall_mem_cons.mpr ⟨onlyTokens_csrfGate _ _ _ _,
        List.forall_mem_singleton.mpr (onlyTokens_refuseUnless
          (Prog.steps_bind (reads_getDomainAdminFQDNs _) (fun _ => Prog.steps_pure _)) _)⟩⟩⟩

theorem onlyTokens_delegatedGates (c : DelegatedCalls) (req : Request)
    (form : DelegatedAdminRequest) (host : String) :
    ∀ g ∈ delegatedGates c req form host, g.Steps OnlyTokens :=
  List.forall_mem_cons.mpr ⟨onlyTokens_refuseUnless (reads_canUseApp _ _) _,
    List.forall_mem_cons.mpr ⟨onlyTokens_refuseUnless (reads_canAdminFQDN _ _ _) _,
      List.forall_mem_cons.mpr ⟨onlyTokens_refuseUnless (Prog.steps_bind
          (reads_groupDNsForDelegate _ _ _) (fun _ => Prog.steps_bind (steps_deref _)
            (fun _ => Prog.steps_pure _))) _,
        List.forall_mem_singleton.mpr (onlyTokens_csrfGate _ _ _ _)⟩⟩⟩

theorem reads_targetGate (form : ReconnectRequest) : (targetGate form).Reads := by
  rw [targetGate]
  split
  · exact Prog.steps_pure _
  · split <;> exact Prog.steps_pure _

theorem onlyTokens_reconnectGates (c : ReconnectCalls) (req : Request) (form : ReconnectRequest) :
    ∀ g ∈ reconnectGates c req form, g.Steps OnlyTokens :=
  List.forall_mem_cons.mpr ⟨onlyTokens_of_reads (reads_targetGate form),
    List.forall_mem_cons.mpr ⟨onlyTokens_refuseUnless (reads_canUseApp _ _) _,
      List.forall_mem_singleton.mpr (onlyTokens_csrfGate _ _ _ _)⟩⟩

theorem steps_finishSession {R : World → World → Prop} (serves : Serves R) (cfg : Config)
    (c : FinishCalls) (size : Image) (s : ProconsulSession) (u : Option ADUser)
    (addr : Option String) : (finishSession cfg c size s u addr).Steps R := by
  refine Prog.steps_bind (steps_deref u) (fun u => ?_)
  refine Prog.steps_bind (steps_writeSessionToDB serves.logs (serves.session _) _ _) (fun _ => ?_)
  exact steps_launch serves cfg c.launch size _ addr

theorem run_inOrder_cons {g : Gate} {gs : List Gate} {w w₁ : World}
    (passes : g.run w = (.ok none, w₁)) : (inOrder (g :: gs)).run w = (inOrder gs).run w₁ := by
  rw [inOrder, Prog.run_bind_ok passes]

/-- A request that passes a sequence of gates has passed each of them, in a
world that differs from the first by tokens only. -/
theorem inOrder_passes {gs : List Gate} (h : ∀ g ∈ gs, g.Steps OnlyTokens) {w w' : World}
    (passed : (inOrder gs).run w = (.ok none, w')) :
    ∀ g ∈ gs, ∃ w₁ w₂, OnlyTokens w w₁ ∧ g.run w₁ = (.ok none, w₂) := by
  induction gs generalizing w with
  | nil => simp
  | cons g gs ih =>
    rw [inOrder, Prog.run_bind] at passed
    have tokens := onlyTokens_run (h g List.mem_cons_self) w
    rcases hg : g.run w with ⟨e | page, w₁⟩
    · rw [hg] at passed
      cases passed
    · rw [hg] at passed tokens
      cases page with
      | some page => cases passed
      | none =>
        intro g' hg'
        rcases List.mem_cons.mp hg' with rfl | hg'
        · exact ⟨w, w₁, .refl w, hg⟩
        · obtain ⟨w₂, w₃, ht, hrun⟩ :=
            ih (fun x hx => h x (List.mem_cons_of_mem g hx)) passed g' hg'
          exact ⟨w₂, w₃, OnlyTokens.trans tokens ht, hrun⟩

/-- A request that needs an account ends at its gate, or without an account
object, or goes on with one. -/
theorem withAccount_cases (cfg : Config) (c : CreateCalls) (au : Option AuthUser) {gate : Gate}
    (tokens : gate.Steps OnlyTokens) (body : ADUser → Run Page) (w : World) :
    (OnlyTokens w ((withAccount cfg c au gate body).run w).2 ∧
      ∀ w₁ u w₂, gate.run w = (.ok none, w₁) →
        (createRandomizedADUser cfg c au).run w₁ ≠ (.ok (some u), w₂)) ∨
    ∃ w₁ sam dn k w₂, gate.run w = (.ok none, w₁) ∧ OnlyTokens w w₁ ∧
      (createRandomizedADUser cfg c au).run w₁ = (.ok (some (randomizedUser cfg c sam)), w₂) ∧
      Created sam dn k w₁ w₂ ∧ (k ≠ 0 ↔ accepted cfg c = true) ∧
      (withAccount cfg c au gate body).run w = (body (randomizedUser cfg c sam)).run w₂ := by
  have tokens := onlyTokens_run tokens w
  rw [withAccount, Prog.run_bind]
  rcases hgate : gate.run w with ⟨e | page, w₁⟩
  · rw [hgate] at tokens
    exact .inl ⟨tokens, by simp⟩
  · have tokens₁ : OnlyTokens w w₁ := by rwa [hgate] at tokens
    cases page with
    | some page => exact .inl ⟨tokens₁, by simp⟩
    | none =>
      rcases run_createRandomizedADUser cfg c au w₁ with hnone | ⟨sam, k, w₂, -, hrun, h, hk⟩
      · refine .inl ⟨?_, ?_⟩
        · simp only [Prog.run_bind, hnone]
          exact tokens₁
        · rintro _ u w₂ h
          cases h
          rw [hnone]
          simp
      · refine .inr ⟨w₁, sam, _, k, w₂, rfl, tokens₁, hrun, h, hk, ?_⟩
        simp only [Prog.run_bind, hrun]
        rfl

/-- A static request ends at its gate, or goes on with the mapped account. -/
theorem handleStaticSessionPost_cases (cfg : Config) (c : StaticCalls) (req : Request)
    (form : StaticUserSessionRequest) (w : World) :
    (OnlyTokens w ((handleStaticSessionPost cfg c req form).run w).2 ∧
      ∀ w₁, (staticGate c req form).run w ≠ (.ok none, w₁)) ∨
    ∃ w₁, (staticGate c req form).run w = (.ok none, w₁) ∧ OnlyTokens w w₁ ∧
      (handleStaticSessionPost cfg c req form).run w =
        (getStaticADUser cfg c.mapping c.password req.authUser form.targetFQDN >>=
          staticSession cfg c req form).run w₁ := by
  have tokens : OnlyTokens w ((staticGate c req form).run w).2 :=
    onlyTokens_run (steps_inOrder (onlyTokens_staticGates c req form)) w
  rw [handleStaticSessionPost, Prog.run_bind]
  rcases hgate : (staticGate c req form).run w with ⟨e | page, w₁⟩
  · rw [hgate] at tokens
    exact .inl ⟨tokens, by simp⟩
  · rw [hgate] at tokens
    cases page with
    | some page => exact .inl ⟨tokens, by simp⟩
    | none => exact .inr ⟨w₁, rfl, tokens, rfl⟩

/-! Without a display name a request ends before it opens a session. -/

theorem userSession_unnamed {form : UserSessionRequest} (unnamed : form.displayName = none)
    (cfg : Config) (c : UserCalls) (req : Request) (u : ADUser) (w : World) :
    ((userSession cfg c req form u).run w).2 = w := by
  rw [userSession, unnamed]
  rfl

theorem staticSession_unnamed {form : StaticUserSessionRequest} (unnamed : form.displayName = none)
    (cfg : Config) (c : StaticCalls) (req : Request) (u : ADUser) (w : World) :
    ((staticSession cfg c req form u).run w).2 = w := by
  rw [staticSession, unnamed]
  rfl

theorem refuseUnless_passes {check : Run Bool} {message : String} {w w' : World}
    (h : (refuseUnless check message).run w = (.ok none, w')) : check.run w = (.ok true, w') := by
  rw [refuseUnless, Prog.run_bind] at h
  rcases hc : check.run w with ⟨e | b, t⟩
  · rw [hc] at h
    cases h
  · rw [hc] at h
    cases b with
    | false => cases h
    | true => cases h; rfl

end Handlers
