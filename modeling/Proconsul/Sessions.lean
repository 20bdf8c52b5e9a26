import Proconsul.Accounts

/-!
# Sessions: port, database row and container

A session takes a display number from `ports`, records itself in `sessions`
and runs in one container. Port allocation reads the largest number in use and
inserts in a later statement; only the primary key of `ports` protects it.
Creating and starting a container are separate steps of the Docker engine.
A value that its column cannot take makes the statement fail: which values these are
is not said here, and any statement may fail. An exception rethrown as a
`RuntimeException` is not told from its cause.
-/

namespace Sessions

open Program Schema Text Surroundings Hosts Accounts

inductive Status where
  | starting | connected | disconnected | terminating
  deriving DecidableEq, Repr

/-- The text stored in `sessions.status` and used as audit event. -/
def Status.text : Status → String
  | .starting => "starting"
  | .connected => "connected"
  | .disconnected => "disconnected"
  | .terminating => "terminating"

/-- `Status.valueOf` of the upper-cased text; `none` is its exception. -/
def Status.valueOf (s : String) : Option Status :=
  [Status.starting, .connected, .disconnected, .terminating].find?
    (fun st => equalsIgnoreCase s st.text)

structure ProconsulSession where
  owner : AuthUser
  fqdn : Option String
  novncPort : Nat
  vncPassword : Option String
  status : Status
  targetUser : ADUser
  startTime : Option String
  displayName : Option String
  type : Option String
  delegatedou : Option String
  delegatedrole : Option String
  gatewayfqdn : Option String
  deriving DecidableEq, Repr

def ProconsulSession.isConnected (s : ProconsulSession) : Bool := s.status = .connected

def ProconsulSession.isAvailable (s : ProconsulSession) : Bool :=
  s.status ≠ .starting ∧ s.status ≠ .terminating

/-- The constructor of the creating handlers; port and gateway come later. -/
def newSession (au : AuthUser) (host : Option String) (vncPassword : String) (targetUser : ADUser)
    (displayName : String) (type : String) (delegatedou delegatedrole : Option String) :
    ProconsulSession where
  owner := au
  fqdn := host
  novncPort := 0
  vncPassword := some vncPassword
  status := .starting
  targetUser := targetUser
  startTime := some ""
  displayName := some displayName
  type := some type
  delegatedou := delegatedou
  delegatedrole := delegatedrole
  gatewayfqdn := none

def getRedirectUrl (cfg : Config) (s : ProconsulSession) : String :=
  "https://" ++ cfg.novncHostname ++ cfg.novncUri ++ "?encrypt=1&autoconnect=1&port=" ++
    toString (5901 + s.novncPort) ++ "&password=" ++ javaString s.vncPassword

/-! ## Ports -/

structure PortCalls where
  max : Bool
  probe : Nat → Bool
  insert : Bool

def PortCalls.noOutage : PortCalls := ⟨false, fun _ => false, false⟩

/-- `select max(portnum)`; over an empty table the result reads as zero. -/
def maxPort (db : Database) : Nat := (db.ports.map PortRow.portnum).foldl max 0

/-- The even numbers 2 to 98. -/
def candidates : List Nat := (List.range 49).map (fun i => 2 * i + 2)

/-- The search after a wrap-around: the first candidate not in the table. -/
def probe (fails : Nat → Bool) : List Nat → Nat → Run Nat
  | [], retval => pure retval
  | i :: rest, retval => do
    if ← query (fails i) .ports ["portnum"] (fun db => db.ports.any (fun r => r.portnum == i)) then
      probe fails rest retval
    else return i

def reserve (row : PortRow) (w : World) : World :=
  { w with
    db := { w.db with ports := w.db.ports ++ [row] }
    trace := w.trace ++ [.portReserved row.portnum] }

/-- The insert that encumbers a port; `portnum` is the primary key. -/
def insertPort (fails : Bool) (row : PortRow) : Run Unit :=
  Prog.atom (fun w =>
    if fails || w.db.ports.any (fun r => r.portnum == row.portnum) then (.error .sqlException, w)
    else (.ok (), reserve row w))

/-- The number to be tried: two above the largest, or else the first free one. -/
def nextPort (c : PortCalls) : Run Nat := do
  let highest ← query c.max .ports ["portnum"] maxPort
  if 100 ≤ highest + 2 then probe c.probe candidates (highest + 2) else return highest + 2

def getVncPortNumber (c : PortCalls) (s : ProconsulSession) : Run Nat := do
  let retval ← nextPort c
  if 100 ≤ retval then Prog.throwing (.runtimeException "Port exhaustion")
  else
    insertPort c.insert ⟨retval, s.fqdn, s.targetUser.sAMAccountName, s.owner.uid⟩
    return retval

/-! ## Session rows -/

structure WriteCalls where
  select : Bool
  write : Bool
  audit : Bool

def WriteCalls.noOutage : WriteCalls := ⟨false, false, false⟩

/-- The key on which a stored session is looked up. -/
def sameSession (s : ProconsulSession) (r : SessionRow) : Bool :=
  sqlEq r.owner s.owner.uid && sqlEq r.fqdn s.fqdn &&
    sqlEq r.samaccountname s.targetUser.sAMAccountName

/-- `insert into sessions`; the status column starts out null. -/
def sessionRow (s : ProconsulSession) : SessionRow where
  fqdn := s.fqdn
  owner := s.owner.uid
  displayname := s.displayName
  novncport := some s.novncPort
  vncpassword := s.vncPassword
  connected := s.isConnected
  samaccountname := s.targetUser.sAMAccountName
  running := s.isAvailable
  starttime := s.startTime
  status := none
  type := s.type
  delegatedou := s.delegatedou
  delegatedrole := s.delegatedrole
  gatewayfqdn := s.gatewayfqdn

/-- `update sessions`: type, delegation and gateway keep their stored values. -/
def refreshRow (s : ProconsulSession) (r : SessionRow) : SessionRow :=
  { r with
    displayname := s.displayName
    novncport := some s.novncPort
    vncpassword := s.vncPassword
    connected := s.isConnected
    running := s.isAvailable
    status := some s.status.text }

/-- `printableStartTime` raises, before the insert, on a session without a start time. -/
def insertSession (fails : Bool) (s : ProconsulSession) : Run Unit :=
  execute (fails || s.startTime.isNone) .sessions [] (fun db =>
    ({ db with sessions := db.sessions ++ [sessionRow s] }, [.sessionInserted (sessionRow s)]))

def updateSession (fails : Bool) (s : ProconsulSession) : Run Unit :=
  execute fails .sessions ["displayname", "novncport", "vncpassword", "connected", "running",
    "status", "owner", "fqdn", "samaccountname"] (fun db =>
    ({ db with sessions := updateWhere (sameSession s) (refreshRow s) db.sessions },
      [.sessionUpdated s.fqdn]))

def writeSessionToDB (c : WriteCalls) (s : ProconsulSession) (clientaddr : Option String) :
    Run Unit := do
  let found ← query c.select .sessions ["owner", "fqdn", "samaccountname"]
    (fun db => db.sessions.any (sameSession s))
  let eppn := some (s.owner.uid.getD "NoUser")
  if found then
    updateSession c.write s
    audit c.audit s.status.text eppn s.fqdn s.targetUser.sAMAccountName none clientaddr
  else
    insertSession c.write s
    audit c.audit "startSession" eppn s.fqdn s.targetUser.sAMAccountName none clientaddr

def addGatewayToSession (fails : Bool) (s : ProconsulSession) : Run ProconsulSession := do
  match s.gatewayfqdn with
  | some _ => return s
  | none => return { s with gatewayfqdn := ← requiredGatewayFQDN fails s.fqdn }

/-! ## Stored sessions -/

structure LoadCalls where
  ou : Bool
  memberships : Bool

/-- `getOu`: where the first account of that name lives. -/
def getOu (fails : Bool) (sam : Option String) : Run (Option String) :=
  match given sam with
  | none => pure none
  | some sam => Prog.orElse (search fails (fun ad =>
      (accountDns ad (some sam)).head?.map dropComponent)) none

/-- `getMemberships` ends at the first account without a `memberOf` attribute. -/
def getMemberships (fails : Bool) (sam : Option String) : Run (List String) :=
  match given sam with
  | none => pure []
  | some sam => Prog.orElse (search fails (fun ad =>
      ((found ad.accounts sam).takeWhile
        (fun a => !a.memberOf.isEmpty)).flatMap Account.memberOf)) []

def loadAdUser (cfg : Config) (c : LoadCalls) (sam : Option String) : Run ADUser := do
  let ou ← getOu c.ou sam
  let memberships ← getMemberships c.memberships sam
  return { sAMAccountName := sam, adPassword := none, adDomain := some cfg.domain, adOu := ou,
           memberships := memberships, created := true }

/-- The columns of a row that are read back. The type is not among them: the
constructor used sets it to `user`. -/
def storedSession (au : AuthUser) (user : ADUser) (status : Status) (startTime : String)
    (r : SessionRow) : ProconsulSession where
  owner := au
  fqdn := r.fqdn
  novncPort := r.novncport.getD 0
  vncPassword := r.vncpassword
  status := status
  targetUser := user
  startTime := some startTime
  displayName := r.displayname
  type := some "user"
  delegatedou := none
  delegatedrole := none
  gatewayfqdn := r.gatewayfqdn

structure SessionCalls where
  rows : Bool
  load : Nat → LoadCalls
  startTime : String

def SessionCalls.noOutage : SessionCalls := ⟨false, fun _ => ⟨false, false⟩, "2024-01-01 00:00:00"⟩

def rowStatus (r : SessionRow) : Option Status :=
  match r.status with
  | none => some .starting
  | some text => Status.valueOf text

/-- An unreadable status ends the loop; the sessions read before it are kept. -/
def loadSessions (cfg : Config) (c : SessionCalls) (au : AuthUser) :
    List (SessionRow × Nat) → List ProconsulSession → Run (List ProconsulSession)
  | [], retval => pure retval
  | r :: rest, retval => do
    let user ← loadAdUser cfg (c.load r.2) r.1.samaccountname
    match rowStatus r.1 with
    | none => return retval
    | some status =>
      loadSessions cfg c au rest (retval ++ [storedSession au user status c.startTime r.1])

def getAvailableSessions (cfg : Config) (c : SessionCalls) (au : AuthUser) :
    Run (List ProconsulSession) := do
  match ← Prog.attempt (query c.rows .sessions ["owner"] (fun db =>
      db.sessions.filter (fun r => sqlEq r.owner au.uid))) with
  | none => return []
  | some rows => loadSessions cfg c au rows.zipIdx []

/-! ## Containers -/

structure ContainerCalls where
  create : Bool
  start : Bool

/-- The environment that `DockerContainer(session)` assembles. -/
def sessionContainer (cfg : Config) (size : Image) (s : ProconsulSession) (id : Nat) :
    Container where
  id := id
  image := size
  vncpassword := javaString s.vncPassword
  winuser := javaString s.targetUser.sAMAccountName
  domain := cfg.domain
  winpass := javaString s.targetUser.adPassword
  rhostname := javaString s.fqdn
  display := s.novncPort
  gateway := s.gatewayfqdn
  status := .created
  launched := false

def createContainer (fails : Bool) (make : Nat → Container) : Run Nat :=
  Prog.atom (fun w =>
    if fails then (.error .dockerException, w)
    else (.ok w.engine.nextId, { w with
      engine := w.engine.create make
      trace := w.trace ++ [.containerCreated w.engine.nextId] }))

/-- `docker start`. A container that cleanup has removed cannot be started. -/
def startContainer (fails : Bool) (id : Nat) : Run Unit :=
  Prog.atom (fun w =>
    match w.engine.find id with
    | none => (.error .dockerException, w)
    | some c =>
      if fails then
        (.error .dockerException, { w with engine := w.engine.setStatus id .startFailed })
      else
        (.ok (), { w with
          engine := w.engine.setStatus id .running
          trace := w.trace ++ [.containerStarted { c with status := .running }] }))

/-- `DockerContainer.start`. -/
def start (cfg : Config) (c : ContainerCalls) (size : Image) (s : ProconsulSession) : Run Unit :=
  if cfg.image = "" then
    Prog.throwing (.containerInit "Imagename is required for initialization")
  else if cfg.cpuset = "" then
    Prog.throwing (.containerInit "cpuset is required for initialization")
  else do
    let id ← createContainer c.create (sessionContainer cfg size s)
    startContainer c.start id

/-! ## What the handlers have in common -/

inductive Page where
  | authzError (message : String)
  | checkedout (message : String)
  | redirect (url : String)
  deriving DecidableEq, Repr

structure OpenCalls where
  port : PortCalls
  gateway : Bool
  write : WriteCalls
  startTime : String

def OpenCalls.noOutage : OpenCalls := ⟨.noOutage, false, .noOutage, "2024-01-01 00:00:00"⟩

/-- Display number, start time, gateway and the first write of a new session. -/
def recordSession (c : OpenCalls) (s : ProconsulSession) (clientaddr : Option String) (port : Nat) :
    Run ProconsulSession := do
  let s := { s with novncPort := port, status := .starting, startTime := some c.startTime }
  let s ← addGatewayToSession c.gateway s
  writeSessionToDB c.write s clientaddr
  return s

def openSession (c : OpenCalls) (s : ProconsulSession) (clientaddr : Option String) :
    Run ProconsulSession := do
  let port ← getVncPortNumber c.port s
  recordSession c s clientaddr port

/-- The wait for the container's ready file. Where /var/spool/docker does not
exist, `fcheck` is still null in the `finally` clause. -/
def awaitReady (spool : Bool) : Run Unit :=
  if spool then pure () else Prog.throwing .nullPointer

structure LaunchCalls where
  container : ContainerCalls
  write : WriteCalls
  spool : Bool

def LaunchCalls.noOutage : LaunchCalls := ⟨⟨false, false⟩, .noOutage, true⟩

/-- Container, last write, wait and redirect. -/
def launch (cfg : Config) (c : LaunchCalls) (size : Image) (s : ProconsulSession)
    (clientaddr : Option String) : Run Page := do
  start cfg c.container size s
  let s := { s with status := .connected }
  writeSessionToDB c.write s clientaddr
  awaitReady c.spool
  return .redirect (getRedirectUrl cfg s)

/-! ## What session operations change -/

/-- Owner, host, account, type and display are those of `s`. -/
structure SameTarget (s s' : ProconsulSession) : Prop where
  owner : s'.owner = s.owner
  fqdn : s'.fqdn = s.fqdn
  sam : s'.targetUser.sAMAccountName = s.targetUser.sAMAccountName
  type : s'.type = s.type
  port : s'.novncPort = s.novncPort
  dated : s.startTime.isSome = true → s'.startTime.isSome = true

theorem SameTarget.refl (s : ProconsulSession) : SameTarget s s := ⟨rfl, rfl, rfl, rfl, rfl, id⟩

theorem SameTarget.trans {s s' s'' : ProconsulSession} (h : SameTarget s s')
    (h' : SameTarget s' s'') : SameTarget s s'' :=
  ⟨h'.owner.trans h.owner, h'.fqdn.trans h.fqdn, h'.sam.trans h.sam, h'.type.trans h.type,
    h'.port.trans h.port, h'.dated ∘ h.dated⟩

/-- `R` permits the two statements that write session `s`. -/
structure Permits (R : World → World → Prop) (s : ProconsulSession) : Prop where
  insert : ∀ w : World, R w { w with
    db := { w.db with sessions := w.db.sessions ++ [sessionRow s] }
    trace := w.trace ++ [.sessionInserted (sessionRow s)] }
  update : ∀ w : World, R w { w with
    db := { w.db with sessions := updateWhere (sameSession s) (refreshRow s) w.db.sessions }
    trace := w.trace ++ [.sessionUpdated s.fqdn] }

def WriteCalls.succeed (c : WriteCalls) : Bool := !c.select && !c.write

/-- The configuration names an image and a CPU set, and the engine accepts both calls. -/
def ContainerCalls.succeed (cfg : Config) (c : ContainerCalls) : Bool :=
  cfg.image != "" && cfg.cpuset != "" && !c.create && !c.start

/-! ### Ports -/

theorem maxPort_cases (db : Database) : maxPort db = 0 ∨ ∃ r ∈ db.ports, r.portnum = maxPort db := by
  have fold : ∀ (rows : List PortRow) (m : Nat), (rows.map PortRow.portnum).foldl max m = m ∨
      ∃ r ∈ rows, r.portnum = (rows.map PortRow.portnum).foldl max m := by
    intro rows
    induction rows with
    | nil => exact fun m => .inl rfl
    | cons r rows ih =>
      intro m
      rw [List.map_cons, List.foldl_cons]
      rcases ih (max m r.portnum) with same | ⟨r', mem, eq⟩
      · rw [same]
        by_cases larger : m ≤ r.portnum
        · exact .inr ⟨r, List.mem_cons_self, by omega⟩
        · exact .inl (by omega)
      · exact .inr ⟨r', List.mem_cons_of_mem r mem, eq⟩
  exact fold db.ports 0

theorem le_maxPort {db : Database} {r : PortRow} (mem : r ∈ db.ports) : r.portnum ≤ maxPort db := by
  have fold : ∀ (ps : List Nat) (m : Nat), m ≤ ps.foldl max m ∧ ∀ p ∈ ps, p ≤ ps.foldl max m := by
    intro ps
    induction ps with
    | nil => exact fun m => ⟨Nat.le_refl m, fun p hp => by cases hp⟩
    | cons p ps ih =>
      intro m
      obtain ⟨start, each⟩ := ih (max m p)
      rw [List.foldl_cons]
      constructor
      · omega
      · intro q hq
        rcases List.mem_cons.mp hq with rfl | hq
        · omega
        · exact each q hq
  exact (fold _ 0).2 _ (List.mem_map_of_mem mem)

theorem maxPort_even {db : Database} (even : ∀ r ∈ db.ports, r.portnum % 2 = 0) :
    maxPort db % 2 = 0 := by
  rcases maxPort_cases db with zero | ⟨r, mem, eq⟩
  · rw [zero]
  · rw [← eq]
    exact even r mem

theorem mem_candidates {q : Nat} : q ∈ candidates ↔ q % 2 = 0 ∧ 2 ≤ q ∧ q ≤ 98 := by
  rw [candidates, List.mem_map]
  constructor
  · rintro ⟨i, hi, rfl⟩
    rw [List.mem_range] at hi
    omega
  · rintro ⟨even, low, high⟩
    refine ⟨q / 2 - 1, ?_, by omega⟩
    rw [List.mem_range]
    omega

theorem reads_nextPort (c : PortCalls) : (nextPort c).Reads := by
  have reads : ∀ is retval, (probe c.probe is retval).Reads := by
    intro is retval
    induction is with
    | nil => exact Prog.steps_pure _
    | cons i rest ih =>
      refine Prog.steps_bind (reads_query _ _ _ _) (fun taken => ?_)
      cases taken with
      | true => exact ih
      | false => exact Prog.steps_pure _
  refine Prog.steps_bind (reads_query _ _ _ _) (fun highest => ?_)
  split
  · exact reads _ _
  · exact Prog.steps_pure _

theorem steps_getVncPortNumber {R : World → World → Prop} (refl : ∀ w, R w w)
    (port : ∀ w row, R w (reserve row w)) (c : PortCalls) (s : ProconsulSession) :
    (getVncPortNumber c s).Steps R := by
  refine Prog.steps_bind ((reads_nextPort c).steps refl) (fun retval => ?_)
  split
  · exact Prog.steps_throwing _
  · refine Prog.steps_bind (Prog.steps_atom (fun w => ?_)) (fun _ => Prog.steps_pure _)
    split
    · exact refl w
    · exact port w _

/-- The number found is below 100 and not in the table, and its insert succeeds. -/
def allocates (c : PortCalls) (w : World) : Bool :=
  match ((nextPort c).run w).1 with
  | .error _ => false
  | .ok p => decide (p < 100) && !(c.insert || w.db.ports.any (fun r => r.portnum == p))

/-- Allocation either raises without effect or ends with one new row. -/
theorem run_getVncPortNumber (c : PortCalls) (s : ProconsulSession) (w : World) :
    (allocates c w = false ∧ ∃ e, (getVncPortNumber c s).run w = (.error e, w)) ∨
      (allocates c w = true ∧
        ∃ row, (getVncPortNumber c s).run w = (.ok row.portnum, reserve row w)) := by
  have same := Prog.run_unchanged (reads_nextPort c) w
  rw [getVncPortNumber, Prog.run_bind, allocates]
  rcases hr : (nextPort c).run w with ⟨e | retval, w'⟩
  · rw [hr] at same
    obtain rfl : w' = w := same
    exact .inl ⟨rfl, e, rfl⟩
  · rw [hr] at same
    obtain rfl : w' = w := same
    dsimp only
    split
    · rename_i exhausted
      exact .inl ⟨by simp [Nat.not_lt.mpr exhausted], _, rfl⟩
    · rename_i bounded
      let row : PortRow := ⟨retval, s.fqdn, s.targetUser.sAMAccountName, s.owner.uid⟩
      cases taken : (c.insert || w'.db.ports.any (fun r => r.portnum == retval)) with
      | true =>
        refine .inl ⟨by simp, .sqlException, ?_⟩
        rw [Prog.run_bind, insertPort, Prog.run_atom, if_pos taken]
      | false =>
        refine .inr ⟨by simpa using bounded, row, ?_⟩
        rw [Prog.run_bind, insertPort, Prog.run_atom, if_neg (by simp [taken])]
        rfl

/-- Allocation looks at the table of ports only. -/
theorem allocates_congr (c : PortCalls) {w w' : World} (ports : w'.db.ports = w.db.ports) :
    allocates c w' = allocates c w := by
  have probing : ∀ is retval, ((probe c.probe is retval).run w').1 =
      ((probe c.probe is retval).run w).1 := by
    intro is retval
    induction is with
    | nil => rfl
    | cons i rest ih =>
      rw [probe, Prog.run_bind, Prog.run_bind, run_query rfl, run_query rfl, ports]
      cases c.probe i with
      | true => rfl
      | false =>
        cases w.db.ports.any (fun r => r.portnum == i) with
        | true => exact ih
        | false => rfl
  have next : ((nextPort c).run w').1 = ((nextPort c).run w).1 := by
    rw [nextPort, Prog.run_bind, Prog.run_bind, run_query rfl, run_query rfl, maxPort, maxPort, ports]
    cases c.max with
    | true => rfl
    | false =>
      simp only [Bool.false_eq_true, if_false]
      split
      · exact probing _ _
      · rfl
  rw [allocates, allocates, next, ports]

/-! ### Rows -/

theorem returns_addGatewayToSession (fails : Bool) (s : ProconsulSession) :
    (addGatewayToSession fails s).Returns (SameTarget s) := by
  rw [addGatewayToSession]
  split
  · exact Prog.returns_pure (.refl s)
  · exact Prog.returns_bind (Prog.returns_any _)
      (fun _ _ => Prog.returns_pure ⟨rfl, rfl, rfl, rfl, rfl, id⟩)

theorem returns_recordSession {c : OpenCalls} {s : ProconsulSession} {port : Nat}
    (clientaddr : Option String) :
    (recordSession c s clientaddr port).Returns (SameTarget { s with novncPort := port }) := by
  refine Prog.returns_bind (returns_addGatewayToSession _ _) (fun s' same => ?_)
  exact Prog.returns_bind (Prog.returns_any _) (fun _ _ =>
    Prog.returns_pure ⟨same.owner, same.fqdn, same.sam, same.type, same.port,
      fun _ => same.dated rfl⟩)

/-! ### Reading back -/

theorem reads_loadAdUser (cfg : Config) (c : LoadCalls) (sam : Option String) :
    (loadAdUser cfg c sam).Reads := by
  have ou : (getOu c.ou sam).Reads := by
    unfold getOu
    split
    · exact Prog.steps_pure _
    · exact Prog.steps_orElse (reads_search _ _) _
  have memberships : (getMemberships c.memberships sam).Reads := by
    unfold getMemberships
    split
    · exact Prog.steps_pure _
    · exact Prog.steps_orElse (reads_search _ _) _
  exact Prog.steps_bind ou (fun _ => Prog.steps_bind memberships (fun _ => Prog.steps_pure _))

theorem reads_getAvailableSessions (cfg : Config) (c : SessionCalls) (au : AuthUser) :
    (getAvailableSessions cfg c au).Reads := by
  have loop : ∀ rows retval, (loadSessions cfg c au rows retval).Reads := by
    intro rows
    induction rows with
    | nil => exact fun retval => Prog.steps_pure _
    | cons r rest ih =>
      intro retval
      refine Prog.steps_bind (reads_loadAdUser _ _ _) (fun user => ?_)
      cases rowStatus r.1 with
      | none => exact Prog.steps_pure _
      | some status => exact ih _
  refine Prog.steps_bind (Prog.steps_attempt (reads_query _ _ _ _)) (fun rows => ?_)
  cases rows with
  | none => exact Prog.steps_pure _
  | some rows => exact loop _ _

/-! ### Writing -/

theorem insertSession_dated {s : ProconsulSession} (dated : s.startTime.isSome = true)
    (fails : Bool) :
    insertSession fails s = execute fails .sessions [] (fun db =>
      ({ db with sessions := db.sessions ++ [sessionRow s] }, [.sessionInserted (sessionRow s)])) := by
  rw [insertSession, Option.isNone_eq_false_iff.mpr dated, Bool.or_false]

/-- What a write that succeeds leaves in the table; auditing does not touch it. -/
theorem sessions_after_write {c : WriteCalls} (succeeds : c.succeed = true) {s : ProconsulSession}
    (dated : s.startTime.isSome = true) (addr : Option String) (w : World) :
    ((writeSessionToDB c s addr).run w).2.db.sessions =
      if w.db.sessions.any (sameSession s) then
        updateWhere (sameSession s) (refreshRow s) w.db.sessions
      else w.db.sessions ++ [sessionRow s] := by
  rw [WriteCalls.succeed, Bool.and_eq_true, Bool.not_eq_true', Bool.not_eq_true'] at succeeds
  obtain ⟨select, write⟩ := succeeds
  have audited : ∀ event w', ((audit c.audit event (some (s.owner.uid.getD "NoUser")) s.fqdn
      s.targetUser.sAMAccountName none addr).run w').2.db.sessions = w'.db.sessions := by
    intro event w'
    exact keeps_run (f := fun w => w.db.sessions)
      (steps_audit (R := Keeps (fun w => w.db.sessions)) ⟨fun _ => rfl, fun _ _ => rfl⟩
        _ _ _ _ _ _ _) w'
  rw [writeSessionToDB, Prog.run_bind, run_query rfl, select]
  simp only [Bool.false_eq_true, if_false]
  split
  · rw [Prog.run_bind, updateSession, run_execute rfl, write]
    exact audited _ _
  · rw [Prog.run_bind, insertSession_dated dated, run_execute rfl, write]
    exact audited _ _

section Footprint

variable {R : World → World → Prop} (logs : Logs R)

include logs

theorem steps_addGatewayToSession (fails : Bool) (s : ProconsulSession) :
    (addGatewayToSession fails s).Steps R := by
  rw [addGatewayToSession]
  split
  · exact Prog.steps_pure _
  · exact Prog.steps_bind ((reads_requiredGatewayFQDN _ _).steps logs.refl)
      (fun _ => Prog.steps_pure _)

theorem steps_writeSessionToDB {s : ProconsulSession} (permits : Permits R s) (c : WriteCalls)
    (clientaddr : Option String) : (writeSessionToDB c s clientaddr).Steps R := by
  refine Prog.steps_bind ((reads_query _ _ _ _).steps logs.refl) (fun found => ?_)
  dsimp only
  split
  · exact Prog.steps_bind (steps_execute logs.refl _ _ _ permits.update)
      (fun _ => steps_audit logs _ _ _ _ _ _ _)
  · exact Prog.steps_bind (steps_execute logs.refl _ _ _ permits.insert)
      (fun _ => steps_audit logs _ _ _ _ _ _ _)

theorem steps_recordSession {c : OpenCalls} {s : ProconsulSession} {port : Nat}
    (permits : ∀ s', SameTarget { s with novncPort := port } s' → Permits R s')
    (clientaddr : Option String) : (recordSession c s clientaddr port).Steps R := by
  refine Prog.steps_bind_returns (steps_addGatewayToSession logs _ _)
    (returns_addGatewayToSession _ _) (fun s' same => ?_)
  have target : SameTarget { s with novncPort := port } s' :=
    ⟨same.owner, same.fqdn, same.sam, same.type, same.port, fun _ => same.dated rfl⟩
  exact Prog.steps_bind (steps_writeSessionToDB logs (permits s' target) _ _)
    (fun _ => Prog.steps_pure _)

/-- A write raises exactly when one of its two statements does. -/
theorem delivers_writeSessionToDB (trans : ∀ s t r, R s t → R t r → R s r) {s : ProconsulSession}
    (permits : Permits R s) (dated : s.startTime.isSome = true) (c : WriteCalls)
    (clientaddr : Option String) :
    (writeSessionToDB c s clientaddr).Delivers R (c.succeed = true) (fun _ => True) := by
  intro w
  refine ⟨Prog.run_related logs.refl trans (steps_writeSessionToDB logs permits c clientaddr) w, ?_⟩
  have logged : ∀ event w', ∃ w'', (audit c.audit event (some (s.owner.uid.getD "NoUser")) s.fqdn
      s.targetUser.sAMAccountName none clientaddr).run w' = (.ok (), w'') := by
    intro event w'
    obtain ⟨w'', hrun, -⟩ := run_audit c.audit event (some (s.owner.uid.getD "NoUser")) s.fqdn
      s.targetUser.sAMAccountName none clientaddr w'
    exact ⟨w'', hrun⟩
  rw [writeSessionToDB, Prog.run_bind, run_query rfl, WriteCalls.succeed]
  cases c.select with
  | true => exact .inr ⟨by simp, _, rfl⟩
  | false =>
    cases hw : c.write with
    | true =>
      refine .inr ⟨by simp, .sqlException, ?_⟩
      simp only [Bool.false_eq_true, if_false]
      split
      · rw [Prog.run_bind, updateSession, run_execute rfl]
        rfl
      · rw [Prog.run_bind, insertSession_dated dated, run_execute rfl]
        rfl
    | false =>
      refine .inl ⟨by simp, (), ?_, trivial⟩
      simp only [Bool.false_eq_true, if_false]
      split
      · rw [Prog.run_bind, updateSession, run_execute rfl]
        exact congrArg Prod.fst (logged s.status.text _).choose_spec
      · rw [Prog.run_bind, insertSession_dated dated, run_execute rfl]
        exact congrArg Prod.fst (logged "startSession" _).choose_spec

theorem delivers_recordSession (trans : ∀ s t r, R s t → R t r → R s r) {c : OpenCalls}
    {s : ProconsulSession} {port : Nat}
    (permits : ∀ s', SameTarget { s with novncPort := port } s' → Permits R s')
    (clientaddr : Option String) :
    (recordSession c s clientaddr port).Delivers R (c.write.succeed = true)
      (SameTarget { s with novncPort := port }) := by
  have gateway : ∀ s', (addGatewayToSession c.gateway s').Delivers R True (SameTarget s') := by
    intro s' w
    refine ⟨Prog.run_related logs.refl trans (steps_addGatewayToSession logs _ _) w,
      .inl ⟨trivial, ?_⟩⟩
    have total : ∃ o, ((addGatewayToSession c.gateway s').run w).1 = .ok o := by
      rw [addGatewayToSession]
      split
      · exact ⟨_, rfl⟩
      · obtain ⟨g, hg⟩ := Prog.run_orElse_ok _ none w
        exact ⟨_, congrArg Prod.fst (Prog.run_bind_ok hg)⟩
    obtain ⟨o, ho⟩ := total
    exact ⟨o, ho, (returns_addGatewayToSession c.gateway s').run ho⟩
  refine Prog.delivers_bind_total trans (gateway _) (fun s' same => ?_)
  have target : SameTarget { s with novncPort := port } s' :=
    ⟨same.owner, same.fqdn, same.sam, same.type, same.port, fun _ => same.dated rfl⟩
  exact Prog.delivers_bind_then trans
    (delivers_writeSessionToDB logs trans (permits s' target) (same.dated rfl) c.write clientaddr)
    (fun _ _ => Prog.delivers_pure logs.refl target)

end Footprint

theorem steps_start {R : World → World → Prop} (refl : ∀ w, R w w)
    (engine : ∀ (w : World) engine effects, (∀ e ∈ effects, Effect.ofEngine e = true) →
      R w { w with engine := engine, trace := w.trace ++ effects })
    (cfg : Config) (c : ContainerCalls) (size : Image) (s : ProconsulSession) :
    (start cfg c size s).Steps R := by
  have create : ∀ make, (createContainer c.create make).Steps R := by
    intro make
    apply Prog.steps_atom
    intro w
    split
    · exact refl w
    · exact engine w _ _ (by simp [Effect.ofEngine])
  have run : ∀ id, (startContainer c.start id).Steps R := by
    intro id
    apply Prog.steps_atom
    intro w
    split
    · exact refl w
    · split
      · simpa using engine w (w.engine.setStatus id .startFailed) [] (by simp)
      · exact engine w _ _ (by simp [Effect.ofEngine])
  rw [start]
  split
  · exact Prog.steps_throwing _
  · split
    · exact Prog.steps_throwing _
    · exact Prog.steps_bind (create _) run

/-- `R` permits whatever opening and launching a session does to ports, sessions, containers and
the audit log. -/
structure Serves (R : World → World → Prop) : Prop where
  logs : Logs R
  port : ∀ w row, R w (reserve row w)
  session : ∀ s, Permits R s
  engine : ∀ (w : World) engine effects, (∀ e ∈ effects, Effect.ofEngine e = true) →
    R w { w with engine := engine, trace := w.trace ++ effects }

section Opening

variable {R : World → World → Prop} (serves : Serves R)

include serves

theorem steps_openSession (c : OpenCalls) (s : ProconsulSession) (addr : Option String) :
    (openSession c s addr).Steps R :=
  Prog.steps_bind (steps_getVncPortNumber serves.logs.refl serves.port _ _)
    (fun _ => steps_recordSession serves.logs (fun s' _ => serves.session s') addr)

theorem steps_launch (cfg : Config) (c : LaunchCalls) (size : Image) (s : ProconsulSession)
    (addr : Option String) : (launch cfg c size s addr).Steps R := by
  refine Prog.steps_bind (steps_start serves.logs.refl serves.engine _ _ _ _) (fun _ => ?_)
  refine Prog.steps_bind (steps_writeSessionToDB serves.logs (serves.session _) _ _) (fun _ => ?_)
  refine Prog.steps_bind ?_ (fun _ => Prog.steps_pure _)
  rw [awaitReady]
  split
  · exact Prog.steps_pure _
  · exact Prog.steps_throwing _

end Opening

end Sessions
