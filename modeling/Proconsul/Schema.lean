import Proconsul.Text

/-!
# The database of `proconsul.db.schema`

Tables as lists of rows in insertion order, nullable columns as options. Only
the tables that the two web applications and the cleanup script read or write
are here. `Table.columns` repeats the column lists of the schema file, so that a
statement naming a column its table lacks can be told from one that does not.
-/

namespace Schema

inductive Table where
  | accessGroups | accessUser | activeDomainAdmins | auditLog | checkout | csrfTokens
  | delegateGroups | domainAdminHosts | entitlementGroups | entitlementHost | entitlements
  | explicitGroups | explicitHosts | groupGroup | groupHost | hostAccessGroup | hostGateway
  | ouGroup | ports | posixuser | sessions | staticHost
  deriving DecidableEq, Repr

def Table.columns : Table → List String
  | .accessGroups => ["groupurn", "ou", "type"]
  | .accessUser => ["eppn", "type"]
  | .activeDomainAdmins => ["samaccountname", "createtime", "disabletime"]
  | .auditLog => ["timestamp", "eppn", "event", "targetuser", "targethost", "targetgroup",
      "clientip"]
  | .checkout => ["owner", "starttime", "expiretime", "targethost", "reason", "aduser", "status"]
  | .csrfTokens => ["sessionId", "csrfToken", "lastused"]
  | .delegateGroups => ["groupurn", "ou"]
  | .domainAdminHosts => ["fqdn"]
  | .entitlementGroups => ["entitlement", "groupdn"]
  | .entitlementHost => ["entitlement", "fqdn", "ou"]
  | .entitlements => ["entitlement", "target"]
  | .explicitGroups => ["eppn", "groupdn"]
  | .explicitHosts => ["eppn", "fqdn", "ou"]
  | .groupGroup => ["groupurn", "groupdn"]
  | .groupHost => ["groupurn", "fqdn", "ou"]
  | .hostAccessGroup => ["fqdn", "ou", "groupdn"]
  | .hostGateway => ["fqdn", "gateway", "groupdn"]
  | .ouGroup => ["ou", "groupdn"]
  | .ports => ["portnum", "fqdn", "user", "owner"]
  | .posixuser => ["uid", "uidnumber", "gidnumber", "homedirectory", "loginshell"]
  | .sessions => ["fqdn", "owner", "displayname", "novncport", "vncpassword", "connected",
      "samaccountname", "running", "starttime", "status", "type", "delegatedou",
      "delegatedrole", "gatewayfqdn"]
  | .staticHost => ["eppn", "fqdn", "targetuser"]

/-- The statement names only columns that its table has. -/
def Table.knows (t : Table) (named : List String) : Bool :=
  named.all (fun c => t.columns.contains c)

/-- The characters of the tables, which are those of cp1252. -/
def latin1 (c : Char) : Bool :=
  c.toNat < 0x80 || (0xA0 ≤ c.toNat && c.toNat < 0x100) ||
    [0x81, 0x8D, 0x8F, 0x90, 0x9D, 0x20AC, 0x201A, 0x0192, 0x201E, 0x2026, 0x2020, 0x2021, 0x02C6,
      0x2030, 0x0160, 0x2039, 0x0152, 0x017D, 0x2018, 0x2019, 0x201C, 0x201D, 0x2022, 0x2013, 0x2014,
      0x02DC, 0x2122, 0x0161, 0x203A, 0x0153, 0x017E, 0x0178].contains c.toNat

/-- A column of that width takes the value as it is. -/
def storable (width : Nat) (value : Option String) : Bool :=
  value.all (fun s => decide (s.length ≤ width) && s.toList.all latin1)

structure AccessGroupRow where
  groupurn : String
  ou : Option String
  type : Option String
  deriving DecidableEq, Repr

structure AccessUserRow where
  eppn : Option String
  type : Option String
  deriving DecidableEq, Repr

structure ActiveDomainAdminRow where
  samaccountname : Option String
  createtime : Option Int
  disabletime : Option Int
  deriving DecidableEq, Repr

/-- The text of a point in time. A `datetime` column has no hour 24. -/
structure Timestamp where
  date : String
  hour : Nat
  minutes : String
  deriving DecidableEq, Repr

structure AuditRow where
  timestamp : Timestamp
  eppn : Option String
  event : Option String
  targetuser : Option String
  targethost : Option String
  targetgroup : Option String
  clientip : Option String
  deriving DecidableEq, Repr

structure CheckoutRow where
  owner : Option String
  starttime : Option Int
  expiretime : Option Int
  targethost : Option String
  reason : Option String
  aduser : Option String
  status : Option String
  deriving DecidableEq, Repr

structure CsrfRow where
  sessionId : Option String
  csrfToken : Option String
  lastused : Int
  deriving DecidableEq, Repr

structure DelegateRow where
  groupurn : Option String
  ou : Option String
  deriving DecidableEq, Repr

structure EntitlementRow where
  entitlement : String
  target : Option String
  deriving DecidableEq, Repr

structure ExplicitGroupRow where
  eppn : Option String
  groupdn : Option String
  deriving DecidableEq, Repr

/-- `group_group` and `entitlement_groups`: a group URN or an entitlement, and a group of the
directory. -/
structure GroupMapRow where
  subject : Option String
  groupdn : Option String
  deriving DecidableEq, Repr

/-- `explicit_hosts`, `group_host` and `entitlement_host`: a subject (eppn, group URN or
entitlement) and what it may reach. -/
structure HostMapRow where
  subject : Option String
  fqdn : Option String
  ou : Option String
  deriving DecidableEq, Repr

structure HostAccessRow where
  fqdn : Option String
  ou : Option String
  groupdn : Option String
  deriving DecidableEq, Repr

structure GatewayRow where
  fqdn : Option String
  gateway : Option String
  groupdn : Option String
  deriving DecidableEq, Repr

structure OuGroupRow where
  ou : String
  groupdn : Option String
  deriving DecidableEq, Repr

/-- `portnum` is only ever written by the allocator, hence a natural number. -/
structure PortRow where
  portnum : Nat
  fqdn : Option String
  user : Option String
  owner : Option String
  deriving DecidableEq, Repr

structure PosixRow where
  uid : String
  uidnumber : Int
  gidnumber : Int
  homedirectory : Option String
  loginshell : Option String
  deriving DecidableEq, Repr

structure SessionRow where
  fqdn : Option String
  owner : Option String
  displayname : Option String
  novncport : Option Nat
  vncpassword : Option String
  connected : Bool
  samaccountname : Option String
  running : Bool
  starttime : Option String
  status : Option String
  type : Option String
  delegatedou : Option String
  delegatedrole : Option String
  gatewayfqdn : Option String
  deriving DecidableEq, Repr

structure StaticHostRow where
  eppn : Option String
  fqdn : Option String
  targetuser : Option String
  deriving DecidableEq, Repr

structure Database where
  accessGroups : List AccessGroupRow
  accessUser : List AccessUserRow
  activeDomainAdmins : List ActiveDomainAdminRow
  auditLog : List AuditRow
  checkout : List CheckoutRow
  csrfTokens : List CsrfRow
  delegateGroups : List DelegateRow
  domainAdminHosts : List (Option String)
  entitlementGroups : List GroupMapRow
  entitlementHost : List HostMapRow
  entitlements : List EntitlementRow
  explicitGroups : List ExplicitGroupRow
  explicitHosts : List HostMapRow
  groupGroup : List GroupMapRow
  groupHost : List HostMapRow
  hostAccessGroup : List HostAccessRow
  hostGateway : List GatewayRow
  ouGroup : List OuGroupRow
  ports : List PortRow
  posixuser : List PosixRow
  sessions : List SessionRow
  staticHost : List StaticHostRow
  deriving DecidableEq, Repr

def Database.empty : Database where
  accessGroups := []
  accessUser := []
  activeDomainAdmins := []
  auditLog := []
  checkout := []
  csrfTokens := []
  delegateGroups := []
  domainAdminHosts := []
  entitlementGroups := []
  entitlementHost := []
  entitlements := []
  explicitGroups := []
  explicitHosts := []
  groupGroup := []
  groupHost := []
  hostAccessGroup := []
  hostGateway := []
  ouGroup := []
  ports := []
  posixuser := []
  sessions := []
  staticHost := []

/-! ## Statements that change a table -/

section Statements

universe u
variable {ρ : Type u}

/-- `update ... set ... where ...`. -/
def updateWhere (sel : ρ → Bool) (change : ρ → ρ) (rows : List ρ) : List ρ :=
  rows.map (fun r => if sel r then change r else r)

/-- `delete from ... where ...`. -/
def deleteWhere (sel : ρ → Bool) (rows : List ρ) : List ρ :=
  rows.filter (fun r => !sel r)

theorem mem_deleteWhere {sel : ρ → Bool} {rows : List ρ} {r : ρ} :
    r ∈ deleteWhere sel rows ↔ r ∈ rows ∧ sel r = false := by
  simp [deleteWhere]

theorem mem_updateWhere_of_not {sel : ρ → Bool} {change : ρ → ρ} {rows : List ρ} {r : ρ}
    (mem : r ∈ rows) (out : sel r = false) : r ∈ updateWhere sel change rows :=
  List.mem_map.mpr ⟨r, mem, by simp [out]⟩

theorem updateWhere_eq_self {sel : ρ → Bool} {change : ρ → ρ} {rows : List ρ}
    (out : ∀ r ∈ rows, sel r = false) : updateWhere sel change rows = rows := by
  have same : ∀ r ∈ rows, (if sel r then change r else r) = id r := by
    intro r hr
    simp [out r hr]
  rw [updateWhere, List.map_congr_left same, List.map_id]

/-- What an update leaves alone can be read off the table before it. -/
theorem map_updateWhere {β : Type*} {g : ρ → β} {sel : ρ → Bool} {change : ρ → ρ}
    (same : ∀ r, g (change r) = g r) (rows : List ρ) :
    (updateWhere sel change rows).map g = rows.map g := by
  rw [updateWhere, List.map_map]
  refine List.map_congr_left (fun r _ => ?_)
  simp only [Function.comp]
  split
  · exact same r
  · rfl

/-- Selecting by what an update leaves alone. -/
theorem filter_updateWhere {p sel : ρ → Bool} {change : ρ → ρ}
    (same : ∀ r, p (change r) = p r) (rows : List ρ) :
    (updateWhere sel change rows).filter p = updateWhere sel change (rows.filter p) := by
  have pointwise : (p ∘ fun r => if sel r then change r else r) = p := by
    funext r
    simp only [Function.comp]
    split
    · exact same r
    · rfl
  rw [updateWhere, List.filter_map, pointwise, updateWhere]

/-- Rows that are not selected do not notice what becomes of the others. -/
theorem filter_deleteWhere {keep sel : ρ → Bool} {rows : List ρ}
    (others : ∀ r, sel r = true → keep r = false) :
    (deleteWhere sel rows).filter keep = rows.filter keep := by
  rw [deleteWhere, List.filter_filter]
  refine List.filter_congr (fun r _ => ?_)
  cases selected : sel r with
  | false => simp
  | true => simp [others r selected]

theorem filter_append_row {keep : ρ → Bool} {rows : List ρ} {row : ρ} (other : keep row = false) :
    (rows ++ [row]).filter keep = rows.filter keep := by
  simp [List.filter_append, other]

theorem filter_updateWhere_others {keep sel : ρ → Bool} {change : ρ → ρ} {rows : List ρ}
    (others : ∀ r, sel r = true → keep r = false) (same : ∀ r, keep (change r) = keep r) :
    (updateWhere sel change rows).filter keep = rows.filter keep := by
  rw [filter_updateWhere same]
  refine updateWhere_eq_self (fun r hr => ?_)
  by_contra selected
  rw [Bool.not_eq_false] at selected
  have kept := (List.mem_filter.mp hr).2
  rw [others r selected] at kept
  cases kept

end Statements

end Schema
