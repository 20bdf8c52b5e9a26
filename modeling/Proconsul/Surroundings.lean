import Proconsul.Program
import Proconsul.Schema

/-!
# Everything outside the servlet

One record holds the database, the directory, the Docker engine, the ids of
the containers whose generated cleanup script has not finished, and a log of
the effects the program had on them. The directory is one logical store;
replication between domain controllers shows only in the answers that
individual calls give.

An external call is atomic and either answers or raises without effect. Which
calls raise is not part of the world: every model function takes the outcome
of its own calls as an argument (`true` means the call raises), so a statement
for all arguments is a statement for every pattern of failures.
-/

namespace Surroundings

open Program Schema Text

/-! ## Configuration and people -/

/-- Properties that `PCConfig.getProperty(_, true)` insists on; `staticbase`
is the optional one. `dcs` is the number of domain controller connections: one
for each server that `ldap.dcs` names, and it names at least one. -/
structure Config where
  domain : String
  targetbase : String
  staticbase : Option String
  orgbase : String
  dagroup : String
  defgroupdn : String
  image : String
  cpuset : String
  novncHostname : String
  novncUri : String
  dcs : Nat
  dcs_pos : 0 < dcs
  deriving DecidableEq, Repr

/-- A small site, for concrete runs. -/
def sampleConfig : Config where
  domain := "dom.ain"
  targetbase := "ou=proconsul,dc=dom,dc=ain"
  staticbase := none
  orgbase := "ou=orgs,dc=dom,dc=ain"
  dagroup := "cn=Domain Admins,cn=Users,dc=dom,dc=ain"
  defgroupdn := "cn=proconsul,dc=dom,dc=ain"
  image := "rdpstack"
  cpuset := "0"
  novncHostname := "pc.dom.ain"
  novncUri := "/vnc.html"
  dcs := 1
  dcs_pos := by decide

structure AuthUser where
  uid : Option String
  memberships : List String
  entitlements : List String
  deriving DecidableEq, Repr

structure ADUser where
  sAMAccountName : Option String
  adPassword : Option String
  adDomain : Option String
  adOu : Option String
  memberships : List String
  created : Bool
  deriving DecidableEq, Repr

/-! ## Directory -/

structure Account where
  sam : String
  dn : String
  password : Option String
  userAccountControl : Nat
  memberOf : List String
  userWorkstations : Option String
  posix : Option PosixRow
  deriving DecidableEq, Repr

structure Computer where
  cn : String
  dn : String
  dnsHostName : Option String
  deriving DecidableEq, Repr

structure Directory where
  accounts : List Account
  groups : List String
  computers : List Computer
  deriving DecidableEq, Repr

/-! ## Containers -/

inductive Image where
  | default | large | vncLarge | vncDefault
  deriving DecidableEq, Repr

/-- `created` is `docker create` without `docker start`; `startFailed` is a
container whose start was refused and that will never run. -/
inductive ContainerStatus where
  | created
  | running
  | exited (retval : Option Nat)
  | startFailed
  deriving DecidableEq, Repr

/-- The environment handed to the container and its state in the engine.
`retval` of `exited` is the number in /tmp/retval, if the file is there. -/
structure Container where
  id : Nat
  image : Image
  vncpassword : String
  winuser : String
  domain : String
  winpass : String
  rhostname : String
  display : Nat
  gateway : Option String
  status : ContainerStatus
  launched : Bool
  deriving DecidableEq, Repr

def Container.portnum (c : Container) : Nat := c.display + 5900

def Container.ext (c : Container) : Nat := c.display + 5901

/-- The containers that exist. An id is never used again. -/
structure Engine where
  containers : List Container
  nextId : Nat
  fresh : ∀ c ∈ containers, c.id < nextId
  distinct : (containers.map Container.id).Nodup
  deriving DecidableEq, Repr

namespace Engine

def empty : Engine := ⟨[], 0, by simp, by simp⟩

def find (e : Engine) (id : Nat) : Option Container := e.containers.find? (fun c => c.id == id)

/-- `docker create`: the container gets the next id. -/
def create (e : Engine) (make : Nat → Container) : Engine where
  containers := e.containers ++ [{ make e.nextId with id := e.nextId }]
  nextId := e.nextId + 1
  fresh := by
    intro c hc
    rcases List.mem_append.mp hc with hc | hc
    · exact Nat.lt_succ_of_lt (e.fresh c hc)
    · cases List.mem_singleton.mp hc
      exact Nat.lt_succ_self _
  distinct := by
    rw [List.map_append, List.nodup_append]
    refine ⟨e.distinct, by simp, ?_⟩
    intro i hi j hj
    obtain ⟨c, hc, rfl⟩ := List.mem_map.mp hi
    cases List.mem_singleton.mp hj
    exact Nat.ne_of_lt (e.fresh c hc)

theorem ids_updateWhere {cs : List Container} {sel : Container → Bool}
    {f : Container → Container} (same : ∀ c, (f c).id = c.id) :
    (updateWhere sel f cs).map Container.id = cs.map Container.id :=
  map_updateWhere same cs

/-- A change of one container that leaves its id alone. -/
def change (e : Engine) (id : Nat) (f : Container → Container) (same : ∀ c, (f c).id = c.id) :
    Engine where
  containers := updateWhere (fun c => c.id == id) f e.containers
  nextId := e.nextId
  fresh := by
    intro c hc
    have listed : c.id ∈ e.containers.map Container.id :=
      ids_updateWhere same ▸ List.mem_map_of_mem hc
    obtain ⟨c', hc', heq⟩ := List.mem_map.mp listed
    exact heq ▸ e.fresh c' hc'
  distinct := by
    rw [ids_updateWhere same]
    exact e.distinct

def setStatus (e : Engine) (id : Nat) (status : ContainerStatus) : Engine :=
  e.change id (fun c => { c with status := status }) (fun _ => rfl)

/-- The container's xfreerdp process appears. -/
def launch (e : Engine) (id : Nat) : Engine :=
  e.change id (fun c => { c with launched := true }) (fun _ => rfl)

def remove (e : Engine) (id : Nat) : Engine where
  containers := deleteWhere (fun c => c.id == id) e.containers
  nextId := e.nextId
  fresh := fun c hc => e.fresh c (mem_deleteWhere.mp hc).1
  distinct := e.distinct.sublist (List.Sublist.map _ List.filter_sublist)

theorem find_create (e : Engine) (make : Nat → Container) :
    (e.create make).find e.nextId = some { make e.nextId with id := e.nextId } := by
  have old : e.containers.find? (fun c => c.id == e.nextId) = none := by
    rw [List.find?_eq_none]
    intro c hc
    simp [Nat.ne_of_lt (e.fresh c hc)]
  simp [find, create, List.find?_append, old]

theorem find_of_mem {e : Engine} {c : Container} (hc : c ∈ e.containers) : e.find c.id = some c := by
  have first : ∀ cs : List Container, (cs.map Container.id).Nodup → c ∈ cs →
      cs.find? (fun d => d.id == c.id) = some c := by
    intro cs
    induction cs with
    | nil => simp
    | cons d cs ih =>
      intro nodup hmem
      rw [List.map_cons, List.nodup_cons] at nodup
      rcases List.mem_cons.mp hmem with rfl | hmem
      · simp
      · have differ : d.id ≠ c.id := fun h => nodup.1 (h ▸ List.mem_map_of_mem hmem)
        rw [List.find?_cons_of_neg (by simpa using differ)]
        exact ih nodup.2 hmem
  exact first e.containers e.distinct hc

theorem mem_change {e : Engine} {id : Nat} {f : Container → Container}
    (same : ∀ c, (f c).id = c.id) {d : Container} (hd : d ∈ (e.change id f same).containers) :
    ∃ c ∈ e.containers, d.id = c.id ∧ ((c.id = id ∧ d = f c) ∨ (c.id ≠ id ∧ d = c)) := by
  obtain ⟨c, hc, rfl⟩ := List.mem_map.mp hd
  refine ⟨c, hc, ?_⟩
  by_cases h : c.id = id
  · simp [h, same]
  · simp [h]

theorem mem_setStatus {e : Engine} {id : Nat} {status : ContainerStatus} {d : Container}
    (hd : d ∈ (e.setStatus id status).containers) :
    ∃ c ∈ e.containers, d.id = c.id ∧
      ((c.id = id ∧ d = { c with status := status }) ∨ (c.id ≠ id ∧ d = c)) :=
  mem_change (f := fun c => { c with status := status }) (fun _ => rfl) hd

theorem eq_of_id {e : Engine} {c d : Container} (hc : c ∈ e.containers) (hd : d ∈ e.containers)
    (same : c.id = d.id) : c = d := by
  have found := find_of_mem hc
  rw [same, find_of_mem hd] at found
  exact (Option.some.inj found).symm

end Engine

/-! ## Effects, world and exceptions -/

inductive Effect where
  | accountCreated (sam : String)
  | accountDeleted (sam : String)
  | groupAdded (sam : String) (groupDn : String)
  | daStored (sam : Option String)
  | portReserved (portnum : Nat)
  | sessionInserted (row : SessionRow)
  | sessionUpdated (fqdn : Option String)
  | containerCreated (id : Nat)
  | containerStarted (c : Container)
  | cleaned (c : Container)
  deriving DecidableEq, Repr

/-- Changes to accounts and to the list of active Domain Admins. -/
def Effect.quiet : Effect → Bool
  | .accountCreated _ | .accountDeleted _ | .groupAdded _ _ | .daStored _ => true
  | _ => false

/-- Entries about containers. -/
def Effect.ofEngine : Effect → Bool
  | .containerCreated _ | .containerStarted _ => true
  | _ => false

/-- The clock of the host. -/
structure Clock where
  date : String
  hour : Fin 24
  minutes : String
  deriving DecidableEq, Repr

/-- `yyyy-MM-dd kk:mm:ss`, the pattern of `writeAuditLog`: `kk` counts the hours of a day from 1. -/
def Clock.kk (t : Clock) : Timestamp := ⟨t.date, if t.hour = 0 then 24 else t.hour, t.minutes⟩

/-- `date +'%Y-%m-%d %H:%M:%S'`. -/
def Clock.stamp (t : Clock) : Timestamp := ⟨t.date, t.hour, t.minutes⟩

structure World where
  clock : Clock
  db : Database
  ad : Directory
  engine : Engine
  scripts : List Nat
  trace : List Effect
  deriving DecidableEq, Repr

/-- The log entries that an execution from `w` to `w'` has added. -/
def newEffects (w w' : World) : List Effect := w'.trace.drop w.trace.length

theorem newEffects_of_append {w w' : World} {effects : List Effect}
    (h : w'.trace = w.trace ++ effects) : newEffects w w' = effects := by
  rw [newEffects, h, List.drop_left]

theorem newEffects_of_same {w w' : World} (h : w'.trace = w.trace) : newEffects w w' = [] := by
  rw [newEffects, h, List.drop_length]

def World.empty : World where
  clock := ⟨"2024-01-01", 9, "00:00"⟩
  db := .empty
  ad := ⟨[], [], []⟩
  engine := .empty
  scripts := []
  trace := []

inductive Exn where
  | sqlException
  | namingException
  | nullPointer
  | indexOutOfBounds
  | runtimeException (message : String)
  | containerInit (message : String)
  | dockerException
  deriving DecidableEq, Repr

abbrev Run (α : Type) : Type := Prog World Exn α

/-! ## External calls -/

/-- A query. It raises when the call fails or a named column does not exist. -/
def query {α : Type} (fails : Bool) (t : Table) (named : List String) (read : Database → α) :
    Run α :=
  Prog.atom (fun w =>
    if fails || !t.knows named then (.error .sqlException, w) else (.ok (read w.db), w))

/-- A statement that changes the database, with the effects to be logged. -/
def execute (fails : Bool) (t : Table) (named : List String)
    (write : Database → Database × List Effect) : Run Unit :=
  Prog.atom (fun w =>
    if fails || !t.knows named then (.error .sqlException, w)
    else (.ok (), { w with db := (write w.db).1, trace := w.trace ++ (write w.db).2 }))

/-- A directory read. -/
def search {α : Type} (fails : Bool) (read : Directory → α) : Run α :=
  Prog.atom (fun w => if fails then (.error .namingException, w) else (.ok (read w.ad), w))

/-- A directory change; `none` is the directory's own refusal. -/
def modify (fails : Bool) (change : Directory → Option (Directory × List Effect)) : Run Unit :=
  Prog.atom (fun w =>
    if fails then (.error .namingException, w)
    else match change w.ad with
      | none => (.error .namingException, w)
      | some (ad, effects) => (.ok (), { w with ad := ad, trace := w.trace ++ effects }))

/-- Dereferencing a possibly null reference. -/
def deref {α : Type} : Option α → Run α
  | some a => pure a
  | none => Prog.throwing .nullPointer

/-- `ResultSet.getString` on a row of table `t`. -/
def getString (t : Table) (column : String) (value : Option String) : Run (Option String) :=
  if t.knows [column] then pure value else Prog.throwing .sqlException

/-- `audit`: the row goes to audit_log, and a failure of that insert is swallowed. -/
def audit (fails : Bool) (event : String) (authUser targetHost targetUser targetGroup
    clientIp : Option String) : Run Unit :=
  Prog.orElse (Prog.atom (fun w =>
    let row : AuditRow :=
      ⟨w.clock.kk, authUser, some event, targetUser, targetHost, targetGroup, clientIp⟩
    if fails then (.error .sqlException, w)
    else (.ok (), { w with db := { w.db with auditLog := w.db.auditLog ++ [row] } }))) ()

/-! ## Undisturbed execution of the calls -/

section Calls

variable {α : Type}

theorem run_query {t : Table} {named : List String} (known : t.knows named = true)
    (fails : Bool) (read : Database → α) (w : World) :
    (query fails t named read).run w =
      if fails then (.error .sqlException, w) else (.ok (read w.db), w) := by
  simp [query, known]

/-- A statement on a column the schema does not have always raises. -/
theorem run_query_unknown {t : Table} {named : List String} (unknown : t.knows named = false)
    (fails : Bool) (read : Database → α) (w : World) :
    (query fails t named read).run w = (.error .sqlException, w) := by
  simp [query, unknown]

theorem run_execute {t : Table} {named : List String} (known : t.knows named = true)
    (fails : Bool) (write : Database → Database × List Effect) (w : World) :
    (execute fails t named write).run w =
      if fails then (.error .sqlException, w)
      else (.ok (), { w with db := (write w.db).1, trace := w.trace ++ (write w.db).2 }) := by
  simp [execute, known]

theorem run_modify {change : Directory → Option (Directory × List Effect)} (fails : Bool)
    {w : World} {ad : Directory} {effects : List Effect} (h : change w.ad = some (ad, effects)) :
    (modify fails change).run w =
      if fails then (.error .namingException, w)
      else (.ok (), { w with ad := ad, trace := w.trace ++ effects }) := by
  simp [Surroundings.modify, h]

theorem run_modify_none {change : Directory → Option (Directory × List Effect)} (fails : Bool)
    {w : World} (h : change w.ad = none) :
    (modify fails change).run w = (.error .namingException, w) := by
  simp [Surroundings.modify, h]

/-! ## What the calls leave alone -/

/-- The step does not change what `f` observes. -/
def Keeps {β : Type} (f : World → β) (w w' : World) : Prop := f w' = f w

theorem keeps_run {β : Type} {f : World → β} {p : Run α} (hp : p.Steps (Keeps f)) (w : World) :
    f (p.run w).2 = f w :=
  Prog.run_related (R := Keeps f) (fun _ => rfl) (fun _ _ _ h h' => Eq.trans h' h) hp w

theorem reads_query (fails : Bool) (t : Table) (named : List String) (read : Database → α) :
    (query fails t named read).Reads := by
  apply Prog.steps_atom
  intro w
  split <;> rfl

theorem reads_search (fails : Bool) (read : Directory → α) : (search fails read).Reads := by
  apply Prog.steps_atom
  intro w
  split <;> rfl

theorem steps_deref {R : World → World → Prop} (a : Option α) : (deref a).Steps R := by
  cases a <;> trivial

/-- A statement changes nothing but what its write function changes. -/
theorem steps_execute {R : World → World → Prop} (refl : ∀ w, R w w) (fails : Bool) (t : Table)
    (named : List String) {write : Database → Database × List Effect}
    (h : ∀ w : World, R w { w with db := (write w.db).1, trace := w.trace ++ (write w.db).2 }) :
    (execute fails t named write).Steps R := by
  apply Prog.steps_atom
  intro w
  split
  · exact refl w
  · exact h w

theorem steps_modify {R : World → World → Prop} (refl : ∀ w, R w w) (fails : Bool)
    {change : Directory → Option (Directory × List Effect)}
    (h : ∀ (w : World) ad effects, change w.ad = some (ad, effects) →
      R w { w with ad := ad, trace := w.trace ++ effects }) :
    (modify fails change).Steps R := by
  apply Prog.steps_atom
  intro w
  split
  · exact refl w
  · split
    · exact refl w
    · rename_i ad effects hc
      exact h w ad effects hc

/-- `R` permits a step that changes nothing, or adds a row to the audit log. -/
structure Logs (R : World → World → Prop) : Prop where
  refl : ∀ w, R w w
  append : ∀ (w : World) row,
    R w { w with db := { w.db with auditLog := w.db.auditLog ++ [row] } }

theorem steps_audit {R : World → World → Prop} (logs : Logs R) (fails : Bool) (event : String)
    (authUser targetHost targetUser targetGroup clientIp : Option String) :
    (audit fails event authUser targetHost targetUser targetGroup clientIp).Steps R := by
  refine Prog.steps_orElse (Prog.steps_atom (fun w => ?_)) ()
  dsimp only
  split
  · exact logs.refl w
  · exact logs.append w _

/-! ## Steps away from ports, sessions and containers -/

/-- `R` permits whatever a step does to accounts, Domain Admin rows, tokens
and the audit log. Most of what a handler does is of this kind. -/
def Quiet (R : World → World → Prop) : Prop :=
  ∀ (w : World) accounts log admins tokens effects, (∀ e ∈ effects, Effect.quiet e = true) →
    R w { w with
      ad := { w.ad with accounts := accounts }
      db := { w.db with auditLog := log, activeDomainAdmins := admins, csrfTokens := tokens }
      trace := w.trace ++ effects }

variable {R : World → World → Prop}

/-- Nothing but the table of CSRF tokens has changed. -/
def OnlyTokens (w w' : World) : Prop :=
  ∃ tokens, w' = { w with db := { w.db with csrfTokens := tokens } }

theorem OnlyTokens.refl (w : World) : OnlyTokens w w := ⟨w.db.csrfTokens, rfl⟩

theorem OnlyTokens.trans {w w' w'' : World} (h : OnlyTokens w w') (h' : OnlyTokens w' w'') :
    OnlyTokens w w'' := by
  obtain ⟨tokens, rfl⟩ := h
  obtain ⟨tokens', rfl⟩ := h'
  exact ⟨tokens', rfl⟩

theorem OnlyTokens.trace {w w' : World} (h : OnlyTokens w w') : w'.trace = w.trace := by
  obtain ⟨tokens, rfl⟩ := h
  rfl

theorem Quiet.onlyTokens (quiet : Quiet R) {w w' : World} (h : OnlyTokens w w') : R w w' := by
  obtain ⟨tokens, rfl⟩ := h
  simpa using quiet w w.ad.accounts w.db.auditLog w.db.activeDomainAdmins tokens []

theorem Quiet.refl (quiet : Quiet R) (w : World) : R w w := by
  simpa using quiet w w.ad.accounts w.db.auditLog w.db.activeDomainAdmins w.db.csrfTokens []

theorem Quiet.logs (quiet : Quiet R) : Logs R where
  refl := quiet.refl
  append w row := by
    simpa using quiet w w.ad.accounts (w.db.auditLog ++ [row]) w.db.activeDomainAdmins
      w.db.csrfTokens []

theorem quiet_audit (quiet : Quiet R) (fails : Bool) (event : String)
    (authUser targetHost targetUser targetGroup clientIp : Option String) :
    (audit fails event authUser targetHost targetUser targetGroup clientIp).Steps R :=
  steps_audit quiet.logs fails event _ _ _ _ _

/-- A directory change that only touches accounts. -/
theorem quiet_modify (quiet : Quiet R) (fails : Bool)
    {change : Directory → Option (Directory × List Effect)}
    (accounts : ∀ ad ad' effects, change ad = some (ad', effects) →
      ad' = { ad with accounts := ad'.accounts } ∧ ∀ e ∈ effects, Effect.quiet e = true) :
    (modify fails change).Steps R := by
  refine steps_modify quiet.refl fails ?_
  intro w ad effects hc
  obtain ⟨had, heff⟩ := accounts w.ad ad effects hc
  rw [had]
  simpa using quiet w ad.accounts w.db.auditLog w.db.activeDomainAdmins w.db.csrfTokens effects heff

end Calls

end Surroundings
