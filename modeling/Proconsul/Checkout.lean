import Mathlib.Algebra.Group.Nat.Defs
import Proconsul.Handlers

/-!
# Checked-out credentials

`handleCheckOutPost` creates an account, puts it into the requested groups,
restricts it to hosts and only then records it in `checkout`, the table that
the expiry sweep of `CheckOutManager` works from. The sweep is one `try`
block: an exception on one row ends it. `handleUpdateCheckout` serves the two
buttons beneath a checkout on the page, which move its `expiretime`.
-/

namespace Checkout

open Program Schema Text Surroundings Access Hosts Accounts Sessions Handlers

/-! ## The expiry sweep -/

structure SweepCalls where
  select : Bool
  delete : Nat → DeleteCalls
  update : Nat → Bool
  admins : Nat → AdminCalls

/-- No call fails; `now` is the clock in seconds, as `disabletime` has it. -/
def SweepCalls.noOutage (now : Int) : SweepCalls where
  select := false
  delete := fun _ => .noOutage
  update := fun _ => false
  admins := fun _ => .noOutage now

/-- `status = 'active' and expiretime <= t`. -/
def expired (t : Int) (r : CheckoutRow) : Bool :=
  sqlEq r.status (some "active") && r.expiretime.any (fun e => decide (e ≤ t))

def sweepRow (ownerColumn : String) (cfg : Config) (c : SweepCalls) (r : CheckoutRow × Nat) :
    Run Unit := do
  let adu : ADUser :=
    { sAMAccountName := r.1.aduser, adPassword := none, adDomain := some cfg.domain,
      adOu := some cfg.targetbase, memberships := [], created := false }
  let owner ← getString .checkout ownerColumn r.1.owner
  let au : AuthUser := ⟨owner, [], []⟩
  let _ ← deleteAdUser cfg (c.delete r.2) adu (some au) none
  execute (c.update r.2) .checkout ["status", "aduser"] (fun db =>
    let closed := updateWhere (fun x => sqlEq x.aduser r.1.aduser)
      (fun x => { x with status := some "inactive" }) db.checkout
    ({ db with checkout := closed }, []))
  let _ ← removeAuthorizedDA (c.admins r.2) adu (some au) none

/-- `CheckOutManager.run` with the column it reads the owner from. A run that
finds another one active returns at once. -/
def runReading (ownerColumn : String) (cfg : Config) (c : SweepCalls) (active : Bool) (t : Int) :
    Run Unit :=
  if active then pure ()
  else Prog.orElse (do
    let rows ← query c.select .checkout ["status", "expiretime"] (fun db =>
      db.checkout.filter (expired t))
    rows.zipIdx.forM (sweepRow ownerColumn cfg c)) ()

/-- The source asks for column `eppn`. -/
def run (cfg : Config) (c : SweepCalls) (active : Bool) (t : Int) : Run Unit :=
  runReading "eppn" cfg c active t

/-! ## The request handler -/

structure CheckedOutCredRequest where
  targetHost : Option String
  lifetime : Int
  reason : Option String
  csrfToken : Option String
  groups : Option (List String)
  deriving DecidableEq, Repr

structure CheckoutCalls where
  app : AccessCalls
  co : Bool
  token : TokenCalls
  da : Nat → AccessCalls
  explicit : Nat → Bool
  create : CreateCalls
  register : Nat → AdminCalls
  group : Nat → GroupCalls
  default : GroupCalls
  workstation : Nat → WorkstationCalls
  store : Bool
  now : Int
  localeString : Int → String

def CheckoutCalls.noOutage (name password : String) (now : Int)
    (drawn : plainName name = true := by exact plainName_pats) : CheckoutCalls where
  app := .noOutage
  co := false
  token := .noOutage
  da := fun _ => .noOutage
  explicit := fun _ => false
  create := .noOutage name password drawn
  register := fun _ => .noOutage (now / 1000)
  group := fun _ => .noOutage
  default := .noOutage
  workstation := fun _ => .noOutage
  store := false
  now := now
  localeString := fun _ => ""

def checkoutCsrf : CsrfMessages where
  origin := "CSRF origin violation -- your browser is not authorized for this operation."
  mismatch := "CSRF token violation -- your browser is not authorized for this operation"
  missing := "CSRF token violation -- your browser did not present the required token for this operation"

/-- The groups of the request, with `|` standing for the comma of a DN. -/
def requestedGroups (form : CheckedOutCredRequest) : List String :=
  (form.groups.getD []).map (replaceChar '|' ',')

/-- The configured group needs `canUseDA`, any other an explicit mapping; both
comparisons are exact. -/
def groupGate (cfg : Config) (c : CheckoutCalls) (au : AuthUser) (g : String × Nat) : Gate :=
  if g.1 = cfg.dagroup then
    refuseUnless (canUseDA (c.da g.2) au) "User not authorized for DA operation"
  else
    refuseUnless (do return (← groupDnsForEppn (c.explicit g.2) au.uid).contains (some g.1))
      ("You are not authorized to use group " ++ g.1)

def checkoutAllowed (c : CheckoutCalls) (au : AuthUser) : Run Bool := do
  if ← canUseApp c.app au then canUseCO c.co au else return false

def checkoutGates (cfg : Config) (c : CheckoutCalls) (req : Request)
    (form : CheckedOutCredRequest) : List Gate :=
  refuseUnless (checkoutAllowed c req.authUser)
      ("You (" ++ javaString req.authUser.uid ++ ") are not authorized to use the checkout feature") ::
    csrfGate c.token req form.csrfToken checkoutCsrf ::
    (requestedGroups form).zipIdx.map (groupGate cfg c req.authUser)

/-- The applying pass over one requested group. The answer of the registration
is not looked at. -/
def assignGroup (cfg : Config) (c : CheckoutCalls) (au : AuthUser) (addr : Option String)
    (u : ADUser) (g : String × Nat) : Run ADUser := do
  if g.1 = cfg.dagroup then
    let _ ← makeUserAuthorizedDA (c.register g.2) u (some au) addr
  return (← addGroupToADUser cfg (c.group g.2) (some g.1) (some u) (some au) addr).getD u

def storeCheckedOutUser (fails : Bool) (row : CheckoutRow) : Run Bool :=
  Prog.orElse (do
    execute fails .checkout [] (fun db => ({ db with checkout := db.checkout ++ [row] }, []))
    return true) false

def clampHours (lifetime : Int) : Int := min 12 (max 2 lifetime)

def expiration (c : CheckoutCalls) (form : CheckedOutCredRequest) : Int :=
  c.now + clampHours form.lifetime * 3600000

def checkoutRow (c : CheckoutCalls) (req : Request) (form : CheckedOutCredRequest) (u : ADUser) :
    CheckoutRow where
  owner := req.authUser.uid
  starttime := some c.now
  expiretime := some (expiration c form)
  targethost := form.targetHost
  reason := some (keepOnly displayChar (form.reason.getD ""))
  aduser := u.sAMAccountName
  status := some "active"

/-- Everything after the account exists. The host list is split without a test
for null, and the answer of the store is not looked at. -/
def registerCheckout (cfg : Config) (c : CheckoutCalls) (req : Request)
    (form : CheckedOutCredRequest) (u : ADUser) : Run Page := do
  let au := req.authUser
  let u ← (requestedGroups form).zipIdx.foldlM (assignGroup cfg c au req.remoteAddr) u
  let u := (← addGroupToADUser cfg c.default (some cfg.defgroupdn) (some u) (some au)
    req.remoteAddr).getD u
  let limithost ← deref form.targetHost
  let u ← (javaSplit ',' limithost).zipIdx.foldlM (fun u h =>
    addWorkstationToADUser cfg (c.workstation h.2) h.1 u (some au) req.remoteAddr) u
  let _ ← storeCheckedOutUser c.store (checkoutRow c req form u)
  return .checkedout ("Your checked out user id is " ++ javaString u.sAMAccountName ++
    " with password " ++ javaString u.adPassword ++ " which will be valid until " ++
    c.localeString (expiration c form))

def handleCheckOutPost (cfg : Config) (c : CheckoutCalls) (req : Request)
    (form : CheckedOutCredRequest) : Run Page :=
  withAccount cfg c.create none (inOrder (checkoutGates cfg c req form))
    (registerCheckout cfg c req form)

/-! ## Extending, expiring and listing -/

/-- What the page and the buttons beneath it say about a checkout. -/
structure CheckedOutCred where
  authUser : AuthUser
  targetUser : ADUser
  targetHost : Option String
  reason : Option String
  startTime : Int
  status : String
  lifetime : Int
  expirationTime : Int
  expirationDate : String
  deriving DecidableEq, Repr

/-- `expiretime >= now`. -/
def alive (now : Int) (r : CheckoutRow) : Bool := r.expiretime.any (fun e => decide (now ≤ e))

/-- The rows that the two buttons change. -/
def pressed (owner aduser : Option String) (now : Int) (r : CheckoutRow) : Bool :=
  sqlEq r.owner owner && sqlEq r.aduser aduser && alive now r

/-- The clock is read once for the new value, where it is one, and once for the comparison. -/
structure ButtonCalls where
  write : Bool
  audit : Bool
  set : Int
  now : Int

def ButtonCalls.noOutage (now : Int) : ButtonCalls := ⟨false, false, now, now⟩

def extendRow (r : CheckoutRow) : CheckoutRow :=
  { r with expiretime := r.expiretime.map (· + 7200000) }

def extendCheckedOutUser (c : ButtonCalls) (co : CheckedOutCred) (clientip : Option String) :
    Run Bool :=
  Prog.orElse (do
    execute c.write .checkout ["expiretime", "owner", "aduser"] (fun db =>
      let extended := updateWhere (pressed co.authUser.uid co.targetUser.sAMAccountName c.now)
        extendRow db.checkout
      ({ db with checkout := extended }, []))
    audit c.audit "extendCheckedOutCredLifetime" co.authUser.uid co.targetHost
      co.targetUser.sAMAccountName none clientip
    return true) false

def expireCheckedOutUser (c : ButtonCalls) (co : CheckedOutCred) (clientip : Option String) :
    Run Bool :=
  Prog.orElse (do
    execute c.write .checkout ["expiretime", "owner", "aduser"] (fun db =>
      let ended := updateWhere (pressed co.authUser.uid co.targetUser.sAMAccountName c.now)
        (fun r => { r with expiretime := some c.set }) db.checkout
      ({ db with checkout := ended }, []))
    audit c.audit "expireCheckedOutCred" co.authUser.uid co.targetHost
      co.targetUser.sAMAccountName none clientip
    return true) false

/-- A user object of which only the name is set. -/
def namedUser (sam : Option String) : ADUser where
  sAMAccountName := sam
  adPassword := none
  adDomain := none
  adOu := none
  memberships := []
  created := false

/-- One entry of the list. The lifetime is cast to an `int` before the division. -/
def listedCred (localeString : Int → String) (r : CheckoutRow) : CheckedOutCred where
  authUser := ⟨r.owner, [], []⟩
  targetUser := namedUser r.aduser
  targetHost := r.targethost
  reason := r.reason
  startTime := r.starttime.getD 0
  status := "active"
  lifetime := (Int.bmod (r.expiretime.getD 0 - r.starttime.getD 0) (2 ^ 32)).tdiv 3600000
  expirationTime := r.expiretime.getD 0
  expirationDate := localeString (r.expiretime.getD 0)

/-- The status of a row is not asked for. -/
def getAvailableCheckedOutUsers (fails : Bool) (localeString : Int → String) (au : AuthUser)
    (now : Int) : Run (List CheckedOutCred) :=
  Prog.orElse (query fails .checkout ["owner", "expiretime"] (fun db =>
    (db.checkout.filter (fun r => sqlEq r.owner au.uid && alive now r)).map
      (listedCred localeString))) []

/-- The form and the parameters that `/updateCheckOut` reads past it. -/
structure UpdateCheckoutRequest where
  csrfToken : Option String
  owner : Option String
  targetUser : Option String
  expireNow : Option String
  extendNow : Option String
  deriving DecidableEq, Repr

structure UpdateCheckoutCalls where
  app : AccessCalls
  co : Bool
  token : TokenCalls
  button : ButtonCalls

def UpdateCheckoutCalls.noOutage (now : Int) : UpdateCheckoutCalls where
  app := .noOutage
  co := false
  token := .noOutage
  button := .noOutage now

def updateCsrf : CsrfMessages where
  origin := "CSRF origin violation"
  mismatch := "CSRF token violation"
  missing := "CSRF token violation"

/-- The empty user id is exempt; any other must be the owner, to the letter. -/
def mayUpdate (fails : Bool) (au : AuthUser) (owner : Option String) : Run Bool :=
  match au.uid with
  | none => pure false
  | some uid =>
    if uid = "" then pure true
    else do
      if ← canUseCO fails au then return decide (owner = some uid) else return false

def updateGates (c : UpdateCheckoutCalls) (req : Request) (form : UpdateCheckoutRequest) :
    List Gate :=
  [refuseUnless (canUseApp c.app req.authUser)
     ("You (" ++ javaString req.authUser.uid ++ ") are not allowed to use this application."),
   refuseUnless (mayUpdate c.co req.authUser form.owner)
     "You are not authorized to update this object",
   csrfGate c.token req form.csrfToken updateCsrf]

/-- The checkout that a button of the page names. -/
def pressedCred (req : Request) (form : UpdateCheckoutRequest) : CheckedOutCred where
  authUser := req.authUser
  targetUser := namedUser form.targetUser
  targetHost := none
  reason := none
  startTime := 0
  status := ""
  lifetime := 0
  expirationTime := 0
  expirationDate := ""

/-- Both parameters are dereferenced before either button is acted upon. -/
def pressButton (c : UpdateCheckoutCalls) (req : Request) (form : UpdateCheckoutRequest) :
    Run Page := do
  let expireNow ← deref form.expireNow
  let extendNow ← deref form.extendNow
  let co := pressedCred req form
  if expireNow = "true" then
    let _ ← expireCheckedOutUser c.button co req.remoteAddr
    return .redirect "/"
  else if extendNow = "true" then
    let _ ← extendCheckedOutUser c.button co req.remoteAddr
    return .redirect "/"
  else return .redirect "/"

def handleUpdateCheckout (c : UpdateCheckoutCalls) (req : Request) (form : UpdateCheckoutRequest) :
    Run Page := do
  match ← inOrder (updateGates c req form) with
  | some page => return page
  | none => pressButton c req form

/-! ## The sweep revokes nothing -/

/-- What a sweep at time `t` is for: expired checkouts are closed, their
accounts are gone, their Domain Admin rows are ended, and nothing else moved. -/
structure Revoked (t : Int) (w w' : World) : Prop where
  rows : w'.db.checkout = updateWhere (expired t) (fun r => { r with status := some "inactive" })
    w.db.checkout
  accounts : w'.ad.accounts = w.ad.accounts.filter (fun a =>
    !w.db.checkout.any (fun r => expired t r && r.aduser.any (nameEq a.sam)))
  admins : ∀ r ∈ w.db.checkout, expired t r = true → ∀ d ∈ w'.db.activeDomainAdmins,
    sqlEq d.samaccountname r.aduser = true → d.disabletime ≠ none ∧ d.disabletime ≠ some 0

theorem run_sweepRow_eppn (cfg : Config) (c : SweepCalls) (r : CheckoutRow × Nat) (w : World) :
    (sweepRow "eppn" cfg c r).run w = (.error .sqlException, w) := rfl

/-- The first expired row ends the sweep before anything is changed. -/
theorem run_sweep_unchanged (cfg : Config) (c : SweepCalls) (active : Bool) (t : Int) (w : World) :
    ((run cfg c active t).run w).2 = w := by
  rw [run, runReading]
  split
  · rfl
  · rw [Prog.run_orElse, Prog.run_bind, run_query rfl]
    cases c.select with
    | true => rfl
    | false =>
      cases hrows : w.db.checkout.filter (expired t) with
      | nil => simp
      | cons r rest => simp [Prog.run_bind, run_sweepRow_eppn]

theorem expired_inactive (t : Int) (r : CheckoutRow) :
    expired t { r with status := some "inactive" } = false := by
  have differ : sqlEq (some "inactive") (some "active") = false := by decide
  simp [expired, differ]

/-- A sweep does its work exactly when there is none. -/
theorem sweep_revokes_iff (cfg : Config) (c : SweepCalls) (active : Bool) (t : Int) (w : World) :
    Revoked t w ((run cfg c active t).run w).2 ↔ ∀ r ∈ w.db.checkout, expired t r = false := by
  rw [run_sweep_unchanged]
  constructor
  · intro revoked r hr
    have closed : r ∈ updateWhere (expired t) (fun r => { r with status := some "inactive" })
        w.db.checkout := revoked.rows ▸ hr
    obtain ⟨r', -, rfl⟩ := List.mem_map.mp closed
    cases due : expired t r' with
    | true => simp [expired_inactive]
    | false => simp [due]
  · intro nothing
    refine ⟨(updateWhere_eq_self nothing).symm, ?_, ?_⟩
    · refine (List.filter_eq_self.mpr fun a _ => ?_).symm
      rw [Bool.not_eq_true', List.any_eq_false]
      intro r hr
      simp [nothing r hr]
    · intro r hr due
      rw [nothing r hr] at due
      cases due

def overdueCheckout : World :=
  { World.empty with
    db := { Database.empty with
      checkout := [⟨some "pat@dom.ain", some 0, some 7200000, some "", some "", some "ab3de6fgh-eas",
        some "active"⟩] }
    ad := { World.empty.ad with
      accounts := [⟨"ab3de6fgh-eas", "cn=ab3de6fgh-eas,ou=proconsul,dc=dom,dc=ain", some "secret",
        512, [], none, none⟩] } }

/-- An account three hours old, checked out for two, survives the sweep. -/
theorem overdue_account_survives :
    ¬ Revoked 10800000 overdueCheckout
      ((run sampleConfig (.noOutage 10800) false 10800000).run overdueCheckout).2 := by
  intro revoked
  exact absurd revoked.accounts (by decide)

end Checkout
