import Proconsul.HostAuthorization
import Proconsul.Checkout

/-!
# What the main page offers

`handleRootRequest` collects, for the user who is signed in, everything the
page can be asked for: stored sessions by type, mapped hosts, delegated OUs,
checkouts. The forms of the page carry a token and the chosen name and nothing
else. The host list of the page is compared with the check that
`/usersession` makes on a host picked from it. Style classes that follow from
the lists are not repeated; a heading that depends on a decision of its own is.
-/

namespace MainPage

open Program Schema Text Surroundings Access Hosts Accounts Sessions Handlers Checkout
open HostAuthorization

/-! ## Stored sessions on display -/

structure DisplayFQDN where
  fqdn : Option String
  displayname : Option String
  delegatedOU : Option String
  delegatedRole : Option String
  deriving DecidableEq, Repr

/-- `fqdn.substring(0, fqdn.indexOf('.'))`; `none` is its exception. -/
def firstLabel (fqdn : Option String) : Option String :=
  fqdn.bind (fun f =>
    if containsChar f '.' then some (String.ofList (f.toList.takeWhile (· != '.'))) else none)

/-- The constructor, and the two setters called for a column that is not null. -/
def displayed (r : SessionRow) : DisplayFQDN where
  fqdn := r.fqdn
  displayname := match r.displayname with
    | none => r.fqdn
    | some name => match firstLabel r.fqdn with
      | some label => some (name ++ " (" ++ label ++ ")")
      | none => some name
  delegatedOU := r.delegatedou
  delegatedRole := r.delegatedrole

/-- The rows behind one list; an empty type asks for all of them. -/
def sessionRows (au : AuthUser) (stype : String) (db : Database) : List SessionRow :=
  db.sessions.filter (fun r => sqlEq r.owner au.uid && (stype == "" || sqlEq r.type (some stype)))

def getAvailableSessionDisplayFQDNs (fails : Bool) (au : AuthUser) (stype : String) :
    Run (List DisplayFQDN) :=
  Prog.orElse (query fails .sessions
    ["fqdn", "displayname", "delegatedou", "delegatedrole", "type", "owner"]
    (fun db => (sessionRows au stype db).map displayed)) []

/-! ## Hosts on offer -/

def entitlementRows (entitlement : String) (db : Database) : List HostMapRow :=
  db.entitlementHost.filter (fun r => sqlEq r.subject (some entitlement))

def fqdnsForEntitlement (c : HostCalls) (entitlement : String) : Run (List String) :=
  fqdnsFor c .entitlementHost "entitlement" (entitlementRows entitlement)

structure OfferCalls where
  explicit : HostCalls
  group : Nat → HostCalls
  entitlement : Nat → HostCalls

def OfferCalls.noOutage : OfferCalls := ⟨.noOutage, fun _ => .noOutage, fun _ => .noOutage⟩

/-- Hosts of the user, of each group and of each entitlement, in this order. -/
def offeredHosts (c : OfferCalls) (au : AuthUser) : Run (List String) := do
  let hosts ← fqdnsForEppn c.explicit au.uid
  let hosts ← au.memberships.zipIdx.foldlM (fun hosts g => do
    return hosts ++ (← fqdnsForGroupUrn (c.group g.2) g.1)) hosts
  au.entitlements.zipIdx.foldlM (fun hosts e => do
    return hosts ++ (← fqdnsForEntitlement (c.entitlement e.2) e.1)) hosts

/-! ## The request -/

structure RootCalls where
  token : TokenCalls
  app : AccessCalls
  co : Bool
  checkouts : Bool
  now : Int
  localeString : Int → String
  allowedDA : AccessCalls
  explicit : Bool
  sessions : String → Bool
  domainHosts : Bool
  shownDA : AccessCalls
  roleOus : Nat → Bool
  roleGroups : Nat → Bool
  ous : Nat → Bool
  static : Bool
  offer : OfferCalls
  messageDA : AccessCalls

def RootCalls.noOutage (uuid : String) (now : Int) : RootCalls where
  token := ⟨false, false, uuid, now⟩
  app := .noOutage
  co := false
  checkouts := false
  now := now
  localeString := fun _ => ""
  allowedDA := .noOutage
  explicit := false
  sessions := fun _ => false
  domainHosts := false
  shownDA := .noOutage
  roleOus := fun _ => false
  roleGroups := fun _ => false
  ous := fun _ => false
  static := false
  offer := .noOutage
  messageDA := .noOutage

/-! ### Groups and OUs on display -/

/-- `replaceAll(_, "")`, from left to right: `matched` is the length of the
match at the start of a text, or zero. -/
def removeAll (matched : List Char → Nat) : Nat → List Char → List Char
  | _, [] => []
  | skip + 1, _ :: cs => removeAll matched skip cs
  | 0, c :: cs =>
    match matched (c :: cs) with
    | 0 => c :: removeAll matched 0 cs
    | n + 1 => removeAll matched n cs

def line (cs : List Char) : List Char := cs.takeWhile (fun c => !lineEnd c)

/-- `(?i)[^,]*,dc=.*`. -/
def domainPart (cs : List Char) : Nat :=
  match cs.dropWhile (· != ',') with
  | ',' :: d :: c :: '=' :: rest =>
    if (d == 'd' || d == 'D') && (c == 'c' || c == 'C') then
      (cs.takeWhile (· != ',')).length + 4 + (line rest).length
    else 0
  | _ => 0

/-- `,.*`. -/
def fromComma (cs : List Char) : Nat :=
  match cs with
  | ',' :: rest => 1 + (line rest).length
  | _ => 0

/-- `.*=`: up to the last equals sign of the line. -/
def upToEquals (cs : List Char) : Nat := ((line cs).reverse.dropWhile (· != '=')).length

/-- A name is kept in code units: `substring` may cut a character in half. -/
structure DisplayGroup where
  name : Option (List Nat)
  value : Option String
  deriving DecidableEq, Repr

/-- What is left of a group's DN for display. -/
def shownName (value : String) : String := String.ofList (removeAll domainPart 0 value.toList)

/-- `substring(0, n)`. -/
def substringFromStart (n : Nat) (s : String) : Run (List Nat) :=
  if (utf16 s).length < n then Prog.throwing .indexOutOfBounds else pure ((utf16 s).take n)

/-- The constructor of `DisplayGroup`. -/
def displayGroup : Option String → Run DisplayGroup
  | some value => do
    let name ← substringFromStart 25 (shownName value)
    return ⟨some name, some value⟩
  | none => return ⟨none, none⟩

def displayGroups : List (Option String) → Run (List DisplayGroup)
  | [] => pure []
  | rg :: groups => do
    let shown ← displayGroup rg
    return shown :: (← displayGroups groups)

/-- A delegated OU, under the value of its first component. -/
def displayOu (ou : String) : String × String :=
  (String.ofList (removeAll upToEquals 0 (removeAll fromComma 0 ou.toList)), ou)

/-! ### The page -/

structure MainView where
  csrfToken : String
  authenticatedUser : AuthUser
  checkoutShown : Bool
  checkedoutcreds : List CheckedOutCred
  allowedgroups : List (Option String)
  sessionlist : List DisplayFQDN
  userSessionList : List DisplayFQDN
  delegatedSessionList : List DisplayFQDN
  domainSessionList : List DisplayFQDN
  staticSessionList : List DisplayFQDN
  domainhosts : List (Option String)
  daShown : Bool
  roleGroups : List DisplayGroup
  delegatedOUs : List (String × String)
  statichosts : List String
  userhosts : List String
  errMessage : Option String
  deriving DecidableEq, Repr

inductive RootPage where
  | authzError (message : String)
  | mary (view : MainView)
  deriving DecidableEq, Repr

/-- The page of a user who may log in, for the token already drawn. -/
def mainView (cfg : Config) (c : RootCalls) (au : AuthUser) (csrfToken : String) : Run MainView := do
  let checkoutShown ← canUseCO c.co au
  let creds ← getAvailableCheckedOutUsers c.checkouts c.localeString au c.now
  let da ← canUseDA c.allowedDA au
  let explicit ← groupDnsForEppn c.explicit au.uid
  let all ← getAvailableSessionDisplayFQDNs (c.sessions "") au ""
  let user ← getAvailableSessionDisplayFQDNs (c.sessions "user") au "user"
  let delegated ← getAvailableSessionDisplayFQDNs (c.sessions "delegated") au "delegated"
  let domain ← getAvailableSessionDisplayFQDNs (c.sessions "domain") au "domain"
  let static ← getAvailableSessionDisplayFQDNs (c.sessions "static") au "static"
  let domainhosts ← getDomainAdminFQDNs c.domainHosts
  let daShown ← canUseDA c.shownDA au
  let groups ← groupDNsForDelegate c.roleOus c.roleGroups au
  let roleGroups ← displayGroups (groups.getD [])
  let ous ← delegatedOusForUser c.ous au
  let statichosts ← fqdnsForStatic c.static au.uid
  let userhosts ← offeredHosts c.offer au
  let mayDA ← canUseDA c.messageDA au
  return {
    csrfToken := csrfToken
    authenticatedUser := au
    checkoutShown := checkoutShown
    checkedoutcreds := creds
    allowedgroups := (if da then [some cfg.dagroup] else []) ++ explicit
    sessionlist := all
    userSessionList := user
    delegatedSessionList := delegated
    domainSessionList := domain
    staticSessionList := static
    domainhosts := domainhosts
    daShown := daShown
    roleGroups := roleGroups
    delegatedOUs := (ous.getD []).map displayOu
    statichosts := statichosts
    userhosts := userhosts
    errMessage :=
      if userhosts.isEmpty && (ous.getD []).isEmpty && !mayDA && all.isEmpty then
        some "You are not authorized to establish or reconnect to any sessions at this time"
      else none }

def handleRootRequest (cfg : Config) (c : RootCalls) (req : Request) : Run RootPage := do
  match ← getSessionCSRFToken c.token req with
  | none =>
    return .authzError "CSRF failure -- unable to establish secure session.  Please try agai later."
  | some csrfToken =>
    if ← canUseApp c.app req.authUser then
      return .mary (← mainView cfg c req.authUser csrfToken)
    else return .authzError "You are not authorized to use this tool."

/-! ## What the lookups answer -/

def hostsForEntitlement (db : Database) (ad : Directory) (entitlement : String) : List String :=
  (entitlementRows entitlement db).flatMap (rowHosts ad)

/-- Some entitlement of the user is mapped to the host. -/
def EntitlementMapped (w : World) (au : AuthUser) (host : String) : Prop :=
  ∃ e ∈ au.entitlements, host ∈ hostsForEntitlement w.db w.ad e

theorem run_fqdnsForEppn_noOutage (eppn : Option String) (w : World) :
    (fqdnsForEppn .noOutage eppn).run w = (.ok (hostsForEppn w.db w.ad eppn), w) := by
  obtain ⟨hs, hrun, -, heq⟩ := run_fqdnsForEppn .noOutage eppn w
  rw [hrun, heq rfl]

theorem run_fqdnsForGroupUrn_noOutage (urn : String) (w : World) :
    (fqdnsForGroupUrn .noOutage urn).run w = (.ok (hostsForGroupUrn w.db w.ad urn), w) := by
  obtain ⟨hs, hrun, -, heq⟩ := run_fqdnsForGroupUrn .noOutage urn w
  rw [hrun, heq rfl]

theorem run_fqdnsForEntitlement_noOutage (entitlement : String) (w : World) :
    (fqdnsForEntitlement .noOutage entitlement).run w =
      (.ok (hostsForEntitlement w.db w.ad entitlement), w) := by
  have known : Table.entitlementHost.knows ["fqdn", "ou", "entitlement"] = true := rfl
  obtain ⟨hs, hrun, -, heq⟩ := run_fqdnsFor known .noOutage (entitlementRows entitlement) w
  rw [fqdnsForEntitlement, hrun, heq rfl]
  rfl

theorem run_offeredHosts (au : AuthUser) (w : World) :
    (offeredHosts .noOutage au).run w =
      (.ok (hostsForEppn w.db w.ad au.uid ++ au.memberships.flatMap (hostsForGroupUrn w.db w.ad) ++
        au.entitlements.flatMap (hostsForEntitlement w.db w.ad)), w) := by
  have groups := Prog.run_foldlM_append (l := au.memberships.zipIdx)
    (hostsForEppn w.db w.ad au.uid) (fun g _ => run_fqdnsForGroupUrn_noOutage g.1 w)
  rw [flatMap_zipIdx_fst] at groups
  have entitlements := Prog.run_foldlM_append (l := au.entitlements.zipIdx)
    (hostsForEppn w.db w.ad au.uid ++ au.memberships.flatMap (hostsForGroupUrn w.db w.ad))
    (fun e _ => run_fqdnsForEntitlement_noOutage e.1 w)
  rw [flatMap_zipIdx_fst] at entitlements
  have explicit : (fqdnsForEppn OfferCalls.noOutage.explicit au.uid).run w =
    (.ok (hostsForEppn w.db w.ad au.uid), w) := run_fqdnsForEppn_noOutage au.uid w
  rw [offeredHosts, Prog.run_bind_ok explicit]
  exact (Prog.run_bind_ok groups).trans entitlements

theorem mem_offeredHosts {au : AuthUser} {w : World} {hosts : List String} {host : String}
    (h : (offeredHosts .noOutage au).run w = (.ok hosts, w)) :
    host ∈ hosts ↔ UserMapped w au host ∨ EntitlementMapped w au host := by
  rw [run_offeredHosts] at h
  cases h
  simp only [List.mem_append, List.mem_flatMap, UserMapped, EntitlementMapped]

/-- With nothing failing, the host check accepts exactly the mapped hosts. -/
theorem run_userHostAllowed (au : AuthUser) (host : String) (w : World) :
    ∃ b, (userHostAllowed ⟨.noOutage, fun _ => .noOutage⟩ au (some host)).run w = (.ok b, w) ∧
      (b = true ↔ UserMapped w au host) := by
  rw [userHostAllowed, Prog.run_bind_ok (run_fqdnsForEppn_noOutage au.uid w)]
  by_cases direct : host ∈ hostsForEppn w.db w.ad au.uid
  · refine ⟨true, ?_, fun _ => Or.inl direct, fun _ => rfl⟩
    rw [if_pos (by simpa using direct)]
    rfl
  · have loop := Prog.run_anyM_eq (l := au.memberships.zipIdx)
      (g := fun g => (hostsForGroupUrn w.db w.ad g.1).contains host)
      (f := fun g => do
        let hosts ← fqdnsForGroupUrn .noOutage g.1
        return (some host).any hosts.contains) (s := w) (by
        intro g _
        rw [Prog.run_bind_ok (run_fqdnsForGroupUrn_noOutage g.1 w)]
        rfl)
    rw [any_zipIdx_fst au.memberships
      (fun m => (hostsForGroupUrn w.db w.ad m).contains host)] at loop
    refine ⟨au.memberships.any (fun m => (hostsForGroupUrn w.db w.ad m).contains host), ?_, ?_⟩
    · rw [if_neg (by simpa using direct)]
      exact loop
    · simp [UserMapped, direct]

/-! ## Offered and accepted -/

theorem reads_getAvailableSessionDisplayFQDNs (fails : Bool) (au : AuthUser) (stype : String) :
    (getAvailableSessionDisplayFQDNs fails au stype).Reads :=
  Prog.steps_orElse (reads_query _ _ _ _) _

theorem reads_getAvailableCheckedOutUsers (fails : Bool) (localeString : Int → String)
    (au : AuthUser) (now : Int) :
    (getAvailableCheckedOutUsers fails localeString au now).Reads :=
  Prog.steps_orElse (reads_query _ _ _ _) _

theorem reads_offeredHosts (c : OfferCalls) (au : AuthUser) : (offeredHosts c au).Reads := by
  refine Prog.steps_bind (reads_fqdnsFor _ _ _ _) (fun _ => ?_)
  refine Prog.steps_bind (Prog.steps_foldlM (fun _ g => Prog.steps_bind
    (reads_fqdnsForGroupUrn _ _) (fun _ => Prog.steps_pure _)) _ _) (fun _ => ?_)
  exact Prog.steps_foldlM (fun _ e => Prog.steps_bind (reads_fqdnsFor _ _ _ _)
    (fun _ => Prog.steps_pure _)) _ _

theorem reads_substringFromStart (n : Nat) (s : String) : (substringFromStart n s).Reads := by
  rw [substringFromStart]
  split
  · exact Prog.steps_throwing _
  · exact Prog.steps_pure _

theorem reads_displayGroup (value : Option String) : (displayGroup value).Reads := by
  cases value with
  | none => exact Prog.steps_pure _
  | some value =>
    rw [displayGroup]
    exact Prog.steps_bind (reads_substringFromStart _ _) (fun _ => Prog.steps_pure _)

theorem reads_displayGroups (groups : List (Option String)) : (displayGroups groups).Reads := by
  induction groups with
  | nil => exact Prog.steps_pure _
  | cons rg groups ih =>
    exact Prog.steps_bind (reads_displayGroup rg) (fun _ =>
      Prog.steps_bind ih (fun _ => Prog.steps_pure _))

/-- The lists of a finished page are what the lookups answered for it. -/
structure Shows (c : RootCalls) (au : AuthUser) (w : World) (view : MainView) : Prop where
  all : (getAvailableSessionDisplayFQDNs (c.sessions "") au "").run w = (.ok view.sessionlist, w)
  user : (getAvailableSessionDisplayFQDNs (c.sessions "user") au "user").run w =
    (.ok view.userSessionList, w)
  delegated : (getAvailableSessionDisplayFQDNs (c.sessions "delegated") au "delegated").run w =
    (.ok view.delegatedSessionList, w)
  domain : (getAvailableSessionDisplayFQDNs (c.sessions "domain") au "domain").run w =
    (.ok view.domainSessionList, w)
  static : (getAvailableSessionDisplayFQDNs (c.sessions "static") au "static").run w =
    (.ok view.staticSessionList, w)
  hosts : (offeredHosts c.offer au).run w = (.ok view.userhosts, w)

theorem mainView_shows {cfg : Config} {c : RootCalls} {au : AuthUser} {token : String} {w w' : World}
    {view : MainView} (h : (mainView cfg c au token).run w = (.ok view, w')) :
    w' = w ∧ view.csrfToken = token ∧ Shows c au w view := by
  have sessions := fun stype => reads_getAvailableSessionDisplayFQDNs (c.sessions stype) au stype
  obtain ⟨checkoutShown, -, h⟩ := Prog.run_bind_reads (reads_canUseCO _ _) h
  obtain ⟨creds, -, h⟩ := Prog.run_bind_reads (reads_getAvailableCheckedOutUsers _ _ _ _) h
  obtain ⟨da, -, h⟩ := Prog.run_bind_reads (reads_canUseDA _ _) h
  obtain ⟨explicit, -, h⟩ := Prog.run_bind_reads (reads_groupDnsForEppn _ _) h
  obtain ⟨all, hall, h⟩ := Prog.run_bind_reads (sessions "") h
  obtain ⟨user, huser, h⟩ := Prog.run_bind_reads (sessions "user") h
  obtain ⟨delegated, hdelegated, h⟩ := Prog.run_bind_reads (sessions "delegated") h
  obtain ⟨domain, hdomain, h⟩ := Prog.run_bind_reads (sessions "domain") h
  obtain ⟨static, hstatic, h⟩ := Prog.run_bind_reads (sessions "static") h
  obtain ⟨domainhosts, -, h⟩ := Prog.run_bind_reads (reads_getDomainAdminFQDNs _) h
  obtain ⟨daShown, -, h⟩ := Prog.run_bind_reads (reads_canUseDA _ _) h
  obtain ⟨groups, -, h⟩ := Prog.run_bind_reads (reads_groupDNsForDelegate _ _ _) h
  obtain ⟨roleGroups, -, h⟩ := Prog.run_bind_reads (reads_displayGroups _) h
  obtain ⟨ous, -, h⟩ := Prog.run_bind_reads (reads_delegatedOusForUser _ _) h
  obtain ⟨statichosts, -, h⟩ := Prog.run_bind_reads (reads_fqdnsForStatic _ _) h
  obtain ⟨userhosts, hhosts, h⟩ := Prog.run_bind_reads (reads_offeredHosts _ _) h
  obtain ⟨mayDA, -, h⟩ := Prog.run_bind_reads (reads_canUseDA _ _) h
  cases h
  exact ⟨rfl, rfl, hall, huser, hdelegated, hdomain, hstatic, hhosts⟩

/-- A page is only made for a user who may log in, and shows the world as it
is when the page is finished. -/
theorem handleRootRequest_shows {cfg : Config} {c : RootCalls} {req : Request} {w w' : World}
    {view : MainView} (h : (handleRootRequest cfg c req).run w = (.ok (.mary view), w')) :
    OnlyTokens w w' ∧ (getSessionCSRFToken c.token req).run w = (.ok (some view.csrfToken), w') ∧
      (canUseApp c.app req.authUser).run w' = (.ok true, w') ∧ Shows c req.authUser w' view := by
  have tokens := onlyTokens_run (onlyTokens_getSessionCSRFToken c.token req) w
  rw [handleRootRequest, Prog.run_bind] at h
  rcases ht : (getSessionCSRFToken c.token req).run w with ⟨e | _ | token, w₁⟩
  · rw [ht] at h
    cases h
  · rw [ht] at h
    cases h
  · rw [ht] at h tokens
    obtain ⟨allowed, happ, h⟩ := Prog.run_bind_reads (reads_canUseApp _ _) h
    cases allowed with
    | false => cases h
    | true =>
      rw [if_pos rfl, Prog.run_bind] at h
      rcases hv : (mainView cfg c req.authUser token).run w₁ with ⟨e | view', w₂⟩
      · rw [hv] at h
        cases h
      · rw [hv] at h
        cases h
        obtain ⟨rfl, rfl, shows⟩ := mainView_shows hv
        exact ⟨tokens, rfl, happ, shows⟩

/-- `/usersession` lets a request for the host past its host check. -/
def AcceptsHost (w : World) (au : AuthUser) (host : String) : Prop :=
  ((userHostGate ⟨.noOutage, fun _ => .noOutage⟩ au (some host)).run w).1 = .ok none

theorem acceptsHost_iff {w : World} {au : AuthUser} {uid : String} (known : au.uid = some uid)
    (nonempty : uid ≠ "") (host : String) : AcceptsHost w au host ↔ UserMapped w au host := by
  obtain ⟨b, hrun, hb⟩ := run_userHostAllowed au host w
  rw [AcceptsHost, userHostGate, known]
  dsimp only
  rw [if_neg nonempty, Prog.run_bind_ok hrun, ← hb]
  cases b with
  | true => simp
  | false => simp [Prog.run_bind, deref]

/-- A host on the page is accepted, and an accepted host is on the page,
exactly unless only an entitlement maps the user to it. -/
theorem page_offers_accepted_hosts_iff (cfg : Config) (uuid : String) (now : Int) (req : Request)
    (w w' : World) (view : MainView) (host : String)
    (rendered : (handleRootRequest cfg (.noOutage uuid now) req).run w = (.ok (.mary view), w')) :
    (host ∈ view.userhosts ↔ AcceptsHost w' req.authUser host) ↔
      (EntitlementMapped w req.authUser host → UserMapped w req.authUser host) := by
  obtain ⟨⟨tokens, rfl⟩, -, happ, shows⟩ := handleRootRequest_shows rendered
  have granted : grants w.db "proconsul" req.authUser = true := by
    have decided := run_canUseApp_noOutage req.authUser { w with db := { w.db with
      csrfTokens := tokens } }
    rw [show (canUseApp .noOutage req.authUser).run _ = _ from happ] at decided
    exact (Except.ok.inj (Prod.mk.inj decided).1).symm
  rw [grants, Bool.and_eq_true, Bool.not_eq_true'] at granted
  obtain ⟨uid, known, nonempty⟩ := uidMissing_iff.mp granted.1
  rw [mem_offeredHosts shows.hosts, acceptsHost_iff known nonempty host]
  change (UserMapped w req.authUser host ∨ EntitlementMapped w req.authUser host ↔
    UserMapped w req.authUser host) ↔ _
  constructor
  · intro same entitled
    exact same.mp (Or.inr entitled)
  · intro covered
    exact ⟨fun offered => offered.elim id covered, Or.inl⟩

/-- Pat may log in; one host is mapped to her, another to an entitlement she has. -/
def entitledSite : World :=
  { sampleSite with
    db := { sampleSite.db with
      entitlementHost := [⟨some "urn:lab", some "lab1.dom.ain", none⟩] } }

def entitledRequest : Request := { sampleRequest with entitlement := some "urn:lab" }

def entitledView : MainView where
  csrfToken := "T1"
  authenticatedUser := ⟨some "pat@dom.ain", [], ["urn:lab"]⟩
  checkoutShown := false
  checkedoutcreds := []
  allowedgroups := []
  sessionlist := []
  userSessionList := []
  delegatedSessionList := []
  domainSessionList := []
  staticSessionList := []
  domainhosts := []
  daShown := false
  roleGroups := []
  delegatedOUs := []
  statichosts := []
  userhosts := ["host1.dom.ain", "lab1.dom.ain"]
  errMessage := none

/-- The page offers Pat the lab host, and the server then refuses it. -/
theorem entitled_host_offered_and_refused :
    (handleRootRequest sampleConfig (.noOutage "U1" 0) entitledRequest).run entitledSite =
        (.ok (.mary entitledView), entitledSite) ∧
      ¬ ("lab1.dom.ain" ∈ entitledView.userhosts ↔
        AcceptsHost entitledSite entitledRequest.authUser "lab1.dom.ain") := by
  refine ⟨by decide +kernel, ?_⟩
  have refused : ¬ AcceptsHost entitledSite entitledRequest.authUser "lab1.dom.ain" := by
    rw [AcceptsHost]
    decide +kernel
  intro same
  exact refused (same.mp (by decide))

/-- Her mapped host is offered and accepted. -/
theorem mapped_host_offered_and_accepted :
    "host1.dom.ain" ∈ entitledView.userhosts ↔
      AcceptsHost entitledSite entitledRequest.authUser "host1.dom.ain" := by
  have rendered : (handleRootRequest sampleConfig (.noOutage "U1" 0) entitledRequest).run
      entitledSite = (.ok (.mary entitledView), entitledSite) := by decide +kernel
  refine (page_offers_accepted_hosts_iff sampleConfig "U1" 0 entitledRequest entitledSite
    entitledSite entitledView "host1.dom.ain" rendered).mpr (fun _ => ?_)
  left
  decide

end MainPage
