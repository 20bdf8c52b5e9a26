import Proconsul.Cleanup
import Proconsul.HostAuthorization

/-!
# Reconnecting and the checks of the creating handlers

`/reconnect` looks a session up by its owner and its host and asks for nothing
but the right to use the application. Whether its requester would still be
allowed to create the session is therefore decided by what has happened since:
the results are about whole runs of requests, policy changes, exits and
cleanup runs, one after the other. Overlapping requests are not considered.
-/

namespace Reconnection

open Program Schema Text Surroundings Access Hosts Accounts Sessions Handlers Starting
open HostAuthorization Cleanup

/-! ## Policy -/

/-- The tables that decide who may do what. -/
structure Policy where
  accessUser : List AccessUserRow
  accessGroups : List AccessGroupRow
  entitlements : List EntitlementRow
  explicitHosts : List HostMapRow
  groupHost : List HostMapRow
  delegateGroups : List DelegateRow
  staticHost : List StaticHostRow
  domainAdminHosts : List (Option String)

def policy (w : World) : Policy where
  accessUser := w.db.accessUser
  accessGroups := w.db.accessGroups
  entitlements := w.db.entitlements
  explicitHosts := w.db.explicitHosts
  groupHost := w.db.groupHost
  delegateGroups := w.db.delegateGroups
  staticHost := w.db.staticHost
  domainAdminHosts := w.db.domainAdminHosts

def setPolicy (p : Policy) (w : World) : World :=
  { w with
    db := { w.db with
      accessUser := p.accessUser
      accessGroups := p.accessGroups
      entitlements := p.entitlements
      explicitHosts := p.explicitHosts
      groupHost := p.groupHost
      delegateGroups := p.delegateGroups
      staticHost := p.staticHost
      domainAdminHosts := p.domainAdminHosts } }

/-- What the creating handler of a type checks. -/
structure Check (w : World) (type : Option String) (au : AuthUser) (host : String) : Prop where
  user : type = some "user" → UserMapped w au host
  static : type = some "static" → StaticMapped w au host
  delegated : type = some "delegated" → Delegated w au host
  domain : type = some "domain" → DomainAllowed w au host

section Checks

variable {w : World} {au : AuthUser} {host : String}

theorem check_user (h : UserMapped w au host) : Check w (some "user") au host :=
  ⟨fun _ => h, by simp, by simp, by simp⟩

theorem check_static (h : StaticMapped w au host) : Check w (some "static") au host :=
  ⟨by simp, fun _ => h, by simp, by simp⟩

theorem check_delegated (h : Delegated w au host) : Check w (some "delegated") au host :=
  ⟨by simp, by simp, fun _ => h, by simp⟩

theorem check_domain (h : DomainAllowed w au host) : Check w (some "domain") au host :=
  ⟨by simp, by simp, by simp, fun _ => h⟩

end Checks

def SamePolicy (w w' : World) : Prop := policy w' = policy w ∧ w'.ad.computers = w.ad.computers

/-- Nothing but this policy and these computers. -/
def bare (p : Policy) (computers : List Computer) : World :=
  setPolicy p { World.empty with ad := ⟨[], [], computers⟩ }

theorem check_bare {w : World} {type : Option String} {au : AuthUser} {host : String} :
    Check w type au host ↔ Check (bare (policy w) w.ad.computers) type au host :=
  ⟨fun h => ⟨h.user, h.static, h.delegated, h.domain⟩,
    fun h => ⟨h.user, h.static, h.delegated, h.domain⟩⟩

theorem check_congr {w w' : World} (same : SamePolicy w w') {type : Option String} {au : AuthUser}
    {host : String} : Check w' type au host ↔ Check w type au host := by
  rw [check_bare, same.1, same.2, ← check_bare]

/-- The attributes that the identity provider asserts for a user id. -/
structure Asserted (idp : List Char → List String × List String) (au : AuthUser) : Prop where
  memberships : ∀ uid, au.uid = some uid → au.memberships = (idp (sqlKey uid)).1
  entitlements : ∀ uid, au.uid = some uid → au.entitlements = (idp (sqlKey uid)).2

/-- Another spelling of the same user id passes the same checks. -/
theorem Check.respelled {idp : List Char → List String × List String} {w : World}
    {type : Option String} {au au' : AuthUser} {host : String} (h : Check w type au host)
    (same : sqlEq au.uid au'.uid = true) (known : uidMissing au' = false) (hau : Asserted idp au)
    (hau' : Asserted idp au') : Check w type au' host := by
  obtain ⟨uid, uid', huid, huid', keys⟩ := sqlEq_some same
  have memberships : au'.memberships = au.memberships := by
    rw [hau.memberships uid huid, hau'.memberships uid' huid', keys]
  have entitlements : au'.entitlements = au.entitlements := by
    rw [hau.entitlements uid huid, hau'.entitlements uid' huid', keys]
  have column : ∀ a, sqlEq a au'.uid = sqlEq a au.uid := fun a => (sqlEq_congr_right same a).symm
  constructor
  · intro ht
    have mapped := h.user ht
    simpa only [UserMapped, hostsForEppn, explicitRows, column, memberships] using mapped
  · intro ht
    have mapped := h.static ht
    simpa only [StaticMapped, hostsForStatic, column] using mapped
  · intro ht
    have delegated := h.delegated ht
    simpa only [Delegated, administers, memberships] using delegated
  · intro ht
    obtain ⟨granted, listed⟩ := h.domain ht
    refine ⟨?_, listed⟩
    rw [grants, Bool.and_eq_true] at granted ⊢
    refine ⟨by simp [known], ?_⟩
    simpa only [hasUserRule, hasGroupRule, column, memberships, entitlements] using granted.2

/-! ## Stored sessions -/

/-- The columns that no update of a session changes. -/
structure Key where
  owner : Option String
  fqdn : Option String
  samaccountname : Option String
  type : Option String

def key (r : SessionRow) : Key := ⟨r.owner, r.fqdn, r.samaccountname, r.type⟩

def sessionKey (s : ProconsulSession) : Key :=
  ⟨s.owner.uid, s.fqdn, s.targetUser.sAMAccountName, s.type⟩

def keys (w : World) : List Key := w.db.sessions.map key

theorem key_updateWhere {sel : SessionRow → Bool} {change : SessionRow → SessionRow}
    {rows : List SessionRow} (kept : ∀ r, key (change r) = key r) :
    (updateWhere sel change rows).map key = rows.map key := by
  rw [updateWhere, List.map_map]
  refine List.map_congr_left (fun r _ => ?_)
  simp only [Function.comp]
  split
  · exact kept r
  · rfl

/-- The policy stays, and a session that is new satisfies `P`. -/
structure Stores (P : Key → Prop) (w w' : World) : Prop where
  policy : SamePolicy w w'
  rows : ∀ k ∈ keys w', k ∈ keys w ∨ P k

section Storing

variable {P : Key → Prop}

theorem stores_trans (w w' w'' : World) (h : Stores P w w') (h' : Stores P w' w'') :
    Stores P w w'' := by
  constructor
  · exact ⟨h'.policy.1.trans h.policy.1, h'.policy.2.trans h.policy.2⟩
  · intro k hk
    rcases h'.rows k hk with old | new
    · exact h.rows k old
    · exact .inr new

theorem stores_quiet : Quiet (Stores P) := fun _ _ _ _ _ _ _ => ⟨⟨rfl, rfl⟩, fun _ hk => .inl hk⟩

theorem stores_engine : IgnoresEngine (Stores P) := fun _ _ _ _ => ⟨⟨rfl, rfl⟩, fun _ hk => .inl hk⟩

theorem stores_reserve (row : PortRow) (w : World) : Stores P w (reserve row w) :=
  ⟨⟨rfl, rfl⟩, fun _ hk => .inl hk⟩

theorem stores_permits {s : ProconsulSession} (h : P (sessionKey s)) : Permits (Stores P) s := by
  constructor
  · intro w
    refine ⟨⟨rfl, rfl⟩, fun k hk => ?_⟩
    rw [keys, List.map_append, List.mem_append] at hk
    rcases hk with old | new
    · exact .inl old
    · cases List.mem_singleton.mp new
      exact .inr h
  · intro w
    have same : (updateWhere (sameSession s) (refreshRow s) w.db.sessions).map key = keys w :=
      key_updateWhere (fun _ => rfl)
    refine ⟨⟨rfl, rfl⟩, fun k hk => .inl ?_⟩
    rw [← same]
    exact hk

theorem stores_opens {c : PortCalls} {ok : Prop} {Q : Nat → Container → Prop} {p : Run Page}
    (opens : Opens (Stores P) c ok Q p) (w : World) : Stores P w (p.run w).2 := by
  rcases opens w with ⟨-, same⟩ | ⟨-, row, q, hrun, starts⟩
  · rw [same]
    exact stores_quiet.refl w
  · rw [hrun]
    exact stores_trans _ _ _ (stores_reserve row w) (starts (reserve row w)).1

end Storing

/-! ## Creating handlers -/

/-- A session of this user that its type's check allows, under a named account. -/
structure Authorized (w : World) (au : AuthUser) (k : Key) : Prop where
  owner : k.owner = au.uid
  named : k.samaccountname ≠ none
  checked : ∀ host, k.fqdn = some host → Check w k.type au host

theorem authorized_same {w : World} {au : AuthUser} {s s' : ProconsulSession} {type host : String}
    (same : SameTarget s s') (owned : s.owner = au) (hosted : s.fqdn = some host)
    (typed : s.type = some type) (named : s.targetUser.sAMAccountName ≠ none)
    (check : Check w (some type) au host) : Authorized w au (sessionKey s') := by
  constructor
  · exact congrArg AuthUser.uid (same.owner.trans owned)
  · rw [sessionKey, same.sam]
    exact named
  · intro host' hosted'
    rw [sessionKey, same.fqdn, hosted] at hosted'
    cases hosted'
    rw [sessionKey, same.type, typed]
    exact check

theorem stores_withAccount {P : Key → Prop} {cfg : Config} {c : CreateCalls} {au : Option AuthUser}
    {gate : Gate} {body : ADUser → Run Page} {w : World} (tokens : gate.Steps OnlyTokens)
    (h : ∀ w₁ u w₂, gate.run w = (.ok none, w₁) → u.sAMAccountName ≠ none →
      Stores P w₂ ((body u).run w₂).2) :
    Stores P w ((withAccount cfg c au gate body).run w).2 := by
  rcases withAccount_cases cfg c au tokens body w with ⟨only, -⟩ |
      ⟨w₁, sam, dn, k, w₂, passed, only, hcreate, -, -, hend⟩
  · exact stores_quiet.onlyTokens only
  · have created := Prog.run_related stores_quiet.refl stores_trans
      (quiet_createRandomizedADUser (stores_quiet (P := P)) cfg c au) w₁
    rw [hcreate] at created
    rw [hend]
    exact stores_trans _ _ _ (stores_trans _ _ _ (stores_quiet.onlyTokens only) created)
      (h w₁ _ w₂ passed (by simp [randomizedUser]))

/-- The requested name is filtered after the check; the filtered name has to pass it too. -/
def KeepsHost (allowed : String → Prop) (target : Option String) : Prop :=
  ∀ host, target = some host → allowed host → allowed (keepOnly looseHostChar host)

theorem stores_user {cfg : Config} {c : UserCalls} {req : Request} {form : UserSessionRequest}
    {w : World} (kept : KeepsHost (UserMapped w req.authUser) form.targetFQDN) :
    Stores (Authorized w req.authUser) w ((handleUserSessionPost cfg c req form).run w).2 := by
  refine stores_withAccount (steps_inOrder (onlyTokens_userGates c req form)) ?_
  intro w₁ u w₂ passed named
  obtain ⟨target, hosted, mapped⟩ := userGate_passes passed
  cases displayed : form.displayName with
  | none =>
    rw [userSession_unnamed displayed]
    exact stores_quiet.refl w₂
  | some displayName =>
    have check := check_user (kept target hosted mapped)
    exact stores_opens (opens_userSession stores_quiet stores_trans stores_engine hosted displayed
      rfl (fun _ s' same => stores_permits (authorized_same same rfl rfl rfl named check))) w₂

theorem stores_domain {cfg : Config} {c : DomainCalls} {req : Request} {form : DomainAdminRequest}
    {w : World} :
    Stores (Authorized w req.authUser) w ((handleDomainAdminPost cfg c req form).run w).2 := by
  rw [handleDomainAdminPost]
  cases hosted : form.targetFQDN with
  | none => exact stores_quiet.refl w
  | some target =>
    cases displayed : form.displayName with
    | none => exact stores_quiet.refl w
    | some displayName =>
      refine stores_withAccount (steps_inOrder (onlyTokens_domainGates c req form _)) ?_
      intro w₁ u w₂ passed named
      have check := check_domain (domainGate_passes passed)
      exact stores_opens (opens_domainSession stores_quiet stores_trans stores_engine rfl
        (fun _ s' same => stores_permits (authorized_same same rfl rfl rfl named check))) w₂

theorem stores_delegated {cfg : Config} {c : DelegatedCalls} {req : Request}
    {form : DelegatedAdminRequest} {w : World} :
    Stores (Authorized w req.authUser) w ((handleDelegatedAdminPost cfg c req form).run w).2 := by
  rw [handleDelegatedAdminPost]
  cases hosted : form.hostName with
  | none => exact stores_quiet.refl w
  | some target =>
    cases displayed : form.displayName with
    | none => exact stores_quiet.refl w
    | some displayName =>
      refine stores_withAccount (steps_inOrder (onlyTokens_delegatedGates c req form _)) ?_
      intro w₁ u w₂ passed named
      have check := check_delegated (delegatedGate_passes passed)
      exact stores_opens (opens_delegatedSession stores_quiet stores_trans stores_engine rfl
        (fun _ s' same => stores_permits (authorized_same same rfl rfl rfl named check))) w₂

/-- The account that the last matching row of static_host names. -/
def staticAccount (w : World) (au : AuthUser) (target : Option String) : Option String :=
  (w.db.staticHost.filter (fun r => sqlEq r.eppn au.uid && sqlEq r.fqdn target)).getLast?.bind
    StaticHostRow.targetuser

theorem run_getStaticADUser (cfg : Config) {fails : Bool} (answers : fails = false)
    (c : PasswordCalls) (au : AuthUser) (target : Option String) (w : World) :
    ∃ u w', (getStaticADUser cfg fails c au target).run w = (.ok u, w') ∧
      u.sAMAccountName = staticAccount w au target := by
  subst answers
  have found : ∀ read : Database → Option String, (Prog.orElse (query false .staticHost
      ["targetuser", "eppn", "fqdn"] read) none : Run (Option String)).run w =
      (.ok (read w.db), w) := by
    intro read
    rw [Prog.run_orElse, run_query rfl]
    rfl
  rw [getStaticADUser, Prog.run_bind_ok (found _)]
  obtain ⟨u, w', hrun, -, hsam⟩ := (delivers_setRandomADPassword (stores_quiet (P := fun _ => True))
    stores_trans cfg c _).run w
  exact ⟨u, w', hrun, hsam⟩

theorem stores_static {cfg : Config} {c : StaticCalls} {req : Request}
    {form : StaticUserSessionRequest} {w : World}
    (kept : KeepsHost (StaticMapped w req.authUser) form.targetFQDN) (answers : c.mapping = false)
    (named : staticAccount w req.authUser form.targetFQDN ≠ none) :
    Stores (Authorized w req.authUser) w ((handleStaticSessionPost cfg c req form).run w).2 := by
  rcases handleStaticSessionPost_cases cfg c req form w with ⟨tokens, -⟩ |
    ⟨w₁, passed, tokens, hend⟩
  · exact stores_quiet.onlyTokens tokens
  · obtain ⟨target, hosted, mapped⟩ := staticGate_passes passed
    obtain ⟨u, w₂, hrun, hsam⟩ := run_getStaticADUser cfg answers c.password req.authUser
      form.targetFQDN w₁
    have accounted : u.sAMAccountName ≠ none := by
      obtain ⟨_, rfl⟩ := tokens
      rw [hsam]
      exact named
    have before := Prog.run_related stores_quiet.refl stores_trans (quiet_getStaticADUser
      (stores_quiet (P := Authorized w req.authUser)) cfg c.mapping c.password req.authUser
      form.targetFQDN) w₁
    rw [hrun] at before
    rw [hend, Prog.run_bind_ok hrun]
    refine stores_trans _ _ _ (stores_trans _ _ _ (stores_quiet.onlyTokens tokens) before) ?_
    cases displayed : form.displayName with
    | none =>
      rw [staticSession_unnamed displayed]
      exact stores_quiet.refl w₂
    | some displayName =>
      have check := check_static (kept target hosted mapped)
      exact stores_opens (opens_staticSession stores_quiet stores_trans stores_engine hosted
        displayed rfl (fun _ s' same => stores_permits
          (authorized_same same rfl rfl rfl accounted check))) w₂

/-! ## Resuming a session -/

def SameKeys (w w' : World) : Prop := SamePolicy w w' ∧ keys w' = keys w

/-- The session has a row that its writes will find. -/
def stored (s : ProconsulSession) (w : World) : Bool := w.db.sessions.any (sameSession s)

/-- Starting from a state in which the session is stored, no row comes or goes. -/
def Revisits (s : ProconsulSession) (w w' : World) : Prop := stored s w = true → SameKeys w w'

section Revisiting

variable {s : ProconsulSession}

theorem stored_congr {w w' : World} (h : SameKeys w w') : stored s w' = stored s w := by
  have byKey : ∀ w : World, stored s w = (keys w).any (fun k => sqlEq k.owner s.owner.uid &&
      sqlEq k.fqdn s.fqdn && sqlEq k.samaccountname s.targetUser.sAMAccountName) := by
    intro w
    rw [keys, List.any_map]
    rfl
  rw [byKey, byKey, h.2]

theorem revisits_trans (w w' w'' : World) (h : Revisits s w w') (h' : Revisits s w' w'') :
    Revisits s w w'' := by
  intro found
  have same := h found
  have same' := h' (stored_congr same ▸ found)
  exact ⟨⟨same'.1.1.trans same.1.1, same'.1.2.trans same.1.2⟩, same'.2.trans same.2⟩

theorem revisits_quiet : Quiet (Revisits s) := fun _ _ _ _ _ _ _ _ => ⟨⟨rfl, rfl⟩, rfl⟩

theorem revisits_engine : IgnoresEngine (Revisits s) := fun _ _ _ _ _ => ⟨⟨rfl, rfl⟩, rfl⟩

/-- A stored session is updated, so no second row appears. -/
theorem revisits_writeSessionToDB {s' : ProconsulSession} (same : sessionKey s' = sessionKey s)
    (c : WriteCalls) (addr : Option String) (w : World) :
    Revisits s w ((writeSessionToDB c s' addr).run w).2 := by
  intro found
  have select : sameSession s' = sameSession s := by
    funext r
    have owner : s'.owner.uid = s.owner.uid := congrArg Key.owner same
    have fqdn : s'.fqdn = s.fqdn := congrArg Key.fqdn same
    have account : s'.targetUser.sAMAccountName = s.targetUser.sAMAccountName :=
      congrArg Key.samaccountname same
    rw [sameSession, sameSession, owner, fqdn, account]
  have found' : w.db.sessions.any (sameSession s') = true := select ▸ found
  rw [writeSessionToDB, Prog.run_bind, run_query rfl]
  cases c.select with
  | true => exact ⟨⟨rfl, rfl⟩, rfl⟩
  | false =>
    simp only [Bool.false_eq_true, if_false, found', if_true]
    have updated : ∀ w', Revisits s w' ((updateSession c.write s').run w').2 := by
      intro w' _
      rw [updateSession, run_execute rfl]
      cases c.write with
      | true => exact ⟨⟨rfl, rfl⟩, rfl⟩
      | false => exact ⟨⟨rfl, rfl⟩, key_updateWhere (fun _ => rfl)⟩
    exact Prog.related_bind revisits_trans updated (Prog.returns_any _)
      (fun _ _ => Prog.run_related revisits_quiet.refl revisits_trans
        (quiet_audit revisits_quiet _ _ _ _ _ _ _)) w found

theorem revisits_launch {s' : ProconsulSession} (same : sessionKey s' = sessionKey s) (cfg : Config)
    (c : LaunchCalls) (size : Image) (addr : Option String) (w : World) :
    Revisits s w ((launch cfg c size s' addr).run w).2 := by
  refine Prog.related_bind revisits_trans
    (fun w => (starts_start revisits_engine cfg c.container size s' w).1) (Prog.returns_any _)
    (fun _ _ => ?_) w
  have connected : sessionKey { s' with status := .connected } = sessionKey s := same
  refine Prog.related_bind revisits_trans (revisits_writeSessionToDB connected _ _)
    (Prog.returns_any _) (fun _ _ => ?_)
  intro w
  rw [awaitReady]
  split <;> exact revisits_quiet.refl w

/-- The session as `/reconnect` writes it back. -/
def reopened (c : ReconnectCalls) (s : ProconsulSession) (port : Nat) (u : ADUser) :
    ProconsulSession :=
  { s with
    novncPort := port
    status := .starting
    startTime := some c.startTime
    targetUser := u
    vncPassword := some c.vncPassword }

theorem revisits_resume (cfg : Config) (c : ReconnectCalls) (size : Image) (addr : Option String)
    (w : World) : Revisits s w ((resume cfg c size s addr).run w).2 := by
  have reserved : ∀ w row, Revisits s w (reserve row w) := fun _ _ _ => ⟨⟨rfl, rfl⟩, rfl⟩
  have port := steps_getVncPortNumber revisits_quiet.refl reserved c.port s
  refine Prog.related_bind revisits_trans
    (Prog.run_related revisits_quiet.refl revisits_trans port) (Prog.returns_any _) (fun p _ => ?_) w
  refine Prog.related_bind revisits_trans (Prog.run_related revisits_quiet.refl revisits_trans
    (quiet_setRandomADPassword revisits_quiet _ _ _)) (returns_setRandomADPassword _ _ _)
    (fun u hu => ?_)
  have same : sessionKey (reopened c s p u) = sessionKey s := by
    rw [sessionKey, sessionKey, reopened, hu]
  exact Prog.related_bind revisits_trans (revisits_writeSessionToDB same _ _)
    (Prog.returns_any _) (fun _ _ => revisits_launch same _ _ _ _)

end Revisiting

/-- A resumed session starts one container if a port can be had and nothing
fails; it goes to the stored host, as the stored account. -/
theorem opens_resume (cfg : Config) (c : ReconnectCalls) (size : Image) (s : ProconsulSession)
    (addr : Option String) :
    Opens (fun _ _ => True) c.port (c.write.succeed = true ∧ c.launch.container.succeed cfg = true)
      (fun _ ct => ct.rhostname = javaString s.fqdn ∧
        ct.winuser = javaString s.targetUser.sAMAccountName) (resume cfg c size s addr) := by
  have quiet : Quiet (fun _ _ => True) := fun _ _ _ _ _ _ _ => trivial
  have trans : ∀ w w' w'' : World, True → True → True := fun _ _ _ _ _ => trivial
  have engine : IgnoresEngine (fun _ _ => True) := fun _ _ _ _ => trivial
  have permits : ∀ s', Permits (fun _ _ => True) s' := fun _ => ⟨fun _ => trivial, fun _ => trivial⟩
  refine opens_getVncPortNumber (fun port => ?_)
  refine starts_bind_total trans (delivers_setRandomADPassword (calmly_quiet quiet)
    (calmly_trans trans) cfg c.password s.targetUser) (fun u hu => ?_)
  refine starts_bind trans (delivers_writeSessionToDB (calmly_quiet quiet).logs (calmly_trans trans)
    (calmly_permits (permits (reopened c s port u))) rfl c.write addr) (fun _ _ => ?_)
  refine (starts_launch quiet trans engine (s := reopened c s port u) (fun s' _ => permits s') cfg
    c.launch size addr).imp (fun ct serves => ?_)
  exact ⟨serves.rhostname, serves.winuser.trans (congrArg javaString hu)⟩

theorem serves_resume (cfg : Config) (c : ReconnectCalls) (size : Image) (s : ProconsulSession)
    (addr : Option String) (w : World) :
    ∃ effects, ((resume cfg c size s addr).run w).2.trace = w.trace ++ effects ∧
      ∀ ct ∈ started effects, ct.rhostname = javaString s.fqdn ∧
        ct.winuser = javaString s.targetUser.sAMAccountName := by
  rcases opens_resume cfg c size s addr w with ⟨-, same⟩ | ⟨-, row, q, hrun, starts⟩
  · exact ⟨[], by rw [same]; simp, by simp [started]⟩
  · obtain ⟨-, effects, added, hout⟩ := starts (reserve row w)
    refine ⟨[.portReserved row.portnum] ++ effects, ?_, ?_⟩
    · rw [hrun, added, reserve, List.append_assoc]
    · intro ct hct
      rw [started_append] at hct
      rcases hout with ⟨-, ct', one, serves⟩ | ⟨-, none⟩
      · rw [one] at hct
        cases List.mem_singleton.mp hct
        exact serves
      · rw [none] at hct
        cases hct

/-! ## Reading sessions back -/

/-- The session is a row of its owner, read back. -/
def ReadFrom (rows : List SessionRow) (au : AuthUser) (s : ProconsulSession) : Prop :=
  ∃ r ∈ rows, sqlEq r.owner au.uid = true ∧ s.owner = au ∧ s.fqdn = r.fqdn ∧
    s.targetUser.sAMAccountName = r.samaccountname

theorem returns_loadSessions (cfg : Config) (c : SessionCalls) {au : AuthUser}
    {all : List SessionRow} (rows : List (SessionRow × Nat))
    (mine : ∀ r ∈ rows, r.1 ∈ all ∧ sqlEq r.1.owner au.uid = true) (retval : List ProconsulSession)
    (read : ∀ s ∈ retval, ReadFrom all au s) :
    (loadSessions cfg c au rows retval).Returns (fun psa => ∀ s ∈ psa, ReadFrom all au s) := by
  induction rows generalizing retval with
  | nil => exact Prog.returns_pure read
  | cons r rest ih =>
    have loaded : (loadAdUser cfg (c.load r.2) r.1.samaccountname).Returns
        (fun u => u.sAMAccountName = r.1.samaccountname) :=
      Prog.returns_bind (Prog.returns_any _) (fun _ _ => Prog.returns_bind (Prog.returns_any _)
        (fun _ _ => Prog.returns_pure rfl))
    refine Prog.returns_bind loaded (fun user huser => ?_)
    cases rowStatus r.1 with
    | none => exact Prog.returns_pure read
    | some status =>
      refine ih (fun r' hr' => mine r' (List.mem_cons_of_mem r hr')) _ (fun s hs => ?_)
      rcases List.mem_append.mp hs with hs | hs
      · exact read s hs
      · obtain ⟨stored, owned⟩ := mine r List.mem_cons_self
        cases List.mem_singleton.mp hs
        exact ⟨r.1, stored, owned, rfl, rfl, huser⟩

theorem getAvailableSessions_read {cfg : Config} {c : SessionCalls} {au : AuthUser} {w w' : World}
    {psa : List ProconsulSession} (h : (getAvailableSessions cfg c au).run w = (.ok psa, w')) :
    ∀ s ∈ psa, ReadFrom w.db.sessions au s := by
  rw [getAvailableSessions, Prog.run_bind, Prog.run_attempt, run_query rfl] at h
  cases hc : c.rows with
  | true =>
    rw [hc] at h
    cases h
    simp
  | false =>
    rw [hc] at h
    have mine : ∀ r ∈ (w.db.sessions.filter (fun r => sqlEq r.owner au.uid)).zipIdx,
        r.1 ∈ w.db.sessions ∧ sqlEq r.1.owner au.uid = true :=
      fun r hr => List.mem_filter.mp (List.fst_mem_of_mem_zipIdx hr)
    exact (returns_loadSessions cfg c _ mine [] (by simp)).run (congrArg Prod.fst h)

/-- A request to `/reconnect` writes nothing but tokens, or resumes a stored
session of its user. -/
theorem reconnect_cases (cfg : Config) (c : ReconnectCalls) (req : Request) (form : ReconnectRequest)
    (w : World) :
    OnlyTokens w ((handleReconnectPost cfg c req form).run w).2 ∨
    ∃ w₁ s, OnlyTokens w w₁ ∧ uidMissing req.authUser = false ∧
      ReadFrom w.db.sessions req.authUser s ∧ s.fqdn ≠ none ∧
      ((handleReconnectPost cfg c req form).run w).2 =
        ((resume cfg c (reconnectSize req) s req.remoteAddr).run w₁).2 := by
  have tokens := onlyTokens_run (steps_inOrder (onlyTokens_reconnectGates c req form)) w
  rw [← reconnectGate] at tokens
  rw [handleReconnectPost, Prog.run_bind]
  rcases hgate : (reconnectGate c req form).run w with ⟨e | page, w₁⟩
  · rw [hgate] at tokens
    exact .inl tokens
  · rw [hgate] at tokens
    cases page with
    | some page => exact .inl tokens
    | none =>
      obtain ⟨_, _, -, happ⟩ := inOrder_passes (onlyTokens_reconnectGates c req form) hgate _
        (List.mem_cons_of_mem _ List.mem_cons_self)
      have known := uidMissing_iff.mpr (passes_app happ)
      have unread := Prog.run_unchanged (reads_getAvailableSessions cfg c.sessions req.authUser) w₁
      dsimp only
      rw [Prog.run_bind]
      rcases hread : (getAvailableSessions cfg c.sessions req.authUser).run w₁ with ⟨e | psa, w₂⟩
      · rw [hread] at unread
        obtain rfl : w₂ = w₁ := unread
        exact .inl tokens
      · rw [hread] at unread
        obtain rfl : w₂ = w₁ := unread
        dsimp only
        cases hchoose : chooseSession req.authUser form.targetFQDN psa with
        | none => exact .inl tokens
        | some s =>
          obtain ⟨hs, hmatch⟩ := List.mem_filter.mp (List.mem_of_getLast? hchoose)
          have read := getAvailableSessions_read hread s hs
          have hosted : s.fqdn ≠ none := by
            intro missing
            simp [matchesRequest, missing] at hmatch
          refine .inr ⟨w₂, s, tokens, known, ?_, hosted, rfl⟩
          obtain ⟨_, rfl⟩ := tokens
          exact read

/-! ## Runs of requests and policy changes -/

inductive Action where
  | user (c : UserCalls) (req : Request) (form : UserSessionRequest)
  | static (c : StaticCalls) (req : Request) (form : StaticUserSessionRequest)
  | domain (c : DomainCalls) (req : Request) (form : DomainAdminRequest)
  | delegated (c : DelegatedCalls) (req : Request) (form : DelegatedAdminRequest)
  | reconnect (c : ReconnectCalls) (req : Request) (form : ReconnectRequest)
  | policy (p : Policy)
  | exit (id : Nat) (retval : Option Nat)
  | cleanup (adbase : String) (calls : Cleanup.ScriptCalls)

def Action.run (cfg : Config) (w : World) : Action → World
  | .user c req form => ((handleUserSessionPost cfg c req form).run w).2
  | .static c req form => ((handleStaticSessionPost cfg c req form).run w).2
  | .domain c req form => ((handleDomainAdminPost cfg c req form).run w).2
  | .delegated c req form => ((handleDelegatedAdminPost cfg c req form).run w).2
  | .reconnect c req form => ((handleReconnectPost cfg c req form).run w).2
  | .policy p => setPolicy p w
  | .exit id retval => { w with engine := w.engine.setStatus id (.exited retval) }
  | .cleanup adbase calls => ((Cleanup.cleanup adbase calls).run w).2

/-- The owner of a stored session, under any spelling of the user id. -/
structure Owner (idp : List Char → List String × List String) (k : Key) (au : AuthUser) :
    Prop where
  same : sqlEq k.owner au.uid = true
  known : uidMissing au = false
  asserted : Asserted idp au

/-- The user passes the check that the session's type calls for. -/
def Checked (w : World) (k : Key) (au : AuthUser) : Prop :=
  ∀ host, k.fqdn = some host → Check w k.type au host

/-- Requests come with the attributes that the identity provider has for their
user; the host of a new session and the account of a static one are on record;
and no policy change takes a check away from the owner of a stored session. -/
def Steady (idp : List Char → List String × List String) (w : World) : Action → Prop
  | .user _ req form => Asserted idp req.authUser ∧
      KeepsHost (UserMapped w req.authUser) form.targetFQDN
  | .static c req form => Asserted idp req.authUser ∧
      KeepsHost (StaticMapped w req.authUser) form.targetFQDN ∧ c.mapping = false ∧
      staticAccount w req.authUser form.targetFQDN ≠ none
  | .domain _ req _ | .delegated _ req _ | .reconnect _ req _ => Asserted idp req.authUser
  | .policy p => ∀ k ∈ keys w, ∀ au, Owner idp k au → Checked w k au → Checked (setPolicy p w) k au
  | .exit _ _ | .cleanup _ _ => True

/-- States that a run reaches all of whose actions satisfy `C`. -/
def Reached (cfg : Config) (C : World → Action → Prop) (start w : World) : Prop :=
  Relation.ReflTransGen (fun w w' => ∃ a, C w a ∧ w' = Action.run cfg w a) start w

/-- Every stored session has a named account, and its owner passes its check. -/
structure Sound (idp : List Char → List String × List String) (w : World) : Prop where
  named : ∀ k ∈ keys w, k.samaccountname ≠ none
  checked : ∀ k ∈ keys w, ∀ au, Owner idp k au → Checked w k au

section Runs

variable {idp : List Char → List String × List String}

theorem sound_stores {w w' : World} {au : AuthUser} (sound : Sound idp w) (asserted : Asserted idp au)
    (h : Stores (Authorized w au) w w') : Sound idp w' := by
  constructor
  · intro k hk
    rcases h.rows k hk with old | new
    · exact sound.named k old
    · exact new.named
  · intro k hk au' owner host hosted
    rw [check_congr h.policy]
    rcases h.rows k hk with old | new
    · exact sound.checked k old au' owner host hosted
    · have same : sqlEq au.uid au'.uid = true := new.owner ▸ owner.same
      exact (new.checked host hosted).respelled same owner.known asserted owner.asserted

/-- No session is added. -/
theorem sound_fewer {w w' : World} (sound : Sound idp w) (h : Stores (fun _ => False) w w') :
    Sound idp w' := by
  have old : ∀ k ∈ keys w', k ∈ keys w := fun k hk => (h.rows k hk).resolve_right id
  constructor
  · exact fun k hk => sound.named k (old k hk)
  · intro k hk au owner host hosted
    rw [check_congr h.policy]
    exact sound.checked k (old k hk) au owner host hosted

theorem stored_of_read {w : World} {au : AuthUser} {s : ProconsulSession}
    (named : ∀ k ∈ keys w, k.samaccountname ≠ none) (read : ReadFrom w.db.sessions au s)
    (hosted : s.fqdn ≠ none) : stored s w = true := by
  obtain ⟨r, hr, owned, howner, hfqdn, hsam⟩ := read
  have account : r.samaccountname ≠ none := named (key r) (List.mem_map_of_mem hr)
  obtain ⟨host, hhost⟩ := Option.ne_none_iff_exists'.mp hosted
  obtain ⟨sam, hnamed⟩ := Option.ne_none_iff_exists'.mp account
  refine List.any_eq_true.mpr ⟨r, hr, ?_⟩
  rw [sameSession, howner, owned, hsam, ← hfqdn, hhost, hnamed]
  simp

theorem stores_reconnect {cfg : Config} {c : ReconnectCalls} {req : Request}
    {form : ReconnectRequest} {w : World} (named : ∀ k ∈ keys w, k.samaccountname ≠ none) :
    Stores (fun _ => False) w ((handleReconnectPost cfg c req form).run w).2 := by
  rcases reconnect_cases cfg c req form w with only | ⟨w₁, s, only, -, read, hosted, hend⟩
  · exact stores_quiet.onlyTokens only
  · have found : stored s w₁ = true := by
      obtain ⟨_, rfl⟩ := only
      exact stored_of_read named read hosted
    have same := revisits_resume cfg c (reconnectSize req) req.remoteAddr w₁ found
    rw [hend]
    refine stores_trans _ _ _ (stores_quiet.onlyTokens only) ⟨same.1, fun k hk => .inl ?_⟩
    rwa [same.2] at hk

theorem stores_cleanup (adbase : String) (calls : Cleanup.ScriptCalls) (w : World) :
    Stores (fun _ => False) w ((Cleanup.cleanup adbase calls).run w).2 := by
  have permits : ∀ c, PermitsScript (Stores (fun _ => False)) adbase calls.now c := by
    intro c
    have same : ∀ {w w' : World}, SamePolicy w w' → keys w' = keys w →
        Stores (fun _ => False) w w' := fun tables rows => ⟨tables, fun k hk => .inl (rows ▸ hk)⟩
    constructor
    · exact fun _ _ => same ⟨rfl, rfl⟩ rfl
    · intro w
      refine ⟨⟨rfl, rfl⟩, fun k hk => .inl ?_⟩
      obtain ⟨r, hr, rfl⟩ := List.mem_map.mp hk
      exact List.mem_map_of_mem (mem_deleteWhere.mp hr).1
    · exact fun _ => same ⟨rfl, rfl⟩ (key_updateWhere (fun _ => rfl))
    all_goals exact fun _ => same ⟨rfl, rfl⟩ rfl
  exact Prog.run_related stores_quiet.refl stores_trans (Prog.steps_bind
    (Prog.steps_atom (fun w => ⟨⟨rfl, rfl⟩, fun k hk => .inl hk⟩))
    (fun stopped => Prog.steps_forM (fun c => steps_script stores_quiet.refl (permits c)) stopped)) w

theorem sound_action {cfg : Config} {w : World} {a : Action} (sound : Sound idp w)
    (steady : Steady idp w a) : Sound idp (Action.run cfg w a) := by
  cases a with
  | user c req form => exact sound_stores sound steady.1 (stores_user steady.2)
  | static c req form =>
    obtain ⟨asserted, kept, answers, named⟩ := steady
    exact sound_stores sound asserted (stores_static kept answers named)
  | domain c req form => exact sound_stores sound steady stores_domain
  | delegated c req form => exact sound_stores sound steady stores_delegated
  | reconnect c req form => exact sound_fewer sound (stores_reconnect sound.named)
  | policy p =>
    exact ⟨sound.named, fun k hk au owner => steady k hk au owner (sound.checked k hk au owner)⟩
  | exit id retval => exact sound_fewer sound ⟨⟨rfl, rfl⟩, fun _ hk => .inl hk⟩
  | cleanup adbase calls => exact sound_fewer sound (stores_cleanup adbase calls w)

theorem sound_reached {cfg : Config} {start w : World} (fresh : start.db.sessions = [])
    (reached : Reached cfg (Steady idp) start w) : Sound idp w := by
  induction reached with
  | refl => exact ⟨by simp [keys, fresh], by simp [keys, fresh]⟩
  | tail _ last ih =>
    obtain ⟨a, steady, rfl⟩ := last
    exact sound_action ih steady

/-- The container serves a stored session of the requester. -/
structure Resumes (ct : Container) (au : AuthUser) (r : SessionRow) : Prop where
  owner : sqlEq r.owner au.uid = true
  host : ct.rhostname = javaString r.fqdn
  account : ct.winuser = javaString r.samaccountname

/-- A container that the request starts serves a stored session of its user,
and the user passes the check of each such session's type at that moment. -/
def ReconnectAuthorized (cfg : Config) (c : ReconnectCalls) (req : Request)
    (form : ReconnectRequest) (w : World) : Prop :=
  ∀ ct ∈ started (newEffects w ((handleReconnectPost cfg c req form).run w).2),
    (∃ r ∈ w.db.sessions, Resumes ct req.authUser r) ∧
    ∀ r ∈ w.db.sessions, Resumes ct req.authUser r → Checked w (key r) req.authUser

/-- In every run whose actions are steady, in any order. -/
theorem reconnects_authorized {cfg : Config} {start w : World} (fresh : start.db.sessions = [])
    (reached : Reached cfg (Steady idp) start w) (c : ReconnectCalls) {req : Request}
    (form : ReconnectRequest) (steady : Steady idp w (.reconnect c req form)) :
    ReconnectAuthorized cfg c req form w := by
  have sound := sound_reached fresh reached
  intro ct hct
  rcases reconnect_cases cfg c req form w with only | ⟨w₁, s, only, known, read, hosted, hend⟩
  · rw [newEffects_of_same only.trace] at hct
    cases hct
  · obtain ⟨effects, added, serves⟩ := serves_resume cfg c (reconnectSize req) s req.remoteAddr w₁
    rw [only.trace, ← hend] at added
    rw [newEffects_of_append added] at hct
    obtain ⟨host, account⟩ := serves ct hct
    constructor
    · obtain ⟨r, hr, owned, -, hfqdn, hsam⟩ := read
      exact ⟨r, hr, owned, hfqdn ▸ host, hsam ▸ account⟩
    · intro r hr resumes
      exact sound.checked (key r) (List.mem_map_of_mem hr) req.authUser
        ⟨resumes.owner, known, steady⟩

end Runs

/-! ## Pat comes back -/

def opening : Action :=
  .user (.noOutage "ab3de6fgh-eas" "secret" "vncsecret") sampleRequest sampleForm

def opened : World := Action.run sampleConfig sampleSite opening

/-- With her mapping still in place Pat gets her container back, and is entitled to it. -/
theorem unrevoked_reconnect_authorized :
    (started (newEffects opened ((handleReconnectPost sampleConfig
      (.noOutage "secret2" "vncsecret2") sampleRequest sampleReconnect).run opened).2)).length = 1 ∧
    ReconnectAuthorized sampleConfig (.noOutage "secret2" "vncsecret2") sampleRequest
      sampleReconnect opened := by
  let idp (_ : List Char) : List String × List String := ([], [])
  have asserted : Asserted idp sampleRequest.authUser := ⟨fun _ _ => rfl, fun _ _ => rfl⟩
  have kept : KeepsHost (UserMapped sampleSite sampleRequest.authUser) sampleForm.targetFQDN := by
    rintro host ⟨⟩ mapped
    have unfiltered : keepOnly looseHostChar "host1.dom.ain" = "host1.dom.ain" := by decide
    rw [unfiltered]
    exact mapped
  have steady : Steady idp sampleSite opening := ⟨asserted, kept⟩
  exact ⟨by decide +kernel,
    reconnects_authorized rfl (.single ⟨opening, steady, rfl⟩) _ _ asserted⟩

/-- Pat's mapping is removed while her session is stored. -/
def revoked : World := setPolicy { policy opened with explicitHosts := [] } opened

/-- She may not open a session on the host any more, but `/reconnect` starts a
container there. -/
theorem revoked_reconnect_starts :
    ∃ w, Reached sampleConfig (fun _ _ => True) sampleSite w ∧
      ¬ ReconnectAuthorized sampleConfig (.noOutage "secret2" "vncsecret2") sampleRequest
        sampleReconnect w := by
  have reached : Reached sampleConfig (fun _ _ => True) sampleSite revoked :=
    .tail (.single ⟨opening, trivial, rfl⟩) ⟨.policy _, trivial, rfl⟩
  refine ⟨revoked, reached, fun authorized => ?_⟩
  have starts : started (newEffects revoked ((handleReconnectPost sampleConfig
      (.noOutage "secret2" "vncsecret2") sampleRequest sampleReconnect).run revoked).2) ≠ [] := by
    decide +kernel
  obtain ⟨ct, hct⟩ := List.exists_mem_of_ne_nil _ starts
  obtain ⟨⟨r, hr, resumes⟩, checked⟩ := authorized ct hct
  have rows : ∀ r ∈ revoked.db.sessions, r.fqdn = some "host1.dom.ain" ∧ r.type = some "user" := by
    decide +kernel
  obtain ⟨hosted, typed⟩ := rows r hr
  rcases (checked r hr resumes "host1.dom.ain" hosted).user typed with direct | ⟨m, hm, -⟩
  · cases direct
  · cases hm

end Reconnection
