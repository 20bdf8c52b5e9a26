import Proconsul.Confinement
import Proconsul.Delivery
import Proconsul.Reconnection
import Proconsul.Triples

/-!
# What a session takes it gives back

A session takes a port, a row, a container and an account under a name drawn for it,
perhaps with the rights of a Domain Admin. It may be disconnected and taken up again
any number of times, each time with another port and another container. Once it ends
with a logout, everything is as it was before the request that opened it, whatever
failed on the way, as long as each request ended with a redirect.

One session is followed by itself; other requests are not interleaved. The name drawn
must be new to the directory and to the stored sessions, and `docker top` must not
print it for another container when a script runs. The texts that the script pastes
must be literal, and the DN of the base must be one argument.
-/

namespace GivenBack

open Program Schema Text Surroundings Access Hosts Accounts Sessions Handlers Cleanup RelyGuarantee
  Confinement Triples
open Delivery (SessionPost patContainer patPosts)

/-- Where the account of that name is created. -/
def ownDn (cfg : Config) (name : String) : String := "cn=" ++ name ++ "," ++ cfg.targetbase

/-- Nobody has the account or a session of that name. -/
structure Fresh (cfg : Config) (start : World) (name : String) : Prop where
  drawn : plainName name = true
  unplaced : ∀ a ∈ start.ad.accounts, dnEq a.dn (ownDn cfg name) = false
  unstored : ∀ r ∈ start.db.sessions, sqlEq r.samaccountname (some name) = false

/-- What no session ever changes. -/
def remainder (db : Database) : Database :=
  { db with sessions := [], activeDomainAdmins := [], ports := [], auditLog := [], csrfTokens := [] }

/-! ## Next to everything that was there -/

/-- The world is `start` but for what belongs to the name, and for these ports and containers. -/
structure Beside (cfg : Config) (start : World) (name : String) (ports : List PortRow)
    (containers : List Container) (w : World) : Prop where
  accounts : w.ad.accounts.filter (fun a => !dnEq a.dn (ownDn cfg name)) = start.ad.accounts
  directory : { w.ad with accounts := start.ad.accounts } = start.ad
  alone : ∀ a ∈ w.ad.accounts, finds name a.sam = true → dnEq a.dn (ownDn cfg name) = true
  sessions : w.db.sessions.filter (fun r => !sqlEq r.samaccountname (some name)) = start.db.sessions
  own : ∀ r ∈ w.db.sessions, sqlEq r.samaccountname (some name) = true → r.samaccountname = some name
  admins : w.db.activeDomainAdmins.filter (fun r => !sqlEq r.samaccountname (some name)) =
    start.db.activeDomainAdmins.filter (fun r => !sqlEq r.samaccountname (some name))
  taken : w.db.ports = start.db.ports ++ ports
  rest : remainder w.db = remainder start.db
  begun : w.engine.containers = start.engine.containers ++ containers

section Keeping

variable {cfg : Config} {start : World} {name : String} {ports : List PortRow}
variable {containers : List Container}

theorem beside_of_fresh (fresh : Fresh cfg start name)
    (free : ∀ a ∈ start.ad.accounts, nameEq a.sam name = false) {w : World}
    (tokens : OnlyTokens start w) : Beside cfg start name [] [] w := by
  obtain ⟨tokens, rfl⟩ := tokens
  exact {
    accounts := List.filter_eq_self.mpr (fun a ha => by simp [fresh.unplaced a ha])
    directory := rfl
    alone := fun a ha named => by rw [finds_plainName fresh.drawn, free a ha] at named; cases named
    sessions := List.filter_eq_self.mpr (fun r hr => by simp [fresh.unstored r hr])
    own := fun r hr named => by rw [fresh.unstored r hr] at named; cases named
    admins := rfl
    taken := (List.append_nil _).symm
    rest := rfl
    begun := (List.append_nil _).symm }

/-- Accounts may change as long as the others are left and the name stays at its place. -/
theorem Beside.of_accounts {w : World} (beside : Beside cfg start name ports containers w)
    {accounts : List Account} (effects : List Effect)
    (others : accounts.filter (fun a => !dnEq a.dn (ownDn cfg name)) =
      w.ad.accounts.filter (fun a => !dnEq a.dn (ownDn cfg name)))
    (alone : ∀ a ∈ accounts, finds name a.sam = true → dnEq a.dn (ownDn cfg name) = true) :
    Beside cfg start name ports containers
      { w with ad := { w.ad with accounts := accounts }, trace := w.trace ++ effects } :=
  { beside with
    accounts := others.trans beside.accounts
    alone := alone }

theorem Beside.of_admins {w : World} (beside : Beside cfg start name ports containers w)
    {admins : List ActiveDomainAdminRow} (effects : List Effect)
    (others : admins.filter (fun r => !sqlEq r.samaccountname (some name)) =
      w.db.activeDomainAdmins.filter (fun r => !sqlEq r.samaccountname (some name))) :
    Beside cfg start name ports containers
      { w with db := { w.db with activeDomainAdmins := admins }, trace := w.trace ++ effects } :=
  { beside with admins := others.trans beside.admins }

theorem Beside.of_sessions {w : World} (beside : Beside cfg start name ports containers w)
    {sessions : List SessionRow} (effects : List Effect)
    (others : sessions.filter (fun r => !sqlEq r.samaccountname (some name)) =
      w.db.sessions.filter (fun r => !sqlEq r.samaccountname (some name)))
    (own : ∀ r ∈ sessions, sqlEq r.samaccountname (some name) = true → r.samaccountname = some name) :
    Beside cfg start name ports containers
      { w with db := { w.db with sessions := sessions }, trace := w.trace ++ effects } :=
  { beside with
    sessions := others.trans beside.sessions
    own := own }

theorem own_updateWhere {sel : SessionRow → Bool} {f : SessionRow → SessionRow}
    {rows : List SessionRow}
    (own : ∀ r ∈ rows, sqlEq r.samaccountname (some name) = true → r.samaccountname = some name)
    (same : ∀ r, (f r).samaccountname = r.samaccountname) :
    ∀ r ∈ updateWhere sel f rows, sqlEq r.samaccountname (some name) = true →
      r.samaccountname = some name := by
  intro r hr
  obtain ⟨r₀, stored, rfl⟩ := List.mem_map.mp hr
  split
  · rw [same]
    exact own r₀ stored
  · exact own r₀ stored

theorem permits_beside {s : ProconsulSession} (named : s.targetUser.sAMAccountName = some name) :
    Permits (fun w w' => Beside cfg start name ports containers w →
      Beside cfg start name ports containers w') s where
  insert w beside := by
    refine beside.of_sessions _ (filter_append_row ?_) (fun r hr => ?_)
    · simp [sessionRow, named]
    · rcases List.mem_append.mp hr with old | new
      · exact beside.own r old
      · obtain rfl := List.mem_singleton.mp new
        exact fun _ => named
  update w beside := by
    refine beside.of_sessions _ (filter_updateWhere_others (fun r same => ?_) (fun _ => rfl))
      (own_updateWhere (f := refreshRow s) beside.own (fun _ => rfl))
    rw [sameSession, named, Bool.and_eq_true] at same
    rw [same.2, Bool.not_true]

/-- Whatever is done to the account of the name stays beside the rest. -/
theorem beside_confines : Confines (Beside cfg start name ports containers) (· = some name)
    (fun dn => dnEq dn (ownDn cfg name) = true) where
  logs := ⟨fun _ beside => beside, fun _ _ beside => { beside with }⟩
  tokens := by
    rintro w _ ⟨tokens, rfl⟩ beside
    exact { beside with }
  found := by
    rintro w _ dn beside rfl there
    obtain ⟨a, ha, rfl⟩ := List.mem_map.mp there
    obtain ⟨listed, called⟩ := mem_found.mp ha
    exact beside.alone a listed called
  add := by
    intro w b effects beside _ placed
    refine beside.of_accounts effects (filter_append_row (by simp [placed])) (fun a ha => ?_)
    rcases List.mem_append.mp ha with old | new
    · exact beside.alone a old
    · obtain rfl := List.mem_singleton.mp new
      exact fun _ => placed
  change := by
    intro w dn f effects beside placed same
    refine beside.of_accounts effects (filter_updateWhere_others (fun a there => ?_) (fun a => ?_))
      (fun a ha => ?_)
    · rw [dnEq_trans there placed, Bool.not_true]
    · rw [(same a).2]
    · obtain ⟨a₀, listed, rfl⟩ := List.mem_map.mp ha
      have before := beside.alone a₀ listed
      split
      · rw [(same a₀).1, (same a₀).2]
        exact before
      · exact before
  destroy := by
    intro w dn effects beside placed
    refine beside.of_accounts effects (filter_deleteWhere (fun a there => ?_)) (fun a ha => ?_)
    · rw [dnEq_trans there placed, Bool.not_true]
    · exact beside.alone a (mem_deleteWhere.mp ha).1
  register := by
    rintro w _ now effects beside rfl
    exact beside.of_admins effects (filter_append_row (by simp))
  disable := by
    rintro w _ now beside rfl
    let disabled := updateWhere (fun r => sqlEq r.samaccountname (some name))
      (fun r : ActiveDomainAdminRow => { r with disabletime := some now }) w.db.activeDomainAdmins
    have others : disabled.filter (fun r => !sqlEq r.samaccountname (some name)) =
        w.db.activeDomainAdmins.filter (fun r => !sqlEq r.samaccountname (some name)) :=
      filter_updateWhere_others (fun r same => by simp [same]) (fun _ => rfl)
    have kept := beside.of_admins [] others
    rw [List.append_nil] at kept
    exact kept
  write _ named := permits_beside named

end Keeping

/-! ## Port and container -/

section Phases

variable {cfg : Config} {start : World} {name : String}

/-- The session has a port that nobody had, and a container that shows its display. -/
structure Connected (cfg : Config) (start : World) (name : String) (w : World) : Prop where
  fresh : Fresh cfg start name
  beside : ∃ row c, Beside cfg start name [row] [c] w ∧ c.winuser = name ∧ c.display = row.portnum ∧
    ∀ r ∈ start.db.ports, r.portnum ≠ row.portnum

/-- An answer that is a redirect leaves a connected session. -/
def Opens (cfg : Config) (start : World) (page : Page) (w : World) : Prop :=
  ∀ url, page = .redirect url → ∃ name, Connected cfg start name w

/-- The session `s` has the port of `row`, which was free. -/
structure Numbered (start : World) (name : String) (row : PortRow) (s : ProconsulSession) : Prop where
  named : s.targetUser.sAMAccountName = some name
  port : s.novncPort = row.portnum
  free : ∀ r ∈ start.db.ports, r.portnum ≠ row.portnum

theorem triple_getVncPortNumber (c : PortCalls) (s : ProconsulSession) :
    Triple (Beside cfg start name [] []) (getVncPortNumber c s) (fun port w => ∃ row,
      port = row.portnum ∧ (∀ r ∈ start.db.ports, r.portnum ≠ row.portnum) ∧
        Beside cfg start name [row] [] w) := by
  have reads : Triple (Beside cfg start name [] []) (nextPort c)
      (fun _ w => Beside cfg start name [] [] w ∧ True) :=
    triple_upholds (within_reads (reads_nextPort c) (Prog.returns_any _))
  refine triple_bind reads (fun retval => ?_)
  split
  · exact triple_throwing _
  let row : PortRow := ⟨retval, s.fqdn, s.targetUser.sAMAccountName, s.owner.uid⟩
  have inserted : Triple (fun w => Beside cfg start name [] [] w ∧ True) (insertPort c.insert row)
      (fun _ w => (∀ r ∈ start.db.ports, r.portnum ≠ row.portnum) ∧
        Beside cfg start name [row] [] w) := by
    refine triple_atom (fun w beside _ w' ends => ?_)
    obtain ⟨beside, -⟩ := beside
    have listed : w.db.ports = start.db.ports := beside.taken.trans (List.append_nil _)
    split at ends
    · cases ends
    · rename_i accepted
      cases ends
      rw [Bool.or_eq_true, not_or, List.any_eq_true] at accepted
      refine ⟨fun r hr same => accepted.2 ⟨r, listed ▸ hr, by simpa using same⟩,
        { beside with taken := ?_ }⟩
      rw [← listed]
      rfl
  exact triple_bind inserted (fun _ => triple_pure (fun w done => ⟨row, rfl, done.1, done.2⟩))

theorem triple_openSession (c : OpenCalls) {s : ProconsulSession}
    (named : s.targetUser.sAMAccountName = some name) (addr : Option String) :
    Triple (Beside cfg start name [] []) (openSession c s addr) (fun s' w => ∃ row,
      Numbered start name row s' ∧ Beside cfg start name [row] [] w) := by
  refine triple_bind (triple_getVncPortNumber _ _) (fun port w taken s' w' ends => ?_)
  obtain ⟨row, rfl, free, beside⟩ := taken
  obtain ⟨beside', same⟩ :=
    triple_upholds (within_recordSession beside_confines c named addr row.portnum) w beside s' w' ends
  exact ⟨row, ⟨same.sam.trans named, same.port, free⟩, beside'⟩

/-- Only the container that was just created has its id. -/
theorem change_create (e : Engine) (make : Nat → Container) (f : Container → Container)
    (same : ∀ c, (f c).id = c.id) : ((e.create make).change e.nextId f same).containers =
      e.containers ++ [f { make e.nextId with id := e.nextId }] := by
  have others : ∀ c ∈ e.containers, (c.id == e.nextId) = false := by
    intro c hc
    simpa using Nat.ne_of_lt (e.fresh c hc)
  change updateWhere _ f (e.containers ++ [{ make e.nextId with id := e.nextId }]) = _
  rw [updateWhere, List.map_append, ← updateWhere, updateWhere_eq_self others]
  simp

theorem triple_start (c : ContainerCalls) (size : Image) {row : PortRow} {s : ProconsulSession}
    (numbered : Numbered start name row s) :
    Triple (Beside cfg start name [row] []) (Sessions.start cfg c size s) (fun _ w => ∃ ct,
      ct.winuser = name ∧ ct.display = row.portnum ∧ Beside cfg start name [row] [ct] w) := by
  intro w beside _ w' ends
  have before : w.engine.containers = start.engine.containers := beside.begun.trans (List.append_nil _)
  rw [Sessions.start] at ends
  split at ends
  · cases ends
  split at ends
  · cases ends
  rw [Prog.run_bind, createContainer, Prog.run_atom] at ends
  cases hc : c.create with
  | true => simp [hc] at ends
  | false =>
    rw [hc] at ends
    simp only [Bool.false_eq_true, if_false, startContainer, Prog.run_atom, Engine.find_create] at ends
    cases hs : c.start with
    | true => simp [hs] at ends
    | false =>
      rw [hs] at ends
      cases ends
      refine ⟨{ sessionContainer cfg size s w.engine.nextId with status := .running }, ?_,
        numbered.port, { beside with begun := ?_ }⟩
      · change javaString s.targetUser.sAMAccountName = name
        rw [numbered.named]
        rfl
      · have created := change_create w.engine (sessionContainer cfg size s)
          (fun c => { c with status := .running }) (fun _ => rfl)
        rw [before] at created
        exact created

theorem triple_launch (fresh : Fresh cfg start name) (c : LaunchCalls) (size : Image) {row : PortRow}
    {s : ProconsulSession} (numbered : Numbered start name row s) (addr : Option String) :
    Triple (Beside cfg start name [row] []) (launch cfg c size s addr) (Opens cfg start) := by
  refine triple_bind (triple_start c.container size numbered) (fun _ w begun page w' ends => ?_)
  obtain ⟨ct, user, display, beside⟩ := begun
  have later : Within (Beside cfg start name [row] [ct]) (fun _ => True) (do
      writeSessionToDB c.write { s with status := .connected } addr
      awaitReady c.spool
      return .redirect (getRedirectUrl cfg { s with status := .connected }) : Run Page) := by
    refine upholds_bind (within_writeSessionToDB beside_confines _
      (s := { s with status := .connected }) numbered.named _) (fun _ _ => ?_)
    refine upholds_bind (V := fun _ => True) ?_ (fun _ _ => upholds_pure trivial)
    rw [awaitReady]
    split
    · exact upholds_pure trivial
    · exact upholds_throwing _
  have after := (triple_upholds later w beside page w' ends).1
  exact fun _ _ => ⟨name, fresh, row, ct, after, user, display, numbered.free⟩

theorem triple_finishSession (fresh : Fresh cfg start name) (c : FinishCalls) (size : Image)
    {row : PortRow} {s : ProconsulSession} (numbered : Numbered start name row s) {u : Option ADUser}
    (named : Named (· = some name) u) (addr : Option String) :
    Triple (Beside cfg start name [row] []) (finishSession cfg c size s u addr) (Opens cfg start) := by
  have target : Within (Beside cfg start name [row] []) (fun u => u.sAMAccountName = some name)
      (deref u) := within_deref named
  refine triple_bind (triple_upholds target) (fun u w found => ?_)
  obtain ⟨beside, sam⟩ := found
  have grouped : Numbered start name row { s with targetUser := u } :=
    ⟨sam, numbered.port, numbered.free⟩
  have written : Within (Beside cfg start name [row] []) (fun _ => True)
      (writeSessionToDB c.write { s with targetUser := u } addr) :=
    within_writeSessionToDB beside_confines _ (s := { s with targetUser := u }) sam _
  refine triple_bind (triple_upholds written) (fun _ => ?_) w beside
  exact (triple_launch fresh _ _ grouped _).weaken (fun _ kept => kept.1) (fun _ _ opens => opens)

end Phases

/-! ## The requests -/

/-- A gate that stops a request answers with an error page. -/
def Refusal (o : Option Page) : Prop := ∀ page, o = some page → ∃ message, page = .authzError message

/-- The same for the groups of the admin handlers. -/
def RefusalOr (r : Page ⊕ Option ADUser) : Prop :=
  ∀ page, r = .inl page → ∃ message, page = .authzError message

section Gates

theorem refusal_none : Refusal none := by
  rintro page ⟨⟩

theorem refusal_error (message : String) : Refusal (some (.authzError message)) := by
  rintro _ ⟨⟩
  exact ⟨message, rfl⟩

theorem refusal_refuseUnless (check : Run Bool) (message : String) :
    (refuseUnless check message).Returns Refusal := by
  refine Prog.returns_bind (Prog.returns_any _) (fun ok _ => ?_)
  cases ok with
  | true => exact Prog.returns_pure refusal_none
  | false => exact Prog.returns_pure (refusal_error message)

theorem refusal_csrfGate (c : TokenCalls) (req : Request) (token : Option String) (m : CsrfMessages) :
    (csrfGate c req token m).Returns Refusal := by
  unfold csrfGate
  split
  · cases token with
    | none => exact Prog.returns_pure (refusal_error _)
    | some token =>
      refine Prog.returns_bind (Prog.returns_any _) (fun known _ => ?_)
      split
      · exact Prog.returns_pure refusal_none
      · exact Prog.returns_pure (refusal_error _)
  · exact Prog.returns_pure (refusal_error _)

theorem refusal_userHostGate (c : UserHostCalls) (au : AuthUser) (target : Option String) :
    (userHostGate c au target).Returns Refusal := by
  rw [userHostGate]
  split
  · exact Prog.returns_pure (refusal_error _)
  · split
    · exact Prog.returns_pure refusal_none
    · refine Prog.returns_bind (Prog.returns_any _) (fun allowed _ => ?_)
      split
      · exact Prog.returns_pure refusal_none
      · exact Prog.returns_bind (Prog.returns_any _) (fun _ _ => Prog.returns_pure (refusal_error _))

theorem refusal_targetGate (form : ReconnectRequest) : (targetGate form).Returns Refusal := by
  rw [targetGate]
  split
  · exact Prog.returns_pure (refusal_error _)
  · split
    · exact Prog.returns_pure (refusal_error _)
    · exact Prog.returns_pure refusal_none

theorem refusal_inOrder {gs : List Gate} (h : ∀ g ∈ gs, g.Returns Refusal) :
    (inOrder gs).Returns Refusal := by
  induction gs with
  | nil => exact Prog.returns_pure refusal_none
  | cons g gs ih =>
    refine Prog.returns_bind (h g List.mem_cons_self) (fun page refused => ?_)
    cases page with
    | some page => exact Prog.returns_pure refused
    | none => exact ih (fun g' hg' => h g' (List.mem_cons_of_mem g hg'))

theorem refusal_userGates (c : UserCalls) (req : Request) (form : UserSessionRequest) :
    ∀ g ∈ userGates c req form, g.Returns Refusal :=
  List.forall_mem_cons.mpr ⟨refusal_refuseUnless _ _,
    List.forall_mem_cons.mpr ⟨refusal_userHostGate _ _ _,
      List.forall_mem_singleton.mpr (refusal_csrfGate _ _ _ _)⟩⟩

theorem refusal_domainGates (c : DomainCalls) (req : Request) (form : DomainAdminRequest)
    (host : String) : ∀ g ∈ domainGates c req form host, g.Returns Refusal :=
  List.forall_mem_cons.mpr ⟨refusal_refuseUnless _ _,
    List.forall_mem_cons.mpr ⟨refusal_refuseUnless _ _,
      List.forall_mem_cons.mpr ⟨refusal_csrfGate _ _ _ _,
        List.forall_mem_singleton.mpr (refusal_refuseUnless _ _)⟩⟩⟩

theorem refusal_delegatedGates (c : DelegatedCalls) (req : Request) (form : DelegatedAdminRequest)
    (host : String) : ∀ g ∈ delegatedGates c req form host, g.Returns Refusal :=
  List.forall_mem_cons.mpr ⟨refusal_refuseUnless _ _,
    List.forall_mem_cons.mpr ⟨refusal_refuseUnless _ _,
      List.forall_mem_cons.mpr ⟨refusal_refuseUnless _ _,
        List.forall_mem_singleton.mpr (refusal_csrfGate _ _ _ _)⟩⟩⟩

theorem refusal_reconnectGates (c : ReconnectCalls) (req : Request) (form : ReconnectRequest) :
    ∀ g ∈ reconnectGates c req form, g.Returns Refusal :=
  List.forall_mem_cons.mpr ⟨refusal_targetGate _,
    List.forall_mem_cons.mpr ⟨refusal_refuseUnless _ _,
      List.forall_mem_singleton.mpr (refusal_csrfGate _ _ _ _)⟩⟩

end Gates

section Requests

variable {cfg : Config} {start : World}

theorem opens_error {message : String} {w : World} : Opens cfg start (.authzError message) w := by
  rintro url ⟨⟩

/-- A name that is drawn is one of those offered, and the directory does not know it. -/
def Drawn (start : World) (c : CreateCalls) (name : String) : Prop :=
  (∃ i, name = c.names i) ∧ ∀ a ∈ start.ad.accounts, nameEq a.sam name = false

theorem triple_getRandomSamaccountname (c : CreateCalls) : Triple (OnlyTokens start)
    (getRandomSamaccountname c) (fun name w => OnlyTokens start w ∧ Drawn start c name) := by
  have names : ∀ tries i, Triple (OnlyTokens start) (nextName c tries i)
      (fun name w => OnlyTokens start w ∧ Drawn start c name) := by
    intro tries
    induction tries with
    | zero => exact fun i => triple_throwing _
    | succ tries ih =>
      intro i
      have looked : Triple (OnlyTokens start) (isSamaccountnameAvailable (c.lookup i) (c.names i))
          (fun free w => OnlyTokens start w ∧
            (free = true → ∀ a ∈ start.ad.accounts, nameEq a.sam (c.names i) = false)) := by
        rw [isSamaccountnameAvailable]
        split
        · exact triple_pure (fun w tokens => ⟨tokens, by simp⟩)
        · refine triple_atom (fun w tokens free w' ends => ?_)
          split at ends
          · cases ends
          · cases ends
            refine ⟨tokens, fun free a ha => ?_⟩
            obtain ⟨_, rfl⟩ := tokens
            rw [Bool.not_eq_true', List.any_eq_false] at free
            exact Bool.eq_false_iff.mpr (free a ha)
      refine triple_bind looked (fun free => ?_)
      cases free with
      | false => exact (ih (i + 1)).weaken (fun _ tokens => tokens.1) (fun _ _ drawn => drawn)
      | true => exact triple_pure (fun w found => ⟨found.1, ⟨i, rfl⟩, found.2 rfl⟩)
  exact names 10 0

theorem triple_createRandomizedADUser {c : CreateCalls} (fresh : ∀ i, Fresh cfg start (c.names i))
    (au : Option AuthUser) : Triple (OnlyTokens start) (createRandomizedADUser cfg c au)
      (fun o w => ∀ u, o = some u → ∃ name, Fresh cfg start name ∧
        Beside cfg start name [] [] w ∧ u.sAMAccountName = some name) := by
  have attempted : Triple (OnlyTokens start) (Prog.attempt (getRandomSamaccountname c))
      (fun o w => OnlyTokens start w ∧ ∀ name, o = some name → Drawn start c name) := by
    refine triple_attempt (reads_getRandomSamaccountname c) (triple_getRandomSamaccountname c) ?_ ?_
    · rintro name w ⟨tokens, drawn⟩
      refine ⟨tokens, ?_⟩
      rintro _ ⟨⟩
      exact drawn
    · exact fun w tokens => ⟨tokens, fun _ none => by cases none⟩
  refine triple_bind attempted (fun o => ?_)
  cases o with
  | none => exact triple_pure (fun _ _ _ none => by cases none)
  | some name =>
    rintro w ⟨tokens, drawn⟩ o w' ends u rfl
    obtain ⟨⟨i, rfl⟩, free⟩ := drawn name rfl
    have beside := beside_of_fresh (fresh i) free tokens
    have placed : ∀ sam, some (c.names i) = some sam →
        dnEq ("cn=" ++ sam ++ "," ++ javaString (some cfg.targetbase)) (ownDn cfg (c.names i)) =
          true := by
      rintro _ ⟨⟩
      exact dnEq_refl _
    obtain ⟨kept, named⟩ :=
      triple_upholds (within_createAdUser beside_confines c au rfl placed) w beside (some u) w' ends
    exact ⟨c.names i, fresh i, kept, named u rfl⟩

theorem triple_gated {P : World → Prop} {gs : List Gate} (tokens : ∀ g ∈ gs, g.Steps OnlyTokens)
    (refusal : ∀ g ∈ gs, g.Returns Refusal) (stable : ∀ {w w'}, OnlyTokens w w' → P w → P w')
    {f : Option Page → Run Page} (stopped : ∀ page, f (some page) = pure page)
    (passed : Triple P (f none) (Opens cfg start)) :
    Triple P (inOrder gs >>= f) (Opens cfg start) := by
  have gates : Triple P (inOrder gs) (fun o w => P w ∧ Refusal o) := by
    intro w pre o w' ends
    have moved := onlyTokens_run (steps_inOrder tokens) w
    rw [ends] at moved
    exact ⟨stable moved pre, (refusal_inOrder refusal).run (congrArg Prod.fst ends)⟩
  refine triple_bind gates (fun o => ?_)
  cases o with
  | none => exact passed.weaken (fun _ pre => pre.1) (fun _ _ opens => opens)
  | some page =>
    rw [stopped]
    refine triple_pure (fun w pre => ?_)
    obtain ⟨message, rfl⟩ := pre.2 page rfl
    exact opens_error

theorem triple_deref {α : Type} {P : World → Prop} (o : Option α) :
    Triple P (deref o) (fun _ w => P w) := by
  cases o with
  | none => exact triple_throwing _
  | some x => exact triple_pure (fun _ pre => pre)

theorem triple_withAccount {c : CreateCalls} (fresh : ∀ i, Fresh cfg start (c.names i))
    (au : Option AuthUser) {gs : List Gate} (tokens : ∀ g ∈ gs, g.Steps OnlyTokens)
    (refusal : ∀ g ∈ gs, g.Returns Refusal) {body : ADUser → Run Page}
    (hbody : ∀ name u, Fresh cfg start name → u.sAMAccountName = some name →
      Triple (Beside cfg start name [] []) (body u) (Opens cfg start)) :
    Triple (OnlyTokens start) (withAccount cfg c au (inOrder gs) body) (Opens cfg start) := by
  refine triple_gated tokens refusal (fun h before => before.trans h) (fun _ => rfl) ?_
  refine triple_bind (triple_createRandomizedADUser fresh au) (fun o => ?_)
  cases o with
  | none =>
    rintro w _ page w' ⟨⟩
  | some u =>
    intro w made page w' ends
    obtain ⟨name, new, beside, named⟩ := made u rfl
    exact hbody name u new named w beside page w' ends

theorem triple_handleUserSessionPost {c : UserCalls} (fresh : ∀ i, Fresh cfg start (c.create.names i))
    (req : Request) (form : UserSessionRequest) :
    Triple (OnlyTokens start) (handleUserSessionPost cfg c req form) (Opens cfg start) := by
  refine triple_withAccount fresh _ (onlyTokens_userGates c req form) (refusal_userGates c req form)
    (fun name u new named => ?_)
  refine triple_bind (triple_deref _) (fun displayName => ?_)
  refine triple_bind (triple_deref _) (fun target => ?_)
  refine triple_bind (triple_openSession _ (s := newSession _ _ _ u _ _ _ _) named _)
    (fun s w opened => ?_)
  obtain ⟨row, numbered, beside⟩ := opened
  refine triple_bind (triple_upholds (within_userGroups beside_confines _ _ _ named _))
    (fun o w' grouped => ?_) w beside
  exact triple_finishSession new _ _ numbered grouped.2 _ w' grouped.1

/-- The two admin handlers end alike: groups, and the rest of the session unless a page is answered. -/
theorem triple_grouped {name : String} (new : Fresh cfg start name) {row : PortRow}
    {s : ProconsulSession} (numbered : Numbered start name row s) {groups : Run (Page ⊕ Option ADUser)}
    (named : Within (Beside cfg start name [row] []) (NamedOr (· = some name)) groups)
    (pages : groups.Returns RefusalOr)
    (c : FinishCalls) (size : Image) (addr : Option String) :
    Triple (Beside cfg start name [row] []) (do
      match ← groups with
      | .inl page => return page
      | .inr o => finishSession cfg c size s o addr : Run Page) (Opens cfg start) := by
  have both : Triple (Beside cfg start name [row] []) groups (fun r w =>
      (Beside cfg start name [row] [] w ∧ NamedOr (· = some name) r) ∧
        RefusalOr r) :=
    fun w beside r w' ends =>
      ⟨triple_upholds named w beside r w' ends, pages.run (congrArg Prod.fst ends)⟩
  refine triple_bind both (fun r w found => ?_)
  obtain ⟨⟨beside, known⟩, error⟩ := found
  cases r with
  | inl page =>
    obtain ⟨message, rfl⟩ := error page rfl
    exact triple_pure (fun _ _ => opens_error) w beside
  | inr o => exact triple_finishSession new _ _ numbered (known o rfl) _ w beside

theorem refusal_undone {c : DeleteCalls} {u : ADUser} {au : AuthUser} {addr : Option String}
    (message : String) : (do
      let _ ← deleteAdUser cfg c u (some au) addr
      return .inl (.authzError message) : Run (Page ⊕ Option ADUser)).Returns RefusalOr := by
  refine Prog.returns_bind (Prog.returns_any _) (fun _ _ => Prog.returns_pure ?_)
  rintro _ ⟨⟩
  exact ⟨message, rfl⟩

theorem refusal_domainGroups (c : DomainCalls) (au : AuthUser) (host : String) (u : ADUser)
    (addr : Option String) : (domainGroups cfg c au host u addr).Returns RefusalOr := by
  refine Prog.returns_bind (Prog.returns_any _) (fun granted _ => ?_)
  cases granted with
  | false => exact refusal_undone _
  | true =>
    refine Prog.returns_bind (Prog.returns_any _) (fun added _ => ?_)
    cases added with
    | none => exact refusal_undone _
    | some u =>
      refine Prog.returns_bind (Prog.returns_any _) (fun _ _ => Prog.returns_pure ?_)
      rintro _ ⟨⟩

theorem refusal_orUndo {c : DeleteCalls} {au : AuthUser} {addr : Option String} {before : ADUser}
    {message : String} {add : Run (Option ADUser)} {next : ADUser → Run (Page ⊕ Option ADUser)}
    (hnext : ∀ u, (next u).Returns RefusalOr) :
    (orUndo cfg c au addr before message add next).Returns RefusalOr := by
  refine Prog.returns_bind (Prog.returns_any _) (fun added _ => ?_)
  cases added with
  | none => exact refusal_undone _
  | some u => exact hnext u

theorem refusal_delegatedGroups (c : DelegatedCalls) (au : AuthUser) (host : String)
    (roleGroup : Option String) (u : ADUser) (addr : Option String) :
    (delegatedGroups cfg c au host roleGroup u addr).Returns RefusalOr := by
  refine Prog.returns_bind (Prog.returns_any _) (fun _ _ => ?_)
  refine refusal_orUndo (fun _ => refusal_orUndo (fun _ => refusal_orUndo (fun _ => ?_)))
  refine Prog.returns_bind (Prog.returns_any _) (fun _ _ => Prog.returns_pure ?_)
  rintro _ ⟨⟩

theorem triple_handleDomainAdminPost {c : DomainCalls}
    (fresh : ∀ i, Fresh cfg start (c.create.names i)) (req : Request) (form : DomainAdminRequest) :
    Triple (OnlyTokens start) (handleDomainAdminPost cfg c req form) (Opens cfg start) := by
  refine triple_bind (triple_deref _) (fun target => ?_)
  refine triple_bind (triple_deref _) (fun displayName => ?_)
  refine triple_withAccount fresh _ (onlyTokens_domainGates c req form _)
    (refusal_domainGates c req form _) (fun name u new named => ?_)
  refine triple_bind (triple_openSession _ (s := newSession _ _ _ u _ _ _ _) named _)
    (fun s w opened => ?_)
  obtain ⟨row, numbered, beside⟩ := opened
  exact triple_grouped new numbered (within_domainGroups beside_confines _ _ _ named _)
    (refusal_domainGroups _ _ _ _ _) _ _ _ w beside

theorem triple_handleDelegatedAdminPost {c : DelegatedCalls}
    (fresh : ∀ i, Fresh cfg start (c.create.names i)) (req : Request) (form : DelegatedAdminRequest) :
    Triple (OnlyTokens start) (handleDelegatedAdminPost cfg c req form) (Opens cfg start) := by
  refine triple_bind (triple_deref _) (fun host => ?_)
  refine triple_bind (triple_deref _) (fun displayName => ?_)
  refine triple_withAccount fresh _ (onlyTokens_delegatedGates c req form _)
    (refusal_delegatedGates c req form _) (fun name u new named => ?_)
  refine triple_bind (triple_openSession _ (s := newSession _ _ _ u _ _ _ _) named _)
    (fun s w opened => ?_)
  obtain ⟨row, numbered, beside⟩ := opened
  exact triple_grouped new numbered (within_delegatedGroups beside_confines _ _ _ _ named _)
    (refusal_delegatedGroups _ _ _ _ _ _) _ _ _ w beside

/-! ### Taking a session up again -/

/-- The request asks for the session of this row. -/
def requested (req : Request) (form : ReconnectRequest) (r : SessionRow) : Bool :=
  sqlEq r.owner req.authUser.uid && r.fqdn.any (fun f => form.targetFQDN.any (equalsIgnoreCase f))

theorem triple_resume {name : String} (new : Fresh cfg start name) (c : ReconnectCalls) (size : Image)
    {s : ProconsulSession} (named : s.targetUser.sAMAccountName = some name) (addr : Option String) :
    Triple (Beside cfg start name [] []) (resume cfg c size s addr) (Opens cfg start) := by
  refine triple_bind (triple_getVncPortNumber _ _) (fun port w taken => ?_)
  obtain ⟨row, rfl, free, beside⟩ := taken
  refine triple_bind (triple_upholds (within_setRandomADPassword beside_confines _ named))
    (fun u w' changed => ?_) w beside
  obtain ⟨beside', sam⟩ := changed
  let again : ProconsulSession := { s with
    novncPort := row.portnum
    status := .starting
    startTime := some c.startTime
    targetUser := u
    vncPassword := some c.vncPassword }
  have written : Within (Beside cfg start name [row] []) (fun _ => True)
      (writeSessionToDB c.write again addr) := within_writeSessionToDB beside_confines _ sam _
  refine triple_bind (triple_upholds written) (fun _ w'' kept => ?_) w' beside'
  exact triple_launch new c.launch size (s := again) ⟨sam, rfl, free⟩ addr w'' kept.1

theorem triple_handleReconnectPost {name : String} (new : Fresh cfg start name) (c : ReconnectCalls)
    (req : Request) (form : ReconnectRequest)
    (other : ∀ r ∈ start.db.sessions, requested req form r = false) :
    Triple (Beside cfg start name [] []) (handleReconnectPost cfg c req form) (Opens cfg start) := by
  refine triple_gated (onlyTokens_reconnectGates c req form) (refusal_reconnectGates c req form)
    beside_confines.tokens (fun _ => rfl) ?_
  have read : Triple (Beside cfg start name [] []) (getAvailableSessions cfg c.sessions req.authUser)
      (fun psa w => Beside cfg start name [] [] w ∧
        ∀ s ∈ psa, Reconnection.ReadFrom w.db.sessions req.authUser s) := by
    intro w beside psa w' ends
    have unread := Prog.run_unchanged (reads_getAvailableSessions cfg c.sessions req.authUser) w
    rw [ends] at unread
    obtain rfl : w' = w := unread
    exact ⟨beside, Reconnection.getAvailableSessions_read ends⟩
  refine triple_bind read (fun psa w found => ?_)
  obtain ⟨beside, stored⟩ := found
  cases chosen : chooseSession req.authUser form.targetFQDN psa with
  | none => exact triple_pure (fun _ _ => opens_error) w beside
  | some s =>
    obtain ⟨listed, wanted⟩ := List.mem_filter.mp (List.mem_of_getLast? chosen)
    obtain ⟨r, there, owned, -, host, sam⟩ := stored s listed
    have asked : requested req form r = true := by
      rw [matchesRequest, Bool.and_eq_true, host] at wanted
      rw [requested, owned, wanted.2, Bool.and_true]
    have named : s.targetUser.sAMAccountName = some name := by
      rw [sam]
      refine beside.own r there ?_
      by_contra apart
      have before : r ∈ start.db.sessions := by
        rw [← beside.sessions]
        exact List.mem_filter.mpr ⟨there, by simpa using apart⟩
      rw [other r before] at asked
      cases asked
    exact triple_resume new c _ named _ w beside

end Requests

/-! ## The end of a container -/

/-- The newest container stops, and its script runs, or what bash makes of it if the texts in it
are not literal. -/
def leave (other : Run Unit) (adbase : String) (line : Container → String) (now : Int)
    (retval : Option Nat) (w : World) : World :=
  match w.engine.containers.getLast? with
  | none => w
  | some c =>
    ((execution other adbase (.first now line) { c with status := .exited retval }).run
      { w with engine := w.engine.setStatus c.id (.exited retval) }).2

/-- The texts in the script of the newest container are what they are, and `docker top` prints its
user for no other container. -/
def Unmistaken (adbase : String) (line : Container → String) (w : World) : Prop :=
  ∀ c, w.engine.containers.getLast? = some c → literal adbase c = true ∧
    ∀ d ∈ w.engine.containers, d.id ≠ c.id → ¬ c.winuser.toList <:+: (line d).toList

section Scripts

theorem run_script (adbase : String) (calls : ScriptCalls) (c : Container) (w : World) :
    ((script adbase calls c).run w).2 = removeContainer c
      (if logsOut calls c w then
        endAdmins calls.now c (deleteAccount adbase c
          (deletePort c (deleteSessions c (auditLine "logout" c w))))
      else deletePort c (disconnectSessions c (auditLine "disconnect" c w))) := by
  rw [script, Prog.run_bind, Prog.run_atom]
  dsimp only
  rw [Prog.run_bind_ok (run_reconnected _ c.winuser w), logsOut]
  generalize isLogout _ = out
  cases out <;> rfl

/-- The newest container has an id of its own. -/
theorem others_last {e : Engine} {cs : List Container} {c : Container}
    (last : e.containers = cs ++ [c]) : ∀ d ∈ cs, (d.id == c.id) = false := by
  have ids := e.distinct
  rw [last, List.map_append, List.map_singleton, ← List.concat_eq_append, List.nodup_concat] at ids
  intro d hd
  exact beq_false_of_ne (fun eq => ids.1 (eq ▸ List.mem_map_of_mem hd))

theorem change_last {e : Engine} {cs : List Container} {c : Container}
    (last : e.containers = cs ++ [c]) (f : Container → Container) (same : ∀ c, (f c).id = c.id) :
    (e.change c.id f same).containers = cs ++ [f c] := by
  change updateWhere _ f e.containers = _
  rw [last, updateWhere, List.map_append, ← updateWhere, updateWhere_eq_self (others_last last)]
  simp

theorem remove_last {e : Engine} {cs : List Container} {c : Container}
    (last : e.containers = cs ++ [c]) : (e.remove c.id).containers = cs := by
  change deleteWhere _ e.containers = _
  rw [last, deleteWhere, List.filter_append,
    List.filter_eq_self.mpr (fun d hd => by simp [others_last last d hd])]
  simp

variable {cfg : Config} {start : World} {name : String}

theorem logsOut_iff {row : PortRow} {c : Container} {w : World} (drawn : plainName name = true)
    (beside : Beside cfg start name [row] [c] w) {retval : Option Nat}
    (stopped : c.status = .exited retval) (user : c.winuser = name) {line : Container → String}
    (hidden : ∀ d ∈ start.engine.containers, ¬ name.toList <:+: (line d).toList) (now : Int) :
    logsOut (.first now line) c w = isLogout retval := by
  have unseen : w.engine.containers.any (showsUser line c.winuser) = false := by
    rw [beside.begun, List.any_append, Bool.or_eq_false_iff, List.any_eq_false]
    refine ⟨fun d hd => ?_, ?_⟩
    · rw [showsUser, user, Bool.and_eq_true]
      exact fun shown => hidden d hd (infix_of_grep drawn shown.2)
    · simp [showsUser, stopped]
  have found : w.engine.find c.id = some c := Engine.find_of_mem (by rw [beside.begun]; simp)
  rw [logsOut, ScriptCalls.first, unseen, found, Option.bind_some, Cleanup.retval, stopped]
  cases retval <;> rfl

theorem ports_deletePort {row : PortRow} {c : Container} {w : World}
    (taken : w.db.ports = start.db.ports ++ [row]) (display : c.display = row.portnum)
    (free : ∀ r ∈ start.db.ports, r.portnum ≠ row.portnum) :
    (deletePort c w).db.ports = start.db.ports ++ [] := by
  change deleteWhere _ w.db.ports = _
  rw [taken, deleteWhere, List.filter_append, List.append_nil,
    List.filter_eq_self.mpr (fun r hr => by simp [display, free r hr])]
  simp [display]

theorem containers_removeContainer {c : Container} {w : World} {retval : Option Nat}
    (begun : w.engine.containers = start.engine.containers ++ [c])
    (stopped : c.status = .exited retval) :
    (removeContainer c w).engine.containers = start.engine.containers ++ [] := by
  have found : w.engine.find c.id = some c := Engine.find_of_mem (by rw [begun]; simp)
  rw [removeContainer, found]
  simpa [stopped] using remove_last begun

/-- Without port and container what is left is what the session keeps while it is disconnected. -/
theorem Beside.stopped {row : PortRow} {c : Container} {w : World}
    (beside : Beside cfg start name [row] [c] w) {retval : Option Nat}
    (stopped : c.status = .exited retval) (display : c.display = row.portnum)
    (free : ∀ r ∈ start.db.ports, r.portnum ≠ row.portnum)
    (user : c.winuser = name) (event : String) : Beside cfg start name [] []
      (removeContainer c (deletePort c (disconnectSessions c (auditLine event c w)))) where
  accounts := beside.accounts
  directory := beside.directory
  alone := beside.alone
  sessions := by
    refine Eq.trans (filter_updateWhere_others (fun r mine => ?_) (fun _ => rfl)) beside.sessions
    rw [ofUser, user] at mine
    rw [mine, Bool.not_true]
  own := own_updateWhere (f := fun r => { r with
    running := false, connected := false, status := some "disconnected" }) beside.own (fun _ => rfl)
  admins := beside.admins
  taken := ports_deletePort (w := disconnectSessions c (auditLine event c w)) beside.taken display free
  rest := beside.rest
  begun := containers_removeContainer
    (w := deletePort c (disconnectSessions c (auditLine event c w))) beside.begun stopped

/-- Everything is as it was. The rights of the name have ended, if it had any. -/
structure AsBefore (start : World) (name : String) (now : Int) (w : World) : Prop where
  directory : w.ad = start.ad
  ports : w.db.ports = start.db.ports
  sessions : w.db.sessions = start.db.sessions
  containers : w.engine.containers = start.engine.containers
  rest : remainder w.db = remainder start.db
  admins : w.db.activeDomainAdmins.filter (fun r => !sqlEq r.samaccountname (some name)) =
    start.db.activeDomainAdmins.filter (fun r => !sqlEq r.samaccountname (some name))
  ended : ∀ r ∈ w.db.activeDomainAdmins, sqlEq r.samaccountname (some name) = true →
    r.disabletime = some now

theorem Beside.loggedOut {row : PortRow} {c : Container} {w : World}
    (beside : Beside cfg start name [row] [c] w) {retval : Option Nat}
    (stopped : c.status = .exited retval) (display : c.display = row.portnum)
    (free : ∀ r ∈ start.db.ports, r.portnum ≠ row.portnum)
    (user : c.winuser = name) (unbroken : isWord (userDn cfg.targetbase c) = true) (now : Int) :
    AsBefore start name now
      (removeContainer c (endAdmins now c (deleteAccount cfg.targetbase c
        (deletePort c (deleteSessions c (auditLine "logout" c w)))))) where
  directory := by
    have accounts : ldapdelete (words (userDn cfg.targetbase c)) w.ad.accounts =
        start.ad.accounts := by
      rw [ldapdelete_userDn unbroken]
      simp only [userDn, dnEq_userDn, user]
      exact beside.accounts
    exact (congrArg (fun rows => ({ w.ad with accounts := rows } : Directory)) accounts).trans
      beside.directory
  ports := (ports_deletePort (w := deleteSessions c (auditLine "logout" c w)) beside.taken display
    free).trans (List.append_nil _)
  sessions := by
    change deleteWhere (ofUser c) w.db.sessions = start.db.sessions
    rw [← beside.sessions, deleteWhere]
    simp only [ofUser, user]
  containers := (containers_removeContainer (w := endAdmins now c (deleteAccount cfg.targetbase c
    (deletePort c (deleteSessions c (auditLine "logout" c w))))) beside.begun stopped).trans
      (List.append_nil _)
  rest := beside.rest
  admins := by
    refine Eq.trans (filter_updateWhere_others (fun r mine => ?_) (fun _ => rfl)) beside.admins
    rw [user] at mine
    rw [mine, Bool.not_true]
  ended := by
    intro r hr mine
    obtain ⟨r₀, -, rfl⟩ := List.mem_map.mp hr
    rw [user] at mine ⊢
    split at mine
    · rename_i same
      rw [if_pos same]
    · rename_i other
      exact absurd mine other

end Scripts

/-! ## The life of a session -/

/-- The calls that draw a name, for the handlers that do. -/
def drawing : SessionPost → Option CreateCalls
  | .usersession c _ => some c.create
  | .domainadmin c _ => some c.create
  | .deladmin c _ => some c.create
  | _ => none

/-- The worlds in which a session that began in `start` is connected. Its client appears in its
container; the container may stop without a logout, and a later request take the session up again,
if the user has no other session on that host. -/
inductive Lives (other : Run Unit) (cfg : Config) (start : World) : World → Prop where
  | opened {post : SessionPost} {c : CreateCalls} {req : Request} {url : String} {w : World}
      (draws : drawing post = some c) (fresh : ∀ i, Fresh cfg start (c.names i))
      (answered : (post.handle cfg req).run start = (.ok (.redirect url), w)) : Lives other cfg start w
  | appears {w : World} {c : Container} (lives : Lives other cfg start w)
      (newest : w.engine.containers.getLast? = some c) :
      Lives other cfg start { w with engine := w.engine.launch c.id }
  | resumed {w w' : World} {line : Container → String} {now : Int} {retval : Option Nat}
      {c : ReconnectCalls} {req : Request} {form : ReconnectRequest} {url : String}
      (lives : Lives other cfg start w) (unmistaken : Unmistaken cfg.targetbase line w)
      (remains : isLogout retval = false)
      (only : ∀ r ∈ start.db.sessions, requested req form r = false)
      (answered : (handleReconnectPost cfg c req form).run
        (leave other cfg.targetbase line now retval w) = (.ok (.redirect url), w')) :
      Lives other cfg start w'

section Lives

variable {other : Run Unit} {cfg : Config} {start w : World}

theorem opens_opened {post : SessionPost} {c : CreateCalls} (draws : drawing post = some c)
    (fresh : ∀ i, Fresh cfg start (c.names i)) (req : Request) :
    Triple (OnlyTokens start) (post.handle cfg req) (Opens cfg start) := by
  cases post with
  | usersession calls form =>
    cases draws
    exact triple_handleUserSessionPost fresh req form
  | domainadmin calls form =>
    cases draws
    exact triple_handleDomainAdminPost fresh req form
  | deladmin calls form =>
    cases draws
    exact triple_handleDelegatedAdminPost fresh req form
  | staticsession calls form => cases draws
  | reconnect calls form => cases draws

/-- The script of the newest container, in the world in which it has stopped. -/
theorem Connected.leave_eq {name : String} (connected : Connected cfg start name w)
    {line : Container → String} (unmistaken : Unmistaken cfg.targetbase line w) (now : Int)
    (retval : Option Nat) :
    ∃ row c, w.engine.containers.getLast? = some c ∧ c.winuser = name ∧
      Beside cfg start name [row] [{ c with status := .exited retval }]
        { w with engine := w.engine.setStatus c.id (.exited retval) } ∧
      c.display = row.portnum ∧ (∀ r ∈ start.db.ports, r.portnum ≠ row.portnum) ∧
      (∀ d ∈ start.engine.containers, ¬ name.toList <:+: (line d).toList) ∧
      leave other cfg.targetbase line now retval w =
        ((script cfg.targetbase (.first now line) { c with status := .exited retval }).run
          { w with engine := w.engine.setStatus c.id (.exited retval) }).2 := by
  obtain ⟨row, c, beside, user, display, free⟩ := connected.beside
  have newest : w.engine.containers.getLast? = some c := by
    rw [beside.begun, List.getLast?_concat]
  obtain ⟨plain, hidden⟩ := unmistaken c newest
  refine ⟨row, c, newest, user, { beside with begun := ?_ }, display, free, fun d hd => ?_, ?_⟩
  · exact change_last beside.begun (fun c => { c with status := .exited retval }) (fun _ => rfl)
  · rw [← user]
    exact hidden d (by rw [beside.begun]; exact List.mem_append_left _ hd)
      (beq_eq_false_iff_ne.mp (others_last beside.begun d hd))
  · have literally : literal cfg.targetbase { c with status := .exited retval } = true := plain
    rw [leave, newest]
    dsimp only
    rw [execution, if_pos literally]

theorem Connected.parts {name : String} (connected : Connected cfg start name w)
    {line : Container → String} (unmistaken : Unmistaken cfg.targetbase line w) (now : Int)
    {retval : Option Nat} (remains : isLogout retval = false) :
    Beside cfg start name [] [] (leave other cfg.targetbase line now retval w) := by
  obtain ⟨row, c, newest, user, stopped, display, free, hidden, ends⟩ :=
    connected.leave_eq unmistaken now retval
  rw [ends, run_script, logsOut_iff connected.fresh.drawn stopped rfl user hidden now, remains]
  exact stopped.stopped rfl display free user _

theorem lives_connected (lives : Lives other cfg start w) : ∃ name, Connected cfg start name w := by
  induction lives with
  | opened draws fresh answered =>
    exact opens_opened draws fresh _ start (.refl start) _ _ answered _ rfl
  | @appears w d _ newest ih =>
    obtain ⟨name, fresh, row, c, beside, user, display, free⟩ := ih
    rw [beside.begun, List.getLast?_concat] at newest
    obtain rfl : c = d := Option.some.inj newest
    refine ⟨name, fresh, row, { c with launched := true }, { beside with begun := ?_ }, user, display,
      free⟩
    exact change_last beside.begun (fun c => { c with launched := true }) (fun _ => rfl)
  | resumed _ unmistaken remains only answered ih =>
    obtain ⟨name, connected⟩ := ih
    exact triple_handleReconnectPost connected.fresh _ _ _ only _
      (connected.parts unmistaken _ remains) _ _ answered _ rfl

/-- However often a session has been left and taken up again: with a logout it is gone, and all it
had taken is given back. -/
theorem session_given_back (unbroken : isWord cfg.targetbase = true) (lives : Lives other cfg start w)
    {line : Container → String} (unmistaken : Unmistaken cfg.targetbase line w) (now : Int)
    {retval : Option Nat} (logout : isLogout retval = true) :
    ∃ c, w.engine.containers.getLast? = some c ∧
      AsBefore start c.winuser now (leave other cfg.targetbase line now retval w) := by
  obtain ⟨name, connected⟩ := lives_connected lives
  obtain ⟨row, c, newest, user, stopped, display, free, hidden, ends⟩ :=
    connected.leave_eq unmistaken now retval
  subst user
  refine ⟨c, newest, ?_⟩
  rw [ends, run_script, logsOut_iff connected.fresh.drawn stopped rfl rfl hidden now, logout]
  exact stopped.loggedOut rfl display free rfl (isWord_userDn connected.fresh.drawn unbroken) now

/-- Ann has an account, a row, a port and a running container on Pat's site. -/
def busySite : World where
  clock := sampleSite.clock
  db := { sampleSite.db with
    ports := [⟨2, some "host2.dom.ain", some "xy9ann", some "ann@dom.ain"⟩]
    sessions := [⟨some "host2.dom.ain", some "ann@dom.ain", some "host2", some 2, some "vncann", true,
      some "xy9ann", true, none, some "connected", some "user", none, none, none⟩] }
  ad := ⟨[⟨"xy9ann", "cn=xy9ann,ou=proconsul,dc=dom,dc=ain", some "pw", 512, [], none, none⟩],
    [sampleConfig.defgroupdn], []⟩
  engine := (Engine.empty.create (fun id => { patContainer with
    id := id, winuser := "xy9ann", winpass := "pw", rhostname := "host2.dom.ain" })).launch 0
  scripts := []
  trace := []

/-- Pat opens a session, and her connection breaks. She comes back to it. -/
def patOpened : World := (((patPosts true).handle sampleConfig sampleRequest).run busySite).2

def patCalls : ReconnectCalls := .noOutage "secret2" "vncsecret2"

def patResumed : World :=
  ((handleReconnectPost sampleConfig patCalls sampleRequest sampleReconnect).run
    (leave (pure ()) sampleConfig.targetbase topLine 5 (some 1) patOpened)).2

theorem pat_given_back : ∃ c, patResumed.engine.containers.getLast? = some c ∧
    AsBefore busySite c.winuser 7
      (leave (pure ()) sampleConfig.targetbase topLine 7 (some 0) patResumed) := by
  have fresh : Fresh sampleConfig busySite "ab3de6fgh-eas" := by
    constructor <;> decide +kernel
  have posted : (((patPosts true).handle sampleConfig sampleRequest).run busySite).1 = .ok (.redirect
      "https://pc.dom.ain/vnc.html?encrypt=1&autoconnect=1&port=5905&password=vncsecret") := by
    decide +kernel
  have opened : Lives (pure ()) sampleConfig busySite patOpened :=
    .opened (show drawing (patPosts true) = some _ from rfl) (fun _ => fresh) (Prod.ext posted rfl)
  have reconnected : ((handleReconnectPost sampleConfig patCalls sampleRequest sampleReconnect).run
      (leave (pure ()) sampleConfig.targetbase topLine 5 (some 1) patOpened)).1 = .ok (.redirect
      "https://pc.dom.ain/vnc.html?encrypt=1&autoconnect=1&port=5905&password=vncsecret2") := by
    decide +kernel
  have answered : (handleReconnectPost sampleConfig patCalls sampleRequest sampleReconnect).run
      (leave (pure ()) sampleConfig.targetbase topLine 5 (some 1) patOpened) = (_, patResumed) :=
    Prod.ext reconnected (by rw [patResumed])
  have unmistaken : ∀ w : World, w.engine.containers.getLast?.all (fun c =>
      literal sampleConfig.targetbase c && w.engine.containers.all (fun d =>
        d.id == c.id || !decide (c.winuser.toList <:+: (topLine d).toList))) = true →
      Unmistaken sampleConfig.targetbase topLine w := by
    intro w all c newest
    rw [newest, Option.all_some, Bool.and_eq_true, List.all_eq_true] at all
    refine ⟨all.1, fun d hd other => ?_⟩
    have apart := all.2 d hd
    rw [beq_false_of_ne other, Bool.false_or, Bool.not_eq_true', decide_eq_false_iff_not] at apart
    exact apart
  have lives : Lives (pure ()) sampleConfig busySite patResumed :=
    .resumed opened (unmistaken _ (by decide +kernel)) (by decide) (by decide +kernel) answered
  exact session_given_back (by decide +kernel) lives (unmistaken _ (by decide +kernel)) 7 rfl

end Lives

end GivenBack
